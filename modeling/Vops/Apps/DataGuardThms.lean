import Vops.Apps.AppRollback
import Vops.HostOps.OpsLine

/-!
# Rolling back a first install

* `PlainName` — a name that a line of the probe can hold.
* `probeSection_header` — what the probe script prints is read from its second line on.
* `probeSection_complete`, `probeSection_truncated` — of plain names, all are read back from a complete
  output, and nothing from one that is cut off.
* `named_plain` — only plain names are ever read.
* `RollbackSafe`, `rollbackSafe_iff` — the rollback names nothing that was there before exactly when the
  planned names that were there are plain.
-/

namespace Vops.Apps

open AuthorizedKeys (Text trim infix_trim last_of_trim trim_trim trim_eq_self trim_eq_nil_or_head)
open TextSearch

/-! ## Trimming -/

/-- A text whose last character is not white space does not vanish. -/
theorem trim_ne_nil {cs : Text} {c : Char} (h : c ∈ cs.getLast?) (hc : isJsSpace c = false) :
    trim cs ≠ [] := by
  intro hnil
  have hall : ∀ x ∈ cs.dropWhile isJsSpace, isJsSpace x = true :=
    List.rdropWhile_eq_nil_iff.mp hnil
  cases hdrop : cs.dropWhile isJsSpace with
  | nil =>
      have hspace := List.dropWhile_eq_nil_iff.mp hdrop c (List.mem_of_getLast? h)
      cases hc.symm.trans hspace
  | cons d rest =>
      have hfirst := List.head_dropWhile_not isJsSpace (by rw [hdrop]; exact List.cons_ne_nil _ _)
      have hd := hall d (by rw [hdrop]; exact List.mem_cons_self)
      simp [hdrop, hd] at hfirst

/-! ## Names -/

/-- A name that stands on a line of its own behind its kind, and is read back from it. -/
structure PlainName (name : String) : Prop where
  nonempty : name.toList ≠ []
  newline : '\n' ∉ name.toList
  mark : ¬"@@done".toList <:+: name.toList
  trimmed : trim name.toList = name.toList

/-- The marks of the probe. -/
def doneMark : Text := "@@done".toList

variable {s : HostState} {volumes secrets : List String} {name kind : String} {lines : List Text}

/-- The words in front of the names. -/
theorem kind_plain (hkind : kind = "volume" ∨ kind = "secret") :
    '\n' ∉ kind.toList ∧ '@' ∉ kind.toList ++ [' '] ∧
      (∀ c ∈ (kind.toList ++ [' ']).head?, isJsSpace c = false) := by
  rcases hkind with rfl | rfl
  · refine ⟨by decide, by decide, fun c hc => ?_⟩
    obtain rfl := Option.some.inj hc
    rfl
  · refine ⟨by decide, by decide, fun c hc => ?_⟩
    obtain rfl := Option.some.inj hc
    rfl

theorem foundLine_newline (hkind : kind = "volume" ∨ kind = "secret") (hname : PlainName name) :
    '\n' ∉ foundLine kind name := by
  have hspace : ('\n' : Char) ≠ ' ' := by decide
  simp [foundLine, (kind_plain hkind).1, hspace, hname.newline]

theorem foundLine_mark (hkind : kind = "volume" ∨ kind = "secret") (hname : PlainName name) :
    ¬doneMark <:+: foundLine kind name := by
  intro h
  have hsplit : foundLine kind name = (kind.toList ++ [' ']) ++ name.toList := by simp [foundLine]
  rw [hsplit] at h
  exact hname.mark (infix_of_append (kind_plain hkind).2.1 h)

theorem trim_foundLine (hkind : kind = "volume" ∨ kind = "secret") (hname : PlainName name) :
    trim (foundLine kind name) = foundLine kind name := by
  have hsplit : foundLine kind name = (kind.toList ++ [' ']) ++ name.toList := by simp [foundLine]
  rw [hsplit]
  refine trim_eq_self ?_ ?_
  · rw [List.head?_append_of_ne_nil _ (by simp)]
    exact (kind_plain hkind).2.2
  · rw [List.getLast?_append_of_ne_nil _ hname.nonempty, ← hname.trimmed]
    exact fun c hc => last_of_trim hc

/-- Everything that exists has a plain name. -/
def FoundPlain (s : HostState) (volumes secrets : List String) : Prop :=
  (∀ v ∈ volumes, v ∈ s.volumes → PlainName v) ∧ ∀ x ∈ secrets, x ∈ s.secrets → PlainName x

/-- The lines of plain names. -/
theorem mem_foundLines (h : FoundPlain s volumes secrets) {l : Text}
    (hl : l ∈ foundLines s volumes secrets) : ∃ kind name, (kind = "volume" ∨ kind = "secret") ∧
      PlainName name ∧ l = foundLine kind name := by
  rcases List.mem_append.mp hl with hl | hl
  · obtain ⟨v, hv, rfl⟩ := List.mem_map.mp hl
    obtain ⟨hmem, hin⟩ := List.mem_filter.mp hv
    exact ⟨_, v, .inl rfl, h.1 v hmem (of_decide_eq_true hin), rfl⟩
  · obtain ⟨x, hx, rfl⟩ := List.mem_map.mp hl
    obtain ⟨hmem, hin⟩ := List.mem_filter.mp hx
    exact ⟨_, x, .inr rfl, h.2 x hmem (of_decide_eq_true hin), rfl⟩

/-! ## Reading the output -/

/-- The first line of the output. -/
def header : Text := "@@existing\n".toList

/-- What the probe prints behind its first line. -/
theorem probeOutput_eq (s : HostState) (volumes secrets : List String) :
    probeOutput s volumes secrets =
      header ++ (TextLines.join (foundLines s volumes secrets) ++ (doneMark ++ ['\n'])) := by
  have hheader : header = "@@existing".toList ++ ['\n'] := by decide
  have hdone : doneMark ++ ['\n'] = "@@done\n".toList := by decide
  rw [hdone, hheader]
  simp [probeOutput, TextLines.join]

/-- The mark does not begin in the first line. -/
theorem not_mark_in_header (rest : Text) {j : ℕ} (hj : j < header.length) :
    ¬doneMark <+: (header ++ rest).drop j := by
  intro h
  have hheader : header = TextLines.join ["@@existing".toList] := by decide
  rw [hheader] at h hj
  obtain ⟨l, hl, hin⟩ := exists_line_of_occurs (by decide) hj h
  obtain rfl := List.mem_singleton.mp hl
  exact absurd hin (by decide)

/-- The section of an output whose first line is complete. -/
theorem probeSection_header (rest : Text) : probeSection (header ++ rest) =
    (indexOf doneMark rest).map fun k =>
      ((((rest.take k).splitOn '\n').map trim).filter (· ≠ [])) := by
  have hstart : indexOf "@@existing".toList (header ++ rest) = some 0 :=
    indexOf_eq_some_iff.mpr ⟨⟨'\n' :: rest, by rfl⟩, by omega, by omega⟩
  have hnewline : indexFrom ['\n'] 0 (header ++ rest) = some 10 := by rfl
  have hdone : indexFrom doneMark (0 + 1) (header ++ rest) =
      (indexOf doneMark rest).map (· + 11) := by
    have hdrop : (header ++ rest).drop 1 = header.drop 1 ++ rest := by rfl
    unfold indexFrom
    rw [hdrop, indexOf_append, Option.map_map]
    · rfl
    · intro j hj hmark
      rw [← hdrop, List.drop_drop] at hmark
      refine not_mark_in_header rest ?_ hmark
      simp only [List.length_drop] at hj
      omega
  unfold probeSection
  rw [hstart]
  dsimp only
  rw [show "@@done".toList = doneMark from rfl, hdone, hnewline]
  cases indexOf doneMark rest with
  | none => rfl
  | some k =>
      have htake : ((header ++ rest).take (k + 11)).drop 11 = rest.take k := by
        have hlen : header.length = 11 := by decide
        rw [show k + 11 = header.length + k by omega, List.take_length_add_append, List.drop_left' hlen]
      simp only [Option.map_some, Option.getD_some]
      rw [htake]

/-- The position of the end mark, where all names are plain. -/
theorem indexOf_doneMark (h : FoundPlain s volumes secrets) (rest : Text) :
    indexOf doneMark (TextLines.join (foundLines s volumes secrets) ++ (doneMark ++ rest)) =
      some (TextLines.join (foundLines s volumes secrets)).length := by
  have hmark : indexOf doneMark (doneMark ++ rest) = some 0 :=
    indexOf_eq_some_iff.mpr ⟨List.prefix_append _ _, by omega, by omega⟩
  rw [indexOf_append, hmark]
  · simp
  · intro j hj hin
    obtain ⟨l, hl, hwithin⟩ := exists_line_of_occurs (by decide) hj hin
    obtain ⟨kind, name, hkind, hname, rfl⟩ := mem_foundLines h hl
    exact foundLine_mark hkind hname hwithin

theorem named_eq (lines : List Text) (kind : String) : named lines kind =
    (lines.filter (kind.toList ++ [' ']).isPrefixOf).map fun line =>
      String.ofList (trim (line.drop (kind.toList ++ [' ']).length)) := rfl

/-- The names of one kind are read back from the lines. -/
theorem named_foundLine (names : List String) (hnames : ∀ name ∈ names, PlainName name) :
    named (names.map (foundLine kind)) kind = names := by
  induction names with
  | nil => rfl
  | cons name names ih =>
      obtain ⟨hname, hrest⟩ := List.forall_mem_cons.mp hnames
      have hsplit : foundLine kind name = (kind.toList ++ [' ']) ++ name.toList := by simp [foundLine]
      have hpre : (kind.toList ++ [' ']).isPrefixOf (foundLine kind name) = true := by
        rw [hsplit]
        exact List.isPrefixOf_iff_prefix.mpr (List.prefix_append _ _)
      have hread : String.ofList (trim ((foundLine kind name).drop (kind.toList ++ [' ']).length)) =
          name := by
        rw [hsplit, List.drop_left, hname.trimmed, String.ofList_toList]
      have hih := ih hrest
      rw [named_eq] at hih ⊢
      rw [List.map_cons, List.filter_cons_of_pos hpre, List.map_cons, hread, hih]

theorem named_append (lines lines' : List Text) (kind : String) :
    named (lines ++ lines') kind = named lines kind ++ named lines' kind := by
  rw [named_eq, List.filter_append, List.map_append]
  rfl

/-- A line of one kind is not one of the other. -/
theorem named_foundLine_of_ne (names : List String) :
    named (names.map (foundLine "secret")) "volume" = [] ∧
      named (names.map (foundLine "volume")) "secret" = [] := by
  induction names with
  | nil => exact ⟨rfl, rfl⟩
  | cons name names ih => exact ih

/-- From a complete output of plain names, the names that exist are read. -/
theorem parseDataProbe_complete (h : FoundPlain s volumes secrets) (rest : Text) :
    parseDataProbe (header ++ (TextLines.join (foundLines s volumes secrets) ++ (doneMark ++ rest))) =
      ⟨true, volumes.filter (· ∈ s.volumes), secrets.filter (· ∈ s.secrets)⟩ := by
  have hpieces : ((((TextLines.join (foundLines s volumes secrets)).splitOn '\n').map trim).filter
      (· ≠ [])) = foundLines s volumes secrets := by
    have hline : ∀ l ∈ foundLines s volumes secrets, '\n' ∉ l ∧ trim l = l ∧ l ≠ [] := by
      intro l hl
      obtain ⟨kind, name, hkind, hname, rfl⟩ := mem_foundLines h hl
      exact ⟨foundLine_newline hkind hname, trim_foundLine hkind hname, by simp [foundLine]⟩
    rw [TextLines.splitOn_join fun l hl => (hline l hl).1, List.map_append, List.filter_append,
      List.map_congr_left fun l hl => (hline l hl).2.1, List.map_id']
    rw [List.filter_eq_self.mpr fun l hl => by simpa using (hline l hl).2.2]
    simp [trim]
  unfold parseDataProbe
  rw [probeSection_header, indexOf_doneMark h, Option.map_some, List.take_left, hpieces]
  dsimp only
  unfold foundLines
  rw [named_append, named_append, (named_foundLine_of_ne _).1, (named_foundLine_of_ne _).2,
    named_foundLine, named_foundLine, List.append_nil, List.nil_append]
  · exact fun x hx => h.2 x (List.mem_filter.mp hx).1 (of_decide_eq_true (List.mem_filter.mp hx).2)
  · exact fun v hv => h.1 v (List.mem_filter.mp hv).1 (of_decide_eq_true (List.mem_filter.mp hv).2)

/-- From an output of plain names that is cut off in front of its end, nothing is read. -/
theorem parseDataProbe_truncated (h : FoundPlain s volumes secrets) {n : ℕ}
    (hn : n + 1 < (probeOutput s volumes secrets).length) :
    parseDataProbe ((probeOutput s volumes secrets).take n) = UNPROBED_DATA := by
  have hindex : indexOf doneMark (probeOutput s volumes secrets) =
      some ((TextLines.join (foundLines s volumes secrets)).length + header.length) := by
    rw [probeOutput_eq, indexOf_append fun j hj => not_mark_in_header _ hj, indexOf_doneMark h]
    rfl
  have hlen : (probeOutput s volumes secrets).length =
      header.length + ((TextLines.join (foundLines s volumes secrets)).length + (6 + 1)) := by
    rw [probeOutput_eq, List.length_append, List.length_append]
    rfl
  have hnone : indexOf doneMark ((probeOutput s volumes secrets).take n) = none := by
    refine indexOf_take hindex (by decide) ?_
    have hmark : doneMark.length = 6 := by decide
    omega
  unfold parseDataProbe probeSection
  cases indexOf "@@existing".toList ((probeOutput s volumes secrets).take n) with
  | none => rfl
  | some start =>
      dsimp only
      have hlater : indexFrom "@@done".toList (start + 1) ((probeOutput s volumes secrets).take n) =
          none := by
        unfold indexFrom
        rw [Option.map_eq_none_iff]
        refine indexOf_eq_none_iff.mpr fun j hj hpre => ?_
        rw [List.drop_drop] at hpre
        rw [List.length_drop] at hj
        by_cases hle : start + 1 + j ≤ ((probeOutput s volumes secrets).take n).length
        · exact indexOf_eq_none_iff.mp hnone _ hle hpre
        · rw [List.drop_eq_nil_of_le (by omega)] at hpre
          exact absurd (List.prefix_nil.mp hpre) (by decide)
      rw [hlater]

/-- Only plain names are read. -/
theorem named_plain {rest : Text} {k : ℕ} (hk : indexOf doneMark rest = some k)
    (hname : name ∈ named ((((rest.take k).splitOn '\n').map trim).filter (· ≠ [])) kind) :
    PlainName name := by
  obtain ⟨l, hl, rfl⟩ := List.mem_map.mp hname
  obtain ⟨hl, hpre⟩ := List.mem_filter.mp hl
  obtain ⟨hl, -⟩ := List.mem_filter.mp hl
  obtain ⟨piece, hpiece, rfl⟩ := List.mem_map.mp hl
  obtain ⟨hin, hnewline⟩ := TextLines.infix_of_mem_splitOn hpiece
  obtain ⟨tail, htail⟩ := List.isPrefixOf_iff_prefix.mp hpre
  rw [← htail, List.drop_left]
  -- The name lies in the piece, and the piece in front of the mark.
  have hwithin : trim tail <:+: piece :=
    (infix_trim tail).trans ((List.suffix_append _ _).isInfix.trans
      (by rw [htail]; exact infix_trim piece))
  have hread : (String.ofList (trim tail)).toList = trim tail := String.toList_ofList
  refine ⟨?_, ?_, ?_, ?_⟩
  · rw [hread]
    cases htail' : tail using List.reverseRecOn with
    | nil =>
        have hlast : (' ' : Char) ∈ (trim piece).getLast? := by rw [← htail, htail']; simp
        exact absurd (last_of_trim hlast) (by decide)
    | append_singleton init c =>
        have hlast : c ∈ (trim piece).getLast? := by
          rw [← htail, htail', ← List.append_assoc]
          exact List.getLast?_concat
        exact trim_ne_nil (by simp) (last_of_trim hlast)
  · rw [hread]
    exact fun hmem => hnewline (hwithin.subset hmem)
  · rw [hread]
    intro hmark
    obtain ⟨-, -, hfirst⟩ := indexOf_eq_some_iff.mp hk
    obtain ⟨a, b, hab⟩ := (hmark.trans hwithin).trans hin
    have hlen : a.length + 6 + b.length ≤ k := by
      have hle := List.length_take_le k rest
      rw [← hab] at hle
      change (a ++ doneMark ++ b).length ≤ k at hle
      rw [List.length_append, List.length_append] at hle
      exact hle
    have hpre : doneMark <+: (rest.take k).drop a.length := by
      rw [← hab, List.append_assoc, List.drop_left]
      exact List.prefix_append _ _
    exact hfirst a.length (by omega) (prefix_drop_of_take hpre)
  · rw [hread, trim_trim]

/-! ## The rollback -/

/-- The volume that a command removes. -/
def HostCommand.removedVolume : HostCommand → Option String
  | removeVolume volume => some volume
  | _ => none

/-- The secret that a command removes. -/
def HostCommand.removedSecret : HostCommand → Option String
  | removeSecret secret => some secret
  | _ => none

/-- The volumes that a script names to remove. -/
def removedVolumes (script : HostScript) : List String := script.filterMap HostCommand.removedVolume

/-- The secrets that a script names to remove. -/
def removedSecrets (script : HostScript) : List String := script.filterMap HostCommand.removedSecret

/-- The remove script names the volumes and secrets that were listed. -/
theorem removed_buildRemoveScript (i : RemoveScriptInput) (hpurge : i.purge = true) :
    removedVolumes (buildRemoveScript i) = i.volumes ∧
      removedSecrets (buildRemoveScript i) = i.secrets := by
  constructor
  · cases hpod : truthyText i.pod <;>
      simp [removedVolumes, buildRemoveScript, hpurge, hpod, healthTeardown, List.filterMap_flatMap,
        List.filterMap_cons, Function.comp_def, HostCommand.removedVolume]
  · cases hpod : truthyText i.pod <;>
      simp [removedSecrets, buildRemoveScript, hpurge, hpod, healthTeardown, List.filterMap_flatMap,
        List.filterMap_cons, Function.comp_def, HostCommand.removedSecret]

/-- A deploy names nothing to remove. -/
theorem removed_buildDeployScript (input : DeployScriptInput) :
    removedVolumes (buildDeployScript input) = [] ∧ removedSecrets (buildDeployScript input) = [] := by
  constructor
  · simp [removedVolumes, buildDeployScript, deployFiles, heredocs, List.filterMap_cons,
      HostCommand.removedVolume]
    exact ⟨by rintro _ _ _ rfl; rfl, by rintro _ _ _ rfl; rfl⟩
  · simp [removedSecrets, buildDeployScript, deployFiles, heredocs, List.filterMap_cons,
      HostCommand.removedSecret]
    exact ⟨by rintro _ _ _ rfl; rfl, by rintro _ _ _ rfl; rfl⟩

theorem mem_ensure {value x : String} {values : List String} (h : x ∈ values) :
    x ∈ ensure value values := by
  unfold ensure
  split
  · exact h
  · exact List.mem_append_left _ h

/-- A command keeps the volumes and secrets that it does not remove. -/
theorem exec_keeps (c : HostCommand) (s : HostState) (x : String) :
    (x ∈ s.volumes → c.removedVolume ≠ some x → x ∈ (c.exec s).volumes) ∧
      (x ∈ s.secrets → c.removedSecret ≠ some x → x ∈ (c.exec s).secrets) := by
  cases c with
  | ensureSecret secret => exact ⟨fun h _ => h, fun h _ => mem_ensure h⟩
  | restartPrereq service =>
      refine ⟨fun h _ => ?_, fun h _ => h⟩
      show x ∈ ((volumeOf service).map fun v => ensure v s.volumes).getD s.volumes
      cases volumeOf service with
      | none => exact h
      | some v => exact mem_ensure h
  | removeSecret secret =>
      refine ⟨fun h _ => h, fun h hne => List.mem_filter.mpr ⟨h, ?_⟩⟩
      exact decide_eq_true fun heq => hne (congrArg some heq.symm)
  | removeVolume volume =>
      refine ⟨fun h hne => List.mem_filter.mpr ⟨h, ?_⟩, fun h _ => h⟩
      exact decide_eq_true fun heq => hne (congrArg some heq.symm)
  | _ => exact ⟨fun h _ => h, fun h _ => h⟩

/-- A script that ran to any point keeps the volumes and secrets that it does not name. -/
theorem Ran.keeps {script : HostScript} {s s' : HostState} (h : Ran script s s') (x : String) :
    (x ∈ s.volumes → x ∉ removedVolumes script → x ∈ s'.volumes) ∧
      (x ∈ s.secrets → x ∉ removedSecrets script → x ∈ s'.secrets) := by
  induction h with
  | stop script s => exact ⟨fun h _ => h, fun h _ => h⟩
  | @done c script s s' _ ih =>
      have hc := exec_keeps c s x
      refine ⟨fun hx hn => ih.1 (hc.1 hx ?_) ?_, fun hx hn => ih.2 (hc.2 hx ?_) ?_⟩
      · exact fun heq => hn (List.mem_filterMap.mpr ⟨c, List.mem_cons_self, heq⟩)
      · exact fun hmem => hn ((List.sublist_cons_self c script).filterMap _ |>.subset hmem)
      · exact fun heq => hn (List.mem_filterMap.mpr ⟨c, List.mem_cons_self, heq⟩)
      · exact fun hmem => hn ((List.sublist_cons_self c script).filterMap _ |>.subset hmem)
  | @failed c script s s' _ _ ih =>
      refine ⟨fun hx hn => ih.1 hx fun hmem => hn ?_, fun hx hn => ih.2 hx fun hmem => hn ?_⟩
      · exact (List.sublist_cons_self c script).filterMap _ |>.subset hmem
      · exact (List.sublist_cons_self c script).filterMap _ |>.subset hmem

section Rollback

variable {plan : AppPlan} {hp : HostDeployPlan} {generator : String} {registry : Option RegistryLogin}

/-- The rollback of a first install, where `n` characters of the output of the probe were received. -/
def firstRollback (plan : AppPlan) (hp : HostDeployPlan) (generator : String) (before : HostState)
    (n : ℕ) : HostScript :=
  rollbackDeploy ⟨plan, hp, none, generator,
    parseDataProbe ((probeOutput before hp.volumes hp.secretNames).take n)⟩

/-- The output of the probe was received as far as its end mark. -/
def ProbeComplete (hp : HostDeployPlan) (before : HostState) (n : ℕ) : Prop :=
  (probeOutput before hp.volumes hp.secretNames).length ≤ n + 1

/-- The rollback of a first install names nothing that was there before, and all the rest of what was
planned when the probe was complete; what was there before is there when deploy and rollback have run
to any point. -/
structure RollbackSafe (plan : AppPlan) (hp : HostDeployPlan) (generator : String)
    (registry : Option RegistryLogin) (before : HostState) : Prop where
  apart : ∀ n, (∀ v ∈ removedVolumes (firstRollback plan hp generator before n), v ∉ before.volumes) ∧
    ∀ x ∈ removedSecrets (firstRollback plan hp generator before n), x ∉ before.secrets
  exact : ∀ n, ProbeComplete hp before n →
    removedVolumes (firstRollback plan hp generator before n) = hp.volumes.filter (· ∉ before.volumes) ∧
      removedSecrets (firstRollback plan hp generator before n) =
        hp.secretNames.filter (· ∉ before.secrets)
  kept : ∀ n after final, Ran (buildDeployScript (deployInput hp generator registry)) before after →
    Ran (firstRollback plan hp generator before n) after final →
    (∀ v ∈ before.volumes, v ∈ final.volumes) ∧ ∀ x ∈ before.secrets, x ∈ final.secrets

/-- What the rollback names. -/
theorem removed_firstRollback (before : HostState) (n : ℕ) :
    (removedVolumes (firstRollback plan hp generator before n),
      removedSecrets (firstRollback plan hp generator before n)) =
      dataCreatedInRun hp.volumes hp.secretNames
        (parseDataProbe ((probeOutput before hp.volumes hp.secretNames).take n)) := by
  obtain ⟨hvolumes, hsecrets⟩ := removed_buildRemoveScript (removalInput ⟨plan, hp, none, generator,
    parseDataProbe ((probeOutput before hp.volumes hp.secretNames).take n)⟩) rfl
  exact Prod.ext hvolumes hsecrets

/-- Filtering by what exists among the planned names is filtering by what exists. -/
theorem filter_notMem_filter (names existing : List String) :
    names.filter (· ∉ names.filter (· ∈ existing)) = names.filter (· ∉ existing) := by
  refine List.filter_congr fun name hname => ?_
  simp [hname]

variable (plan generator) in
/-- Where what exists has plain names, a cut-off output names nothing, and a complete one what is
missing. -/
theorem removed_of_plain {before : HostState} (h : FoundPlain before hp.volumes hp.secretNames) (n : ℕ) :
    (removedVolumes (firstRollback plan hp generator before n),
      removedSecrets (firstRollback plan hp generator before n)) =
      if (probeOutput before hp.volumes hp.secretNames).length ≤ n + 1 then
        (hp.volumes.filter (· ∉ before.volumes), hp.secretNames.filter (· ∉ before.secrets))
      else ([], []) := by
  rw [removed_firstRollback]
  split
  · next hcomplete =>
      have htake : ∃ rest, (probeOutput before hp.volumes hp.secretNames).take n =
          header ++ (TextLines.join (foundLines before hp.volumes hp.secretNames) ++
            (doneMark ++ rest)) := by
        have hsplit : probeOutput before hp.volumes hp.secretNames =
            (header ++ (TextLines.join (foundLines before hp.volumes hp.secretNames) ++ doneMark)) ++
              ['\n'] := by
          rw [probeOutput_eq]
          simp
        rw [hsplit] at hcomplete ⊢
        rw [List.length_append, List.length_singleton] at hcomplete
        rw [List.take_append, List.take_of_length_le (by omega)]
        exact ⟨_, by simp only [List.append_assoc]; rfl⟩
      obtain ⟨rest, hrest⟩ := htake
      rw [hrest, parseDataProbe_complete h]
      unfold dataCreatedInRun
      rw [if_pos rfl, filter_notMem_filter, filter_notMem_filter]
  · next hcut =>
      rw [parseDataProbe_truncated h (by omega)]
      rfl

/-- The rollback of a first install is safe exactly when the planned names that were there before are
plain. -/
theorem rollbackSafe_iff (plan : AppPlan) (hp : HostDeployPlan) (generator : String)
    (registry : Option RegistryLogin) (before : HostState) :
    RollbackSafe plan hp generator registry before ↔
      FoundPlain before hp.volumes hp.secretNames := by
  constructor
  · intro h
    obtain ⟨n, hn⟩ : ∃ n, (probeOutput before hp.volumes hp.secretNames).length = n := ⟨_, rfl⟩
    have hcomplete := h.apart n
    have hremoved := @removed_firstRollback plan hp generator before n
    rw [List.take_of_length_le hn.le, probeOutput_eq] at hremoved
    generalize hjoin : TextLines.join (foundLines before hp.volumes hp.secretNames) = text at hremoved
    cases hk : indexOf doneMark (text ++ (doneMark ++ ['\n'])) with
    | none =>
        refine absurd ?_ (indexOf_eq_none_iff.mp hk text.length (by simp))
        rw [List.drop_left]
        exact List.prefix_append _ _
    | some k =>
        unfold parseDataProbe at hremoved
        rw [probeSection_header, hk] at hremoved
        obtain ⟨hvolumes, hsecrets⟩ := Prod.ext_iff.mp hremoved
        dsimp only [Option.map_some, dataCreatedInRun] at hvolumes hsecrets
        rw [if_pos rfl] at hvolumes hsecrets
        constructor
        · intro v hv hin
          by_contra hplain
          refine hcomplete.1 v ?_ hin
          rw [hvolumes]
          exact List.mem_filter.mpr ⟨hv, decide_eq_true fun hmem => hplain (named_plain hk hmem)⟩
        · intro x hx hin
          by_contra hplain
          refine hcomplete.2 x ?_ hin
          rw [hsecrets]
          exact List.mem_filter.mpr ⟨hx, decide_eq_true fun hmem => hplain (named_plain hk hmem)⟩
  · intro h
    have hapart : ∀ n,
        (∀ v ∈ removedVolumes (firstRollback plan hp generator before n), v ∉ before.volumes) ∧
          ∀ x ∈ removedSecrets (firstRollback plan hp generator before n), x ∉ before.secrets := by
      intro n
      have hremoved := removed_of_plain plan generator h n
      split at hremoved
      · obtain ⟨hvolumes, hsecrets⟩ := Prod.ext_iff.mp hremoved
        dsimp only at hvolumes hsecrets
        rw [hvolumes, hsecrets]
        exact ⟨fun v hv => of_decide_eq_true (List.mem_filter.mp hv).2,
          fun x hx => of_decide_eq_true (List.mem_filter.mp hx).2⟩
      · obtain ⟨hvolumes, hsecrets⟩ := Prod.ext_iff.mp hremoved
        dsimp only at hvolumes hsecrets
        rw [hvolumes, hsecrets]
        simp
    refine ⟨hapart, fun n hn => ?_, fun n after final hdeploy hrollback => ?_⟩
    · have hremoved := removed_of_plain plan generator h n
      unfold ProbeComplete at hn
      rw [if_pos hn] at hremoved
      exact Prod.ext_iff.mp hremoved
    · obtain ⟨hvolumes, hsecrets⟩ := removed_buildDeployScript (deployInput hp generator registry)
      constructor
      · intro v hv
        have hafter := (hdeploy.keeps v).1 hv (by rw [hvolumes]; exact List.not_mem_nil)
        exact (hrollback.keeps v).1 hafter fun hmem => (hapart n).1 v hmem hv
      · intro x hx
        have hafter := (hdeploy.keeps x).2 hx (by rw [hsecrets]; exact List.not_mem_nil)
        exact (hrollback.keeps x).2 hafter fun hmem => (hapart n).2 x hmem hx

end Rollback

/-! ## A component whose name holds the mark -/

/-- An app with a component `db@@done` that has a secret. -/
def markedPlan : AppPlan where
  name := "wiki"
  pod := none
  components := [{
    name := "db@@done"
    container := "vops-wiki-db@@done"
    image := "docker.io/mariadb:11"
    env := []
    secrets := [⟨"vops-wiki-db@@done-password", "PASSWORD", some (24, .hex), none⟩]
    ports := []
    volumes := []
    cpu := none
    memory := none
    health := none
    dependsOn := []
    command := none }]
  primary := "db@@done"
  needsAppDomain := false
  warnings := []

/-- Its deploy. -/
def markedDeploy : HostDeployPlan where
  unitDir := appUnitDir "wiki"
  coexistence := false
  ports := .empty
  units := .empty
  healthUnits := .empty
  secrets := [⟨"vops-wiki-db@@done-password", "PASSWORD", some (24, .hex), none⟩]
  services := ["vops-wiki-db@@done.service"]
  prereqServices := []
  volumes := []
  pod := none
  endpoints := []

/-- The secret is left from an earlier install. -/
def markedHost : HostState := ⟨fun _ => none, fun _ => false, [], ["vops-wiki-db@@done-password"]⟩

/-- The rollback removes it. -/
theorem marked_removed : ¬RollbackSafe markedPlan markedDeploy "/g" none markedHost := by
  intro h
  have hremoved : removedSecrets (firstRollback markedPlan markedDeploy "/g" markedHost 100) =
      ["vops-wiki-db@@done-password"] := by decide +kernel
  have hapart := (h.apart 100).2 "vops-wiki-db@@done-password"
  rw [hremoved] at hapart
  exact hapart List.mem_cons_self List.mem_cons_self

end Vops.Apps
