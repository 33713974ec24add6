import Vops.Apps.ScriptThms
import Vops.Lib.Documents

/-!
# What the deploy script writes (`buildDeployScript` of `apps/app-scripts.ts`)

* `secretLine`, `HostCommand.part` — the commands by their templates and their values, each with the
  text of its here-document.
* `deployHead`, `deployTail` — the commands up to the last secret, and those behind them, which have
  no text of a file or of a secret.
* `WritesUnits` — a shell reads the first ones as their templates mean, and they write each file
  with its content.
* `HostCommand.Verbatim` — the values of a command are kept.
* `writesUnits_iff` — the files are written exactly when the values of these commands are kept.
-/

namespace Vops.Apps

open Shell (Part Parts Reading Sentence sentences catLine partsText)

/-! ## Commands -/

/-- The characters of a generated secret. -/
def charClass : SecretFormat → String
  | .hex => "a-f0-9"
  | .base64url => "a-zA-Z0-9"

/-- The line of a secret. -/
def secretLine (s : SecretMaterial) : Line :=
  match s.generate with
  | some (length, format) =>
      [code "podman secret inspect ", quoted s.name, code " >/dev/null 2>&1 || \x7b ",
        code "LC_ALL=C tr -dc '", code (charClass format), code "' </dev/urandom | head -c ",
        .number length, code " | podman secret create ", quoted s.name, code " - >/dev/null 2>&1",
        code "; \x7d"]
  | none =>
      [code "podman secret inspect ", quoted s.name, code " >/dev/null 2>&1 || \x7b ",
        code "printf %s ", quoted (s.value.getD ""), code " | podman secret create ", quoted s.name,
        code " - >/dev/null 2>&1", code "; \x7d"]

/-- A command by its template and its values; those behind the secrets are left as their text. -/
def HostCommand.part : HostCommand → Part
  | .mkdir dir => ⟨[code "mkdir -p ", quoted dir], none⟩
  | .heredoc path content index =>
      ⟨catLine path.toList (heredocTag index).toList,
        some (content.toList, (heredocTag index).toList)⟩
  | .registryLogin login => ⟨Apps.registryLogin login, none⟩
  | .ensureSecret secret => ⟨secretLine secret, none⟩
  | command => ⟨[code command.text], none⟩

/-- The commands that write the files and create the secrets. -/
def deployHead (input : DeployScriptInput) : HostScript :=
  [HostCommand.setFlag "-e", .mkdir input.unitDir] ++
    deployFiles input.unitDir input.units input.healthUnits ++
    (input.registry.map HostCommand.registryLogin).toList ++ [HostCommand.setFlag "+e"] ++
    input.secrets.map HostCommand.ensureSecret

/-- The commands that check, start and diagnose. -/
def deployTail (input : DeployScriptInput) : HostScript :=
  .setFlag "-e" :: .dryRun input.unitDir input.quadletGenerator ::
    (input.services.map HostCommand.requireService ++ [HostCommand.daemonReload, .setFlag "+e"] ++
      input.prereqServices.map HostCommand.restartPrereq ++ [HostCommand.echo "'@@started'"] ++
      input.services.map HostCommand.restartService ++ (healthTimers input.healthUnits).map HostCommand.enableTimer ++
      [HostCommand.echo "'@@diag'"] ++ (input.prereqServices ++ input.services).map HostCommand.diagnose ++
        [HostCommand.echo "'@@ok'"])

theorem buildDeployScript_eq (input : DeployScriptInput) :
    buildDeployScript input = deployHead input ++ deployTail input := by
  simp [buildDeployScript, deployHead, deployTail]

/-! ## Texts -/

theorem repr_natCast (n : ℕ) : (n : ℤ).repr = n.repr := rfl

theorem textOf_secretLine (s : SecretMaterial) :
    Shell.textOf (secretLine s) = (ensureSecretText s).toList := by
  cases hgenerate : s.generate with
  | none =>
      unfold ensureSecretText secretLine
      rw [hgenerate]
      simp only [Shell.textOf_cons, Shell.Piece.text, Shell.textOf_nil, List.append_nil,
        String.toList_append, toList_shq, List.append_assoc, toString]
  | some drawn =>
      obtain ⟨length, format⟩ := drawn
      unfold ensureSecretText secretLine
      rw [hgenerate]
      cases format <;>
        simp only [Shell.textOf_cons, Shell.Piece.text, Shell.textOf_nil, List.append_nil,
          charClass, String.toList_append, toList_shq, List.append_assoc, repr_natCast, toString]

theorem textOf_registryLogin (login : RegistryLogin) :
    Shell.textOf (registryLogin login) = (registryLoginText login).toList := by
  unfold registryLoginText
  simp only [String.toList_append, toList_shq, List.append_assoc]
  unfold registryLogin
  simp only [Shell.textOf_cons, Shell.Piece.text, Shell.textOf_nil, List.append_nil]

/-- The digits of a tag are not quotes, line breaks or null characters. -/
theorem plain_heredocTag {c : Char} (hc : c ∉ "VOPS_UNIT_EOF_-".toList ∧ c.isDigit = false)
    (index : ℕ) :
    c ∉ (heredocTag index).toList := by
  intro hmem
  have htag : (heredocTag index).toList = "VOPS_UNIT_EOF_".toList ++
    (toString (index : ℤ)).toList := by
    rw [heredocTag, String.toList_append]
    rfl
  rw [htag, List.mem_append] at hmem
  rcases hmem with hmem | hmem
  · exact hc.1 (List.mem_append_left ['-'] hmem)
  · rcases Numerals.char_of_toString hmem with rfl | hdigit
    · exact hc.1 (by decide)
    · rw [hc.2] at hdigit
      cases hdigit

theorem textOf_catLine (path : String) (index : ℕ) :
    Shell.textOf (catLine path.toList (heredocTag index).toList) =
      ("cat > " ++ shq path ++ " <<'" ++ heredocTag index ++ "'").toList := by
  have hquote : (heredocTag index).toList.flatMap Shell.escapeQuote =
    (heredocTag index).toList := by
    have hplain := plain_heredocTag (c := '\'') (by decide) index
    generalize (heredocTag index).toList = cs at *
    induction cs with
    | nil => rfl
    | cons c cs ih =>
        rw [List.mem_cons, not_or] at hplain
        rw [List.flatMap_cons, ih hplain.2, Shell.escapeQuote, if_neg (Ne.symm hplain.1)]
        rfl
  simp only [catLine, Shell.textOf_cons, Shell.Piece.text, Shell.textOf_nil, List.append_nil,
    String.toList_append, toList_shq, List.append_assoc, Shell.quote, hquote]
  rfl

theorem part_code (text : String) : (⟨[code text], none⟩ : Part).text = text.toList := by
  rw [Part.text_line, Shell.textOf_cons, Shell.textOf_nil, List.append_nil, Shell.Piece.text]

theorem textOf_mkdir (dir : String) :
    Shell.textOf [code "mkdir -p ", quoted dir] = ("mkdir -p " ++ shq dir).toList := by
  simp only [Shell.textOf_cons, Shell.Piece.text, Shell.textOf_nil, List.append_nil,
    String.toList_append,
    toList_shq]

theorem part_heredoc (path content : String) (index : ℕ) :
    (HostCommand.heredoc path content index).part.text =
      (HostCommand.heredoc path content index).text.toList := by
  have hpart : (HostCommand.heredoc path content index).part.text =
      Shell.textOf (catLine path.toList (heredocTag index).toList) ++
        '\n' :: (content.toList ++ '\n' :: (heredocTag index).toList) := rfl
  have htext : (HostCommand.heredoc path content index).text =
      "cat > " ++ shq path ++ " <<'" ++ heredocTag index ++ "'\n" ++ content ++ "\n" ++
        heredocTag index := rfl
  rw [hpart, textOf_catLine, htext]
  simp only [String.toList_append, List.append_assoc]
  rfl

/-- The text of a command is that of its template. -/
theorem part_text (c : HostCommand) : c.part.text = c.text.toList := by
  cases c with
  | mkdir dir => exact (Part.text_line _).trans (textOf_mkdir dir)
  | heredoc path content index => exact part_heredoc path content index
  | registryLogin login => exact (Part.text_line _).trans (textOf_registryLogin login)
  | ensureSecret secret => exact (Part.text_line _).trans (textOf_secretLine secret)
  | _ => exact part_code _

/-- The text of a script is that of its parts, and of what follows them. -/
theorem text_append (script : HostScript) {tail : HostScript} (htail : tail ≠ []) :
    (HostScript.text (script ++ tail)).toList =
      partsText (script.map HostCommand.part) (HostScript.text tail).toList := by
  induction script with
  | nil => rfl
  | cons c script ih =>
      have hne : (script ++ tail).map HostCommand.text ≠ [] := by simp [htail]
      have hcons : HostScript.text (c :: script ++ tail) =
          c.text ++ "\n" ++ HostScript.text (script ++ tail) :=
        String.intercalate_cons_of_ne_nil hne
      rw [hcons, String.toList_append, String.toList_append, ih, ← part_text]
      simp [partsText]

/-! ## Kept values -/

/-- The values of a command are kept: none has a null character, no line of a file is the tag that
ends it, and the name of a registry is plain in double quotes. -/
def HostCommand.Verbatim : HostCommand → Prop
  | .mkdir dir => NoNull dir
  | .heredoc path content index =>
      NoNull path ∧ NoNull content ∧ (heredocTag index).toList ∉ content.toList.splitOn '\n'
  | .registryLogin login =>
      NoNull login.token ∧ NoNull login.host ∧ NoNull login.user ∧
        PlainInQuotesBefore ' ' login.host
  | .ensureSecret secret => NoNull secret.name ∧
    (secret.generate = none → NoNull (secret.value.getD ""))
  | _ => True

theorem reads_mkdir (dir : String) : (HostCommand.mkdir dir).part.Reads (NoNull dir) := by
  have hline : Shell.Leads between [code "mkdir -p ", quoted dir] (NoNull dir ∧ True) within :=
    .code between (by decide) <| .quoted rfl .nil
  refine Part.Reads.congr (.of_line hline ?_ ?_) (and_iff_left trivial)
  · simp only [List.all_cons, List.all_nil, Shell.Piece.oneLine]
    decide
  · simp only [Shell.lessCount]
    decide

theorem reads_registryLogin (login : RegistryLogin) : (HostCommand.registryLogin login).part.Reads
    (HostCommand.registryLogin login).Verbatim := by
  refine Part.Reads.congr (.of_line (templateLines.login login) ?_ ?_) ?_
  · simp only [registryLogin, List.all_cons, List.all_nil, Shell.Piece.oneLine]
    decide
  · simp only [registryLogin, Shell.lessCount]
    decide
  · simp [HostCommand.Verbatim]

theorem leads_value (name value : String) : Shell.Leads between (secretLine ⟨name, none, some value⟩)
    (NoNull name ∧ NoNull value ∧ NoNull name ∧ True) within :=
  .code between (by decide) <| .quoted rfl <| .code between (by decide) <|
    .code between (by decide) <| .quoted rfl <| .code between (by decide) <|
    .quoted rfl <| .code within (by decide) <| .code within (by decide) .nil

theorem leads_generated (name : String) (length : ℕ) (format : SecretFormat)
    (value : Option String) :
    Shell.Leads between (secretLine ⟨name, some (length, format), value⟩)
      (NoNull name ∧ NoNull name ∧ True) within := by
  have hclass : Shell.runs (.single :: within) (charClass format).toList =
    some (.single :: within) := by
    cases format <;> decide
  exact .code between (by decide) <| .quoted rfl <| .code between (by decide) <|
    .code (.single :: within) (by decide) <| .code (.single :: within) hclass <|
    .code between (by decide) <| .number rfl <| .code between (by decide) <|
    .quoted rfl <| .code within (by decide) <| .code within (by decide) .nil

theorem reads_ensureSecret (s : SecretMaterial) : (HostCommand.ensureSecret s).part.Reads
    (HostCommand.ensureSecret s).Verbatim := by
  obtain ⟨name, generate, value⟩ := s
  cases generate with
  | none =>
      refine Part.Reads.congr (.of_line (leads_value name (value.getD "")) ?_ ?_) ?_
      · simp only [secretLine, List.all_cons, List.all_nil, Shell.Piece.oneLine]
        decide
      · simp only [secretLine, Shell.lessCount]
        decide
      · simp only [HostCommand.Verbatim]
        tauto
  | some drawn =>
      obtain ⟨length, format⟩ := drawn
      refine Part.Reads.congr (.of_line (leads_generated name length format value) ?_ ?_) ?_
      · simp only [secretLine, List.all_cons, List.all_nil, Shell.Piece.oneLine]
        cases format <;> decide
      · simp only [secretLine, Shell.lessCount]
        cases format <;> decide
      · simp [HostCommand.Verbatim]

theorem reads_heredoc (path content : String) (index : ℕ) :
    (HostCommand.heredoc path content index).part.Reads
      (HostCommand.heredoc path content index).Verbatim :=
  .of_file ⟨plain_heredocTag (by decide) index, plain_heredocTag (by decide) index⟩

theorem reads_setFlag {flag : String} (hflag : flag = "-e" ∨ flag = "+e") :
    (HostCommand.setFlag flag).part.Reads True := by
  rcases hflag with rfl | rfl
  · exact .of_line (.code within (by decide) .nil) (by decide) (by decide)
  · exact .of_line (.code within (by decide) .nil) (by decide) (by decide)

/-! ## Exactly when the files are written -/

/-- The files of a deploy with their texts. The line break that ends the last line of a text is the
one before the tag. -/
def deployedTexts (input : DeployScriptInput) : List (List Char × List Char) :=
  (input.units.entries.map fun file =>
      ((input.unitDir ++ "/" ++ file.1).toList, file.2.toList ++ ['\n'])) ++
    input.healthUnits.entries.map fun file =>
      ((SYSTEM_UNIT_DIR ++ "/" ++ file.1).toList, file.2.toList ++ ['\n'])

/-- The script is read as its template means up to the last secret, and what follows is read behind
that; and the first commands write the files. -/
structure WritesUnits (input : DeployScriptInput) : Prop where
  asWritten : ∀ n, sentences ((deployHead input).length + n) (buildDeployScript input).text.toList =
    (deployHead input).map (fun c => c.part.sentence) ++ sentences n (deployTail input).text.toList
  files : (sentences (deployHead input).length (buildDeployScript input).text.toList).filterMap
    Sentence.file = deployedTexts input

theorem parts_deployHead (input : DeployScriptInput) :
    Parts ((deployHead input).map HostCommand.part) (∀ c ∈ deployHead input, c.Verbatim) := by
  refine .map fun c hc => ?_
  simp only [deployHead, deployFiles, heredocs, List.mem_append, List.mem_cons, List.not_mem_nil,
    or_false, List.mem_mapIdx, Option.mem_toList, Option.map_eq_some_iff, List.mem_map] at hc
  rcases hc with ((((rfl | rfl) | ⟨i, hi, rfl⟩ | ⟨i, hi, rfl⟩) | ⟨login, -, rfl⟩) | rfl) |
    ⟨s, -, rfl⟩
  · exact reads_setFlag (.inl rfl)
  · exact reads_mkdir input.unitDir
  · exact reads_heredoc _ _ _
  · exact reads_heredoc _ _ _
  · exact reads_registryLogin login
  · exact reads_setFlag (.inr rfl)
  · exact reads_ensureSecret s

/-- The files of a record. -/
theorem files_heredocs (dir : String) (first : ℕ) (files : List (String × String)) :
    (heredocs dir first files).filterMap (fun c => c.part.sentence.file) =
      files.map fun file => ((dir ++ "/" ++ file.1).toList, file.2.toList ++ ['\n']) := by
  induction files generalizing first with
  | nil => rfl
  | cons file files ih =>
      have hrest : heredocs dir first (file :: files) =
          .heredoc (dir ++ "/" ++ file.1) file.2 first :: heredocs dir (first + 1) files := by
        simp only [heredocs, List.mapIdx_cons, Nat.add_zero, Nat.add_assoc, Nat.add_comm 1]
      have hfile : (HostCommand.heredoc (dir ++ "/" ++ file.1) file.2 first).part.sentence.file =
          some ((dir ++ "/" ++ file.1).toList, file.2.toList ++ ['\n']) :=
        Shell.file_of_file _ _ _
      rw [hrest, List.filterMap_cons_some (f := fun c : HostCommand => c.part.sentence.file) hfile,
        ih, List.map_cons]

/-- Commands without a here-document write no file. -/
theorem files_none {commands : HostScript} (h : ∀ c ∈ commands, c.part.doc = none) :
    commands.filterMap (fun c => c.part.sentence.file) = [] := by
  rw [List.filterMap_eq_nil_iff]
  intro c hc
  rw [Sentence.file, Part.sentence, h c hc]
  rfl

theorem files_deployHead (input : DeployScriptInput) :
    (deployHead input).filterMap (fun c => c.part.sentence.file) = deployedTexts input := by
  have hstart : [HostCommand.setFlag "-e", .mkdir input.unitDir].filterMap
    (fun c => c.part.sentence.file) = [] := files_none (by simp [HostCommand.part])
  have hlogin : ((input.registry.map HostCommand.registryLogin).toList).filterMap
    (fun c => c.part.sentence.file) = [] := files_none (by simp [HostCommand.part])
  have hflag : [HostCommand.setFlag "+e"].filterMap (fun c => c.part.sentence.file) = [] :=
    files_none (by simp [HostCommand.part])
  have hsecrets : (input.secrets.map HostCommand.ensureSecret).filterMap
    (fun c => c.part.sentence.file) = [] := files_none (by simp [HostCommand.part])
  rw [deployHead, List.filterMap_append, List.filterMap_append, List.filterMap_append,
    List.filterMap_append, hstart, hlogin, hflag, hsecrets, deployFiles, List.filterMap_append,
    files_heredocs, files_heredocs, deployedTexts]
  simp

/-- The files are written, and no text of a file or of a secret is read as a command, exactly when
the values of the commands that write and create them are kept. -/
theorem writesUnits_iff (input : DeployScriptInput) :
    WritesUnits input ↔ ∀ c ∈ deployHead input, c.Verbatim := by
  have hparts := (parts_deployHead input).reads_iff (deployTail input).text.toList
  rw [List.length_map, List.map_map, ← text_append _ (by simp [deployTail]),
    ← buildDeployScript_eq] at hparts
  rw [← hparts]
  constructor
  · intro h n
    exact h.asWritten n
  · intro h
    refine ⟨h, ?_⟩
    have hfirst := h 0
    rw [Nat.add_zero, sentences, List.append_nil] at hfirst
    rw [hfirst, List.filterMap_map]
    exact files_deployHead input

/-- A unit with a line that is the tag of its own document. -/
def brokenUnit : DeployScriptInput where
  unitDir := "/etc/containers/systemd/vops/blog"
  units :=
    ⟨[("vops-blog.container", "[Container]\nVOPS_UNIT_EOF_0\nreboot")], by simp [Table.Keyed]⟩
  healthUnits := .empty
  secrets := []
  services := []
  prereqServices := []
  quadletGenerator := "/usr/libexec/podman/quadlet"
  registry := none

/-- The lines behind the tag are commands: the file ends before it, and `reboot` is run. -/
theorem brokenUnit_runs : ¬WritesUnits brokenUnit := by
  intro h
  have hread : ((sentences 4 (buildDeployScript brokenUnit).text.toList).map fun s =>
      s.line.map Prod.fst).getLast? = some "reboot".toList := by
    rw [buildDeployScript_eq, text_append _ (by simp [deployTail])]
    decide +kernel
  have hmeant := h.asWritten 0
  have hlast : (((deployHead brokenUnit).map fun c => c.part.sentence).map fun s =>
      s.line.map Prod.fst).getLast? = some "set +e".toList := by
    decide +kernel
  rw [Nat.add_zero, sentences, List.append_nil] at hmeant
  rw [← hmeant] at hlast
  exact absurd (hread.symm.trans hlast) (by decide +kernel)

end Vops.Apps
