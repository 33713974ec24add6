import Vops.HostOps.AuthorizedKeys
import Vops.HostOps.OpsLine
import Vops.Lib.AsyncSafe
import Vops.Lib.Cidr
import Mathlib.Data.List.ReduceOption

/-!
# What is left of the known hosts

* `Entry`, `entry?` — how a line is read: a marker, the patterns of the hosts, and the key.
* `Pruned` — what should become of a line; `pruneLine_eq` — what `pruneLine` makes of it.
* `forgotten_iff` — the targets are gone from the file, and nothing else is, exactly when a line that names
  other hosts too is not the only one, and can still be read without them.
* `forget_prunes` — after a cleanup without a warning the file is pruned of the destroyed server.
-/

/-!
## Known hosts (`lib/known-hosts.ts`, `hosts/host-forget.ts`)

* `pruneKnownHosts` — the text without the entries of some targets, and how many lines went.
* `pruneKnownHostsFile` — the file is rewritten when a line went.
* `staleHostsFor`, `knownHostTargets`, `forgetDestroyedServer` — what goes with a destroyed server.
-/

namespace Vops.KnownHosts

open AuthorizedKeys (Text trim split)

/-- What the platform computes: a text in lower case, and the HMAC-SHA1 of a name, in base64, whose key is
the salt that a text in base64 stands for. -/
structure Platform where
  toLowerCase : Text → Text
  hmacSha1 : Text → Text → Text

structure KnownHostTarget where
  address : Text
  port : Option ℕ := none
deriving DecidableEq

/-- `MARKERS` -/
def MARKERS : List Text := ["@cert-authority".toList, "@revoked".toList]

/-- `HASHED` with its groups: the salt and the hash. -/
def hashedGroups : Text → Option (Text × Text)
  | '|' :: '1' :: '|' :: rest =>
      let salt := rest.takeWhile (· ≠ '|')
      let hash := (rest.dropWhile (· ≠ '|')).tail
      if salt ≠ [] ∧ hash ≠ [] then some (salt, hash) else none
  | _ => none

/-- `[address]:port` -/
def bracketed (address : Text) (port : ℕ) : Text :=
  '[' :: (address ++ ']' :: ':' :: (toString port).toList)

/-- `patternsFor` -/
def patternsFor (t : KnownHostTarget) : List Text :=
  let port := t.port.getD 22
  [t.address, bracketed t.address port, bracketed t.address 22]

section Pruning

variable (platform : Platform)

/-- `matchesHashed` -/
def matchesHashed (pattern : Text) (names : List Text) : Bool :=
  match hashedGroups pattern with
  | none => false
  | some (salt, hash) => names.any fun n => platform.hmacSha1 salt n == hash

/-- A pattern goes with the names. -/
def goes (names : List Text) (p : Text) : Bool :=
  (names.map platform.toLowerCase).contains (platform.toLowerCase p) || matchesHashed platform p names

/-- `pruneLine` -/
def pruneLine (line : Text) (names : List Text) : Option Text :=
  let trimmed := trim line
  if trimmed = [] ∨ trimmed.head? = some '#' then some line
  else
    let fields := split trimmed
    let offset := if MARKERS.contains (fields.getD 0 []) then 1 else 0
    match fields[offset]? with
    | none => some line
    | some hostField =>
        if hostField = [] then some line
        else
          let patterns := hostField.splitOn ','
          let keep := patterns.filter (!goes platform names ·)
          if keep.length = patterns.length then some line
          else if keep = [] then none
          else some ([' '].intercalate (fields.take offset ++ [[','].intercalate keep] ++ fields.drop (offset + 1)))

/-- The names of the targets, each once. -/
def namesOf (targets : List KnownHostTarget) : List Text := unique (targets.flatMap patternsFor)

/-- `pruneKnownHosts` -/
def pruneKnownHosts (content : Text) (targets : List KnownHostTarget) : Text × ℕ :=
  let names := namesOf targets
  if names = [] then (content, 0)
  else
    let pruned := (content.splitOn '\n').map (pruneLine platform · names)
    (['\n'].intercalate pruned.reduceOption, pruned.countP (·.isNone))

/-- `pruneKnownHostsFile`: what the file holds afterwards, and how many lines went. -/
def pruneKnownHostsFile (file : Option Text) (targets : List KnownHostTarget) : Option Text × ℕ :=
  match file with
  | none => (none, 0)
  | some before =>
      let pruned := pruneKnownHosts platform before targets
      (if 0 < pruned.2 then some pruned.1 else some before, pruned.2)

end Pruning

/-! ## A destroyed server -/

/-- `VopsHost`, as far as the cleanup reads it. -/
structure InventoryHost where
  name : Text
  address : Text
  port : ℕ
  provider : Option Text := none
  providerServerId : Option Text := none
deriving DecidableEq

structure DestroyedServer where
  provider : Text
  serverId : Text
  address : Option Text := none

/-- `server.address?.trim()`, which is empty when there is none. -/
def DestroyedServer.trimmedAddress (server : DestroyedServer) : Text := trim (server.address.getD [])

/-- `staleHostsFor` -/
def staleHostsFor (hosts : List InventoryHost) (server : DestroyedServer) : List InventoryHost :=
  let address := server.trimmedAddress
  hosts.filter fun h =>
    (h.providerServerId.getD [] ≠ [] && h.providerServerId = some server.serverId &&
      h.provider = some server.provider) || (address ≠ [] && h.address = address)

/-- `knownHostTargets` -/
def knownHostTargets (stale : List InventoryHost) (server : DestroyedServer) : List KnownHostTarget :=
  let address := server.trimmedAddress
  stale.map (fun h => ⟨h.address, some h.port⟩) ++ if address = [] then [] else [⟨address, some 22⟩]

structure ForgetOutcome where
  forgotten : List Text
  knownHostsPruned : ℕ
  warning : Option String := none
deriving DecidableEq

/-- What the cleanup does outside: the inventory, the file of known hosts, and the audit. -/
inductive ForgetOp
  | list
  | remove (name : Text)
  | pruneKnownHostsFile (targets : List KnownHostTarget)
  | audit (forgotten : List Text) (knownHostsPruned : ℕ)

/-- Each operation can throw. -/
def ForgetOp.Answer : ForgetOp → Type
  | .list => Except String (List InventoryHost)
  | .pruneKnownHostsFile _ => Except String ℕ
  | _ => Except String Unit

/-- What was thrown, and how far the cleanup had come. -/
structure Interrupted where
  reason : String
  forgotten : List Text
  knownHostsPruned : ℕ

abbrev ForgetProg (α : Type) : Type := Async ForgetOp ForgetOp.Answer Interrupted α

/-- An answer, or the end of the cleanup. -/
def orInterrupt {α : Type} (forgotten : List Text) (knownHostsPruned : ℕ) : Except String α → ForgetProg α
  | .ok a => pure a
  | .error reason => throw ⟨reason, forgotten, knownHostsPruned⟩

/-- The loop that removes the hosts. -/
def removeHosts (forgotten : List Text) : List InventoryHost → ForgetProg (List Text)
  | [] => pure forgotten
  | host :: rest => do
      let removed : Except String Unit ← Async.perform (ForgetOp.remove host.name)
      orInterrupt forgotten 0 removed
      removeHosts (forgotten ++ [host.name]) rest

/-- The part of `forgetDestroyedServer` whose errors are caught. -/
def forgetRecords (server : DestroyedServer) : ForgetProg ForgetOutcome := do
  let listed : Except String (List InventoryHost) ← Async.perform ForgetOp.list
  let hosts ← orInterrupt [] 0 listed
  let stale := staleHostsFor hosts server
  let targets := knownHostTargets stale server
  let forgotten ← removeHosts [] stale
  let pruned : Except String ℕ ← Async.perform (ForgetOp.pruneKnownHostsFile targets)
  let knownHostsPruned ← orInterrupt forgotten 0 pruned
  let audited : Except String Unit ← Async.perform (ForgetOp.audit forgotten knownHostsPruned)
  orInterrupt forgotten knownHostsPruned audited
  pure ⟨forgotten, knownHostsPruned, none⟩

/-- `forgetDestroyedServer` -/
def forgetDestroyedServer (server : DestroyedServer) : ForgetProg ForgetOutcome :=
  tryCatch (forgetRecords server) fun e =>
    pure ⟨e.forgotten, e.knownHostsPruned,
      some s!"Server deleted, but the local records were not fully cleaned up: {e.reason}"⟩

end Vops.KnownHosts

namespace Vops.KnownHosts

open AuthorizedKeys (Text trim split trim_eq_self trim_trim trim_eq_nil_or_head last_of_trim not_space_of_mem_split
  split_cons)

/-! ## Fields -/

/-- An empty field is at the start of a text, or its end is white space. -/
theorem last_of_nil_mem_tail {sp : Char → Bool} {cs : Text} (h : [] ∈ (TextLines.fields sp cs).tail) :
    ∃ c ∈ cs.getLast?, sp c = true := by
  induction cs with
  | nil => simp [TextLines.fields] at h
  | cons c cs ih =>
      have hlast (hcs : cs ≠ []) (hmem : [] ∈ (TextLines.fields sp cs).tail) :
          ∃ d ∈ (c :: cs).getLast?, sp d = true := by
        obtain ⟨d, hd, hsp⟩ := ih hmem
        obtain ⟨e, es, rfl⟩ := List.exists_cons_of_ne_nil hcs
        exact ⟨d, by rwa [List.getLast?_cons_cons], hsp⟩
      cases cs with
      | nil =>
          refine ⟨c, by simp, ?_⟩
          by_contra hc
          simp [TextLines.fields, hc] at h
      | cons d cs =>
          refine hlast (by simp) ?_
          obtain ⟨field, rest, hfields⟩ : ∃ field rest, TextLines.fields sp (d :: cs) = field :: rest :=
            List.exists_cons_of_ne_nil (TextLines.fields_ne_nil (d :: cs))
          rw [TextLines.fields] at h
          split at h
          · next hc =>
            split at h
            · exact h
            · next hd =>
              rw [List.tail_cons] at h
              have hd : sp d = false := by simpa using hd
              obtain ⟨field', rest', hd'⟩ : ∃ field' rest', TextLines.fields sp (d :: cs) = (d :: field') :: rest' := by
                obtain ⟨f, r, hf⟩ : ∃ f r, TextLines.fields sp cs = f :: r :=
                  List.exists_cons_of_ne_nil (TextLines.fields_ne_nil cs)
                exact ⟨f, r, by simp [TextLines.fields, hd, hf]⟩
              rw [hd'] at h ⊢
              simpa using h
          · rw [hfields] at h ⊢
            exact h

/-- A trimmed text that is not empty has no empty field. -/
theorem ne_nil_of_mem_split {line field : Text} (hne : trim line ≠ []) (h : field ∈ split (trim line)) :
    field ≠ [] := by
  rintro rfl
  rcases trim_eq_nil_or_head line with hnil | ⟨c, rest, hline, hc⟩
  · exact hne hnil
  · obtain ⟨first, more, hsplit⟩ := split_cons hc rest
    rw [hline, hsplit] at h
    have htail : [] ∈ (TextLines.fields isJsSpace (trim line)).tail := by
      rw [hline]
      change [] ∈ (split (c :: rest)).tail
      rw [hsplit]
      simpa using h
    obtain ⟨d, hd, hspace⟩ := last_of_nil_mem_tail htail
    rw [last_of_trim hd] at hspace
    cases hspace

/-- A field can be written between blanks. -/
structure IsField (field : Text) : Prop where
  ne_nil : field ≠ []
  space : ∀ c ∈ field, isJsSpace c = false

theorem isField_of_mem_split {line field : Text} (hne : trim line ≠ []) (h : field ∈ split (trim line)) :
    IsField field :=
  ⟨ne_nil_of_mem_split hne h, not_space_of_mem_split h⟩

theorem split_field {field : Text} (h : IsField field) : split field = [field] := by
  have key (cs : Text) (hcs : ∀ c ∈ cs, isJsSpace c = false) : TextLines.fields isJsSpace cs = [cs] := by
    induction cs with
    | nil => rfl
    | cons c cs ih =>
        obtain ⟨hc, hrest⟩ := List.forall_mem_cons.mp hcs
        simp [TextLines.fields, hc, ih hrest]
  exact key field h.space

theorem intercalate_cons (sep field next : Text) (fields : List Text) :
    sep.intercalate (field :: next :: fields) = field ++ (sep ++ sep.intercalate (next :: fields)) := by
  simp [List.intercalate_cons_cons]

theorem mem_intercalate {sep : Text} {fields : List Text} {c : Char} (h : c ∈ sep.intercalate fields) :
    c ∈ sep ∨ ∃ f ∈ fields, c ∈ f := by
  induction fields with
  | nil => simp at h
  | cons field fields ih =>
      cases fields with
      | nil => exact .inr ⟨field, by simp, by simpa using h⟩
      | cons next fields =>
          rw [intercalate_cons, List.mem_append, List.mem_append] at h
          rcases h with h | h | h
          · exact .inr ⟨field, List.mem_cons_self, h⟩
          · exact .inl h
          · exact (ih h).imp_right fun ⟨f, hf, hc⟩ => ⟨f, List.mem_cons_of_mem _ hf, hc⟩

theorem head_intercalate {field : Text} (h : IsField field) (fields : List Text) :
    ∃ c rest, [' '].intercalate (field :: fields) = c :: rest ∧ field.head? = some c ∧ isJsSpace c = false := by
  obtain ⟨c, cs, rfl⟩ := List.exists_cons_of_ne_nil h.ne_nil
  have hc := h.space c List.mem_cons_self
  cases fields with
  | nil => exact ⟨c, cs, by simp, rfl, hc⟩
  | cons next fields => exact ⟨c, _, intercalate_cons _ _ _ _, rfl, hc⟩

/-- Fields are read back. -/
theorem split_intercalate {field : Text} {fields : List Text} (h : ∀ f ∈ field :: fields, IsField f) :
    split ([' '].intercalate (field :: fields)) = field :: fields := by
  induction fields generalizing field with
  | nil => simpa using split_field (h field List.mem_cons_self)
  | cons next fields ih =>
      obtain ⟨hfield, hfields⟩ := List.forall_mem_cons.mp h
      obtain ⟨c, rest, hnext, -, hc⟩ := head_intercalate (hfields next List.mem_cons_self) fields
      have hrest := ih hfields
      rw [hnext] at hrest
      rw [intercalate_cons, hnext, split, List.singleton_append,
        TextLines.fields_append hfield.space (by decide) (by simp [hc])]
      exact congrArg (field :: ·) hrest

theorem trim_intercalate {field : Text} {fields : List Text} (h : ∀ f ∈ field :: fields, IsField f) :
    trim ([' '].intercalate (field :: fields)) = [' '].intercalate (field :: fields) := by
  obtain ⟨c, rest, heq, -, hc⟩ := head_intercalate (h field List.mem_cons_self) fields
  have hlast : ∀ d ∈ ([' '].intercalate (field :: fields)).getLast?, isJsSpace d = false := by
    clear heq
    induction fields generalizing field with
    | nil =>
        intro d hd
        simp only [List.intercalate_singleton] at hd
        exact (h field List.mem_cons_self).space d (List.mem_of_getLast? hd)
    | cons next fields ih =>
        obtain ⟨-, hfields⟩ := List.forall_mem_cons.mp h
        obtain ⟨e, more, hnext, -, -⟩ := head_intercalate (hfields next List.mem_cons_self) fields
        intro d hd
        refine ih hfields d ?_
        rw [intercalate_cons, List.getLast?_append_of_ne_nil _ (by simp),
          List.getLast?_append_of_ne_nil _ (by simp [hnext])] at hd
        exact hd
  refine trim_eq_self (fun d hd => ?_) hlast
  rw [heq] at hd
  obtain rfl : c = d := by simpa using hd
  exact hc

/-! ## Entries -/

/-- A line as `ssh` reads it. -/
structure Entry where
  marker : Option Text
  patterns : List Text
  rest : List Text
deriving DecidableEq

namespace Entry

variable (e : Entry)

/-- The field of the hosts. -/
def host : Text := [','].intercalate e.patterns

def fields : List Text := e.marker.toList ++ e.host :: e.rest

/-- The line that is written for an entry. -/
def text : Text := [' '].intercalate e.fields

/-- An entry that can be read back from its line. -/
structure Readable : Prop where
  marker : ∀ m ∈ e.marker, m ∈ MARKERS
  pieces : e.patterns ≠ [] ∧ ∀ p ∈ e.patterns, ',' ∉ p
  host : IsField e.host
  first : e.marker = none → e.host ∉ MARKERS ∧ e.host.head? ≠ some '#'
  rest : ∀ f ∈ e.rest, IsField f

end Entry

local instance lawfulBEq_entry : LawfulBEq (List Char) := inferInstance

/-- The entry of a line, unless it is empty or a comment. -/
def entry? (line : Text) : Option Entry :=
  let t := trim line
  if t = [] ∨ t.head? = some '#' then none
  else match split t with
    | first :: fields =>
        if first ∈ MARKERS then
          match fields with
          | host :: rest => some ⟨some first, host.splitOn ',', rest⟩
          | [] => none
        else some ⟨none, first.splitOn ',', fields⟩
    | [] => none

theorem host_splitOn (marker : Option Text) (host : Text) (rest : List Text) :
    (Entry.mk marker (host.splitOn ',') rest).host = host := List.intercalate_splitOn ','

theorem isField_of_mem_MARKERS {m : Text} (h : m ∈ MARKERS) : IsField m ∧ m.head? = some '@' := by
  rcases List.mem_pair.mp h with rfl | rfl
  · exact ⟨⟨by decide, by decide⟩, by decide⟩
  · exact ⟨⟨by decide, by decide⟩, by decide⟩

theorem Entry.readable {line : Text} {e : Entry} (h : entry? line = some e) : e.Readable := by
  unfold entry? at h
  simp only at h
  split at h
  · cases h
  · next hhead =>
    rw [not_or] at hhead
    obtain ⟨c, rest, htrim, hc⟩ := (trim_eq_nil_or_head line).resolve_left hhead.1
    obtain ⟨field, more, hsplit⟩ := split_cons hc rest
    have hfields : ∀ f ∈ (c :: field) :: more, IsField f := by
      rw [← hsplit, ← htrim]
      exact fun f => isField_of_mem_split hhead.1
    obtain ⟨hfirst, hmore⟩ := List.forall_mem_cons.mp hfields
    have hcomma : ∀ host : Text, ∀ p ∈ host.splitOn ',', ',' ∉ p :=
      fun host p hp => (TextLines.infix_of_mem_splitOn hp).2
    simp only [htrim, hsplit] at h
    split at h
    · next hmarker =>
      cases more with
      | nil => cases h
      | cons host rest =>
          obtain ⟨hhost, hrest⟩ := List.forall_mem_cons.mp hmore
          obtain rfl := Option.some.inj h
          refine ⟨by simpa using hmarker, ⟨List.splitOn_ne_nil _ _, hcomma _⟩, ?_, by simp, hrest⟩
          rwa [host_splitOn]
    · next hmarker =>
      obtain rfl := Option.some.inj h
      refine ⟨by simp, ⟨List.splitOn_ne_nil _ _, hcomma _⟩, ?_, fun _ => ?_, hmore⟩
      · rwa [host_splitOn]
      · rw [host_splitOn]
        rw [htrim] at hhead
        exact ⟨hmarker, by simpa using hhead.2⟩

/-- An entry is read back from its line. -/
theorem Entry.Readable.entry?_text {e : Entry} (h : e.Readable) : entry? e.text = some e := by
  have hpatterns : e.host.splitOn ',' = e.patterns :=
    List.splitOn_intercalate ',' h.pieces.2 h.pieces.1
  obtain ⟨marker, patterns, rest⟩ := e
  cases marker with
  | none =>
      have hall : ∀ f ∈ Entry.host ⟨none, patterns, rest⟩ :: rest, IsField f :=
        List.forall_mem_cons.mpr ⟨h.host, h.rest⟩
      obtain ⟨c, more, htext, hfirst, -⟩ := head_intercalate h.host rest
      obtain ⟨hmarker, hcomment⟩ := h.first rfl
      rw [hfirst] at hcomment
      have hread : ¬ ([' '].intercalate (Entry.host ⟨none, patterns, rest⟩ :: rest) = [] ∨
          ([' '].intercalate (Entry.host ⟨none, patterns, rest⟩ :: rest)).head? = some '#') := by
        rw [htext]
        simpa using hcomment
      change entry? ([' '].intercalate (Entry.host ⟨none, patterns, rest⟩ :: rest)) = _
      unfold entry?
      simp only [trim_intercalate hall, split_intercalate hall]
      rw [if_neg hread, if_neg hmarker, hpatterns]
  | some m =>
      obtain ⟨hfield, hat⟩ := isField_of_mem_MARKERS (h.marker m rfl)
      have hall : ∀ f ∈ m :: Entry.host ⟨some m, patterns, rest⟩ :: rest, IsField f :=
        List.forall_mem_cons.mpr ⟨hfield, List.forall_mem_cons.mpr ⟨h.host, h.rest⟩⟩
      obtain ⟨c, more, htext, hfirst, -⟩ := head_intercalate hfield (Entry.host ⟨some m, patterns, rest⟩ :: rest)
      obtain rfl : '@' = c := by simpa [hat] using hfirst
      change entry? ([' '].intercalate (m :: Entry.host ⟨some m, patterns, rest⟩ :: rest)) = _
      unfold entry?
      simp only [trim_intercalate hall, split_intercalate hall]
      rw [htext, if_neg (by simp), if_pos (h.marker m rfl), hpatterns]

/-! ## One line -/

section Line

variable (platform : Platform) (names : List Text)

/-- The entry without the patterns that go. -/
def Entry.others (e : Entry) : Entry := { e with patterns := e.patterns.filter (!goes platform names ·) }

/-- The line names a target. -/
def Names (line : Text) : Prop := ∃ e, entry? line = some e ∧ ∃ p ∈ e.patterns, goes platform names p = true

/-- The line names targets and nothing else. -/
def NamesOnly (line : Text) : Prop := ∃ e, entry? line = some e ∧ ∀ p ∈ e.patterns, goes platform names p = true

/-- The line names a target and another host. -/
def NamesOthersToo (e : Entry) : Prop :=
  (∃ p ∈ e.patterns, goes platform names p = true) ∧ ∃ p ∈ e.patterns, goes platform names p = false

/-- What should become of a line. -/
inductive Pruned : Text → Option Text → Prop
  | untouched {line : Text} (h : ¬ Names platform names line) : Pruned line (some line)
  | gone {line : Text} (h : NamesOnly platform names line) : Pruned line none
  | thinned {line line' : Text} {e : Entry} (he : entry? line = some e) (h : NamesOthersToo platform names e)
      (hnl : '\n' ∉ line') (h' : entry? line' = some (e.others platform names)) : Pruned line (some line')

variable {platform names}

/-- What `pruneLine` makes of a line. -/
theorem pruneLine_eq (line : Text) : pruneLine platform line names =
    match entry? line with
    | none => some line
    | some e =>
        if (e.others platform names).patterns.length = e.patterns.length then some line
        else if (e.others platform names).patterns = [] then none
        else some (e.others platform names).text := by
  unfold pruneLine entry?
  simp only
  split
  · rfl
  · next hhead =>
    rw [not_or] at hhead
    obtain ⟨c, rest, htrim, hc⟩ := (trim_eq_nil_or_head line).resolve_left hhead.1
    obtain ⟨field, more, hsplit⟩ := split_cons hc rest
    simp only [htrim, hsplit, List.getD_cons_zero, List.contains_iff_mem]
    by_cases hmarker : c :: field ∈ MARKERS
    · cases more with
      | nil => simp [hmarker]
      | cons host more =>
          have hne : host ≠ [] := by
            refine ne_nil_of_mem_split hhead.1 ?_
            rw [htrim, hsplit]
            simp
          simp [hmarker, hne, Entry.others, Entry.text, Entry.fields, Entry.host]
    · simp [hmarker, Entry.others, Entry.text, Entry.fields, Entry.host]

/-- What is left of the hosts is neither empty nor, at the start of a line, a marker or a comment. -/
def StaysEntry (platform : Platform) (names : List Text) (e : Entry) : Prop :=
  (e.others platform names).host ≠ [] ∧
    (e.marker = none → (e.others platform names).host ∉ MARKERS ∧ (e.others platform names).host.head? ≠ some '#')

theorem splitOn_host {e : Entry} (h : e.Readable) : e.host.splitOn ',' = e.patterns :=
  List.splitOn_intercalate ',' h.pieces.2 h.pieces.1

theorem others_patterns_ne_nil {e : Entry} (h : NamesOthersToo platform names e) :
    (e.others platform names).patterns ≠ [] := by
  obtain ⟨-, p, hp, hstays⟩ := h
  exact List.ne_nil_of_mem (List.mem_filter.mpr ⟨hp, by simp [hstays]⟩)

theorem not_space_others {e : Entry} (he : e.Readable) :
    ∀ c ∈ (e.others platform names).host, isJsSpace c = false := by
  intro c hc
  rcases mem_intercalate hc with hc | ⟨p, hp, hc⟩
  · obtain rfl := List.mem_singleton.mp hc
    decide
  · have hpiece : p ∈ e.host.splitOn ',' := by
      rw [splitOn_host he]
      exact List.mem_of_mem_filter hp
    have hin : p <:+: e.host := (TextLines.infix_of_mem_splitOn hpiece).1
    exact he.host.space c (hin.subset hc)

theorem others_readable_iff {e : Entry} (he : e.Readable) (h : NamesOthersToo platform names e) :
    (e.others platform names).Readable ↔ StaysEntry platform names e := by
  constructor
  · exact fun hothers => ⟨hothers.host.ne_nil, hothers.first⟩
  · rintro ⟨hne, hfirst⟩
    have hcomma : ∀ p ∈ (e.others platform names).patterns, ',' ∉ p :=
      fun p hp => he.pieces.2 p (List.mem_of_mem_filter hp)
    exact ⟨he.marker, ⟨others_patterns_ne_nil h, hcomma⟩, ⟨hne, not_space_others he⟩, hfirst, he.rest⟩

theorem pruneLine_of_not_names {line : Text} (h : ¬ Names platform names line) :
    pruneLine platform line names = some line := by
  rw [pruneLine_eq]
  cases he : entry? line with
  | none => rfl
  | some e =>
      have hall : (e.others platform names).patterns = e.patterns := by
        refine List.filter_eq_self.mpr fun p hp => ?_
        rw [Bool.not_eq_true', Bool.eq_false_iff]
        exact fun hgoes => h ⟨e, he, p, hp, hgoes⟩
      simp [hall]

theorem pruneLine_of_namesOnly {line : Text} (h : NamesOnly platform names line) :
    pruneLine platform line names = none := by
  obtain ⟨e, he, hall⟩ := h
  have hnil : (e.others platform names).patterns = [] :=
    List.filter_eq_nil_iff.mpr fun p hp => by simp [hall p hp]
  have hlen : ¬ 0 = e.patterns.length := by
    have hne := (Entry.readable he).pieces.1
    rwa [eq_comm, List.length_eq_zero_iff]
  rw [pruneLine_eq, he]
  simp [hnil, hlen]

theorem pruneLine_of_namesOthersToo {line : Text} {e : Entry} (he : entry? line = some e)
    (h : NamesOthersToo platform names e) :
    pruneLine platform line names = some (e.others platform names).text := by
  have hlt : (e.others platform names).patterns.length < e.patterns.length := by
    obtain ⟨p, hp, hgoes⟩ := h.1
    exact List.length_filter_lt_length_iff_exists.mpr ⟨p, hp, by simp [hgoes]⟩
  rw [pruneLine_eq, he]
  simp [hlt.ne, others_patterns_ne_nil h]

/-- A line names no target, or targets only, or other hosts too. -/
theorem names_cases (platform : Platform) (names : List Text) (line : Text) :
    ¬ Names platform names line ∨ NamesOnly platform names line ∨
      ∃ e, entry? line = some e ∧ NamesOthersToo platform names e := by
  by_cases hnames : Names platform names line
  · obtain ⟨e, he, hsome⟩ := hnames
    by_cases hall : ∀ p ∈ e.patterns, goes platform names p = true
    · exact .inr (.inl ⟨e, he, hall⟩)
    · push Not at hall
      obtain ⟨p, hp, hstays⟩ := hall
      exact .inr (.inr ⟨e, he, hsome, p, hp, by simpa using hstays⟩)
  · exact .inl hnames

theorem NamesOnly.toNames {line : Text} (h : NamesOnly platform names line) : Names platform names line := by
  obtain ⟨e, he, hall⟩ := h
  obtain ⟨p, rest, hp⟩ := List.exists_cons_of_ne_nil (Entry.readable he).pieces.1
  have hmem : p ∈ e.patterns := by simp [hp]
  exact ⟨e, he, p, hmem, hall p hmem⟩

theorem NamesOthersToo.not_namesOnly {line : Text} {e : Entry} (he : entry? line = some e)
    (h : NamesOthersToo platform names e) : ¬ NamesOnly platform names line := by
  rintro ⟨e', he', hall⟩
  obtain rfl : e = e' := Option.some.inj (he.symm.trans he')
  obtain ⟨-, p, hp, hstays⟩ := h
  rw [hall p hp] at hstays
  cases hstays

theorem pruneLine_eq_none_iff {line : Text} :
    pruneLine platform line names = none ↔ NamesOnly platform names line := by
  rcases names_cases platform names line with hnot | honly | ⟨e, he, hothers⟩
  · rw [pruneLine_of_not_names hnot]
    exact iff_of_false (by simp) fun honly => hnot honly.toNames
  · exact iff_of_true (pruneLine_of_namesOnly honly) honly
  · rw [pruneLine_of_namesOthersToo he hothers]
    exact iff_of_false (by simp) (hothers.not_namesOnly he)

theorem not_names_others {line : Text} {e : Entry} (h : entry? line = some (e.others platform names)) :
    ¬ Names platform names line := by
  rintro ⟨e', he', p, hp, hgoes⟩
  rw [h] at he'
  obtain rfl := Option.some.inj he'
  have hstays := (List.mem_filter.mp hp).2
  rw [hgoes] at hstays
  cases hstays

theorem newline_notMem_others {e : Entry} (h : e.Readable) : '\n' ∉ (e.others platform names).text := by
  intro hmem
  rcases mem_intercalate hmem with hsep | ⟨f, hf, hc⟩
  · exact absurd hsep (by decide)
  · refine AuthorizedKeys.newline_notMem_of_not_space ?_ hc
    rcases List.mem_append.mp hf with hf | hf
    · have hmarker : f ∈ e.marker := by simpa [Entry.others] using hf
      exact (isField_of_mem_MARKERS (h.marker f hmarker)).1.space
    · rcases List.mem_cons.mp hf with rfl | hf
      · exact not_space_others h
      · exact (h.rest f hf).space

/-- What `pruneLine` writes is a line. -/
theorem newline_notMem_pruneLine {line out : Text} (hline : '\n' ∉ line)
    (h : pruneLine platform line names = some out) : '\n' ∉ out := by
  rcases names_cases platform names line with hnot | honly | ⟨e, he, hothers⟩
  · rw [pruneLine_of_not_names hnot] at h
    exact Option.some.inj h ▸ hline
  · rw [pruneLine_of_namesOnly honly] at h
    cases h
  · rw [pruneLine_of_namesOthersToo he hothers] at h
    exact Option.some.inj h ▸ newline_notMem_others (Entry.readable he)

end Line

/-! ## The file -/

section File

variable (platform : Platform) (content : Text) (targets : List KnownHostTarget)

/-- What a file of this content holds after `pruneKnownHostsFile`. -/
def fileAfter : Text := (pruneKnownHostsFile platform (some content) targets).1.getD []

/-- The targets are gone from the file, and nothing else is. -/
structure Forgotten : Prop where
  unnamed : ∀ line ∈ (fileAfter platform content targets).splitOn '\n', ¬ Names platform (namesOf targets) line
  lines : ∃ outs, List.Forall₂ (Pruned platform (namesOf targets)) (content.splitOn '\n') outs ∧
    fileAfter platform content targets = ['\n'].intercalate outs.reduceOption
  idempotent : (pruneKnownHosts platform (pruneKnownHosts platform content targets).1 targets).1 =
    (pruneKnownHosts platform content targets).1

/-- A line that names other hosts too is not alone: another one goes with the targets. -/
def RewrittenIfThinned : Prop :=
  (∃ line ∈ content.splitOn '\n', ∃ e, entry? line = some e ∧ NamesOthersToo platform (namesOf targets) e) →
    ∃ line ∈ content.splitOn '\n', NamesOnly platform (namesOf targets) line

/-- Every line that names other hosts too can be read without the targets. -/
def ThinnedStayEntries : Prop :=
  ∀ line ∈ content.splitOn '\n', ∀ e, entry? line = some e → NamesOthersToo platform (namesOf targets) e →
    StaysEntry platform (namesOf targets) e

variable {platform content targets}

theorem not_names_of_no_names (line : Text) : ¬ Names platform [] line := by
  rintro ⟨e, -, p, -, hgoes⟩
  have hhash : matchesHashed platform p [] = false := by
    unfold matchesHashed
    split <;> rfl
  simp [goes, hhash] at hgoes

theorem reduceOption_map_some (ls : List Text) : (ls.map some).reduceOption = ls := by
  induction ls with
  | nil => rfl
  | cons l ls ih => rw [List.map_cons, List.reduceOption_cons_of_some, ih]

/-- What becomes of the text, whether or not there is a target. -/
theorem pruneKnownHosts_fst : (pruneKnownHosts platform content targets).1 =
    ['\n'].intercalate ((content.splitOn '\n').map (pruneLine platform · (namesOf targets))).reduceOption := by
  unfold pruneKnownHosts
  simp only
  split
  · next hnil =>
      have hmap : ((content.splitOn '\n').map (pruneLine platform · (namesOf targets))) =
          (content.splitOn '\n').map some := by
        refine List.map_congr_left fun line _ => pruneLine_of_not_names ?_
        rw [hnil]
        exact not_names_of_no_names line
      rw [hmap, reduceOption_map_some, List.intercalate_splitOn]
  · rfl

theorem pruneKnownHosts_snd_pos : 0 < (pruneKnownHosts platform content targets).2 ↔
    ∃ line ∈ content.splitOn '\n', NamesOnly platform (namesOf targets) line := by
  unfold pruneKnownHosts
  simp only
  split
  · next hnil =>
      refine iff_of_false (by simp) ?_
      rintro ⟨line, -, honly⟩
      rw [hnil] at honly
      exact not_names_of_no_names line honly.toNames
  · rw [List.countP_pos_iff]
    simp [pruneLine_eq_none_iff]

/-- Where the condition holds, the file holds the pruned text. -/
theorem fileAfter_eq (h : RewrittenIfThinned platform content targets) :
    fileAfter platform content targets = (pruneKnownHosts platform content targets).1 := by
  unfold fileAfter pruneKnownHostsFile
  simp only
  split
  · rfl
  · next hnone =>
      rw [pruneKnownHosts_snd_pos] at hnone
      have hmap : ((content.splitOn '\n').map (pruneLine platform · (namesOf targets))) =
          (content.splitOn '\n').map some := by
        refine List.map_congr_left fun line hline => pruneLine_of_not_names ?_
        rcases names_cases platform (namesOf targets) line with hnot | honly | ⟨e, he, hothers⟩
        · exact hnot
        · exact absurd ⟨line, hline, honly⟩ hnone
        · exact absurd (h ⟨line, hline, e, he, hothers⟩) hnone
      rw [pruneKnownHosts_fst, hmap, reduceOption_map_some, List.intercalate_splitOn]
      rfl

/-- Where every thinned line stays an entry, each line becomes what it should. -/
theorem pruned_pruneLine (h : ThinnedStayEntries platform content targets) {line : Text}
    (hline : line ∈ content.splitOn '\n') :
    Pruned platform (namesOf targets) line (pruneLine platform line (namesOf targets)) := by
  rcases names_cases platform (namesOf targets) line with hnot | honly | ⟨e, he, hothers⟩
  · rw [pruneLine_of_not_names hnot]
    exact .untouched hnot
  · rw [pruneLine_of_namesOnly honly]
    exact .gone honly
  · have hreadable := (others_readable_iff (Entry.readable he) hothers).mpr (h line hline e he hothers)
    rw [pruneLine_of_namesOthersToo he hothers]
    exact .thinned he hothers (newline_notMem_others (Entry.readable he)) hreadable.entry?_text

theorem Pruned.of_some {names : List Text} {line out : Text} (h : Pruned platform names line (some out))
    (hline : '\n' ∉ line) : '\n' ∉ out ∧ ¬ Names platform names out := by
  cases h with
  | untouched h => exact ⟨hline, h⟩
  | thinned he h hnl h' => exact ⟨hnl, not_names_others h'⟩

theorem Pruned.eq_none_iff {names : List Text} {line : Text} {out : Option Text}
    (h : Pruned platform names line out) : out = none ↔ NamesOnly platform names line := by
  cases h with
  | untouched h => exact iff_of_false (by simp) fun honly => h honly.toNames
  | gone h => exact iff_of_true rfl h
  | thinned he h hnl h' => exact iff_of_false (by simp) (h.not_namesOnly he)

theorem entry?_nil : entry? [] = none := by decide

/-- The lines of some texts joined by newlines: the texts, or one empty line. -/
theorem splitOn_intercalate_newline {ls : List Text} (h : ∀ l ∈ ls, '\n' ∉ l) :
    (['\n'].intercalate ls).splitOn '\n' = if ls = [] then [[]] else ls := by
  split
  · next hnil => simp [hnil, List.splitOn_nil]
  · next hne => exact List.splitOn_intercalate '\n' h hne

/-- Every line that is left comes from a line and names no target. -/
theorem mem_reduceOption_pruned {lines : List Text} {outs : List (Option Text)} (hlines : ∀ l ∈ lines, '\n' ∉ l)
    (h : List.Forall₂ (Pruned platform (namesOf targets)) lines outs) {out : Text} (hout : out ∈ outs.reduceOption) :
    '\n' ∉ out ∧ ¬ Names platform (namesOf targets) out := by
  induction h with
  | nil => cases hout
  | @cons line o lines outs hpruned _ ih =>
      obtain ⟨hline, hlines⟩ := List.forall_mem_cons.mp hlines
      cases o with
      | none => exact ih hlines (by simpa using hout)
      | some l =>
          rw [List.reduceOption_cons_of_some] at hout
          rcases List.mem_cons.mp hout with rfl | hout
          · exact hpruned.of_some hline
          · exact ih hlines hout

theorem unnamed_of_pruned {outs : List (Option Text)}
    (h : List.Forall₂ (Pruned platform (namesOf targets)) (content.splitOn '\n') outs) :
    ∀ line ∈ (['\n'].intercalate outs.reduceOption).splitOn '\n', ¬ Names platform (namesOf targets) line := by
  have hlines : ∀ l ∈ content.splitOn '\n', '\n' ∉ l := fun l hl => (TextLines.infix_of_mem_splitOn hl).2
  intro line hline
  rw [splitOn_intercalate_newline fun l hl => (mem_reduceOption_pruned hlines h hl).1] at hline
  split at hline
  · obtain rfl := List.mem_singleton.mp hline
    rintro ⟨e, he, -⟩
    rw [entry?_nil] at he
    cases he
  · exact (mem_reduceOption_pruned hlines h hline).2

/-- Two lists that lack the same places and have the same texts are the same. -/
theorem eq_of_reduceOption_eq {outs outs' : List (Option Text)}
    (h : List.Forall₂ (fun o o' => o = none ↔ o' = none) outs outs')
    (heq : outs.reduceOption = outs'.reduceOption) : outs = outs' := by
  induction h with
  | nil => rfl
  | @cons o o' outs outs' hnone _ ih =>
      cases o with
      | none =>
          obtain rfl := hnone.mp rfl
          exact congrArg _ (ih (by simpa using heq))
      | some l =>
          cases o' with
          | none => exact absurd (hnone.mpr rfl) (by simp)
          | some l' =>
              rw [List.reduceOption_cons_of_some, List.reduceOption_cons_of_some] at heq
              obtain ⟨rfl, htail⟩ := List.cons.inj heq
              exact congrArg _ (ih htail)

theorem length_reduceOption_eq {outs outs' : List (Option Text)}
    (h : List.Forall₂ (fun o o' => o = none ↔ o' = none) outs outs') :
    outs.reduceOption.length = outs'.reduceOption.length := by
  induction h with
  | nil => rfl
  | @cons o o' outs outs' hnone _ ih =>
      cases o with
      | none =>
          obtain rfl := hnone.mp rfl
          simpa using ih
      | some l =>
          cases o' with
          | none => exact absurd (hnone.mpr rfl) (by simp)
          | some l' => simpa [List.reduceOption_cons_of_some] using ih

theorem intercalate_newline_injective {ls ls' : List Text} (hlen : ls.length = ls'.length)
    (h : ∀ l ∈ ls, '\n' ∉ l) (h' : ∀ l ∈ ls', '\n' ∉ l)
    (heq : ['\n'].intercalate ls = ['\n'].intercalate ls') : ls = ls' := by
  have hsplit := congrArg (List.splitOn '\n') heq
  rw [splitOn_intercalate_newline h, splitOn_intercalate_newline h'] at hsplit
  cases ls with
  | nil => exact (List.length_eq_zero_iff.mp hlen.symm).symm
  | cons l ls =>
      cases ls' with
      | nil => cases hlen
      | cons l' ls' => simpa using hsplit

/-- The targets are gone from the file, and nothing else is, exactly when a line that names other hosts too is
not the only one to go and stays an entry without them. -/
theorem forgotten_iff (platform : Platform) (content : Text) (targets : List KnownHostTarget) :
    Forgotten platform content targets ↔
      RewrittenIfThinned platform content targets ∧ ThinnedStayEntries platform content targets := by
  have hlines : ∀ l ∈ content.splitOn '\n', '\n' ∉ l := fun l hl => (TextLines.infix_of_mem_splitOn hl).2
  constructor
  · intro h
    have hrewritten : RewrittenIfThinned platform content targets := by
      rintro ⟨line, hline, e, he, hothers⟩
      by_contra hnone
      have hfile : fileAfter platform content targets = content := by
        unfold fileAfter pruneKnownHostsFile
        simp only
        rw [if_neg (pruneKnownHosts_snd_pos.not.mpr hnone)]
        rfl
      obtain ⟨p, hp, hgoes⟩ := hothers.1
      exact h.unnamed line (hfile.symm ▸ hline) ⟨e, he, p, hp, hgoes⟩
    refine ⟨hrewritten, fun line hline e he hothers => ?_⟩
    obtain ⟨outs, houts, hfile⟩ := h.lines
    set pruned := (content.splitOn '\n').map (pruneLine platform · (namesOf targets)) with hpruned
    -- the texts of `outs` and those that the code writes are the same
    have hnone : List.Forall₂ (fun o o' => o = none ↔ o' = none) outs pruned := by
      rw [hpruned, List.forall₂_map_right_iff]
      exact houts.flip.imp fun line o ho => ho.eq_none_iff.trans pruneLine_eq_none_iff.symm
    have htexts : ∀ l ∈ pruned.reduceOption, '\n' ∉ l := by
      intro l hl
      obtain ⟨line', hline', hout⟩ := List.mem_map.mp (List.reduceOption_mem_iff.mp hl)
      exact newline_notMem_pruneLine (hlines line' hline') hout
    have heq : outs = pruned := by
      refine eq_of_reduceOption_eq hnone (intercalate_newline_injective (length_reduceOption_eq hnone)
        (fun l hl => (mem_reduceOption_pruned hlines houts hl).1) htexts ?_)
      rw [← hfile, fileAfter_eq hrewritten, pruneKnownHosts_fst]
    rw [heq, hpruned, List.forall₂_map_right_iff, List.forall₂_same] at houts
    have hline' := houts line hline
    rw [pruneLine_of_namesOthersToo he hothers] at hline'
    rw [← others_readable_iff (Entry.readable he) hothers]
    cases hline' with
    | untouched hnot =>
        obtain ⟨p, hp, hgoes⟩ := hothers.1
        exact absurd ⟨e, he, p, hp, hgoes⟩ hnot
    | thinned he' _ _ hthin =>
        obtain rfl := Option.some.inj (he.symm.trans he')
        exact Entry.readable hthin
  · rintro ⟨hrewritten, hstay⟩
    have houts : List.Forall₂ (Pruned platform (namesOf targets)) (content.splitOn '\n')
        ((content.splitOn '\n').map (pruneLine platform · (namesOf targets))) := by
      rw [List.forall₂_map_right_iff, List.forall₂_same]
      exact fun line hline => pruned_pruneLine hstay hline
    have hunnamed := unnamed_of_pruned houts
    rw [← pruneKnownHosts_fst] at hunnamed
    refine ⟨?_, ⟨_, houts, ?_⟩, ?_⟩
    · rwa [fileAfter_eq hrewritten]
    · rw [fileAfter_eq hrewritten, pruneKnownHosts_fst]
    · rw [@pruneKnownHosts_fst platform (pruneKnownHosts platform content targets).1 targets]
      have hmap : (((pruneKnownHosts platform content targets).1.splitOn '\n').map
          (pruneLine platform · (namesOf targets))) =
            ((pruneKnownHosts platform content targets).1.splitOn '\n').map some :=
        List.map_congr_left fun line hline => pruneLine_of_not_names (hunnamed line hline)
      rw [hmap, reduceOption_map_some, List.intercalate_splitOn]

end File

/-! ## A line with another host -/

/-- Letters in lower case, and no hash that matches. -/
def plainPlatform : Platform := ⟨List.map Char.toLower, fun _ _ => []⟩

def sharedLine : Text := "203.0.113.10,other.example ssh-ed25519 AAAA\n".toList

def recycled : List KnownHostTarget := [⟨"203.0.113.10".toList, none⟩]

/-- The file is not rewritten, and still names the address. -/
theorem sharedLine_stays : fileAfter plainPlatform sharedLine recycled = sharedLine ∧
    ¬ Forgotten plainPlatform sharedLine recycled := by
  have hstays : fileAfter plainPlatform sharedLine recycled = sharedLine := by decide +kernel
  refine ⟨hstays, fun h => ?_⟩
  refine h.unnamed "203.0.113.10,other.example ssh-ed25519 AAAA".toList ?_ ?_
  · rw [hstays]
    decide +kernel
  · refine ⟨⟨none, ["203.0.113.10".toList, "other.example".toList], ["ssh-ed25519".toList, "AAAA".toList]⟩,
      by decide +kernel, "203.0.113.10".toList, by simp, by decide +kernel⟩

/-! ## A destroyed server -/

section Forget

open Async

/-- The inventory and the file of known hosts. -/
structure Records where
  hosts : List InventoryHost
  knownHosts : Option Text

/-- What can be answered: everything can fail, and a file that failed to be written may hold anything. -/
def records (platform : Platform) : Surroundings ForgetOp ForgetOp.Answer Records
  | .list, s, x, s' => s' = s ∧ ∀ hosts, x = .ok hosts → hosts = s.hosts
  | .remove name, s, x, s' => s'.knownHosts = s.knownHosts ∧
      (x = .ok () → s'.hosts = s.hosts.filter (·.name ≠ name))
  | .pruneKnownHostsFile targets, s, x, s' => s'.hosts = s.hosts ∧
      ∀ removed, x = .ok removed → (s'.knownHosts, removed) = pruneKnownHostsFile platform s.knownHosts targets
  | .audit _ _, s, _, s' => s' = s

/-- A cleanup without a warning forgot the stale hosts and pruned the file of their addresses. -/
def Cleaned (platform : Platform) (server : DestroyedServer) (before : Records) (outcome : ForgetOutcome)
    (after : Records) : Prop :=
  outcome.warning = none →
    outcome.forgotten = (staleHostsFor before.hosts server).map (·.name) ∧
    (after.knownHosts, outcome.knownHostsPruned) = pruneKnownHostsFile platform before.knownHosts
      (knownHostTargets (staleHostsFor before.hosts server) server)

variable {platform : Platform}

theorem safe_removeHosts {s : Records} (forgotten : List Text) (stale : List InventoryHost) :
    Safe (records platform) (fun _ => True)
      (fun r s' => ∀ names, r = .ok names →
        names = forgotten ++ stale.map (·.name) ∧ s'.knownHosts = s.knownHosts)
      (removeHosts forgotten stale) s := by
  induction stale generalizing forgotten s with
  | nil => exact Safe.of_done trivial fun names h => ⟨by simpa using (Except.ok.inj h).symm, rfl⟩
  | cons host rest ih =>
      refine Safe.perform trivial fun (x : Except String Unit) s₁ hx => ?_
      obtain ⟨hfile, -⟩ := hx
      cases x with
      | error e => exact Safe.of_done trivial (by simp)
      | ok u =>
          refine (ih (forgotten ++ [host.name])).mono fun r s' _ h names hr => ?_
          obtain ⟨hnames, hfile'⟩ := h names hr
          exact ⟨by simpa using hnames, hfile'.trans hfile⟩

theorem safe_forgetRecords (server : DestroyedServer) (s : Records) :
    Safe (records platform) (fun _ => True)
      (fun r s' => ∀ outcome, r = .ok outcome → Cleaned platform server s outcome s')
      (forgetRecords server) s := by
  refine Safe.perform trivial fun (listed : Except String (List InventoryHost)) s₁ hlist => ?_
  obtain ⟨rfl, hhosts⟩ := hlist
  cases listed with
  | error e => exact Safe.of_done trivial (by simp)
  | ok hosts =>
      obtain rfl := hhosts hosts rfl
      change Safe _ _ _ (removeHosts [] (staleHostsFor s₁.hosts server) >>= _) s₁
      refine Safe.seq (safe_removeHosts [] _) (fun names s₂ _ hnames => ?_) fun _ _ _ => by simp
      obtain ⟨rfl, hfile⟩ := hnames
      refine Safe.perform trivial fun (pruned : Except String ℕ) s₃ hpruned => ?_
      obtain ⟨-, hpruned⟩ := hpruned
      cases pruned with
      | error e => exact Safe.of_done trivial (by simp)
      | ok removed =>
          refine Safe.perform trivial fun (audited : Except String Unit) s₄ haudit => ?_
          obtain rfl := haudit
          cases audited with
          | error e => exact Safe.of_done trivial (by simp)
          | ok u =>
              refine Safe.of_done trivial fun outcome houtcome _ => ?_
              obtain rfl := Except.ok.inj houtcome
              exact ⟨rfl, by rw [hpruned removed rfl, hfile]⟩

/-- The cleanup never throws, and without a warning the destroyed server's addresses are pruned. -/
theorem forget_prunes {server : DestroyedServer} {s s' : Records} {t : Trace ForgetOp ForgetOp.Answer}
    {r : Except Interrupted ForgetOutcome}
    (h : Steps (records platform) (forgetDestroyedServer server) s t (.done r) s') :
    ∃ outcome, r = .ok outcome ∧ Cleaned platform server s outcome s' := by
  have hsafe : Safe (records platform) (fun _ => True)
      (fun r s' => ∃ outcome, r = .ok outcome ∧ Cleaned platform server s outcome s')
      (forgetDestroyedServer server) s := by
    refine Safe.tryCatch ((safe_forgetRecords server s).mono fun r s' _ hr => ?_)
    cases r with
    | ok outcome => exact ⟨outcome, rfl, hr outcome rfl⟩
    | error e => exact Safe.of_done trivial ⟨_, rfl, fun hwarning => by cases hwarning⟩
  exact (Safe.steps hsafe h).2 r rfl

/-- The address of the destroyed server is among the targets, and so is every stale host's. -/
theorem mem_knownHostTargets {stale : List InventoryHost} {server : DestroyedServer} {t : KnownHostTarget} :
    t ∈ knownHostTargets stale server ↔
      (∃ h ∈ stale, t = ⟨h.address, some h.port⟩) ∨
        server.trimmedAddress ≠ [] ∧ t = ⟨server.trimmedAddress, some 22⟩ := by
  unfold knownHostTargets
  simp only [List.mem_append, List.mem_map]
  refine or_congr (exists_congr fun h => and_congr_right fun _ => eq_comm) ?_
  split
  · next hnil => simp [hnil]
  · next hne => simp [hne]

end Forget

end Vops.KnownHosts
