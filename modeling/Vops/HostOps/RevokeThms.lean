import Vops.HostOps.NeverStranded

/-!
# The last way in

* `Sshd`, `letsIn` — the key that a line of `authorized_keys` lets in, as `sshd` reads the line.
* `WayIn` — a line that stays lets a key in, or the key that was verified is let in from elsewhere.
* `Told` — the lines of a file are what the code takes them for, as far as that decides a way in:
  `safe_iff_told`.
* `revoke_leaves_a_way_in` — every file, and every run of revoke-ops that does not force.
-/

namespace Vops.HostOps

open AuthorizedKeys KeyProg Async
open TextLines (lines)

/-! ## What `sshd` reads -/

/-- Which texts are a key of a type, and under which options a line lets its key in (those of an authority,
and those that are not known, let none in). A key is written in base 64. -/
structure Sshd where
  isKey : Text → Text → Bool
  grants : Text → Bool
  base64 : ∀ type data, isKey type data = true → data ≠ [] ∧ ∀ c ∈ data, isJsSpace c = false

def isBlank (c : Char) : Bool := c == ' ' || c == '\t'

/-- The text up to the first blank. -/
def firstWord (cs : Text) : Text := cs.takeWhile fun c => !isBlank c

/-- The text behind the first word and the blanks after it. -/
def afterWord (cs : Text) : Text := (cs.dropWhile fun c => !isBlank c).dropWhile isBlank

/-- The options of a line: up to the first blank that is not quoted. -/
def optionsAt : Bool → Text → Text
  | quoted, '\\' :: '"' :: cs => '\\' :: '"' :: optionsAt quoted cs
  | quoted, c :: cs =>
      if !quoted && isBlank c then [] else c :: optionsAt (if c = '"' then !quoted else quoted) cs
  | _, [] => []

namespace Sshd

variable (d : Sshd)

/-- The key at the start of a text. -/
def readKey (cs : Text) : Option Text :=
  let data := firstWord (afterWord cs)
  if d.isKey (firstWord cs) data then some data else none

/-- The key that a line lets in: it is read at the start or, that not being a key, behind the options. -/
def letsIn (line : Text) : Option Text :=
  let t := line.dropWhile isBlank
  let options := optionsAt false t
  if t = [] ∨ t.head? = some '#' then none
  else match d.readKey t with
    | some key => some key
    | none =>
        if d.grants options then d.readKey ((t.drop options.length).dropWhile isBlank) else none

end Sshd

variable {d : Sshd}

theorem Sshd.readKey_eq_some {cs key : Text} (h : d.readKey cs = some key) :
    key ≠ [] ∧ ∀ c ∈ key, isJsSpace c = false := by
  unfold readKey at h
  dsimp only at h
  split at h
  · next hkey =>
      cases h
      exact d.base64 _ _ hkey
  · cases h

theorem Sshd.letsIn_eq_some {line key : Text} (h : d.letsIn line = some key) :
    key ≠ [] ∧ ∀ c ∈ key, isJsSpace c = false := by
  unfold letsIn at h
  dsimp only at h
  split at h
  · cases h
  · split at h
    · next hread =>
        cases h
        exact readKey_eq_some hread
    · split at h
      · exact readKey_eq_some h
      · cases h

/-! ## A way in -/

/-- A key is let in by a line of the file, or from elsewhere. -/
def Authorized (d : Sshd) (elsewhere : Text → Prop) (file key : Text) : Prop :=
  elsewhere key ∨ ∃ l ∈ lines file, d.letsIn l = some key

/-- A line that stays lets a key in, or the verified key is still authorized. -/
def WayIn (d : Sshd) (elsewhere : Text → Prop) (tag file : Text) (verified : Option Text) : Prop :=
  (∃ l ∈ lines file, isOpsLine l tag = false ∧ (d.letsIn l).isSome) ∨
    ∃ pub, verified = some pub ∧ Authorized d elsewhere file (keyBlob pub)

/-- A line that stays lets a key in; or no line that stays is taken for one that does, and every key that a
removed line lets in is seen in a removed line. -/
def Told (d : Sshd) (tag file : Text) : Prop :=
  (∃ l ∈ lines file, isOpsLine l tag = false ∧ (d.letsIn l).isSome) ∨
    (∀ l ∈ lines file, isOpsLine l tag = false → isKeyLine l = false) ∧
      ∀ l ∈ lines file, isOpsLine l tag = true → ∀ key, d.letsIn l = some key →
        ∃ l' ∈ lines file, isOpsLine l' tag = true ∧ isKeyLine l' = true ∧ key <:+: l'

/-! ## The lines of a file -/

theorem mem_dropBlank {ls : List Text} {l : Text} (h : l ∈ ls) (hne : l ≠ []) :
    l ∈ TextLines.dropBlank ls := by
  induction ls using List.reverseRecOn with
  | nil => cases h
  | append_singleton ls last ih =>
      by_cases hlast : last = []
      · rw [hlast, TextLines.dropBlank_concat_nil]
        refine ih ((List.mem_append.mp h).resolve_right ?_)
        rw [hlast]
        simpa using hne
      · rwa [TextLines.dropBlank_concat _ hlast]

theorem isKeyLine_nil : isKeyLine [] = false := by simp [isKeyLine, keyOf, AuthorizedKeys.trim]

theorem mem_toLines {content l : Text} (h : l ∈ lines content) (hne : l ≠ []) : l ∈ toLines content := by
  rw [toLines_eq]
  exact mem_dropBlank h hne

theorem mem_lines_of_mem_toLines {content l : Text} (h : l ∈ toLines content) : l ∈ lines content :=
  (toLines_sublist content).subset h

/-- The lines of a text of which something is said that is not said of the empty line. -/
theorem any_toLines {P : Text → Bool} (hnil : P [] = false) (content : Text) :
    (toLines content).any P = true ↔ ∃ l ∈ lines content, P l = true := by
  rw [List.any_eq_true]
  constructor
  · rintro ⟨l, hl, hP⟩
    exact ⟨l, mem_lines_of_mem_toLines hl, hP⟩
  · rintro ⟨l, hl, hP⟩
    refine ⟨l, mem_toLines hl ?_, hP⟩
    rintro rfl
    rw [hnil] at hP
    cases hP

theorem hasOtherAuthorizedKey_iff {content tag : Text} : hasOtherAuthorizedKey content tag = true ↔
    ∃ l ∈ lines content, isOpsLine l tag = false ∧ isKeyLine l = true := by
  unfold hasOtherAuthorizedKey
  rw [any_toLines (by rw [isKeyLine_nil]; rfl)]
  simp [and_comm]

theorem authorizesBlob_iff {content data : Text} : authorizesBlob content data = true ↔
    ∃ l ∈ lines content, isKeyLine l = true ∧ data <:+: l := by
  unfold authorizesBlob
  rw [any_toLines (by rw [isKeyLine_nil]; rfl)]
  simp

/-- A line that is not empty stays exactly if it is not the ops line. -/
theorem mem_lines_removeOpsLine {content tag l : Text} (hne : l ≠ []) :
    l ∈ lines (removeOpsLine content tag).1 ↔ l ∈ lines content ∧ isOpsLine l tag = false := by
  rw [lines_removeOpsLine, List.mem_filter, Bool.not_eq_true']
  exact and_congr_left fun _ => ⟨mem_lines_of_mem_toLines, fun h => mem_toLines h hne⟩

theorem ne_nil_of_letsIn {l : Text} (h : (d.letsIn l).isSome) : l ≠ [] := by
  rintro rfl
  cases h

theorem ne_nil_of_isKeyLine {l : Text} (h : isKeyLine l = true) : l ≠ [] := by
  rintro rfl
  rw [isKeyLine_nil] at h
  cases h

/-! ## The decision -/

section Decision

variable {elsewhere : Text → Prop} {tag file : Text} {verified : Option Text}

theorem hasOther_removed : hasOtherAuthorizedKey (removeOpsLine file tag).1 tag = true ↔
    ∃ l ∈ lines file, isOpsLine l tag = false ∧ isKeyLine l = true := by
  rw [hasOtherAuthorizedKey_iff]
  constructor
  · rintro ⟨l, hl, hops, hkey⟩
    exact ⟨l, ((mem_lines_removeOpsLine (ne_nil_of_isKeyLine hkey)).mp hl).1, hops, hkey⟩
  · rintro ⟨l, hl, hops, hkey⟩
    exact ⟨l, (mem_lines_removeOpsLine (ne_nil_of_isKeyLine hkey)).mpr ⟨hl, hops⟩, hops, hkey⟩

/-- The blob is seen in a line that stays only where such a line is a key line. -/
theorem hasOther_of_authorizesBlob {data : Text}
    (h : authorizesBlob (removeOpsLine file tag).1 data = true) :
    hasOtherAuthorizedKey (removeOpsLine file tag).1 tag = true := by
  obtain ⟨l, hl, hkey, -⟩ := authorizesBlob_iff.mp h
  obtain ⟨hl, hops⟩ := (mem_lines_removeOpsLine (ne_nil_of_isKeyLine hkey)).mp hl
  exact hasOther_removed.mpr ⟨l, hl, hops, hkey⟩

/-- What the removal is allowed on. -/
theorem safe_iff : (assessRevokeSafety file (removeOpsLine file tag).1 tag verified).1 = true ↔
    hasOtherAuthorizedKey (removeOpsLine file tag).1 tag = true ∨
      keyBlob (verified.getD []) ≠ [] ∧ authorizesBlob file (keyBlob (verified.getD [])) = false := by
  unfold assessRevokeSafety
  dsimp only
  split
  · next h => exact ⟨fun _ => .inl (hasOther_of_authorizesBlob h.2), fun _ => rfl⟩
  · split
    · next h => exact ⟨fun _ => .inl h, fun _ => rfl⟩
    · next h =>
        split
        · next hblob => simp [h, hblob]
        · next hblob => split <;> simp_all

theorem keyBlob_nil : keyBlob [] = [] := rfl

/-- The public key of a blob. -/
theorem keyBlob_of_blob {key : Text} (hne : key ≠ []) (hspace : ∀ c ∈ key, isJsSpace c = false) :
    keyBlob ("ssh-ed25519 ".toList ++ key) = key := by
  have htrim : AuthorizedKeys.trim ("ssh-ed25519 ".toList ++ key) = "ssh-ed25519 ".toList ++ key := by
    refine trim_eq_self (by simp [isJsSpace]) fun c hc => hspace c ?_
    rw [List.getLast?_append_of_ne_nil _ hne] at hc
    exact List.mem_of_getLast? hc
  obtain ⟨more, hmore⟩ : ∃ more, TextLines.fields isJsSpace (key ++ []) = key :: more :=
    TextLines.fields_head hspace (by simp)
  rw [List.append_nil] at hmore
  have hfields : split ("ssh-ed25519 ".toList ++ key) = "ssh-ed25519".toList :: key :: more := by
    change TextLines.fields isJsSpace ("ssh-ed25519".toList ++ ' ' :: key) = _
    obtain ⟨c, cs, rfl⟩ := List.exists_cons_of_ne_nil hne
    rw [TextLines.fields_append (by decide) (by decide) (by simpa using hspace c List.mem_cons_self),
      hmore]
  rw [keyBlob, htrim, hfields]
  rfl

theorem wayIn_of_told (hverified : ∀ pub, verified = some pub → Authorized d elsewhere file (keyBlob pub))
    (htold : Told d tag file)
    (hsafe : (assessRevokeSafety file (removeOpsLine file tag).1 tag verified).1 = true) :
    WayIn d elsewhere tag (removeOpsLine file tag).1 verified := by
  rcases htold with ⟨l, hl, hops, hin⟩ | ⟨hkept, hremoved⟩
  · exact .inl ⟨l, (mem_lines_removeOpsLine (ne_nil_of_letsIn hin)).mpr ⟨hl, hops⟩, hops, hin⟩
  · rcases safe_iff.mp hsafe with hother | ⟨hblob, hnot⟩
    · obtain ⟨l, hl, hops, hkey⟩ := hasOther_removed.mp hother
      rw [hkept l hl hops] at hkey
      cases hkey
    · cases verified with
      | none => exact absurd keyBlob_nil hblob
      | some pub =>
          refine .inr ⟨pub, rfl, (hverified pub rfl).imp_right ?_⟩
          rintro ⟨l, hl, hin⟩
          have hne : l ≠ [] := ne_nil_of_letsIn (by rw [hin]; rfl)
          cases hops : isOpsLine l tag with
          | false => exact ⟨l, (mem_lines_removeOpsLine hne).mpr ⟨hl, hops⟩, hin⟩
          | true =>
              obtain ⟨l', hl', -, hkey', hinfix⟩ := hremoved l hl hops _ hin
              have hseen := authorizesBlob_iff.mpr ⟨l', hl', hkey', hinfix⟩
              rw [Option.getD_some, hseen] at hnot
              cases hnot

/-- A removal that is allowed leaves a way in, whatever key was verified, exactly if the lines are told. -/
theorem safe_iff_told (d : Sshd) (tag file : Text) :
    (∀ (elsewhere : Text → Prop) (verified : Option Text),
      (∀ pub, verified = some pub → Authorized d elsewhere file (keyBlob pub)) →
      (assessRevokeSafety file (removeOpsLine file tag).1 tag verified).1 = true →
        WayIn d elsewhere tag (removeOpsLine file tag).1 verified) ↔ Told d tag file := by
  refine ⟨fun h => ?_, fun htold elsewhere verified hverified => wayIn_of_told hverified htold⟩
  by_cases hin : ∃ l ∈ lines file, isOpsLine l tag = false ∧ (d.letsIn l).isSome
  · exact .inl hin
  -- No line that stays lets a key in: neither does one of the new file.
  have hnone {l key : Text} (hl : l ∈ lines (removeOpsLine file tag).1) : d.letsIn l ≠ some key := by
    intro hkey
    have hsome : (d.letsIn l).isSome := by rw [hkey]; rfl
    obtain ⟨hl, hops⟩ := (mem_lines_removeOpsLine (ne_nil_of_letsIn hsome)).mp hl
    exact hin ⟨l, hl, hops, hsome⟩
  have hnoWay {pub : Option Text} : ¬WayIn d (fun _ => False) tag (removeOpsLine file tag).1 pub := by
    rintro (⟨l, hl, -, hsome⟩ | ⟨pub, -, hfalse | ⟨l, hl, hkey⟩⟩)
    · obtain ⟨key, hkey⟩ := Option.isSome_iff_exists.mp hsome
      exact hnone hl hkey
    · exact hfalse
    · exact hnone hl hkey
  refine .inr ⟨fun l hl hops => ?_, fun l hl hops key hkey => ?_⟩
  · by_contra hline
    have hother := hasOther_removed.mpr ⟨l, hl, hops, by simpa using hline⟩
    exact hnoWay (h (fun _ => False) none (by simp) (safe_iff.mpr (.inl hother)))
  · obtain ⟨hne, hspace⟩ := Sshd.letsIn_eq_some hkey
    have hblob := keyBlob_of_blob hne hspace
    have hunsafe := mt (h (fun _ => False) (some ("ssh-ed25519 ".toList ++ key))
      (by rintro pub ⟨⟩; exact .inr ⟨l, hl, by rw [hblob]; exact hkey⟩)) hnoWay
    rw [safe_iff, Option.getD_some, hblob, not_or, not_and, Bool.not_eq_false] at hunsafe
    obtain ⟨hother, hseen⟩ := hunsafe
    obtain ⟨l', hl', hkey', hinfix⟩ := authorizesBlob_iff.mp (hseen hne)
    cases hops' : isOpsLine l' tag with
    | false => exact absurd (hasOther_removed.mpr ⟨l', hl', hops', hkey'⟩) hother
    | true => exact ⟨l', hl', hops', hkey', hinfix⟩

end Decision

/-! ## Every run -/

/-- A session that opens is one of a key that is authorized, and a read prints the whole file. -/
def Answered (d : Sshd) (elsewhere : Account → Text → Prop) : (o : KeyOp) → World → o.Answer → Prop
  | .run target .probe, s, x => (x : ExecResult).code = 0 →
      ∀ key ∈ s.keys.list, key.privateKeyPath = target.keyPath →
        Authorized d (elsewhere target.host.account) (s.authorizedKeys target.host.account)
          (keyBlob key.publicKey)
  | .run target (.catKeys _), s, x => (x : ExecResult).stdout = s.authorizedKeys target.host.account
  | _, _, _ => True

/-- The public key of the user, where its private half is here. -/
def userKeyOf (s : World) (host : VopsHost) : Option Text :=
  ((s.keys.resolveUserKey host.userKeyName).filter (·.hasPrivateKey)).map (·.publicKey)

/-- After the ops line of a host is removed, there is a way in. -/
def LeavesAWayIn (d : Sshd) (elsewhere : Account → Text → Prop) (s : World) (host : VopsHost) : Prop :=
  WayIn d (elsewhere host.account) (opsTag s.profileId.text)
    (removeOpsLine (s.authorizedKeys host.account) (opsTag s.profileId.text)).1 (userKeyOf s host)

/-- What is written is the file of the host without the ops line, and leaves a way in. -/
def OnlyRemoves (d : Sshd) (elsewhere : Account → Text → Prop) (s₀ : World) (host : VopsHost) (s : World) :
    Prop :=
  ∀ a content, .wrote a content ∈ s.log → a = host.account ∧
    content = (removeOpsLine (s₀.authorizedKeys a) (opsTag s₀.profileId.text)).1 ∧
    LeavesAWayIn d elsewhere s₀ host

/-- Nothing was written. -/
structure Unwritten (s₀ s : World) : Prop extends SameKeys s₀ s where
  log : ∀ a content, .wrote a content ∉ s.log

theorem SameKeys.trans {s s' s'' : World} (h : SameKeys s s') (h' : SameKeys s' s'') : SameKeys s s'' :=
  ⟨h'.keys.trans h.keys, fun b => (h'.authorizedKeys b).trans (h.authorizedKeys b),
    h'.profileId.trans h.profileId⟩

section Runs

variable {publicData : Text → Text} {elsewhere : Account → Text → Prop} {s₀ s s' : World} {host : VopsHost}

theorem mem_list_of_resolveUserKey {keys : KeyStore} {name : Option String} {key : VopsSshKey}
    (h : keys.resolveUserKey name = some key) : key ∈ keys.list := by
  unfold KeyStore.resolveUserKey KeyStore.resolveKey at h
  split at h
  · unfold KeyStore.show' at h
    split at h
    · cases h
    · split at h
      · cases h
      · next hfind =>
          cases h
          exact List.mem_of_find?_eq_some hfind
  · split at h
    · next key' hkeys =>
        cases h
        have hmem : key ∈ keys.usableUserKeys := by rw [hkeys]; exact List.mem_singleton_self _
        exact (List.mem_filter.mp hmem).1
    · cases h
    · cases h

theorem wrote_of_still {o : KeyOp} {x : o.Answer} (ho : Still o) (hx : surroundings publicData o s x s')
    {a : Account} {content : Text} (h : .wrote a content ∈ s'.log) : .wrote a content ∈ s.log := by
  by_cases hq : Quiet o
  · rcases (sameHosts_of_quiet hq hx).log with hlog | ⟨b, code, hlog⟩
    · rwa [hlog] at h
    · rw [hlog] at h
      simpa using h
  · cases o with
    | run target command =>
        cases command with
        | catKeys =>
            obtain ⟨-, rfl⟩ := hx
            simpa [World.logged] using h
        | printHome | probe => exact absurd trivial hq
    | putFile => exact ho.elim
    | readOnly | profileId | hosts | saveHosts | assertReady | keyStore | keygen | rename | acquireLock
    | releaseLock | appendAudit => exact absurd trivial hq

theorem Unwritten.still {o : KeyOp} {x : o.Answer} (h : Unwritten s₀ s) (ho : Still o)
    (hx : surroundings publicData o s x s') : Unwritten s₀ s' :=
  ⟨h.toSameKeys.trans (sameKeys_of_still ho hx), fun a content hmem =>
    h.log a content (wrote_of_still ho hx hmem)⟩

theorem Unwritten.onlyRemoves (h : Unwritten s₀ s) : OnlyRemoves d elsewhere s₀ host s :=
  fun a content hmem => absurd hmem (h.log a content)

abbrev answered (publicData : Text → Text) (d : Sshd) (elsewhere : Account → Text → Prop) :
    Surroundings KeyOp KeyOp.Answer World :=
  given (surroundings publicData) (Answered d elsewhere)

/-- What a revocation answers. -/
def Answers (d : Sshd) (elsewhere : Account → Text → Prop) (s₀ : World) (host : VopsHost) (dryRun : Bool) :
    Except String VopsHostKeys.RevokeOpsAnswer → World → Prop :=
  fun r _ => ∀ answer, r = .ok answer → dryRun = false → LeavesAWayIn d elsewhere s₀ host

variable {dryRun : Bool}

theorem showHost_eq (name : String) : showHost name = (op .hosts >>= fun hosts : List VopsHost =>
    (hosts.find? fun h => h.name == name).elim (throw s!"Host '{name}' not found.") pure) := by
  unfold showHost
  congr 1
  funext hosts
  cases hosts.find? fun h => h.name == name <;> rfl

theorem opsTarget_eq (host : VopsHost) : VopsHostKeys.opsTarget host = (op .keyStore >>= fun keys : KeyStore =>
    (keys.list.find? fun k => k.name == OPS_KEY_NAME && k.hasPrivateKey).elim
      (throw "No local key available for this host (no user key set and no ops key present).")
      fun key => pure ⟨host, key.privateKeyPath⟩) := by
  unfold VopsHostKeys.opsTarget
  congr 1
  funext keys
  cases keys.list.find? fun k => k.name == OPS_KEY_NAME && k.hasPrivateKey <;> rfl

theorem revokeTarget_eq (host : VopsHost) : VopsHostKeys.revokeTarget host =
    (op .keyStore >>= fun keys : KeyStore =>
      ((keys.resolveUserKey host.userKeyName).filter (·.hasPrivateKey)).elim
        (VopsHostKeys.opsTarget host >>= fun target => pure (target, none))
        fun userKey => op (.run ⟨host, userKey.privateKeyPath⟩ .probe) >>= fun chk : ExecResult =>
          if chk.code = 0 then pure (⟨host, userKey.privateKeyPath⟩, some userKey.publicKey)
          else VopsHostKeys.opsTarget host >>= fun target => pure (target, none)) := by
  unfold VopsHostKeys.revokeTarget
  congr 1
  funext keys
  cases (keys.resolveUserKey host.userKeyName).filter (·.hasPrivateKey) <;> rfl

theorem safe_opsTarget (hs : Unwritten s₀ s) : Safe (answered publicData d elsewhere)
    (OnlyRemoves d elsewhere s₀ host)
    (fun r s' => ∀ target, r = .ok target → target.host = host ∧ Unwritten s₀ s')
    (VopsHostKeys.opsTarget host) s := by
  rw [opsTarget_eq]
  refine Safe.perform hs.onlyRemoves fun (keys : KeyStore) s₁ hx => ?_
  have hs₁ : Unwritten s₀ s₁ := hs.still (o := .keyStore) trivial hx.1
  cases keys.list.find? fun k => k.name == OPS_KEY_NAME && k.hasPrivateKey with
  | some key =>
      refine Safe.of_done hs₁.onlyRemoves ?_
      rintro target ⟨⟩
      exact ⟨rfl, hs₁⟩
  | none => exact Safe.of_done hs₁.onlyRemoves nofun

/-- What `revokeTarget` answers: a session of the host, and at most the key of the user, which is let in. -/
def TargetOf (d : Sshd) (elsewhere : Account → Text → Prop) (s₀ : World) (host : VopsHost) :
    Except String (SshTarget × Option Text) → World → Prop :=
  fun r s' => ∀ session, r = .ok session → session.1.host = host ∧ Unwritten s₀ s' ∧
    ∀ pub, session.2 = some pub → userKeyOf s₀ host = some pub ∧
      Authorized d (elsewhere host.account) (s₀.authorizedKeys host.account) (keyBlob pub)

theorem safe_revokeTarget (hs : Unwritten s₀ s) : Safe (answered publicData d elsewhere)
    (OnlyRemoves d elsewhere s₀ host) (TargetOf d elsewhere s₀ host)
    (VopsHostKeys.revokeTarget host) s := by
  have hops (s) (hs : Unwritten s₀ s) : Safe (answered publicData d elsewhere)
      (OnlyRemoves d elsewhere s₀ host) (TargetOf d elsewhere s₀ host)
      (VopsHostKeys.opsTarget host >>= fun target => pure (target, none)) s := by
    refine Safe.seq (M := fun target s' => target.host = host ∧ Unwritten s₀ s') (safe_opsTarget hs)
      (fun target s' hI hM => Safe.of_done hI ?_) fun _ _ _ => nofun
    rintro session ⟨⟩
    exact ⟨hM.1, hM.2, nofun⟩
  rw [revokeTarget_eq]
  refine Safe.perform hs.onlyRemoves fun (keys : KeyStore) s₁ hx => ?_
  have hs₁ : Unwritten s₀ s₁ := hs.still (o := .keyStore) trivial hx.1
  have hkeys : keys = s₀.keys := hx.1.1.trans hs.keys
  subst hkeys
  cases hkey : (s₀.keys.resolveUserKey host.userKeyName).filter (·.hasPrivateKey) with
  | none => exact hops s₁ hs₁
  | some userKey =>
      obtain ⟨hresolve, -⟩ := Option.filter_eq_some_iff.mp hkey
      refine Safe.perform hs₁.onlyRemoves fun (chk : ExecResult) s₂ hchk => ?_
      have hs₂ : Unwritten s₀ s₂ :=
        hs₁.still (o := .run ⟨host, userKey.privateKeyPath⟩ .probe) trivial hchk.1
      change Safe _ _ _ (if _ then _ else _) _
      split_ifs with hcode
      · refine Safe.of_done hs₂.onlyRemoves ?_
        rintro session ⟨⟩
        refine ⟨rfl, hs₂, ?_⟩
        rintro pub ⟨⟩
        have hlist : userKey ∈ s₁.keys.list := by
          rw [hs₁.keys]
          exact mem_list_of_resolveUserKey hresolve
        refine ⟨by rw [userKeyOf, hkey]; rfl, ?_⟩
        have hauth := hchk.2 hcode userKey hlist rfl
        rwa [hs₁.authorizedKeys] at hauth
      · exact hops s₂ hs₂

/-- The keys of a host are read. -/
theorem safe_readKeys {target : SshTarget} (hs : Unwritten s₀ s) : Safe (answered publicData d elsewhere)
    (OnlyRemoves d elsewhere s₀ host)
    (fun r s' => ∀ state, r = .ok state →
      state.content = s₀.authorizedKeys target.host.account ∧ Unwritten s₀ s')
    (readAuthorizedKeys target) s := by
  refine Safe.perform hs.onlyRemoves fun (home : ExecResult) s₁ hx => ?_
  have hs₁ : Unwritten s₀ s₁ := hs.still (o := .run target .printHome) trivial hx.1
  change Safe _ _ _ (if _ then _ else _) _
  split
  · exact Safe.of_done hs₁.onlyRemoves nofun
  · refine Safe.perform hs₁.onlyRemoves fun (read : ExecResult) s₂ hread => ?_
    have hs₂ : Unwritten s₀ s₂ := hs₁.still (o := .run target (.catKeys _)) trivial hread.1
    refine Safe.of_done hs₂.onlyRemoves ?_
    rintro state ⟨⟩
    exact ⟨hread.2.trans (hs₁.authorizedKeys _), hs₂⟩

theorem OnlyRemoves.still {o : KeyOp} {x : o.Answer} (h : OnlyRemoves d elsewhere s₀ host s) (ho : Still o)
    (hx : surroundings publicData o s x s') : OnlyRemoves d elsewhere s₀ host s' :=
  fun a content hmem => h a content (wrote_of_still ho hx hmem)

theorem OnlyRemoves.sent {target : SshTarget} {path content : Text} (hs : Unwritten s₀ s)
    (hhost : target.host = host)
    (hcontent : content = (removeOpsLine (s₀.authorizedKeys host.account) (opsTag s₀.profileId.text)).1)
    (hway : LeavesAWayIn d elsewhere s₀ host) :
    OnlyRemoves d elsewhere s₀ host (s.sent target.host.account path content) := by
  intro a content' hmem
  unfold World.sent at hmem
  split at hmem
  · rcases List.mem_append.mp hmem with hmem | hmem
    · exact absurd hmem (hs.log _ _)
    · obtain ⟨rfl, rfl⟩ := Event.wrote.inj (List.mem_singleton.mp hmem)
      rw [hhost]
      exact ⟨rfl, hcontent, hway⟩
  · exact absurd hmem (hs.log _ _)

/-- The line is removed, where that leaves a way in. -/
theorem safe_removeLine {target : SshTarget} {state : RemoteAkState} {content : Text} {removed : ℕ}
    (hs : Unwritten s₀ s) (hhost : target.host = host)
    (hcontent : content = (removeOpsLine (s₀.authorizedKeys host.account) (opsTag s₀.profileId.text)).1)
    (hway : LeavesAWayIn d elsewhere s₀ host) :
    Safe (answered publicData d elsewhere) (OnlyRemoves d elsewhere s₀ host)
      (Answers d elsewhere s₀ host dryRun) (VopsHostKeys.removeLine host target state content removed) s := by
  have hput : Safe (answered publicData d elsewhere) (OnlyRemoves d elsewhere s₀ host) (fun _ _ => True)
      (onlyIf (0 < removed) (orThrow (op (.putFile target state.akPath content)))) s := by
    cases decide (0 < removed) with
    | false => exact Safe.of_done hs.onlyRemoves trivial
    | true =>
        refine Safe.perform hs.onlyRemoves fun (x : Except String Unit) s₁ hx => ?_
        have hsent : OnlyRemoves d elsewhere s₀ host (s.sent target.host.account state.akPath content) :=
          OnlyRemoves.sent hs hhost hcontent hway
        cases x with
        | ok u =>
            obtain ⟨rfl, -⟩ := hx
            exact Safe.of_done hsent trivial
        | error e =>
            obtain ⟨rfl | rfl, -⟩ := hx
            · exact Safe.of_done hsent trivial
            · exact Safe.of_done hsent trivial
  have hstill : AllOps Still (do
      updateHost { host with opsKeyInstalled := false }
      orThrow (op (.appendAudit "host.key.revoke-ops" host.name))
      pure (VopsHostKeys.RevokeOpsAnswer.revoked host.name removed)) :=
    AllOps.bind (.perform_bind trivial fun _ => allOps_orThrow (.of_perform trivial)) fun _ =>
      (allOps_orThrow (.of_perform trivial)).bind fun _ => trivial
  refine Safe.seq (M := fun _ _ => True) (hput.mono fun _ _ _ _ _ _ => trivial) (fun _ s₁ hs₁ _ => ?_)
    fun _ _ _ => nofun
  exact (Safe.of_allOps (J := OnlyRemoves d elsewhere s₀ host) hstill
    (fun o x s s' ho hx h => h.still ho hx.1) (fun _ h => h) hs₁).mono fun _ _ _ _ _ _ _ => hway

/-- At every moment of a revocation that does not force, of a host whose lines are told. -/
theorem safe_revokeOps {name : String} {opts : VopsHostKeys.RevokeOpsOptions} (hforce : opts.force = false)
    (hhost : s.hosts.find? (fun h => h.name == name) = some host)
    (htold : Told d (opsTag s.profileId.text) (s.authorizedKeys host.account)) :
    Safe (answered publicData d elsewhere) (OnlyRemoves d elsewhere s host)
      (Answers d elsewhere s host opts.dryRun) (VopsHostKeys.revokeOps name opts) s.fresh := by
  have hs : Unwritten s s.fresh := ⟨⟨rfl, fun _ => rfl, rfl⟩, fun _ _ h => by cases h⟩
  have herror (e : String) (s') (_ : OnlyRemoves d elsewhere s host s') :
      Answers d elsewhere s host opts.dryRun (.error e) s' := nofun
  have hshow : Safe (answered publicData d elsewhere) (OnlyRemoves d elsewhere s host)
      (fun r s' => ∀ found, r = .ok found → found = host ∧ Unwritten s s') (showHost name) s.fresh := by
    rw [showHost_eq]
    refine Safe.perform hs.onlyRemoves fun (hosts : List VopsHost) s₁ hx => ?_
    have hs₁ : Unwritten s s₁ := hs.still (o := .hosts) trivial hx.1
    have hhosts : hosts = s.hosts := hx.1.1
    subst hhosts
    rw [hhost]
    refine Safe.of_done hs₁.onlyRemoves ?_
    rintro found ⟨⟩
    exact ⟨rfl, hs₁⟩
  refine Safe.seq hshow (fun found s₁ hI hfound => ?_) herror
  obtain ⟨rfl, hs₁⟩ := hfound
  have hwritable : AllOps Still (assertHostWritable found) :=
    .perform_bind trivial fun readOnly => allOps_onlyIf readOnly trivial
  refine Safe.allOps_bind (J := Unwritten s) hwritable (fun o x s₁ s₂ ho hx h => h.still ho hx.1)
    (fun _ h => h.onlyRemoves) hs₁ (fun _ s₂ hs₂ => ?_) fun e s' h => herror e s' h.onlyRemoves
  refine Safe.perform hs₂.onlyRemoves fun (profileId : Text) s₃ hx => ?_
  have hs₃ : Unwritten s s₃ := hs₂.still (o := .profileId) trivial hx.1
  have hprofile : profileId = s.profileId.text := hx.1.1.trans (congrArg ProfileId.text hs₂.profileId)
  subst hprofile
  refine Safe.seq (M := fun session s' => session.1.host = found ∧ Unwritten s s' ∧
    ∀ pub, session.2 = some pub → userKeyOf s found = some pub ∧
      Authorized d (elsewhere found.account) (s.authorizedKeys found.account) (keyBlob pub))
    (safe_revokeTarget hs₃) (fun session s₄ _ hsession => ?_) herror
  obtain ⟨htarget, hs₄, hverified⟩ := hsession
  refine Safe.seq (safe_readKeys hs₄) (fun state s₅ _ hstate => ?_) herror
  obtain ⟨hcontent, hs₅⟩ := hstate
  rw [htarget] at hcontent
  change Safe _ _ _ (if opts.dryRun = true then _ else if _ then _ else _) _
  split
  · next hdry =>
      refine Safe.of_done hs₅.onlyRemoves fun answer _ hnot => ?_
      rw [hdry] at hnot
      cases hnot
  · split
    · exact Safe.of_done hs₅.onlyRemoves nofun
    · next hsafe =>
        rw [hforce, Bool.not_false, Bool.and_true, Bool.not_eq_true', Bool.not_eq_false] at hsafe
        rw [hcontent] at hsafe ⊢
        have hway := wayIn_of_told (fun pub h => (hverified pub h).2) htold hsafe
        refine safe_removeLine hs₅ htarget rfl (hway.imp_right ?_)
        rintro ⟨pub, hpub, hauth⟩
        exact ⟨pub, (hverified pub hpub).1, hauth⟩

end Runs

/-- A revocation that does not force leaves a way in or throws and writes nothing, where the lines of the file
are told; whatever key was verified, the decision is right exactly there. -/
theorem revoke_leaves_a_way_in (d : Sshd) :
    (∀ tag file, (∀ (elsewhere : Text → Prop) (verified : Option Text),
      (∀ pub, verified = some pub → Authorized d elsewhere file (keyBlob pub)) →
      (assessRevokeSafety file (removeOpsLine file tag).1 tag verified).1 = true →
        WayIn d elsewhere tag (removeOpsLine file tag).1 verified) ↔ Told d tag file) ∧
    ∀ publicData elsewhere s name opts host t p s', opts.force = false →
      s.hosts.find? (fun h => h.name == name) = some host →
      Told d (opsTag s.profileId.text) (s.authorizedKeys host.account) →
      Steps (answered publicData d elsewhere) (VopsHostKeys.revokeOps name opts) s.fresh t p s' →
        OnlyRemoves d elsewhere s host s' ∧
        (¬LeavesAWayIn d elsewhere s host → (∀ a content, .wrote a content ∉ s'.log) ∧
          ∀ answer, opts.dryRun = false → p ≠ .done (.ok answer)) := by
  refine ⟨safe_iff_told d, fun publicData elsewhere s name opts host t p s' hforce hhost htold h => ?_⟩
  obtain ⟨honly, hanswer⟩ := (safe_revokeOps hforce hhost htold).steps h
  refine ⟨honly, fun hnot => ⟨fun a content hmem => hnot (honly a content hmem).2.2, ?_⟩⟩
  rintro answer hdry rfl
  exact hnot (hanswer _ rfl answer rfl hdry)

/-! ## An ops line whose options are quoted -/

instance (d : Sshd) (elsewhere : Account → Text → Prop) [∀ a key, Decidable (elsewhere a key)] (o : KeyOp)
    (s : World) (x : o.Answer) : Decidable (Answered d elsewhere o s x) := by
  cases o with
  | run target command =>
      cases command <;> dsimp only [Answered, Authorized] <;> infer_instance
  | readOnly | profileId | hosts | saveHosts | assertReady | keyStore | keygen | rename | putFile
  | acquireLock | releaseLock | appendAudit => exact isTrue trivial

namespace AliceHost

/-- Three keys, and the lines of an authority let none in. -/
def sshd : Sshd where
  isKey type data := decide (type = "ssh-ed25519".toList) &&
    decide (data ∈ ["AAAAALICE".toList, "AAAAOPS".toList, "AAAAUSER".toList])
  grants options := decide (options ≠ "cert-authority".toList)
  base64 type data h := by
    simp only [Bool.and_eq_true, decide_eq_true_eq, List.mem_cons, List.not_mem_nil, or_false] at h
    rcases h.2 with rfl | rfl | rfl <;> exact ⟨by decide, by decide⟩

/-- The line of Alice lets her key in. -/
theorem told_content : Told sshd (opsTag world.profileId.text) content :=
  .inl ⟨"ssh-ed25519 AAAAALICE alice".toList, by decide, by decide, by decide⟩

/-- With the line of Alice in the file, the line of the profile is removed and hers stays. -/
theorem revoke_leaves_alice_in : (run calm (VopsHostKeys.revokeOps "web" {}) world.fresh).2.authorizedKeys
    host.account = "ssh-ed25519 AAAAALICE alice\n".toList ∧
    OnlyRemoves sshd (fun _ key => key = "AAAAUSER".toList) world host
      (run calm (VopsHostKeys.revokeOps "web" {}) world.fresh).2 := by
  obtain ⟨t, ht⟩ := Steps.of_checked (surroundings_answering (fun key => key) _ _)
    (by decide +kernel : Checked calm (Answered sshd fun _ key => key = "AAAAUSER".toList)
      (VopsHostKeys.revokeOps "web" {}) world.fresh)
  exact ⟨by decide +kernel, ((revoke_leaves_a_way_in sshd).2 _ _ world "web" {} host _ _ _ rfl
    (by decide +kernel) told_content ht).1⟩

/-- The key of the user is the ops key, and its line has a blank between quotation marks. -/
def quotedWorld : World :=
  { world with
    hosts := [{ host with userKeyName := some "vops-ops" }]
    files := fun _ _ =>
      some "from=\"10.0.0.0/8, 192.0.2.0/24\" ssh-ed25519 AAAAOPS vops-ops:ab\n".toList }

/-- The only line that lets a key in is removed. -/
theorem revoke_leaves_no_way_in : ∃ t p s',
    Steps (answered (fun key => key) sshd fun _ _ => False) (VopsHostKeys.revokeOps "web" {})
      quotedWorld.fresh t p s' ∧
    .wrote host.account [] ∈ s'.log ∧
    ¬OnlyRemoves sshd (fun _ _ => False) quotedWorld { host with userKeyName := some "vops-ops" } s' := by
  obtain ⟨t, ht⟩ := Steps.of_checked (surroundings_answering (fun key => key) _ _)
    (by decide +kernel : Checked calm (Answered sshd fun _ _ => False)
      (VopsHostKeys.revokeOps "web" {}) quotedWorld.fresh)
  have hlog : .wrote host.account [] ∈ (run calm (VopsHostKeys.revokeOps "web" {}) quotedWorld.fresh).2.log := by
    decide +kernel
  refine ⟨t, _, _, ht, hlog, fun honly => ?_⟩
  rcases (honly _ _ hlog).2.2 with ⟨l, hl, -⟩ | ⟨pub, -, hfalse | ⟨l, hl, -⟩⟩
  · exact absurd hl (by rw [show lines _ = [] by decide +kernel]; simp)
  · exact hfalse
  · exact absurd hl (by rw [show lines _ = [] by decide +kernel]; simp)

end AliceHost

end Vops.HostOps
