import Vops.HostOps.ForeignKeys

/-!
# Hosts that a rotation does not strand

* `Held` — the keys of an account authorize a private key of the local ladder.
* `NextHeld` — the public half of the next key is that of a private key of the ladder.
* `Careful` — no read loses the line of the ladder, a temporary line is taken out only where another
  one remains, and a promotion drops no key that the account still needs.
* `rotations_strand_no_host` — over runs that stop anywhere and are started again.
-/

namespace Vops.HostOps

open AuthorizedKeys KeyProg Async
open TextLines (lines)

variable {publicData : Text → Text} {a : Account}

/-! ## The ladder -/

/-- The generations whose private keys are tried. -/
def ladder : List OpsName := [.current, .next, .prev]

/-- Some line is for the private key of one of the generations. -/
def heldBy (publicData : Text → Text) (keys : KeyStore) (names : List OpsName) (ls : List Text) :
    Bool :=
  names.any fun name => (keys.file name .priv).any fun key =>
    ls.any fun l => keyOf l == some (publicData key)

/-- The account holds a line for a private key of the ladder. -/
def Held (publicData : Text → Text) (a : Account) (s : World) : Prop :=
  heldBy publicData s.keys ladder (lines (s.authorizedKeys a)) = true

theorem heldBy_iff {keys : KeyStore} {names : List OpsName} {ls : List Text} :
    heldBy publicData keys names ls = true ↔ ∃ name ∈ names, ∃ key, keys.file name .priv = some key ∧
      ∃ l ∈ ls, keyOf l = some (publicData key) := by
  simp [heldBy, List.any_eq_true, Option.any_eq_true]

theorem heldBy_mono {keys : KeyStore} {names : List OpsName} {ls ls' : List Text}
    (h : heldBy publicData keys names ls = true) (hls : ls ⊆ ls') :
    heldBy publicData keys names ls' = true := by
  obtain ⟨name, hname, key, hkey, l, hl, hline⟩ := heldBy_iff.mp h
  exact heldBy_iff.mpr ⟨name, hname, key, hkey, l, hls hl, hline⟩

/-- Where the private keys of the ladder went, the lines still lead. -/
theorem heldBy_of_keys {keys keys' : KeyStore} {names : List OpsName} {ls : List Text}
    (h : heldBy publicData keys names ls = true)
    (hkeys : ∀ name ∈ names, ∀ key, keys.file name .priv = some key →
      ∃ name', keys'.file name' .priv = some key) : heldBy publicData keys' ladder ls = true := by
  obtain ⟨name, hname, key, hkey, hline⟩ := heldBy_iff.mp h
  obtain ⟨name', hkey'⟩ := hkeys name hname key hkey
  exact heldBy_iff.mpr ⟨name', by cases name' <;> simp [ladder], key, hkey', hline⟩

/-! ## The next key -/

/-- The private key that the next one becomes: it is renamed to the current one, and that one to the
previous one. -/
def holder (keys : KeyStore) : Option Text :=
  (keys.file .next .priv).or ((keys.file .current .priv).or (keys.file .prev .priv))

/-- The public half of the next key is that of a private key of the ladder. -/
def NextHeld (publicData : Text → Text) (keys : KeyStore) : Prop :=
  ∀ pub, keys.file .next .pub = some pub →
    ∃ key, holder keys = some key ∧ IsPublicKey publicData key pub

theorem mem_ladder_of_holder {keys : KeyStore} {key : Text} (h : holder keys = some key) :
    ∃ name, keys.file name .priv = some key := by
  unfold holder at h
  rcases Option.or_eq_some_iff.mp h with h | ⟨-, h⟩
  · exact ⟨_, h⟩
  · rcases Option.or_eq_some_iff.mp h with h | ⟨-, h⟩
    · exact ⟨_, h⟩
    · exact ⟨_, h⟩

/-! ## The condition -/

/-- The exit code of the last session that was tried. -/
def World.lastProbe (s : World) : ℕ :=
  (s.log.reverse.findSome? fun e =>
    match e with
    | .probed _ code => some code
    | _ => none).getD 0

/-- The lines that a read must not lose: after a session that failed, the temporary lines are about to
be taken out. -/
def World.linesAtStake (s : World) (got : Text) : List Text :=
  if s.lastProbe = 0 then toLines got
  else (toLines got).filter fun l => !isOpsLine l (opsTag s.profileId.text ++ ":next".toList)

/-- A read of the account keeps a line of the ladder, even without the temporary lines if they are about
to be taken out; a promotion drops no key that the account needs. -/
def Careful (publicData : Text → Text) (a : Account) : (o : KeyOp) → World → o.Answer → Prop
  | .run target (.catKeys _), s, x =>
      target.host.account = a → Held publicData a s →
        heldBy publicData s.keys ladder (s.linesAtStake (x : ExecResult).stdout) = true
  | .rename .current .prev .priv, s, _ =>
      Held publicData a s →
        heldBy publicData s.keys [.current, .next] (lines (s.authorizedKeys a)) = true
  | _, _, _ => True

instance (publicData : Text → Text) (a : Account) (o : KeyOp) (s : World) (x : o.Answer) :
    Decidable (Careful publicData a o s x) :=
  match o, x with
  | .run target (.catKeys _), x =>
      have : Decidable (Held publicData a s) := inferInstanceAs (Decidable (_ = true))
      inferInstanceAs (Decidable (target.host.account = a → Held publicData a s →
        heldBy publicData s.keys ladder (s.linesAtStake (x : ExecResult).stdout) = true))
  | .rename .current .prev .priv, _ =>
      have : Decidable (Held publicData a s) := inferInstanceAs (Decidable (_ = true))
      inferInstanceAs (Decidable (Held publicData a s →
        heldBy publicData s.keys [.current, .next] (lines (s.authorizedKeys a)) = true))
  | .run _ .printHome, _ | .run _ .probe, _ | .rename .next _ _, _ | .rename .prev _ _, _
  | .rename .current .current _, _ | .rename .current .next _, _ | .rename .current .prev .pub, _
  | .readOnly, _ | .profileId, _ | .hosts, _ | .saveHosts _, _ | .assertReady _, _ | .keyStore, _
  | .keygen _, _ | .acquireLock, _ | .releaseLock, _ | .putFile _ _ _, _ | .appendAudit _ _, _ =>
      isTrue trivial

/-! ## What the operations keep -/

/-- What holds at every moment. -/
structure Unstranded (publicData : Text → Text) (a : Account) (s : World) : Prop where
  held : Held publicData a s
  next : NextHeld publicData s.keys

/-- The operation changes neither the local keys nor the files of the hosts. -/
def Still : KeyOp → Prop
  | .keygen _ | .rename _ _ _ | .putFile _ _ _ => False
  | _ => True

/-- The keys are as they were, here and on the hosts. -/
structure SameKeys (s s' : World) : Prop where
  keys : s'.keys = s.keys
  authorizedKeys : ∀ b, s'.authorizedKeys b = s.authorizedKeys b
  profileId : s'.profileId = s.profileId

theorem SameKeys.refl (s : World) : SameKeys s s := ⟨rfl, fun _ => rfl, rfl⟩

theorem sameKeys_of_still {o : KeyOp} {s s' : World} {x : o.Answer} (ho : Still o)
    (hx : surroundings publicData o s x s') : SameKeys s s' := by
  cases o with
  | readOnly | profileId | hosts | keyStore =>
      obtain ⟨-, rfl⟩ := hx
      exact .refl _
  | assertReady | appendAudit =>
      obtain rfl := hx
      exact .refl _
  | saveHosts hosts =>
      cases (x : Except String Unit) with
      | ok u =>
          obtain rfl := hx
          exact ⟨rfl, fun _ => rfl, rfl⟩
      | error e =>
          obtain ⟨left, rfl⟩ := hx
          exact ⟨rfl, fun _ => rfl, rfl⟩
  | acquireLock =>
      obtain ⟨-, rfl⟩ := hx
      exact ⟨rfl, fun _ => rfl, rfl⟩
  | releaseLock =>
      rcases hx with rfl | rfl
      · exact .refl _
      · exact ⟨rfl, fun _ => rfl, rfl⟩
  | keygen | rename | putFile => exact ho.elim
  | run target command =>
      cases command with
      | printHome =>
          obtain ⟨-, rfl⟩ := hx
          exact .refl _
      | catKeys | probe =>
          obtain ⟨-, rfl⟩ := hx
          exact ⟨rfl, fun _ => rfl, rfl⟩

theorem SameKeys.unstranded {s s' : World} (h : SameKeys s s') (hs : Unstranded publicData a s) :
    Unstranded publicData a s' := by
  refine ⟨?_, ?_⟩
  · have hheld := hs.held
    unfold Held at hheld ⊢
    rwa [h.keys, h.authorizedKeys]
  · rw [h.keys]
    exact hs.next

/-- A line that is built for a key of the ladder leads to it. -/
theorem heldBy_upsertOpsLine {keys : KeyStore} {pub content tag tag' options : Text}
    (hoptions : IsOptions options) (htag : IsTag tag) {name : OpsName} {key : Text}
    (hkey : keys.file name .priv = some key) (hpub : IsPublicKey publicData key pub) :
    heldBy publicData keys ladder
      (lines (upsertOpsLine content (buildOpsLine (trim pub) tag options) tag').1) = true := by
  obtain ⟨type, data, rest, hsplit, htype, hdata, hpublic⟩ := hpub
  have htypeOf : typeOf (trim pub) = type := by simp [typeOf, hsplit]
  have hdataOf : dataOf (trim pub) = data := by simp [dataOf, hsplit]
  have hline := keyOf_buildOpsLine hoptions htag (htypeOf ▸ htype) (hdataOf ▸ hdata)
  rw [lines_upsertOpsLine,
    TextLines.lines_append_newline (newline_notMem_buildOpsLine hoptions htag)]
  refine heldBy_iff.mpr ⟨name, by cases name <;> simp [ladder], key, hkey, _,
    List.mem_append_right _ List.mem_cons_self, ?_⟩
  rw [hline, hdataOf, hpublic]

/-! ## One host -/

section Host

variable {keys : KeyStore} {id : ProfileId} {s : World} {α β : Type}

/-- What can be answered when every step is careful. -/
abbrev careful (publicData : Text → Text) (a : Account) :
    Surroundings KeyOp KeyOp.Answer World :=
  given (surroundings publicData) (Careful publicData a)

/-- While the local keys stay as they are. -/
structure Looping (publicData : Text → Text) (a : Account) (keys : KeyStore) (id : ProfileId)
    (s : World) : Prop where
  keys_eq : s.keys = keys
  profileId_eq : s.profileId = id
  held : heldBy publicData keys ladder (lines (s.authorizedKeys a)) = true

theorem Looping.unstranded (hnext : NextHeld publicData keys) (hs : Looping publicData a keys id s) :
    Unstranded publicData a s := by
  obtain ⟨rfl, -, hheld⟩ := hs
  exact ⟨hheld, hnext⟩

theorem SameKeys.looping {s s' : World} (h : SameKeys s s') (hs : Looping publicData a keys id s) :
    Looping publicData a keys id s' := by
  refine ⟨h.keys.trans hs.keys_eq, h.profileId.trans hs.profileId_eq, ?_⟩
  rw [h.authorizedKeys]
  exact hs.held

theorem loop_still {p : KeyProg α} {f : α → KeyProg β} (hp : AllOps Still p)
    (hs : Looping publicData a keys id s)
    (hf : ∀ x s', Looping publicData a keys id s' →
      Keeps (careful publicData a) (Looping publicData a keys id) (f x) s') :
    Keeps (careful publicData a) (Looping publicData a keys id) (p >>= f) s := by
  have hsafe : Safe (careful publicData a) (Looping publicData a keys id)
      (fun _ s => Looping publicData a keys id s) p s :=
    Safe.of_allOps hp (fun o x s s' ho hx hs => (sameKeys_of_still ho hx.1).looping hs)
      (fun s hs => hs) hs
  exact Keeps.seq (hsafe.mono fun r s _ hs x _ => hs) fun x s' _ hs' => hf x s' hs'

/-- A text is written that leads to the ladder. -/
theorem loop_putIf {c : Bool} {target : SshTarget} {path content : Text} {f : Unit → KeyProg β}
    (hs : Looping publicData a keys id s)
    (hc : target.host.account = a → heldBy publicData keys ladder (lines content) = true)
    (hf : ∀ s', Looping publicData a keys id s' →
      Keeps (careful publicData a) (Looping publicData a keys id) (f ()) s') :
    Keeps (careful publicData a) (Looping publicData a keys id)
      (onlyIf c (orThrow (op (.putFile target path content))) >>= f) s := by
  have hsent : Looping publicData a keys id (s.sent target.host.account path content) := by
    refine SameKeys.looping ⟨?_, fun b => s.authorizedKeys_sent _ _ _ _, ?_⟩ hs
    · unfold World.sent
      split <;> rfl
    · unfold World.sent
      split <;> rfl
  have hput : Looping publicData a keys id
      ((s.sent target.host.account path content).put target.host.account path content) := by
    refine ⟨hsent.keys_eq, hsent.profileId_eq, ?_⟩
    rw [World.authorizedKeys_put]
    split
    · next h => exact hc h.1.symm
    · exact hsent.held
  cases c with
  | false => exact hf s hs
  | true =>
      refine Keeps.perform hs fun (x : Except String Unit) s' hx => ?_
      cases x with
      | ok u =>
          obtain ⟨rfl, -⟩ := hx
          exact hf _ hput
      | error e =>
          obtain ⟨rfl | rfl, -⟩ := hx
          · exact Keeps.of_done hsent
          · exact Keeps.of_done hput

theorem loop_put {target : SshTarget} {path content : Text} {f : Unit → KeyProg β}
    (hs : Looping publicData a keys id s)
    (hc : target.host.account = a → heldBy publicData keys ladder (lines content) = true)
    (hf : ∀ s', Looping publicData a keys id s' →
      Keeps (careful publicData a) (Looping publicData a keys id) (f ()) s') :
    Keeps (careful publicData a) (Looping publicData a keys id)
      (orThrow (op (.putFile target path content)) >>= f) s :=
  loop_putIf (c := true) hs hc hf

/-- The keys of a host are read. -/
theorem loop_read (target : SshTarget) (hs : Looping publicData a keys id s) :
    Safe (careful publicData a) (Looping publicData a keys id) (fun r s' => ∀ state, r = .ok state →
      Looping publicData a keys id s' ∧ (target.host.account = a →
        heldBy publicData keys ladder (s.linesAtStake state.content) = true))
      (readAuthorizedKeys target) s := by
  refine Safe.perform hs fun (home : ExecResult) s₁ hhome => ?_
  obtain ⟨⟨-, rfl⟩, -⟩ := hhome
  change Safe _ _ _ (if _ then _ else _) s₁
  split
  · exact Safe.of_done hs (by simp)
  · refine Safe.perform hs fun (read : ExecResult) s₂ hread => ?_
    obtain ⟨hsame, hcareful⟩ := hread
    have hlooping := (sameKeys_of_still (o := .run target (.catKeys (trim home.stdout)))
      trivial hsame).looping hs
    refine Safe.of_done hlooping ?_
    rintro state ⟨⟩
    refine ⟨hlooping, fun htarget => ?_⟩
    obtain ⟨rfl, rfl, hheld⟩ := hs
    exact hcareful htarget hheld

theorem linesAtStake_subset (s : World) (got : Text) : s.linesAtStake got ⊆ toLines got := by
  unfold World.linesAtStake
  split
  · exact List.Subset.refl _
  · exact List.filter_subset_self _

theorem lastProbe_logged (s : World) (b : Account) (code : ℕ) :
    (s.logged (.probed b code)).lastProbe = code := by
  simp [World.lastProbe, World.logged]

open VopsOpsRotation

variable {r : Rotation}

theorem loop_swapHost (hr : RotationTags id r) (hpub : ∃ name key pub,
      keys.file name .priv = some key ∧ IsPublicKey publicData key pub ∧ r.nextPub = trim pub)
    (host : VopsHost) (session : SshTarget) (original : RemoteAkState) {options : Text}
    (hoptions : IsOptions options) (hs : Looping publicData a keys id s)
    (hrestore : session.host.account = a →
      heldBy publicData keys ladder (lines original.content) = true) :
    Keeps (careful publicData a) (Looping publicData a keys id)
      (swapHost r host session original options) s := by
  obtain ⟨name, key, pub, hkey, hpublic, hnextPub⟩ := hpub
  have htag : IsTag r.canonicalTag := hr.canonical ▸ isTag_opsTag id
  refine Keeps.seq (loop_read session hs) fun beforeSwap s₁ _ hread => ?_
  refine loop_put hread.1 (fun _ => ?_) fun s₂ hs₂ => ?_
  · rw [hnextPub]
    exact heldBy_upsertOpsLine hoptions htag hkey hpublic
  · refine loop_still (p := op (.run ⟨host, r.nextKeyPath⟩ .probe)) (.of_perform trivial) hs₂
      fun (reverify : ExecResult) s₃ hs₃ => ?_
    split
    · exact loop_put hs₃ hrestore fun s₄ hs₄ => Keeps.of_done hs₄
    · exact loop_still (allOps_orThrow (.of_perform trivial)) hs₃ fun _ s₄ hs₄ =>
        Keeps.of_done hs₄

theorem loop_rotateSession (hr : RotationTags id r) (hpub : ∃ name key pub,
      keys.file name .priv = some key ∧ IsPublicKey publicData key pub ∧ r.nextPub = trim pub)
    (dryRun : Bool) (host : VopsHost) (session : SshTarget) (hs : Looping publicData a keys id s) :
    Keeps (careful publicData a) (Looping publicData a keys id) (rotateSession r dryRun host session) s := by
  have hpub' := hpub
  obtain ⟨name, key, pub, hkey, hpublic, hnextPub⟩ := hpub'
  have htag : IsTag r.tempTag := hr.temp ▸ (isTag_opsTag id).next
  refine Keeps.seq (loop_read session hs) fun original s₁ _ hread => ?_
  obtain ⟨hs₁, hheld⟩ := hread
  have hoptions := isOptions_optionsOf original.content r.canonicalTag
  change Keeps _ _ (if _ then _ else if _ then _ else _) _
  split
  · exact Keeps.of_done hs₁
  · split
    · exact Keeps.of_done hs₁
    · refine loop_putIf hs₁ (fun _ => ?_) fun s₂ hs₂ => ?_
      · rw [hnextPub]
        exact heldBy_upsertOpsLine hoptions htag hkey hpublic
      · refine Keeps.perform hs₂ fun (verify : ExecResult) s₃ hverify => ?_
        have hs₃ := (sameKeys_of_still (o := .run ⟨host, r.nextKeyPath⟩ .probe)
          trivial hverify.1).looping hs₂
        obtain ⟨⟨-, rfl⟩, -⟩ := hverify
        split
        · next hcode =>
          refine Keeps.seq (loop_read session hs₃) fun again s₄ _ hagain => ?_
          obtain ⟨hs₄, hstake⟩ := hagain
          refine loop_put hs₄ (fun htarget => ?_) fun s₅ hs₅ =>
            Keeps.of_done hs₅
          have hlines := hstake htarget
          rw [World.linesAtStake, lastProbe_logged, if_neg hcode, hs₃.profileId_eq] at hlines
          rw [lines_removeOpsLine, hr.temp]
          exact hlines
        · refine loop_swapHost hr hpub host session original hoptions hs₃ fun htarget => ?_
          refine heldBy_mono (hheld htarget) fun l hl => ?_
          exact (toLines_sublist _).subset (linesAtStake_subset s _ hl)

theorem loop_rotateHost (hr : RotationTags id r) (hpub : ∃ name key pub,
      keys.file name .priv = some key ∧ IsPublicKey publicData key pub ∧ r.nextPub = trim pub)
    (dryRun : Bool) (host : VopsHost) (hs : Looping publicData a keys id s) :
    Keeps (careful publicData a) (Looping publicData a keys id) (rotateHost r dryRun host) s := by
  refine loop_still (p := op .keyStore) (.of_perform trivial) hs fun (keys : KeyStore) s₁ hs₁ => ?_
  refine loop_still (allOps_pickWorkingTarget (fun _ => trivial) host _) hs₁ fun session s₂ hs₂ => ?_
  cases session with
  | none => exact Keeps.of_done hs₂
  | some session => exact loop_rotateSession hr hpub dryRun host session hs₂

end Host

/-! ## The local keys -/

section LocalKeys

variable {s : World} {keys : KeyStore}

/-- The files of a world with other local keys. -/
def World.withKeys (s : World) (keys : KeyStore) : World := { s with keys := keys }

@[simp] theorem World.withKeys_keys (s : World) (keys : KeyStore) : (s.withKeys keys).keys = keys := rfl

/-- Private keys that are still in the ladder keep the account. -/
theorem Unstranded.withKeys (hs : Unstranded publicData a s)
    (hkeys : ∀ name ∈ ladder, ∀ key, s.keys.file name .priv = some key →
      ∃ name', keys.file name' .priv = some key) (hnext : NextHeld publicData keys) :
    Unstranded publicData a (s.withKeys keys) :=
  ⟨heldBy_of_keys hs.held hkeys, hnext⟩

/-- The public halves other than the next one do not matter. -/
theorem NextHeld.of_priv {keys' : KeyStore} (h : NextHeld publicData keys)
    (hpriv : ∀ name, keys'.file name .priv = keys.file name .priv)
    (hpub : keys'.file .next .pub = keys.file .next .pub) : NextHeld publicData keys' := by
  intro pub hnext
  obtain ⟨key, hkey, hpublic⟩ := h pub (hpub ▸ hnext)
  exact ⟨key, by simpa only [holder, hpriv] using hkey, hpublic⟩

theorem NextHeld.of_none (h : keys.file .next .pub = none) : NextHeld publicData keys := by
  intro pub hpub
  rw [h] at hpub
  exact absurd hpub (by simp)

/-- The current key becomes the previous one. -/
theorem unstranded_keepPrev (hs : Unstranded publicData a s)
    (hcurrent : (s.keys.file .current .priv).isSome)
    (hheld : heldBy publicData s.keys [.current, .next] (lines (s.authorizedKeys a)) = true) :
    Unstranded publicData a (s.withKeys (s.keys.rename .current .prev .priv)) := by
  refine ⟨heldBy_of_keys hheld ?_, ?_⟩
  · intro name hname key hkey
    rcases List.mem_cons.mp hname with rfl | hname
    · exact ⟨.prev, by simpa [KeyStore.rename] using hkey⟩
    · obtain rfl := List.mem_singleton.mp hname
      exact ⟨.next, by simpa [KeyStore.rename] using hkey⟩
  · intro pub hpub
    obtain ⟨key, hkey, hpublic⟩ := hs.next pub (by simpa [World.withKeys, KeyStore.rename] using hpub)
    refine ⟨key, ?_, hpublic⟩
    obtain ⟨current, hcurrent⟩ := Option.isSome_iff_exists.mp hcurrent
    simp only [holder, hcurrent, Option.some_or] at hkey
    simpa [World.withKeys, holder, KeyStore.rename, hcurrent] using hkey

/-- The next key becomes the current one. -/
theorem unstranded_promote (hs : Unstranded publicData a s)
    (hcurrent : s.keys.file .current .priv = none)
    (hnext : (s.keys.file .next .priv).isSome) :
    Unstranded publicData a (s.withKeys (s.keys.rename .next .current .priv)) := by
  refine hs.withKeys ?_ ?_
  · intro name _ key hkey
    cases name with
    | current => simp [hcurrent] at hkey
    | next => exact ⟨.current, by simpa [KeyStore.rename] using hkey⟩
    | prev => exact ⟨.prev, by simpa [KeyStore.rename] using hkey⟩
  · intro pub hpub
    obtain ⟨key, hkey, hpublic⟩ := hs.next pub (by simpa [KeyStore.rename] using hpub)
    refine ⟨key, ?_, hpublic⟩
    obtain ⟨next, hnext⟩ := Option.isSome_iff_exists.mp hnext
    simp only [holder, hnext, Option.some_or] at hkey
    simpa [holder, KeyStore.rename, hnext] using hkey

theorem unstranded_renamePub (hs : Unstranded publicData a s) (source target : OpsName)
    (hsource : source = .next ∨ (source ≠ .next ∧ target ≠ .next)) :
    Unstranded publicData a (s.withKeys (s.keys.rename source target .pub)) := by
  refine hs.withKeys ?_ ?_
  · exact fun name _ key hkey => ⟨name, by simpa [KeyStore.rename] using hkey⟩
  · rcases hsource with rfl | ⟨hsource, htarget⟩
    · exact .of_none (by simp [KeyStore.rename])
    · refine hs.next.of_priv (by simp [KeyStore.rename]) ?_
      simp [KeyStore.rename, Ne.symm hsource, Ne.symm htarget]

theorem unstranded_write (hs : Unstranded publicData a s) (key : Text)
    (hpriv : s.keys.file .next .priv = none) (hnext : NextHeld publicData keys)
    (hkeys : ∀ name, keys.file name .priv = if name = .next then some key else s.keys.file name .priv) :
    Unstranded publicData a (s.withKeys keys) := by
  refine hs.withKeys ?_ hnext
  intro name _ key' hkey
  refine ⟨name, ?_⟩
  rw [hkeys, if_neg, hkey]
  rintro rfl
  simp [hpriv] at hkey

/-- One file is moved, where that strands no one. -/
theorem safe_moveFile {source target : OpsName} {ext : KeyExt} (hs : Unstranded publicData a s)
    (hmove : (s.keys.file source ext).isSome →
      Careful publicData a (.rename source target ext) s (.ok ()) →
      Unstranded publicData a (s.withKeys (s.keys.rename source target ext))) :
    Safe (careful publicData a) (Unstranded publicData a) (fun r s' => ∀ u, r = .ok u →
      (s' = s ∧ s.keys.file source ext = none) ∨
        s' = s.withKeys (s.keys.rename source target ext)) (moveFile source target ext) s := by
  refine Safe.perform hs fun (keys : KeyStore) s₁ hkeys => ?_
  obtain ⟨⟨rfl, rfl⟩, -⟩ := hkeys
  cases hsource : s₁.keys.file source ext with
  | none => exact Safe.of_done hs fun _ _ => .inl ⟨rfl, rfl⟩
  | some content =>
      refine Safe.perform hs fun (x : Except String Unit) s' hx => ?_
      cases x with
      | ok u =>
          obtain ⟨⟨hsome, rfl⟩, hcareful⟩ := hx
          exact Safe.of_done (hmove hsome hcareful) fun _ _ => .inr rfl
      | error e =>
          obtain ⟨rfl, -⟩ := hx
          exact Safe.of_done hs (by simp)

/-- The current key becomes the previous one, with its public half. -/
theorem safe_move_current (hs : Unstranded publicData a s)
    (hcurrent : (s.keys.file .current .priv).isSome) :
    Safe (careful publicData a) (Unstranded publicData a) (fun r s' => ∀ u, r = .ok u →
      s'.keys.file .current .priv = none) (move .current .prev) s := by
  refine Safe.seq (safe_moveFile hs fun hsome hcareful =>
    unstranded_keepPrev hs hsome (hcareful hs.held)) (fun _ s₁ hs₁ hmoved => ?_) (by simp)
  have hnone : s₁.keys.file .current .priv = none := by
    rcases hmoved with ⟨rfl, hnone⟩ | rfl
    · exact hnone
    · simp [KeyStore.rename]
  refine (safe_moveFile hs₁ fun _ _ =>
    unstranded_renamePub hs₁ _ _ (.inr (by simp))).mono fun r s₂ _ hmoved' u hr => ?_
  rcases hmoved' u hr with ⟨rfl, -⟩ | rfl
  · exact hnone
  · simpa [KeyStore.rename] using hnone

theorem safe_move_next (hs : Unstranded publicData a s)
    (hcurrent : s.keys.file .current .priv = none) :
    Keeps (careful publicData a) (Unstranded publicData a) (move .next .current) s := by
  refine Keeps.seq (safe_moveFile hs fun hsome _ => unstranded_promote hs hcurrent hsome)
    fun _ s₁ hs₁ _ => ?_
  exact .of_safe (safe_moveFile hs₁ fun _ _ => unstranded_renamePub hs₁ _ _ (.inl rfl))

theorem keeps_promoteNextOpsKey (hs : Unstranded publicData a s) :
    Keeps (careful publicData a) (Unstranded publicData a) promoteNextOpsKey s := by
  refine Keeps.perform hs fun (keys : KeyStore) s₁ hkeys => ?_
  obtain ⟨⟨rfl, rfl⟩, -⟩ := hkeys
  cases hcurrent : (s₁.keys.file .current .priv).isSome with
  | false => exact safe_move_next hs (by simpa using hcurrent)
  | true => exact Keeps.seq (safe_move_current hs hcurrent) fun u s₂ hs₂ hnone =>
      safe_move_next hs₂ hnone

/-- The next key is read, or made. -/
theorem safe_ensureNextOpsKey (hs : Unstranded publicData a s) :
    Safe (careful publicData a) (Unstranded publicData a) (fun r s' => ∀ next, r = .ok next →
      ∃ name key pub, s'.keys.file name .priv = some key ∧ IsPublicKey publicData key pub ∧
        next.publicKey = trim pub) ensureNextOpsKey s := by
  have hread : ∀ {s : World} {pub : Text}, Unstranded publicData a s →
      s.keys.file .next .pub = some pub → ∃ name key pub', s.keys.file name .priv = some key ∧
        IsPublicKey publicData key pub' ∧ (s.keys.read .next pub).publicKey = trim pub' := by
    intro s pub hs hpub
    obtain ⟨key, hkey, hpublic⟩ := hs.next pub hpub
    obtain ⟨name, hname⟩ := mem_ladder_of_holder hkey
    exact ⟨name, key, pub, hname, hpublic, rfl⟩
  refine Safe.perform hs fun (keys : KeyStore) s₁ hkeys => ?_
  obtain ⟨⟨rfl, rfl⟩, -⟩ := hkeys
  cases hpub : s₁.keys.file .next .pub with
  | some pub =>
      refine Safe.of_done hs ?_
      rintro next ⟨⟩
      exact hread hs hpub
  | none =>
      have hmade : Safe (careful publicData a) (Unstranded publicData a)
          (fun r _ => ∀ u, r = .ok u → True) (orThrow (op (.keygen .next))) s₁ := by
        refine Safe.perform hs fun (x : Except String Unit) s' hx => ?_
        cases x with
        | ok u =>
            obtain ⟨⟨private', pub, hpriv, hpublic, rfl⟩, -⟩ := hx
            refine Safe.of_done (unstranded_write hs private' hpriv ?_ ?_) (by simp)
            · intro pub' hpub'
              obtain rfl : pub = pub' := by simpa [KeyStore.write] using hpub'
              exact ⟨private', by simp [holder, KeyStore.write], hpublic⟩
            · simp [KeyStore.write]
        | error e =>
            obtain ⟨rfl | ⟨private', hpriv, rfl⟩, -⟩ := hx
            · exact Safe.of_done hs (by simp)
            · refine Safe.of_done (unstranded_write hs private' hpriv (.of_none ?_) ?_)
                (by simp)
              · simpa [KeyStore.write] using hpub
              · simp [KeyStore.write]
      refine Safe.seq hmade (fun _ s₂ hs₂ _ => ?_) (by simp)
      refine Safe.perform hs₂ fun (keys : KeyStore) s₃ hkeys => ?_
      obtain ⟨⟨rfl, rfl⟩, -⟩ := hkeys
      cases hpub' : s₃.keys.file .next .pub with
      | none => exact Safe.of_done hs₂ (by simp)
      | some pub =>
          refine Safe.of_done hs₂ ?_
          rintro next ⟨⟩
          exact hread hs₂ hpub'

end LocalKeys

/-! ## Rotating -/

section Rotating

open VopsOpsRotation

variable {s : World} {r : Rotation} {α β : Type}

theorem keeps_still {p : KeyProg α} {f : α → KeyProg β} (hp : AllOps Still p)
    (hs : Unstranded publicData a s)
    (hf : ∀ x s', Unstranded publicData a s' → SameKeys s s' →
      Keeps (careful publicData a) (Unstranded publicData a) (f x) s') :
    Keeps (careful publicData a) (Unstranded publicData a) (p >>= f) s := by
  have hsafe : Safe (careful publicData a) (Unstranded publicData a)
      (fun _ s' => SameKeys s s') p s := by
    refine Safe.of_allOps hp ?_ (fun s' hsame => hsame.unstranded hs) (.refl s)
    intro o x s' s'' ho hx hsame
    have hsame' := sameKeys_of_still ho hx.1
    exact ⟨hsame'.keys.trans hsame.keys, fun b =>
      (hsame'.authorizedKeys b).trans (hsame.authorizedKeys b),
      hsame'.profileId.trans hsame.profileId⟩
  exact Keeps.seq (hsafe.mono fun r s' _ hsame x _ => hsame) fun x s' hs' hsame => hf x s' hs' hsame

theorem unstranded_rotateFleet (hs : Unstranded publicData a s) (hr : RotationTags s.profileId r)
    (hpub : ∃ name key pub, s.keys.file name .priv = some key ∧ IsPublicKey publicData key pub ∧
      r.nextPub = trim pub) (opts : RotateOptions) (fleet : List VopsHost) :
    Keeps (careful publicData a) (Unstranded publicData a) (rotateFleet r opts fleet) s := by
  have hlooping : Looping publicData a s.keys s.profileId s := ⟨rfl, rfl, hs.held⟩
  have hloop : Safe (careful publicData a) (Looping publicData a s.keys s.profileId)
      (fun _ s' => Looping publicData a s.keys s.profileId s')
      (fleet.mapM (rotateHost r opts.dryRun)) s :=
    Safe.mapM (fun host _ s' hs' => (loop_rotateHost hr hpub opts.dryRun host hs').safe)
      (fun s' hs' => hs') hlooping
  refine Keeps.seq ((hloop.weaken fun s' hs' => hs'.unstranded hs.next).mono
    fun _ s' _ hs' x _ => hs') fun results s₁ hs₁ _ => ?_
  change Keeps _ _ (if _ then _ else _) _
  split
  · exact Keeps.seq (keeps_promoteNextOpsKey hs₁ |>.mono fun _ _ _ h _ _ => h) fun _ s₂ hs₂ _ =>
      Keeps.of_done hs₂
  · exact Keeps.of_done hs₁

theorem unstranded_rotate (hs : Unstranded publicData a s) (opts : RotateOptions) :
    Keeps (careful publicData a) (Unstranded publicData a) (rotate opts) s := by
  refine keeps_still (p := op .hosts) (.of_perform trivial) hs
    fun (hosts : List VopsHost) s₁ hs₁ _ => ?_
  refine keeps_still (allOps_onlyIf _ trivial) hs₁ fun _ s₂ hs₂ _ => ?_
  refine Keeps.seq (safe_ensureNextOpsKey hs₂) fun next s₃ hs₃ hpub => ?_
  refine Keeps.perform hs₃ fun (profileId : Text) s₄ hprofile => ?_
  obtain ⟨⟨rfl, rfl⟩, -⟩ := hprofile
  refine keeps_still (p := op .acquireLock) (.of_perform trivial) hs₃
    fun (acquired : Bool) s₅ hs₅ hsame => ?_
  cases acquired with
  | false => exact Keeps.of_done hs₅
  | true =>
      have htag := congrArg (fun p => opsTag p.text) hsame.profileId.symm
      rw [← hsame.keys] at hpub
      refine Keeps.of_safe (Safe.tryFinally (Q := fun _ _ => True) ?_)
      refine (unstranded_rotateFleet hs₅ ⟨htag, congrArg (· ++ ":next".toList) htag⟩ hpub opts
        _).safe.mono fun r s₆ _ hs₆ => ?_
      refine Safe.perform hs₆ fun (u : Unit) s₇ hx => ?_
      have hs₇ := (sameKeys_of_still (o := .releaseLock) trivial hx.1).unstranded hs₆
      exact Safe.of_done hs₇ trivial

end Rotating

/-! ## Runs -/

/-- Rotations one after the other, each stopped at some moment, or where it ends; the lock of one that
was stopped is removed by hand. -/
inductive Rotations (R : Surroundings KeyOp KeyOp.Answer World) : World → World → Prop
  | start (s : World) : Rotations R s s
  | rotate {s s₁ s₂ : World} {opts : VopsOpsRotation.RotateOptions}
      {p : KeyProg VopsOpsRotation.RotationReport} {t : Trace KeyOp KeyOp.Answer}
      (before : Rotations R s s₁) (run : Steps R (VopsOpsRotation.rotate opts) s₁ t p s₂) :
      Rotations R s s₂
  | unlock {s s₁ : World} (before : Rotations R s s₁) : Rotations R s { s₁ with locked := false }

theorem unstranded_rotations {s s' : World} (hs : Unstranded publicData a s)
    (h : Rotations (careful publicData a) s s') : Unstranded publicData a s' := by
  induction h with
  | start => exact hs
  | rotate _ run ih => exact (unstranded_rotate ih _).steps run
  | unlock _ ih => exact ⟨ih.held, ih.next⟩

/-- Where every private key of the ladder has its public half beside it, `opsLadder` tries them all. -/
theorem exists_mem_opsLadder {s : World} (h : Held publicData a s)
    (hpub : ∀ name ∈ ladder, (s.keys.file name .priv).isSome → (s.keys.file name .pub).isSome) :
    ∃ name ∈ ladder, heldBy publicData s.keys [name] (lines (s.authorizedKeys a)) = true ∧
      s.keys.dir ++ "/" ++ name.text ∈ s.keys.opsLadder := by
  obtain ⟨name, hname, key, hkey, l, hl, hline⟩ := heldBy_iff.mp h
  refine ⟨name, hname, heldBy_iff.mpr ⟨name, List.mem_singleton_self _, key, hkey, l, hl, hline⟩, ?_⟩
  obtain ⟨pub, hpub⟩ := Option.isSome_iff_exists.mp (hpub name hname (by simp [hkey]))
  unfold KeyStore.opsLadder
  refine List.mem_map.mpr ⟨s.keys.read name pub, List.mem_filter.mpr ⟨?_, ?_⟩, rfl⟩
  · exact List.mem_filterMap.mpr ⟨name, hname, by simp [KeyStore.readOpsKey, hpub]⟩
  · simp [KeyStore.read, hkey]

/-- No account that leads to the ladder is stranded by rotations, however they are stopped, when every
step is careful. -/
theorem rotations_strand_no_host {s s' : World} (hnext : NextHeld publicData s.keys)
    (hheld : Held publicData a s) (h : Rotations (careful publicData a) s s') :
    Held publicData a s' ∧
      ((∀ name ∈ ladder, (s'.keys.file name .priv).isSome → (s'.keys.file name .pub).isSome) →
        ∃ name ∈ ladder, heldBy publicData s'.keys [name] (lines (s'.authorizedKeys a)) = true ∧
          s'.keys.dir ++ "/" ++ name.text ∈ s'.keys.opsLadder) := by
  have hs := unstranded_rotations ⟨hheld, hnext⟩ h
  exact ⟨hs.held, exists_mem_opsLadder hs.held⟩

namespace AliceHost

theorem nextHeld_keys : NextHeld (fun key => key) keys := by
  intro pub hpub
  obtain rfl : "ssh-ed25519 AAAANEXT vops-ops.next".toList = pub := Option.some.inj hpub
  exact ⟨"AAAANEXT".toList, rfl, "ssh-ed25519".toList, "AAAANEXT".toList,
    ["vops-ops.next".toList], by decide, by decide, by decide, rfl⟩

/-- Where every session opens and every read is whole, the host is not stranded. -/
theorem rotations_strand_no_host_calm :
    Held (fun key => key) host.account (run calm (VopsOpsRotation.rotate {}) world.fresh).2 := by
  obtain ⟨t, ht⟩ := Steps.of_checked (surroundings_answering (fun key => key) _ _)
    (by decide +kernel : Checked calm (Careful (fun key => key) host.account)
      (VopsOpsRotation.rotate {}) world.fresh)
  have hheld : Held (fun key => key) host.account world.fresh := by
    unfold Held
    decide +kernel
  exact (rotations_strand_no_host nextHeld_keys hheld (.rotate (.start _) ht)).1

/-- A world that an earlier rotation left half way: the host has the previous key only. -/
def laterWorld : World :=
  { world with
    keys := keys.write .prev .priv "AAAAPREV".toList
    files := fun _ _ => some "ssh-ed25519 AAAAPREV vops-ops:ab\n".toList }

/-- No session opens. -/
def down : Handler KeyOp KeyOp.Answer World := answering (fun _ _ => true) fun _ _ => true

/-- A forced promotion drops the key that a host needs. -/
theorem not_rotations_strand_no_host_down : ¬ ∀ (publicData : Text → Text) a s s',
    NextHeld publicData s.keys → Held publicData a s →
      Rotations (surroundings publicData) s s' → Held publicData a s' := by
  intro h
  obtain ⟨t, ht⟩ := Steps.of_checked (surroundings_answering (fun key => key) _ _)
    (by decide +kernel : Checked down (fun _ _ _ => True)
      (VopsOpsRotation.rotate { force := true }) laterWorld)
  have hnext : NextHeld (fun key => key) laterWorld.keys := nextHeld_keys
  have hheld : Held (fun key => key) host.account laterWorld := by
    unfold Held
    decide +kernel
  have hlost := h _ _ _ _ hnext hheld (.rotate (.start _) (ht.mono fun _ _ _ _ hx => hx.1))
  unfold Held at hlost
  exact absurd hlost (by decide +kernel)

end AliceHost

end Vops.HostOps
