import Vops.Keyring.Unlock

/-!
# Which passphrases unlock

* `serve_unlock_cases` — a keyring that accepts a passphrase has opened the vault with it.
* `chooseKey_ok` — where a key comes from: an unlocked keyring, or the passphrase.
* `unlock_checks_passphrase` — unlocking with a passphrase ends well only with the right one, unless
  the vault was open to this process before, or to a keyring that handed out its key.
-/

/-!
## Unlocking from the dashboard (`local-api/vault.controller.ts`)

`VaultController.unlock` takes the single attempt slot of the throttle, unlocks with the passphrase of
the request and scores the attempt.
-/

namespace Vops.Keyring.VaultController

open Vops.Keyring

variable {Master Key : Type} (c : Crypto Master Key)

/-- The answer to a request that succeeded. -/
structure Status where
  state : VaultState
  keyring : KeyringStatus
  throttle : ThrottleState

/-- `status` -/
def status : Prog Key Status := do
  let state ← vaultState
  let keyring ← keyringStatus
  let throttle : ThrottleState ← op .throttleState
  pure ⟨state, keyring, throttle⟩

/-- `WRONG` -/
def WRONG : String := "Wrong passphrase."

/-- `throw this.wrongPassphrase()` -/
def wrongPassphrase {α : Type} : Prog Key α := do
  let state : ThrottleState ← op .throttleState
  throw (.unauthorized WRONG state.failures state.retryInMs)

/-- `throw this.tooMany()` -/
def tooMany {α : Type} : Prog Key α := do
  let state : ThrottleState ← op .throttleState
  throw (.tooManyRequests
    (if 0 < state.retryInMs then "Too many attempts. Wait before trying again."
      else "An unlock is already in progress.") state.failures state.retryInMs)

/-- `isAuthFailure` -/
def isAuthFailure : UnlockError → Bool
  | .auth _ | .locked _ => true
  | _ => false

/-- The `try` block: the attempt, scored as a success when it ends. -/
def attempt (passphrase : String) : Prog Key Unit := do
  let _ ← ensureVaultUnlocked c { passphrase := some passphrase, useDaemon := true }
  op (.throttleRecord true)

/-- The `catch` block: only an authentication failure counts. -/
def attemptFailed (e : UnlockError) : Prog Key Unit := do
  if isAuthFailure e then
    let _ : Unit ← op (.throttleRecord false)
    wrongPassphrase
  else
    let _ : Unit ← op .throttleRelease
    throw e

/-- `unlock` -/
def unlock (passphrase : Option String) : Prog Key Status := do
  if passphrase.getD "" = "" then throw (.badRequest "Passphrase required.")
  let begun : Bool ← op .throttleBegin
  if begun then
    tryCatch (attempt c (passphrase.getD "")) (attemptFailed)
    status
  else tooMany

/-- `lock` -/
def lock : Prog Key Status := do
  let _ ← lockKeyring
  status

end Vops.Keyring.VaultController

namespace Vops.Keyring

open Async

variable {Master Key : Type} {c : Crypto Master Key} {file : DiskFile}

/-- The passphrase and the header give a key that opens the vault. -/
def Opens (c : Crypto Master Key) (file : DiskFile) (passphrase : String) : Prop :=
  ∃ header key secrets, readHeader c file = .ok header ∧
    vaultKeyFrom c passphrase header = .ok key ∧ readWith c file key = .ok secrets

/-! ## The daemon -/

theorem unlock_cases (server : KeyringServer Master) (now : ℕ) (passphrase : String) :
    (∃ code message, (server.unlock c file now passphrase).1 = .error code message) ∨
      ((server.unlock c file now passphrase).1 = .unlock ∧ Opens c file passphrase) := by
  unfold KeyringServer.unlock
  cases hheader : readHeader c file with
  | error e => exact .inl ⟨_, _, rfl⟩
  | ok header =>
      simp only
      split
      next e he =>
        refine .inl ?_
        cases e <;> exact ⟨_, _, rfl⟩
      next master hmaster =>
        obtain ⟨m, hm, hmaster⟩ := except_bind_eq_ok.mp hmaster
        obtain ⟨_, hverify, _⟩ := except_bind_eq_ok.mp hmaster
        obtain ⟨header', hheader', hverify⟩ := except_bind_eq_ok.mp hverify
        obtain ⟨secrets, hsecrets, _⟩ := except_bind_eq_ok.mp hverify
        obtain rfl : header = header' := Except.ok.inj (hheader.symm.trans hheader')
        refine .inr ⟨rfl, header, deriveKey c m .vault header.salt, secrets, hheader, ?_, hsecrets⟩
        exact except_bind_eq_ok.mpr ⟨m, hm, rfl⟩

/-- What a keyring answers to a passphrase. -/
theorem serve_unlock_cases (server : KeyringServer Master) (now : ℕ) (cookie passphrase : String) :
    (∃ code message,
      (server.serve c file now (.unlock cookie passphrase)).1 = some (.error code message)) ∨
    ((server.serve c file now (.unlock cookie passphrase)).1 = some .unlock ∧
      Opens c file passphrase) := by
  unfold KeyringServer.serve
  cases decodeRequest (.unlock cookie passphrase) with
  | some message => exact .inl ⟨_, _, rfl⟩
  | none =>
      simp only [KeyringServer.handle]
      split
      · rcases @unlock_cases Master Key c file (server.expireIfDue now) now passphrase with
          ⟨code, message, h⟩ | ⟨h, hopens⟩
        · exact .inl ⟨code, message, congrArg some h⟩
        · exact .inr ⟨congrArg some h, hopens⟩
      · exact .inl ⟨_, _, rfl⟩

/-! ## The ways to a key -/

variable {s s' : Process Key} {t : Trace (KeyringOp Key) KeyringOp.Answer}

/-- The operation does not score an attempt as a success. -/
def Unscored (o : KeyringOp Key) : Prop := o ≠ .throttleRecord true

/-- Neither does it send a passphrase. -/
def Quiet (o : KeyringOp Key) : Prop :=
  (∀ cookie passphrase, o ≠ .ask (.unlock cookie passphrase)) ∧ Unscored o

theorem quiet_isListening (cookie : String) :
    AllOps Quiet (isListening cookie : Prog Key Bool) :=
  ⟨by simp [Quiet, Unscored], fun _ => trivial⟩

theorem quiet_awaitDaemon (cookie : String) (polls : ℕ) :
    AllOps Quiet (awaitDaemon cookie polls : Prog Key Bool) := by
  induction polls with
  | zero => trivial
  | succ polls ih =>
      refine ⟨by simp [Quiet, Unscored], fun due => ?_⟩
      cases due with
      | false => trivial
      | true =>
          refine (quiet_isListening cookie).bind fun listening => ?_
          cases listening with
          | false => exact ih
          | true => trivial

theorem quiet_startDaemon (cookie : String) :
    AllOps Quiet (startDaemon cookie : Prog Key Bool) := by
  refine ⟨by simp [Quiet, Unscored], fun present => ?_⟩
  cases present with
  | false => trivial
  | true => exact ⟨by simp [Quiet, Unscored], fun _ => quiet_awaitDaemon cookie _⟩

theorem quiet_keyOp (cookie : String) (domain : KeyDomain) : AllOps Quiet (keyOp c cookie domain) := by
  refine ⟨by simp [Quiet, Unscored], fun (res : Option KeyringResponse) => ?_⟩
  rcases res with _ | (_ | _ | _ | _ | _) <;> trivial

/-- A keyring hands out a key before a passphrase is sent. -/
def HandedOut (c : Crypto Master Key) (t : Trace (KeyringOp Key) KeyringOp.Answer) (key : Key) :
    Prop :=
  ∃ t₁ cookie domain hex t₂, t = t₁ ++ ⟨.ask (.key cookie domain), some (.key hex)⟩ :: t₂ ∧
    (∀ e ∈ t₁, Quiet e.1) ∧ key = c.ofHex hex

theorem HandedOut.append {key : Key} (h : HandedOut c t key)
    (t' : Trace (KeyringOp Key) KeyringOp.Answer) : HandedOut c (t ++ t') key := by
  obtain ⟨t₁, cookie, domain, hex, t₂, rfl, hquiet, rfl⟩ := h
  exact ⟨t₁, cookie, domain, hex, t₂ ++ t', by simp, hquiet, rfl⟩

theorem HandedOut.prepend {key : Key} (h : HandedOut c t key)
    (t' : Trace (KeyringOp Key) KeyringOp.Answer) (ht' : ∀ e ∈ t', Quiet e.1) :
    HandedOut c (t' ++ t) key := by
  obtain ⟨t₁, cookie, domain, hex, t₂, rfl, hquiet, rfl⟩ := h
  refine ⟨t' ++ t₁, cookie, domain, hex, t₂, by simp, ?_, rfl⟩
  intro e he
  rcases List.mem_append.mp he with he | he
  · exact ht' e he
  · exact hquiet e he

theorem keyOp_ok {cookie : String} {domain : KeyDomain} {key : Key}
    (h : Steps (surroundings c file) (keyOp c cookie domain) s t (.done (.ok (some key))) s') :
    HandedOut c t key := by
  obtain ⟨res, s₁, t₁, rfl, -, h₁⟩ := h.of_perform
  rcases (res : Option KeyringResponse) with _ | (_ | _ | _ | hex | _)
  case some.key =>
    obtain ⟨rfl, hkey, -⟩ := h₁.of_done
    exact ⟨[], cookie, domain, hex, [], rfl, by simp, by simpa using hkey⟩
  all_goals
    obtain ⟨-, hkey, -⟩ := h₁.of_done
    exact absurd hkey (by simp)

theorem cachedKey_ok {cookie : String} {domain : KeyDomain} {allowSpawn : Bool} {key : Key}
    (h : Steps (surroundings c file) (cachedKey c cookie domain allowSpawn) s t
      (.done (.ok (some key))) s') : HandedOut c t key := by
  obtain ⟨first, s₁, t₁, t₂, hfirst, h₁, rfl⟩ := h.bind_ok
  cases first with
  | some first =>
      obtain ⟨rfl, hkey, -⟩ := h₁.of_done
      obtain rfl : key = first := by simpa using hkey
      simpa using keyOp_ok hfirst
  | none =>
      refine HandedOut.prepend ?_ _ ((quiet_keyOp cookie domain).steps hfirst)
      dsimp only at h₁
      cases allowSpawn with
      | false =>
          obtain ⟨-, hkey, -⟩ := h₁.of_done
          exact absurd hkey (by simp)
      | true =>
          obtain ⟨listening, s₂, t₃, t₄, hlistening, h₂, rfl⟩ := h₁.bind_ok
          refine HandedOut.prepend ?_ _ ((quiet_isListening cookie).steps hlistening)
          cases listening with
          | true =>
              obtain ⟨-, hkey, -⟩ := h₂.of_done
              exact absurd hkey (by simp)
          | false =>
              obtain ⟨started, s₃, t₅, t₆, hstarted, h₃, rfl⟩ := h₂.bind_ok
              refine HandedOut.prepend ?_ _ ((quiet_startDaemon cookie).steps hstarted)
              cases started with
              | false =>
                  obtain ⟨-, hkey, -⟩ := h₃.of_done
                  exact absurd hkey (by simp)
              | true => exact keyOp_ok h₃

/-- A daemon that leads to a key after a passphrase was sent has opened the vault with it. -/
theorem unlockDaemon_ok {cookie passphrase : String} {domain : KeyDomain} {key : Key}
    (h : Steps (surroundings c file) (unlockDaemon c cookie passphrase domain) s t
      (.done (.ok (some key))) s') : Opens c file passphrase := by
  obtain ⟨res, s₁, t₁, -, ⟨-, hres⟩, h₁⟩ := h.of_perform
  have haccepted : res = none ∨ (∃ code message, res = some (.error code message)) ∨
      Opens c file passphrase := by
    rcases hres with hnone | ⟨server, now, hserve⟩
    · exact .inl hnone
    · rcases @serve_unlock_cases Master Key c file server now cookie passphrase with
        ⟨code, message, herror⟩ | ⟨-, hopens⟩
      · exact .inr (.inl ⟨code, message, hserve.trans herror⟩)
      · exact .inr (.inr hopens)
  clear hres
  rcases haccepted with rfl | ⟨code, message, rfl⟩ | hopens
  · obtain ⟨-, hkey, -⟩ := h₁.of_done
    exact absurd hkey (by simp)
  · cases code <;>
      · obtain ⟨-, hkey, -⟩ := h₁.of_done
        exact absurd hkey (by simp)
  · exact hopens

/-- A passphrase that derives the key. -/
def Derives (c : Crypto Master Key) (file : DiskFile) (passphrase : String) (key : Key) : Prop :=
  ∃ header, readHeader c file = .ok header ∧ vaultKeyFrom c passphrase header = .ok key

/-- A computation that ends in a value was one. -/
theorem try'_ok {α : Type} {x : Except UnlockError α} {a : α}
    (h : Steps (surroundings c file) (try' x) s t (.done (.ok a)) s') : x = .ok a ∧ s' = s := by
  obtain ⟨-, hx, rfl⟩ := h.of_done
  exact ⟨by simpa using hx.symm, rfl⟩

theorem deriveLocally_ok {passphrase : String} {key : Key}
    (h : Steps (surroundings c file) (deriveLocally c passphrase .vault) s t
      (.done (.ok key)) s') : Derives c file passphrase key := by
  obtain ⟨_, s₁, t₁, -, ⟨rfl, -⟩, h₁⟩ := h.of_perform
  obtain ⟨header, s₂, t₂, t₃, hheader, h₂, -⟩ := h₁.bind_ok
  exact ⟨header, (try'_ok hheader).1, (try'_ok h₂).1⟩

/-- With a passphrase at hand, the key is one that the passphrase derives, or a keyring has opened the
vault with it. -/
theorem freshKey_ok {opts : UnlockOptions} {passphrase cookie : String} {key : Key}
    (h : Steps (surroundings c file) (freshKey c opts (some passphrase) cookie .vault) s t
      (.done (.ok key)) s') : Opens c file passphrase ∨ Derives c file passphrase key := by
  obtain ⟨_, s₁, t₁, t₂, -, h₁, -⟩ := h.bind_ok
  change Steps _ (if (!opts.noDaemon) = true then _ else _) _ _ _ _ at h₁
  split at h₁
  · obtain ⟨fresh, s₂, t₃, t₄, hfresh, h₂, -⟩ := h₁.bind_ok
    cases fresh with
    | some fresh => exact .inl (unlockDaemon_ok hfresh)
    | none => exact .inr (deriveLocally_ok h₂)
  · exact .inr (deriveLocally_ok h₁)

/-- Where the key comes from. -/
theorem chooseKey_ok {opts : UnlockOptions} {passphrase : String} {key : Key}
    (h : Steps (surroundings c file) (chooseKey c opts (some passphrase)) s t
      (.done (.ok key)) s') :
    HandedOut c t key ∨ Opens c file passphrase ∨ Derives c file passphrase key := by
  unfold chooseKey at h
  split at h
  · obtain ⟨_, s₁, t₁, -, ⟨rfl, -⟩, h₁⟩ := h.of_perform
    obtain ⟨header, s₂, t₂, t₃, hheader, h₂, -⟩ := h₁.bind_ok
    exact .inr (.inr ⟨header, (try'_ok hheader).1, (try'_ok h₂).1⟩)
  · obtain ⟨cookie, s₁, t₁, rfl, -, h₁⟩ := h.of_perform
    change Steps _ (if (!opts.noDaemon) = true then _ else _) _ _ _ _ at h₁
    split at h₁
    · obtain ⟨cached, s₂, t₂, t₃, hcached, h₂, rfl⟩ := h₁.bind_ok
      cases cached with
      | some cached =>
          obtain ⟨-, hkey, -⟩ := h₂.of_done
          obtain rfl : key = cached := by simpa using hkey
          have hhanded := ((cachedKey_ok hcached).append t₃).prepend
            [⟨.keyringCookie, cookie⟩] (by simp [Quiet, Unscored])
          exact .inl hhanded
      | none => exact .inr (freshKey_ok h₂)
    · exact .inr (freshKey_ok h₁)

/-- A key is adopted only when it opens the vault. -/
theorem adopt_ok {key : Key}
    (h : Steps (surroundings c file) (adopt c key) s t (.done (.ok ())) s') :
    ∃ secrets, readWith c file key = .ok secrets := by
  obtain ⟨_, s₁, t₁, -, ⟨rfl, -⟩, h₁⟩ := h.of_perform
  obtain ⟨secrets, s₂, t₂, t₃, hsecrets, -, -⟩ := h₁.bind_ok
  exact ⟨secrets, (try'_ok hsecrets).1⟩

/-- The vault was open before the passphrase was looked at: to this process, or to a keyring that
handed out a key that opens it. -/
def AlreadyOpen (c : Crypto Master Key) (file : DiskFile) (s : Process Key)
    (t : Trace (KeyringOp Key) KeyringOp.Answer) : Prop :=
  s.key ≠ none ∨ ∃ key secrets, HandedOut c t key ∧ readWith c file key = .ok secrets

/-- Unlocking with a passphrase at hand. -/
theorem ensureVaultUnlocked_ok (hfile : vaultExists file = true) {opts : UnlockOptions}
    {passphrase : String} (hp : opts.passphrase = some passphrase) {mode : VaultMode}
    (h : Steps (surroundings c file) (ensureVaultUnlocked c opts) s t (.done (.ok mode)) s') :
    AlreadyOpen c file s t ∨ Opens c file passphrase := by
  obtain ⟨exist, s₁, t₁, rfl, ⟨hexist, hs₁⟩, h₁⟩ := h.of_perform
  obtain rfl : exist = true := hexist.trans hfile
  obtain ⟨held, s₂, t₂, rfl, ⟨hheld, hs₂⟩, h₂⟩ := Steps.of_perform h₁
  obtain rfl : held = s.key := hheld.trans (by rw [hs₁])
  change Steps _ (if s.key.isSome = true then _ else _) _ _ _ _ at h₂
  split at h₂
  · next hkey =>
    refine .inl (.inl ?_)
    intro hnone
    simp [hnone] at hkey
  · simp only [givenPassphrase, hp] at h₂
    obtain ⟨given, s₅, t₇, t₈, hgiven, h₄, rfl⟩ := Steps.bind_ok h₂
    obtain ⟨rfl, hgiven, -⟩ := hgiven.of_done
    obtain rfl : given = some passphrase := by simpa using hgiven
    obtain ⟨key, s₃, t₃, t₄, hkey, h₃, rfl⟩ := h₄.bind_ok
    obtain ⟨_, s₄, t₅, t₆, hadopt, -, rfl⟩ := h₃.bind_ok
    obtain ⟨secrets, hsecrets⟩ := adopt_ok hadopt
    rcases chooseKey_ok hkey with hhanded | hopens | ⟨header, hheader, hderive⟩
    · refine .inl (.inr ⟨key, secrets, ?_, hsecrets⟩)
      exact (hhanded.append (t₅ ++ t₆)).prepend
        [⟨.vaultExists, true⟩, ⟨.vaultKey, s.key⟩] (by simp [Quiet, Unscored])
    · exact .inr hopens
    · exact .inr ⟨header, key, secrets, hheader, hderive, hsecrets⟩

/-! ## What is scored -/

theorem Quiet.unscored (o : KeyringOp Key) (h : Quiet o) : Unscored o := h.2

theorem unscored_keyOp (cookie : String) (domain : KeyDomain) :
    AllOps Unscored (keyOp c cookie domain) :=
  (quiet_keyOp cookie domain).mono Quiet.unscored

theorem unscored_cachedKey (cookie : String) (domain : KeyDomain) (allowSpawn : Bool) :
    AllOps Unscored (cachedKey c cookie domain allowSpawn) := by
  refine (unscored_keyOp cookie domain).bind fun first => ?_
  cases first with
  | some first => trivial
  | none =>
      cases allowSpawn with
      | false => trivial
      | true =>
          refine ((quiet_isListening cookie).mono Quiet.unscored).bind fun listening => ?_
          cases listening with
          | true => trivial
          | false =>
              refine ((quiet_startDaemon cookie).mono Quiet.unscored).bind fun started => ?_
              cases started with
              | false => trivial
              | true => exact unscored_keyOp cookie domain

theorem unscored_unlockDaemon (cookie passphrase : String) (domain : KeyDomain) :
    AllOps Unscored (unlockDaemon c cookie passphrase domain) := by
  refine ⟨by simp [Unscored], fun (res : Option KeyringResponse) => ?_⟩
  rcases res with _ | (_ | _ | _ | _ | ⟨code, message⟩)
  case none => trivial
  case some.error => cases code <;> trivial
  all_goals exact unscored_keyOp cookie domain

theorem unscored_deriveLocally (passphrase : String) (domain : KeyDomain) :
    AllOps Unscored (deriveLocally c passphrase domain) := by
  have hthrow : ∀ {α : Type} (x : Except UnlockError α),
      AllOps Unscored (try' x : Prog Key α) := fun _ => trivial
  refine .perform_bind (by simp [Unscored]) fun file => (hthrow _).bind fun header => ?_
  dsimp only
  split
  · exact (hthrow _).bind fun key => .perform_bind (by simp [Unscored]) fun again =>
      (hthrow _).bind fun _ => hthrow _
  · exact hthrow _

theorem unscored_freshKey (opts : UnlockOptions) (given : Option String) (cookie : String)
    (domain : KeyDomain) : AllOps Unscored (freshKey c opts given cookie domain) := by
  have hcheck : AllOps Unscored (checkPromptable opts given : Prog Key Unit) := by
    unfold checkPromptable
    split
    · refine ⟨by simp [Unscored], fun (allowed : Bool) => ?_⟩
      cases allowed <;> cases opts.interactive <;> trivial
    · trivial
  have hask : AllOps Unscored (askPassphrase given : Prog Key String) := by
    cases given with
    | some passphrase => trivial
    | none => exact ⟨by simp [Unscored], fun _ => trivial⟩
  refine hcheck.bind fun _ => hask.bind fun passphrase => ?_
  split
  · refine (unscored_unlockDaemon cookie passphrase domain).bind fun fresh => ?_
    cases fresh with
    | some fresh => trivial
    | none => exact unscored_deriveLocally passphrase domain
  · exact unscored_deriveLocally passphrase domain

theorem unscored_applyVaultEnv (fields : List (String × Json)) :
    AllOps Unscored (applyVaultEnv fields : Prog Key Unit) := by
  induction fields with
  | nil => trivial
  | cons field rest ih =>
      refine ⟨by simp [Unscored], fun present => ?_⟩
      change AllOps Unscored (if _ then _ else _)
      split
      · exact ⟨by simp [Unscored], fun _ => ih⟩
      · exact ih

theorem unscored_ensureVaultUnlocked (opts : UnlockOptions) :
    AllOps Unscored (ensureVaultUnlocked c opts) := by
  have hgiven : AllOps Unscored (givenPassphrase opts : Prog Key (Option String)) := by
    unfold givenPassphrase
    split
    · trivial
    · exact ⟨by simp [Unscored], fun _ => trivial⟩
  have hchoose : ∀ given, AllOps Unscored (chooseKey c opts given) := by
    intro given
    unfold chooseKey
    split
    · exact .perform_bind (by simp [Unscored]) fun file =>
        AllOps.bind (P := Unscored) trivial fun header => trivial
    · refine ⟨by simp [Unscored], fun (cookie : String) => ?_⟩
      change AllOps Unscored (if (!opts.noDaemon) = true then _ else _)
      split
      · refine (unscored_cachedKey cookie .vault opts.interactive).bind fun cached => ?_
        cases cached with
        | some cached => trivial
        | none => exact unscored_freshKey opts given cookie .vault
      · exact unscored_freshKey opts given cookie .vault
  have hadopt : ∀ key, AllOps Unscored (adopt c key) := fun key =>
    .perform_bind (by simp [Unscored]) fun file => AllOps.bind (P := Unscored) trivial fun secrets =>
      .perform_bind (by simp [Unscored]) fun _ => unscored_applyVaultEnv _
  refine ⟨by simp [Unscored], fun (exist : Bool) => ?_⟩
  cases exist with
  | false => trivial
  | true =>
      refine ⟨by simp [Unscored], fun (held : Option Key) => ?_⟩
      cases held with
      | some key => trivial
      | none =>
          exact hgiven.bind fun given => (hchoose given).bind fun key =>
            (hadopt key).bind fun _ => trivial

namespace VaultController

theorem unscored_attemptFailed (e : UnlockError) :
    AllOps Unscored (attemptFailed e : Prog Key Unit) := by
  unfold attemptFailed
  split
  · exact ⟨by simp [Unscored], fun _ => ⟨by simp [Unscored], fun _ => trivial⟩⟩
  · exact ⟨by simp [Unscored], fun _ => trivial⟩

theorem unscored_status : AllOps Unscored (status : Prog Key Status) := by
  have hkeyring : AllOps Unscored (keyringStatus : Prog Key KeyringStatus) := by
    refine ⟨by simp [Unscored], fun cookie => ⟨by simp [Unscored], ?_⟩⟩
    intro (res : Option KeyringResponse)
    rcases res with _ | (_ | _ | _ | _ | _) <;> trivial
  have hstate : AllOps Unscored (vaultState : Prog Key VaultState) := by
    refine ⟨by simp [Unscored], fun (exist : Bool) => ?_⟩
    cases exist with
    | false => trivial
    | true => exact ⟨by simp [Unscored], fun _ => trivial⟩
  exact hstate.bind fun state => hkeyring.bind fun keyring =>
    ⟨by simp [Unscored], fun _ => trivial⟩

end VaultController

/-- An operation other than the one at the head of a trace comes later in it. -/
theorem mem_tail {o o' : KeyringOp Key} {x : o.Answer} {x' : o'.Answer} (ho : o ≠ o')
    (h : (⟨o, x⟩ : Σ o : KeyringOp Key, o.Answer) ∈ ⟨o', x'⟩ :: t) : ⟨o, x⟩ ∈ t := by
  rcases List.mem_cons.mp h with h | h
  · exact absurd (congrArg Sigma.fst h) ho
  · exact h

/-- An attempt that is scored as a success unlocked before. -/
theorem VaultController.attempt_cases {passphrase : String} {q : Prog Key Unit}
    (h : Steps (surroundings c file) (attempt c passphrase) s t q s')
    (hrecord : ⟨.throttleRecord true, ()⟩ ∈ t) :
    ∃ mode s₁ t₁ t₂, Steps (surroundings c file)
      (ensureVaultUnlocked c { passphrase := some passphrase, useDaemon := true }) s t₁
      (.done (.ok mode)) s₁ ∧ t = t₁ ++ t₂ := by
  rcases Steps.bind_cases h with ⟨p', hp', -⟩ | ⟨mode, s₁, t₁, t₂, hmode, -, rfl⟩
  · exact absurd rfl ((unscored_ensureVaultUnlocked _).steps hp' _ hrecord)
  · exact ⟨mode, s₁, t₁, t₂, hmode, rfl⟩

/-- A request that is scored as a success. -/
theorem VaultController.unlock_cases {passphrase : Option String} {q : Prog Key Status}
    (h : Steps (surroundings c file) (unlock c passphrase) s t q s')
    (hrecord : ⟨.throttleRecord true, ()⟩ ∈ t) :
    ∃ p mode s₁ s₂ t₁ t₂, passphrase = some p ∧ s₁.key = s.key ∧ Steps (surroundings c file)
      (ensureVaultUnlocked c { passphrase := some p, useDaemon := true }) s₁ t₁
      (.done (.ok mode)) s₂ ∧ t = [⟨.throttleBegin, true⟩] ++ (t₁ ++ t₂) := by
  cases passphrase with
  | none =>
      obtain ⟨rfl, -, -⟩ := Steps.of_done h
      exact absurd hrecord (by simp)
  | some p =>
      by_cases hp : p = ""
      · subst hp
        obtain ⟨rfl, -, -⟩ := Steps.of_done h
        exact absurd hrecord (by simp)
      · have hbegin : unlock c (some p) = op (.throttleBegin) >>= fun (begun : Bool) =>
            if begun then
              (tryCatch (attempt c p) attemptFailed : Prog Key Unit) >>= fun _ => status
            else tooMany := by
          unfold unlock
          rw [if_neg (by simpa using hp)]
          rfl
        rw [hbegin] at h
        rcases h.perform_cases with rfl | ⟨begun, s₁, t₁, rfl, ⟨now, -, hs₁⟩, h₁⟩
        · exact absurd hrecord (by simp)
        · have hrecord₁ : ⟨.throttleRecord true, ()⟩ ∈ t₁ := mem_tail (by simp) hrecord
          cases begun with
          | false =>
              rcases h₁.perform_cases with rfl | ⟨state, s₂, t₂, rfl, -, h₂⟩
              · exact absurd hrecord₁ (by simp)
              · obtain ⟨rfl, -, -⟩ := h₂.of_done
                exact absurd (mem_tail (by simp) hrecord₁) (by simp)
          | true =>
              obtain ⟨p', s₂, t₂, t₃, hcaught, hrecord₂, rfl⟩ : ∃ p' s₂ t₂ t₃, Steps
                  (surroundings c file) (tryCatch (attempt c p) attemptFailed) s₁ t₂ p' s₂ ∧
                  ⟨.throttleRecord true, ()⟩ ∈ t₂ ∧ t₁ = t₂ ++ t₃ := by
                rcases Steps.bind_cases h₁ with ⟨p', hp', -⟩ | ⟨_, s₂, t₂, t₃, hp', hstatus, rfl⟩
                · exact ⟨p', _, t₁, [], hp', hrecord₁, by simp⟩
                · refine ⟨_, _, t₂, t₃, hp', ?_, rfl⟩
                  rcases List.mem_append.mp hrecord₁ with hrecord₁ | hrecord₁
                  · exact hrecord₁
                  · exact absurd rfl (unscored_status.steps hstatus _ hrecord₁)
              obtain ⟨p', s₃, t₄, t₅, hattempt, hrecord₃, rfl⟩ : ∃ p' s₃ t₄ t₅, Steps
                  (surroundings c file) (attempt c p) s₁ t₄ p' s₃ ∧
                  ⟨.throttleRecord true, ()⟩ ∈ t₄ ∧ t₂ = t₄ ++ t₅ := by
                rcases hcaught.tryCatch_cases with ⟨p', hp'⟩ | ⟨e, s₃, t₄, t₅, hp', hfailed, rfl⟩
                · exact ⟨p', _, t₂, [], hp', hrecord₂, by simp⟩
                · refine ⟨_, _, t₄, t₅, hp', ?_, rfl⟩
                  rcases List.mem_append.mp hrecord₂ with hrecord₂ | hrecord₂
                  · exact hrecord₂
                  · exact absurd rfl ((unscored_attemptFailed e).steps hfailed _ hrecord₂)
              obtain ⟨mode, s₄, t₆, t₇, hmode, rfl⟩ := attempt_cases hattempt hrecord₃
              exact ⟨p, mode, s₁, s₄, t₆, t₇ ++ t₅ ++ t₃, rfl, by rw [hs₁], hmode, by simp⟩

/-- A passphrase that is given is really checked: unlocking ends well, and is scored as a success, only
with a passphrase that opens the vault, unless the vault was open before. -/
theorem unlock_checks_passphrase (hfile : vaultExists file = true) :
    (∀ (opts : UnlockOptions) (p : String) (s s' : Process Key)
        (t : Trace (KeyringOp Key) KeyringOp.Answer) (mode : VaultMode), opts.passphrase = some p →
      Steps (surroundings c file) (ensureVaultUnlocked c opts) s t (.done (.ok mode)) s' →
      AlreadyOpen c file s t ∨ Opens c file p) ∧
    ∀ (passphrase : Option String) (s s' : Process Key)
        (t : Trace (KeyringOp Key) KeyringOp.Answer) (q : Prog Key VaultController.Status),
      Steps (surroundings c file) (VaultController.unlock c passphrase) s t q s' →
      ⟨.throttleRecord true, ()⟩ ∈ t →
      ∃ p, passphrase = some p ∧ (AlreadyOpen c file s t ∨ Opens c file p) := by
  refine ⟨fun opts p s s' t mode hp h => ensureVaultUnlocked_ok hfile hp h, ?_⟩
  intro passphrase s s' t q h hrecord
  obtain ⟨p, mode, s₁, s₂, t₁, t₂, rfl, hkey, hmode, rfl⟩ :=
    VaultController.unlock_cases h hrecord
  refine ⟨p, rfl, ?_⟩
  rcases ensureVaultUnlocked_ok hfile rfl hmode with (hheld | ⟨key, secrets, hhanded, hread⟩) | hopens
  · exact .inl (.inl (by rwa [hkey] at hheld))
  · exact .inl (.inr ⟨key, secrets,
      (hhanded.append t₂).prepend _ (by simp [Quiet, Unscored]), hread⟩)
  · exact .inr hopens

/-! ## A vault that one passphrase opens -/

/-- The passphrase itself is the key, and `right` opens the vault. -/
def plainCrypto : Crypto String String where
  scrypt passphrase _ _ := passphrase
  hkdf master _ _ := master
  decipher _ _ _ key := if key = "right" then some (some (.obj [])) else none
  toHex key := key
  ofHex hex := hex
  stringify _ := "undefined"

def plainVault : DiskFile :=
  .json (.obj [("v", .num 1), ("salt", .str "0123456789abcdef"), ("data", .str "00:00:00")])

def plainHeader : VaultHeader := ⟨1, DEFAULT_KDF, "0123456789abcdef", none⟩

theorem readHeader_plain : readHeader plainCrypto plainVault = .ok plainHeader := by
  decide

theorem not_opens_plain : ¬ Opens plainCrypto plainVault "wrong" := by
  rintro ⟨header, key, secrets, hheader, hkey, hsecrets⟩
  obtain rfl : plainHeader = header := Except.ok.inj (readHeader_plain.symm.trans hheader)
  have hwrong : vaultKeyFrom plainCrypto "wrong" plainHeader = .ok "wrong" := rfl
  obtain rfl : "wrong" = key := Except.ok.inj (hwrong.symm.trans hkey)
  have hread : readWith plainCrypto plainVault "wrong" =
      .error (.auth "Wrong passphrase (the vault did not authenticate).") := rfl
  exact absurd (hread.symm.trans hsecrets) (by simp)

/-- Without a daemon: the key is derived here. -/
theorem steps_unlock_plain : Steps (surroundings plainCrypto plainVault)
    (VaultController.unlock plainCrypto (some "right")) ⟨none, [], true, {}⟩
    ([⟨.throttleBegin, true⟩, ⟨.vaultExists, true⟩, ⟨.vaultKey, none⟩, ⟨.keyringCookie, "cookie"⟩,
      ⟨.ask (.key "cookie" .vault), none⟩, ⟨.ask (.status "cookie"), none⟩,
      ⟨.daemonEntryExists, false⟩, ⟨.ask (.unlock "cookie" "right"), none⟩,
      ⟨.readVault, plainVault⟩, ⟨.readVault, plainVault⟩, ⟨.setVaultKey "right", ()⟩,
      ⟨.throttleRecord true, ()⟩])
    VaultController.status ⟨some "right", [], true, {}⟩ := by
  have hbegin : surroundings plainCrypto plainVault .throttleBegin ⟨none, [], true, {}⟩ true
      ⟨none, [], true, ⟨0, 0, true⟩⟩ := ⟨0, rfl, rfl⟩
  have hrecord : surroundings plainCrypto plainVault (.throttleRecord true)
      ⟨some "right", [], true, ⟨0, 0, true⟩⟩ () ⟨some "right", [], true, {}⟩ := ⟨0, rfl⟩
  refine .head hbegin (.head ⟨rfl, rfl⟩ (.head ⟨rfl, rfl⟩ (.head rfl ?_)))
  refine .head ⟨rfl, .inl rfl⟩ (.head ⟨rfl, .inl rfl⟩ (.head rfl (.head ⟨rfl, .inl rfl⟩ ?_)))
  exact .head ⟨rfl, rfl⟩ (.head ⟨rfl, rfl⟩ (.head rfl (.head hrecord (.refl _ _))))

/-- A process that holds the key. -/
theorem steps_unlock_held : Steps (surroundings plainCrypto plainVault)
    (VaultController.unlock plainCrypto (some "wrong")) ⟨some "right", [], true, {}⟩
    [⟨.throttleBegin, true⟩, ⟨.vaultExists, true⟩, ⟨.vaultKey, some "right"⟩,
      ⟨.throttleRecord true, ()⟩]
    VaultController.status ⟨some "right", [], true, {}⟩ := by
  have hbegin : surroundings plainCrypto plainVault .throttleBegin ⟨some "right", [], true, {}⟩ true
      ⟨some "right", [], true, ⟨0, 0, true⟩⟩ := ⟨0, rfl, rfl⟩
  have hrecord : surroundings plainCrypto plainVault (.throttleRecord true)
      ⟨some "right", [], true, ⟨0, 0, true⟩⟩ () ⟨some "right", [], true, {}⟩ := ⟨0, rfl⟩
  exact .head hbegin (.head ⟨rfl, rfl⟩ (.head ⟨rfl, rfl⟩ (.head hrecord (.refl _ _))))

/-- Scoring the run without a daemon as a success follows the right passphrase. -/
theorem unlock_checks_passphrase_plain : vaultExists plainVault = true ∧
    ∃ p, some "right" = some p ∧
      (AlreadyOpen plainCrypto plainVault ⟨none, [], true, {}⟩
        [⟨.throttleBegin, true⟩, ⟨.vaultExists, true⟩, ⟨.vaultKey, none⟩,
          ⟨.keyringCookie, "cookie"⟩, ⟨.ask (.key "cookie" .vault), none⟩,
          ⟨.ask (.status "cookie"), none⟩, ⟨.daemonEntryExists, false⟩,
          ⟨.ask (.unlock "cookie" "right"), none⟩, ⟨.readVault, plainVault⟩,
          ⟨.readVault, plainVault⟩, ⟨.setVaultKey "right", ()⟩, ⟨.throttleRecord true, ()⟩] ∨
        Opens plainCrypto plainVault p) :=
  ⟨rfl, (unlock_checks_passphrase rfl).2 _ _ _ _ _ steps_unlock_plain (by simp)⟩

/-- A process that holds a key unlocks, and scores a success, with a passphrase that does not open the
vault. -/
theorem not_unlock_checks_wrong :
    (∃ s t mode s', Steps (surroundings plainCrypto plainVault) (ensureVaultUnlocked plainCrypto
        { passphrase := some "wrong", useDaemon := true }) s t (.done (.ok mode)) s') ∧
    (∃ s t q s', Steps (surroundings plainCrypto plainVault)
        (VaultController.unlock plainCrypto (some "wrong")) s t q s' ∧
      ⟨.throttleRecord true, ()⟩ ∈ t) ∧
    ¬ Opens plainCrypto plainVault "wrong" := by
  refine ⟨⟨⟨some "right", [], true, {}⟩, [⟨.vaultExists, true⟩, ⟨.vaultKey, some "right"⟩],
    .unlocked, ⟨some "right", [], true, {}⟩, ?_⟩, ?_, not_opens_plain⟩
  · exact .head ⟨rfl, rfl⟩ (.head ⟨rfl, rfl⟩ (.refl _ _))
  · exact ⟨_, _, _, _, steps_unlock_held, by simp⟩

end Vops.Keyring
