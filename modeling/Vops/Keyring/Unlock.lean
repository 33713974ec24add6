import Vops.Keyring.KeyringServer
import Vops.Lib.AsyncRuns

/-!
# Unlocking the vault (`lib/keyring/unlock.ts`, `vault-session.ts`)

* `KeyringOp` — what this process does: it reads the disk, asks the daemon, the terminal and the
  clock, and keeps a key, its environment and the throttle of the local API.
* `ensureVaultUnlocked`, `resolveKey`, `cachedKey`, `unlockDaemon`, `adopt` — the ways to a key.
* `surroundings` — what can be answered while the vault file stays as it is: every request may stay
  unanswered, or be served by a keyring in any state.
-/

namespace Vops.Keyring

variable {Master Key : Type} (c : Crypto Master Key)

/-! ## The throttle (`unlock-throttle.ts`) -/

structure UnlockThrottle where
  failures : ℕ := 0
  nextAllowedAt : ℕ := 0
  busy : Bool := false

structure ThrottleState where
  failures : ℕ
  retryInMs : ℕ
deriving DecidableEq

namespace UnlockThrottle

/-- `BACKOFF_MS` -/
def BACKOFF_MS : List ℕ :=
  [0, 1000, 2000, 4000, 8000, 15000, 30000, 60000, 120000, 300000]

/-- `LOCKOUT_AFTER` -/
def LOCKOUT_AFTER : ℕ := 10

/-- `LOCKOUT_MS` -/
def LOCKOUT_MS : ℕ := 15 * 60000

/-- `state` -/
def state (t : UnlockThrottle) (now : ℕ) : ThrottleState := ⟨t.failures, t.nextAllowedAt - now⟩

/-- `check().allowed` -/
def allowed (t : UnlockThrottle) (now : ℕ) : Bool := !t.busy && (t.state now).retryInMs == 0

/-- `begin` -/
def begin (t : UnlockThrottle) (now : ℕ) : Bool × UnlockThrottle :=
  if t.allowed now then (true, { t with busy := true }) else (false, t)

/-- `release` -/
def release (t : UnlockThrottle) : UnlockThrottle := { t with busy := false }

/-- `penaltyMs` -/
def penaltyMs (failures : ℕ) : ℕ :=
  if LOCKOUT_AFTER ≤ failures then LOCKOUT_MS
  else BACKOFF_MS.getD (min failures (BACKOFF_MS.length - 1)) 0

/-- `record` -/
def record (t : UnlockThrottle) (ok : Bool) (now : ℕ) : UnlockThrottle :=
  if ok then { failures := 0, nextAllowedAt := 0, busy := false }
  else
    { failures := t.failures + 1, nextAllowedAt := now + penaltyMs (t.failures + 1), busy := false }

end UnlockThrottle

/-! ## The operations of the process -/

inductive KeyringOp (Key : Type)
  | vaultExists
  | readVault
  | keyringCookie
  | ask (r : KeyringRequest)
  | daemonEntryExists
  | spawnDaemon
  | withinDeadline
  | promptSecret
  | promptAllowed
  | vaultKey
  | setVaultKey (key : Key)
  | clearVaultKey
  | env (name : String)
  | setEnv (name value : String)
  | throttleBegin
  | throttleRelease
  | throttleRecord (ok : Bool)
  | throttleState

/-- The type of an operation's answer. -/
def KeyringOp.Answer : KeyringOp Key → Type
  | vaultExists | daemonEntryExists | withinDeadline | promptAllowed | throttleBegin => Bool
  | readVault => DiskFile
  | keyringCookie | promptSecret => String
  | ask _ => Option KeyringResponse
  | vaultKey => Option Key
  | env _ => Option String
  | throttleState => ThrottleState
  | spawnDaemon | setVaultKey _ | clearVaultKey | setEnv _ _ | throttleRelease | throttleRecord _ =>
      Unit

abbrev Prog (Key : Type) := Async (KeyringOp Key) KeyringOp.Answer UnlockError

/-- Perform an operation. -/
def op (o : KeyringOp Key) : Prog Key o.Answer := Async.perform o

/-- A computation that may throw. -/
def try' {α : Type} (x : Except UnlockError α) : Prog Key α := .done x

/-- What this process holds. -/
structure Process (Key : Type) where
  key : Option Key
  env : List (String × String) := []
  promptAllowed : Bool := true
  throttle : UnlockThrottle := {}

/-- What can be answered while the vault file is `file`. A request stays unanswered, or a keyring in
some state serves it at some time. -/
def surroundings (file : DiskFile) :
    Async.Surroundings (KeyringOp Key) KeyringOp.Answer (Process Key)
  | .vaultExists, s, x, s' => x = vaultExists file ∧ s' = s
  | .readVault, s, x, s' => x = file ∧ s' = s
  | .ask r, s, x, s' => s' = s ∧ (x = none ∨
      ∃ (server : KeyringServer Master) (now : ℕ), x = (server.serve c file now r).1)
  | .keyringCookie, s, _, s' | .daemonEntryExists, s, _, s' | .spawnDaemon, s, _, s'
  | .withinDeadline, s, _, s' | .promptSecret, s, _, s' => s' = s
  | .promptAllowed, s, x, s' => x = s.promptAllowed ∧ s' = s
  | .vaultKey, s, x, s' => x = s.key ∧ s' = s
  | .setVaultKey key, s, _, s' => s' = { s with key := some key }
  | .clearVaultKey, s, _, s' => s' = { s with key := none }
  | .env name, s, x, s' => x = (s.env.find? fun e => e.1 == name).map Prod.snd ∧ s' = s
  | .setEnv name value, s, _, s' =>
      s' = { s with env := (name, value) :: s.env.filter fun e => e.1 != name }
  | .throttleBegin, s, x, s' => ∃ now, (x, s'.throttle) = s.throttle.begin now ∧
      s' = { s with throttle := s'.throttle }
  | .throttleRelease, s, _, s' => s' = { s with throttle := s.throttle.release }
  | .throttleRecord ok, s, _, s' => ∃ now, s' = { s with throttle := s.throttle.record ok now }
  | .throttleState, s, x, s' => (∃ now, x = s.throttle.state now) ∧ s' = s

/-! ## Asking the keyring -/

/-- `isListening` -/
def isListening (cookie : String) : Prog Key Bool := do
  let res : Option KeyringResponse ← op (.ask (.status cookie))
  pure res.isSome

/-- The passes of the loop of `startDaemon`: each waits 100 ms, of 4 s in all. -/
def SPAWN_POLLS : ℕ := 41

/-- The loop of `startDaemon`. -/
def awaitDaemon (cookie : String) : ℕ → Prog Key Bool
  | 0 => pure false
  | polls + 1 => do
      let due : Bool ← op .withinDeadline
      if due then
        if ← isListening cookie then pure true else awaitDaemon cookie polls
      else pure false

/-- `startDaemon` -/
def startDaemon (cookie : String) : Prog Key Bool := do
  let present : Bool ← op .daemonEntryExists
  if present then
    let _ : Unit ← op .spawnDaemon
    awaitDaemon cookie SPAWN_POLLS
  else pure false

/-- `keyOp` -/
def keyOp (cookie : String) (domain : KeyDomain) : Prog Key (Option Key) := do
  let res : Option KeyringResponse ← op (.ask (.key cookie domain))
  match res with
  | some (.key hex) => pure (some (c.ofHex hex))
  | _ => pure none

/-- `cachedKey` -/
def cachedKey (cookie : String) (domain : KeyDomain) (allowSpawn : Bool) :
    Prog Key (Option Key) := do
  match ← keyOp c cookie domain with
  | some first => pure (some first)
  | none =>
      if !allowSpawn then pure none
      else if ← isListening cookie then pure none
      else if ← startDaemon cookie then keyOp c cookie domain
      else pure none

/-- `unlockDaemon` -/
def unlockDaemon (cookie passphrase : String) (domain : KeyDomain) : Prog Key (Option Key) := do
  let unlocked : Option KeyringResponse ← op (.ask (.unlock cookie passphrase))
  match unlocked with
  | none => pure none
  | some (.error .badPassphrase message) => throw (.auth message)
  | some (.error _ _) => pure none
  | some _ => keyOp c cookie domain

/-! ## Unlocking -/

structure UnlockOptions where
  passphrase : Option String := none
  noDaemon : Bool := false
  useDaemon : Bool := false
  interactive : Bool := true

inductive VaultMode
  | legacy | unlocked
deriving DecidableEq

/-- `new VaultLockedError()` -/
def vaultLocked : UnlockError :=
  .locked "The vops vault is locked. Run `vops keyring unlock` (or set VOPS_PASSPHRASE)."

/-- `if (!given && (!promptAllowed || !interactive)) throw new VaultLockedError()` -/
def checkPromptable (opts : UnlockOptions) (given : Option String) : Prog Key Unit := do
  if given.getD "" = "" then
    let allowed : Bool ← op .promptAllowed
    if !allowed || !opts.interactive then throw vaultLocked

/-- `given ?? (await promptSecret(…))` -/
def askPassphrase (given : Option String) : Prog Key String :=
  match given with
  | some passphrase => pure passphrase
  | none => op .promptSecret

/-- The last part of `resolveKey`: the key is derived here. A domain other than the vault's has no
later check, so the vault is opened first. -/
def deriveLocally (passphrase : String) (domain : KeyDomain) : Prog Key Key := do
  let file : DiskFile ← op .readVault
  let header ← try' (readHeader c file)
  if domain ≠ .vault then
    let key ← try' (vaultKeyFrom c passphrase header)
    let again : DiskFile ← op .readVault
    let _ ← try' (readWith c again key)
  try' (domainKeyFrom c passphrase header domain)

/-- The part of `resolveKey` with a passphrase. -/
def freshKey (opts : UnlockOptions) (given : Option String) (cookie : String) (domain : KeyDomain) :
    Prog Key Key := do
  checkPromptable opts given
  let passphrase ← askPassphrase given
  if !opts.noDaemon then
    match ← unlockDaemon c cookie passphrase domain with
    | some fresh => pure fresh
    | none => deriveLocally c passphrase domain
  else deriveLocally c passphrase domain

/-- `resolveKey` -/
def resolveKey (opts : UnlockOptions) (given : Option String) (domain : KeyDomain) :
    Prog Key Key := do
  let cookie : String ← op .keyringCookie
  if !opts.noDaemon then
    match ← cachedKey c cookie domain opts.interactive with
    | some cached => pure cached
    | none => freshKey c opts given cookie domain
  else freshKey c opts given cookie domain

/-- `applyVaultEnv`: a variable that has a value keeps it. -/
def applyVaultEnv : List (String × Json) → Prog Key Unit
  | [] => pure ()
  | (name, value) :: rest => do
      let present : Option String ← op (.env name)
      if value.truthy && present.getD "" = "" then
        let _ : Unit ← op (.setEnv name value.toText)
        applyVaultEnv rest
      else applyVaultEnv rest

/-- The fields of a value that is an object. -/
def entries : Option Json → List (String × Json)
  | some (.obj fields) => fields
  | _ => []

/-- `adopt`: a key is kept when it opens the vault. -/
def adopt (key : Key) : Prog Key Unit := do
  let file : DiskFile ← op .readVault
  let secrets ← try' (readWith c file key)
  let _ : Unit ← op (.setVaultKey key)
  applyVaultEnv (entries (secrets.get? "env"))

/-- `opts.passphrase ?? process.env[PASSPHRASE_ENV]?.trim()` -/
def givenPassphrase (opts : UnlockOptions) : Prog Key (Option String) :=
  match opts.passphrase with
  | some passphrase => pure (some passphrase)
  | none => do
      let value : Option String ← op (.env "VOPS_PASSPHRASE")
      pure (value.map jsTrim)

/-- The key for a passphrase at hand, unless the keyring is asked for. -/
def chooseKey (opts : UnlockOptions) (given : Option String) : Prog Key Key := do
  if given.getD "" ≠ "" ∧ opts.useDaemon = false then
    let file : DiskFile ← op .readVault
    let header ← try' (readHeader c file)
    try' (vaultKeyFrom c (given.getD "") header)
  else resolveKey c opts given .vault

/-- `ensureVaultUnlocked` -/
def ensureVaultUnlocked (opts : UnlockOptions) : Prog Key VaultMode := do
  let sealed : Bool ← op .vaultExists
  if sealed then
    let held : Option Key ← op .vaultKey
    if held.isSome then pure .unlocked
    else
      let given ← givenPassphrase opts
      let key ← chooseKey c opts given
      adopt c key
      pure .unlocked
  else pure .legacy

/-! ## The state of the keyring -/

structure KeyringStatus where
  listening : Bool
  unlocked : Bool
  expiresAt : Option ℕ
deriving DecidableEq

/-- `keyringStatus` -/
def keyringStatus : Prog Key KeyringStatus := do
  let cookie : String ← op .keyringCookie
  let res : Option KeyringResponse ← op (.ask (.status cookie))
  match res with
  | none => pure ⟨false, false, none⟩
  | some (.status unlocked expiresAt) => pure ⟨true, unlocked, expiresAt⟩
  | some _ => pure ⟨true, false, none⟩

/-- `lockKeyring` -/
def lockKeyring : Prog Key Bool := do
  let _ : Unit ← op .clearVaultKey
  let cookie : String ← op .keyringCookie
  let res : Option KeyringResponse ← op (.ask (.lock cookie))
  match res with
  | none | some (.error _ _) => pure false
  | some _ => pure true

inductive VaultState
  | legacy | locked | unlocked
deriving DecidableEq

/-- `vaultState` -/
def vaultState : Prog Key VaultState := do
  let sealed : Bool ← op .vaultExists
  if sealed then
    let held : Option Key ← op .vaultKey
    pure (if held.isSome then .unlocked else .locked)
  else pure .legacy

end Vops.Keyring
