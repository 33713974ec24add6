import Vops.SshKeys.VopsSshKeys

/-!
# The ops key of a host (`host-ops/vops-host-keys.service.ts`, `vops-ops-rotation.service.ts`)

* `installOps`, `revokeOps` — the tagged line of a host is written or removed.
* `rotateHost`, `rotate` — a fleet gets the next ops key, host by host.
-/

/-!
## The keys of a host (`host-ops/remote-ak.ts`)

* `readAuthorizedKeys`, `pickWorkingTarget` — how the keys of a host are read.
* `World`, `surroundings` — this machine and the accounts that it reaches, and what can be answered:
  a command can exit with any code and print any prefix of its output, a file can fail to be written,
  or be written although the answer is lost.
* `Event` — what happened to the keys of an account, in order.
* `answering` — hosts that answer, apart from the sessions they refuse and the reads that are cut off.
-/

namespace Vops.HostOps

open AuthorizedKeys (Text)
open KeyProg

/-! ## Reading -/

structure RemoteAkState where
  home : Text
  akPath : Text
  content : Text

/-- `readAuthorizedKeys` -/
def readAuthorizedKeys (target : SshTarget) : KeyProg RemoteAkState := do
  let home : ExecResult ← op (.run target .printHome)
  if home.code ≠ 0 ∨ AuthorizedKeys.trim home.stdout = [] then
    let stderr := String.ofList (AuthorizedKeys.trim home.stderr)
    let reason := if stderr = "" then "connection failed" else stderr
    throw s!"Cannot reach {target.host.name}: {reason}"
  else
    let h := AuthorizedKeys.trim home.stdout
    let read : ExecResult ← op (.run target (.catKeys h))
    pure ⟨h, akPathOf h, read.stdout⟩

/-- `pickWorkingTarget` -/
def pickWorkingTarget (host : VopsHost) : List String → KeyProg (Option SshTarget)
  | [] => pure none
  | keyPath :: rest => do
      let res : ExecResult ← op (.run ⟨host, keyPath⟩ .probe)
      if res.code = 0 then pure (some ⟨host, keyPath⟩) else pickWorkingTarget host rest

theorem allOps_pickWorkingTarget {P : KeyOp → Prop} (hP : ∀ target, P (.run target .probe))
    (host : VopsHost) (keyPaths : List String) : Async.AllOps P (pickWorkingTarget host keyPaths) := by
  induction keyPaths with
  | nil => trivial
  | cons keyPath rest ih =>
      refine .perform_bind (hP _) fun (res : ExecResult) => ?_
      split
      · trivial
      · exact ih

/-! ## The world -/

/-- What `profileId` mints: random bytes in hexadecimal. -/
structure ProfileId where
  text : Text
  hex : text ≠ [] ∧ ∀ c ∈ text, c.isDigit ∨ ('a' ≤ c ∧ c ≤ 'f')

/-- What happened to an account: a session was tried, the keys were read (what the file held, and what
was printed of a file of keys), the keys were written. -/
inductive Event
  | probed (a : Account) (code : ℕ)
  | read (a : Account) (file got : Text)
  | wrote (a : Account) (content : Text)
deriving DecidableEq

/-- This machine, the accounts that it reaches, and what happened so far. -/
structure World where
  readOnly : Bool
  profileId : ProfileId
  hosts : List VopsHost
  keys : KeyStore
  locked : Bool
  home : Account → Text
  files : Account → Text → Option Text
  log : List Event

namespace World

variable (s : World)

def akPath (a : Account) : Text := akPathOf (s.home a)

/-- What `authorized_keys` of an account holds. -/
def authorizedKeys (a : Account) : Text := (s.files a (s.akPath a)).getD []

def logged (e : Event) : World := { s with log := s.log ++ [e] }

/-- A file of an account is sent. -/
def sent (a : Account) (path content : Text) : World :=
  if path = s.akPath a then s.logged (.wrote a content) else s

/-- A file of an account is replaced. -/
def put (a : Account) (path content : Text) : World :=
  { s with files := fun b p => if b = a ∧ p = path then some content else s.files b p }

@[simp] theorem akPath_sent (s : World) (a b : Account) (path content : Text) :
    (s.sent a path content).akPath b = s.akPath b := by
  unfold sent
  split <;> rfl

@[simp] theorem authorizedKeys_sent (s : World) (a b : Account) (path content : Text) :
    (s.sent a path content).authorizedKeys b = s.authorizedKeys b := by
  unfold sent
  split <;> rfl

theorem authorizedKeys_put (s : World) (a b : Account) (path content : Text) :
    (s.put a path content).authorizedKeys b =
      if b = a ∧ s.akPath b = path then content else s.authorizedKeys b := by
  change (if b = a ∧ s.akPath b = path then some content else s.files b (s.akPath b)).getD [] = _
  split
  · rfl
  · rfl

end World

/-- `ssh-keygen` made the public key of a private key, whose encoded half is `publicData`. -/
def IsPublicKey (publicData : Text → Text) (private' pub : Text) : Prop :=
  ∃ type data rest, AuthorizedKeys.split (AuthorizedKeys.trim pub) = type :: data :: rest ∧
    AuthorizedKeys.isKeyType type = true ∧ data ≠ [] ∧ publicData private' = data

/-- What can be answered. -/
def surroundings (publicData : Text → Text) : Async.Surroundings KeyOp KeyOp.Answer World
  | .readOnly, s, x, s' => x = s.readOnly ∧ s' = s
  | .profileId, s, x, s' => x = s.profileId.text ∧ s' = s
  | .hosts, s, x, s' => x = s.hosts ∧ s' = s
  | .saveHosts hosts, s, x, s' =>
      match (x : Except String Unit) with
      | .ok () => s' = { s with hosts := hosts }
      | .error _ => ∃ left, s' = { s with hosts := left }
  | .assertReady _, s, _, s' => s' = s
  | .keyStore, s, x, s' => x = s.keys ∧ s' = s
  | .keygen name, s, x, s' =>
      match (x : Except String Unit) with
      | .ok () => ∃ private' pub, s.keys.file name .priv = none ∧
          IsPublicKey publicData private' pub ∧
          s' = { s with keys := (s.keys.write name .priv private').write name .pub pub }
      | .error _ => s' = s ∨ ∃ private', s.keys.file name .priv = none ∧
          s' = { s with keys := s.keys.write name .priv private' }
  | .rename source target ext, s, x, s' =>
      match (x : Except String Unit) with
      | .ok () => (s.keys.file source ext).isSome ∧
          s' = { s with keys := s.keys.rename source target ext }
      | .error _ => s' = s
  | .acquireLock, s, x, s' => x = !s.locked ∧ s' = { s with locked := true }
  | .releaseLock, s, _, s' => s' = s ∨ s' = { s with locked := false }
  | .run target .printHome, s, x, s' => (x : ExecResult).stdout <+: s.home target.host.account ∧ s' = s
  | .run target (.catKeys home), s, x, s' =>
      (x : ExecResult).stdout <+: (s.files target.host.account (akPathOf home)).getD [] ∧
      s' = s.logged (.read target.host.account (s.authorizedKeys target.host.account)
        (x : ExecResult).stdout)
  | .run target .probe, s, x, s' => (x : ExecResult).stdout = [] ∧
      s' = s.logged (.probed target.host.account (x : ExecResult).code)
  | .putFile target path content, s, x, s' =>
      let a := target.host.account
      match (x : Except String Unit) with
      | .ok () => s' = (s.sent a path content).put a path content
      | .error _ => s' = s.sent a path content ∨ s' = (s.sent a path content).put a path content
  | .appendAudit _ _, s, _, s' => s' = s

/-! ## Hosts that answer -/

/-- Every host answers, but refuses some sessions and cuts off some reads. -/
def answering (refused cutOff : World → SshTarget → Bool) : Async.Handler KeyOp KeyOp.Answer World
  | .readOnly, s => (s.readOnly, s)
  | .profileId, s => (s.profileId.text, s)
  | .hosts, s => (s.hosts, s)
  | .saveHosts hosts, s => (.ok (), { s with hosts := hosts })
  | .assertReady _, s => (.ok (), s)
  | .keyStore, s => (s.keys, s)
  | .keygen _, s => (.error "Command failed: ssh-keygen", s)
  | .rename source target ext, s =>
      if (s.keys.file source ext).isSome then
        (.ok (), { s with keys := s.keys.rename source target ext })
      else (.error "ENOENT: no such file or directory", s)
  | .acquireLock, s => (!s.locked, { s with locked := true })
  | .releaseLock, s => ((), { s with locked := false })
  | .run target .printHome, s => (⟨0, s.home target.host.account, []⟩, s)
  | .run target (.catKeys home), s =>
      let a := target.host.account
      let got := if cutOff s target then [] else (s.files a (akPathOf home)).getD []
      (⟨if cutOff s target then 255 else 0, got, []⟩, s.logged (.read a (s.authorizedKeys a) got))
  | .run target .probe, s =>
      let code := if refused s target then 255 else 0
      (⟨code, [], []⟩, s.logged (.probed target.host.account code))
  | .putFile target path content, s =>
      (.ok (), (s.sent target.host.account path content).put target.host.account path content)
  | .appendAudit _ _, s => (.ok (), s)

theorem surroundings_answering (publicData : Text → Text) (refused cutOff : World → SshTarget → Bool)
    (o : KeyOp) (s : World) : surroundings publicData o s (answering refused cutOff o s).1
      (answering refused cutOff o s).2 := by
  cases o with
  | readOnly | profileId | hosts | keyStore | acquireLock => exact ⟨rfl, rfl⟩
  | saveHosts | assertReady | appendAudit | putFile => exact rfl
  | keygen => exact .inl rfl
  | releaseLock => exact .inr rfl
  | rename source target ext =>
      by_cases h : (s.keys.file source ext).isSome
      · have heq : answering refused cutOff (.rename source target ext) s =
            (.ok (), { s with keys := s.keys.rename source target ext }) := if_pos h
        rw [heq]
        exact ⟨h, rfl⟩
      · have heq : answering refused cutOff (.rename source target ext) s =
            (.error "ENOENT: no such file or directory", s) := if_neg h
        rw [heq]
        exact rfl
  | run target command =>
      cases command with
      | printHome => exact ⟨List.prefix_rfl, rfl⟩
      | probe => exact ⟨rfl, rfl⟩
      | catKeys home =>
          refine ⟨?_, rfl⟩
          change (if cutOff s target then [] else _) <+: _
          split
          · exact List.nil_prefix
          · exact List.prefix_rfl

end Vops.HostOps

namespace Vops.HostOps

open AuthorizedKeys
open KeyProg

/-! ## Hosts -/

/-- `VopsHostsService.show` -/
def showHost (name : String) : KeyProg VopsHost := do
  let hosts : List VopsHost ← op .hosts
  match hosts.find? fun h => h.name == name with
  | some host => pure host
  | none => throw s!"Host '{name}' not found."

/-- `VopsHostsService.update` -/
def updateHost (host : VopsHost) : KeyProg Unit := do
  let hosts : List VopsHost ← op .hosts
  orThrow (op (.saveHosts (hosts.map fun h => if h.name == host.name then host else h)))

/-- `assertHostWritable` -/
def assertHostWritable (host : VopsHost) : KeyProg Unit := do
  let readOnly : Bool ← op .readOnly
  onlyIf readOnly
    (throw s!"Refusing to modify '{host.name}': VOPS_READONLY=1 is set (read-only mode).")

namespace VopsHostKeys

/-! ## Installing -/

structure InstallOpsOptions where
  fromCidr : Option Text := none
  dryRun : Bool := false

inductive InstallOpsAnswer
  | dryRun (host : String) (path line : Text) (wouldChange : Bool)
  | installed (host : String) (alreadyPresent : Bool)

/-- The last part of `installOps`: the new text is written, and taken back when the ops key does not
open a session. -/
def writeOpsLine (host : VopsHost) (userTarget : SshTarget) (opsKey : VopsSshKey)
    (state : RemoteAkState) (content : Text) (changed : Bool) : KeyProg InstallOpsAnswer := do
  onlyIf changed (orThrow (op (.putFile userTarget state.akPath content)))
  let verify : ExecResult ← op (.run ⟨host, opsKey.privateKeyPath⟩ .probe)
  if verify.code ≠ 0 then
    onlyIf changed (orThrow (op (.putFile userTarget state.akPath state.content)))
    let stderr := String.ofList (trim verify.stderr)
    let reason := if stderr = "" then "auth failed" else stderr
    throw s!"Ops key written but the verification session failed (rolled back): {reason}"
  else
    updateHost { host with opsKeyInstalled := true }
    orThrow (op (.appendAudit "host.key.install-ops" host.name))
    pure (.installed host.name (!changed))

/-- `installOps` -/
def installOps (name : String) (opts : InstallOpsOptions) : KeyProg InstallOpsAnswer := do
  let host ← showHost name
  assertHostWritable host
  let keys : KeyStore ← op .keyStore
  match keys.keyPathFor host.userKeyName with
  | none =>
      throw "install-ops needs a usable local user key to bootstrap. Create/import one and set it: vops host add --key <name>."
  | some userKeyPath => do
      onlyIf (!opts.dryRun) (orThrow (op (.assertReady name)))
      let userTarget : SshTarget := ⟨host, userKeyPath⟩
      let opsKey ← ensureOpsKey
      let line ← opsAuthorizedKeysLine opts.fromCidr
      let profileId : Text ← op .profileId
      let state ← readAuthorizedKeys userTarget
      let upserted := upsertOpsLine state.content line (opsTag profileId)
      if opts.dryRun then pure (.dryRun name state.akPath line upserted.2)
      else writeOpsLine host userTarget opsKey state upserted.1 upserted.2

/-! ## Revoking -/

structure RevokeOpsOptions where
  dryRun : Bool := false
  force : Bool := false

inductive RevokeOpsAnswer
  | dryRun (host : String) (path : Text) (wouldRemove : ℕ) (safe : Bool)
  | revoked (host : String) (removed : ℕ)

/-- `revokeRefusal` -/
def revokeRefusal (reason : RevokeSafetyReason) : String :=
  let why := if reason = .userKeyIsBeingRemoved then
      "the only key that verified is the ops key itself, so removing its line would leave no way in. Give this host its own user key first (vops host key set <host> <key>)"
    else "the ops key is the only working access and no user key verifies"
  s!"Refusing to revoke: {why}. Re-run with --force to override."

/-- `opsTarget` -/
def opsTarget (host : VopsHost) : KeyProg SshTarget := do
  let keys : KeyStore ← op .keyStore
  match keys.list.find? fun k => k.name == OPS_KEY_NAME && k.hasPrivateKey with
  | some key => pure ⟨host, key.privateKeyPath⟩
  | none =>
      throw "No local key available for this host (no user key set and no ops key present)."

/-- `revokeTarget`: the session to write with, and the public key that was verified. -/
def revokeTarget (host : VopsHost) : KeyProg (SshTarget × Option Text) := do
  let keys : KeyStore ← op .keyStore
  match (keys.resolveUserKey host.userKeyName).filter (·.hasPrivateKey) with
  | some userKey => do
      let target : SshTarget := ⟨host, userKey.privateKeyPath⟩
      let chk : ExecResult ← op (.run target .probe)
      if chk.code = 0 then pure (target, some userKey.publicKey)
      else do
        let target ← opsTarget host
        pure (target, none)
  | none => do
      let target ← opsTarget host
      pure (target, none)

/-- The last part of `revokeOps`. -/
def removeLine (host : VopsHost) (target : SshTarget) (state : RemoteAkState) (content : Text)
    (removed : ℕ) : KeyProg RevokeOpsAnswer := do
  onlyIf (0 < removed) (orThrow (op (.putFile target state.akPath content)))
  updateHost { host with opsKeyInstalled := false }
  orThrow (op (.appendAudit "host.key.revoke-ops" host.name))
  pure (.revoked host.name removed)

/-- `revokeOps` -/
def revokeOps (name : String) (opts : RevokeOpsOptions) : KeyProg RevokeOpsAnswer := do
  let host ← showHost name
  assertHostWritable host
  let profileId : Text ← op .profileId
  let session ← revokeTarget host
  let state ← readAuthorizedKeys session.1
  let removed := removeOpsLine state.content (opsTag profileId)
  let safety := assessRevokeSafety state.content removed.1 (opsTag profileId) session.2
  if opts.dryRun then pure (.dryRun name state.akPath removed.2 safety.1)
  else if !safety.1 && !opts.force then throw (revokeRefusal safety.2)
  else removeLine host session.1 state removed.1 removed.2

end VopsHostKeys

/-! ## Rotating -/

namespace VopsOpsRotation

inductive RotateOutcome
  | rotated | already | planned | failed
deriving DecidableEq

structure RotateHostResult where
  host : String
  outcome : RotateOutcome
  message : Option String := none
deriving DecidableEq

structure RotationReport where
  dryRun : Bool
  promoted : Bool
  failed : List String
  results : List RotateHostResult
deriving DecidableEq

structure RotateOptions where
  dryRun : Bool := false
  force : Bool := false

/-- The tags and the next key of a rotation. -/
structure Rotation where
  nextKeyPath : String
  nextPub : Text
  canonicalTag : Text
  tempTag : Text

/-- `swapToCanonical` -/
def swapToCanonical (content canonicalTag tempTag newCanonicalLine : Text) : Text :=
  let withoutTemp := (removeOpsLine content tempTag).1
  let withoutOld := (removeOpsLine withoutTemp canonicalTag).1
  (upsertOpsLine withoutOld newCanonicalLine canonicalTag).1

def RotateState.text : RotateState → String
  | .done => "done"
  | .mid => "mid"
  | .old => "old"
  | .absent => "absent"

/-- The options of the line that is there, or the default ones. -/
def optionsOf (content canonicalTag : Text) : Text :=
  let options := extractOptions ((findOpsLine content canonicalTag).getD [])
  if options = [] then opsKeyOptions none else options

/-- The second half of `rotateHost`: the temporary line is in the file. -/
def swapHost (r : Rotation) (host : VopsHost) (session : SshTarget) (original : RemoteAkState)
    (options : Text) : KeyProg RotateHostResult := do
  let beforeSwap ← readAuthorizedKeys session
  let swapped := swapToCanonical beforeSwap.content r.canonicalTag r.tempTag
    (buildOpsLine r.nextPub r.canonicalTag options)
  orThrow (op (.putFile session beforeSwap.akPath swapped))
  let reverify : ExecResult ← op (.run ⟨host, r.nextKeyPath⟩ .probe)
  if reverify.code ≠ 0 then
    orThrow (op (.putFile session original.akPath original.content))
    pure ⟨host.name, .failed, some "post-swap verify failed; restored old key"⟩
  else
    orThrow (op (.appendAudit "host.key.rotate-ops" host.name))
    pure ⟨host.name, .rotated, none⟩

/-- What `rotateHost` does once it has a session. -/
def rotateSession (r : Rotation) (dryRun : Bool) (host : VopsHost) (session : SshTarget) :
    KeyProg RotateHostResult := do
  let original ← readAuthorizedKeys session
  let state := classifyRotation original.content r.canonicalTag r.tempTag r.nextPub
  if state = .done then pure ⟨host.name, .already, some "already on the new key"⟩
  else if dryRun then
    pure ⟨host.name, .planned, some s!"would rotate (state={RotateState.text state})"⟩
  else
    let options := optionsOf original.content r.canonicalTag
    let appended := (upsertOpsLine original.content (buildOpsLine r.nextPub r.tempTag options)
      r.tempTag).1
    onlyIf (state ≠ .mid) (orThrow (op (.putFile session original.akPath appended)))
    let verify : ExecResult ← op (.run ⟨host, r.nextKeyPath⟩ .probe)
    if verify.code ≠ 0 then
      let again ← readAuthorizedKeys session
      let cleaned := (removeOpsLine again.content r.tempTag).1
      orThrow (op (.putFile session original.akPath cleaned))
      pure ⟨host.name, .failed, some "new key did not authenticate; temp line removed"⟩
    else swapHost r host session original options

/-- `rotateHost` -/
def rotateHost (r : Rotation) (dryRun : Bool) (host : VopsHost) : KeyProg RotateHostResult := do
  let keys : KeyStore ← op .keyStore
  let ladder := keys.opsLadder ++ (keys.keyPathFor host.userKeyName).toList
  match ← pickWorkingTarget host ladder with
  | none => pure ⟨host.name, .failed, some "no working ops/user key"⟩
  | some session => rotateSession r dryRun host session

/-- The `try` block of `rotate`. -/
def rotateFleet (r : Rotation) (opts : RotateOptions) (fleet : List VopsHost) :
    KeyProg RotationReport := do
  let results ← fleet.mapM (rotateHost r opts.dryRun)
  let failed := (results.filter fun r => r.outcome == .failed).map (·.host)
  if !opts.dryRun && (failed.isEmpty || opts.force) then
    promoteNextOpsKey
    pure ⟨opts.dryRun, true, failed, results⟩
  else pure ⟨opts.dryRun, false, failed, results⟩

/-- `rotate` -/
def rotate (opts : RotateOptions) : KeyProg RotationReport := do
  let hosts : List VopsHost ← op .hosts
  let fleet := hosts.filter (·.opsKeyInstalled)
  onlyIf fleet.isEmpty (throw "No hosts have the ops key installed. Nothing to rotate.")
  let next ← ensureNextOpsKey
  let profileId : Text ← op .profileId
  let canonicalTag := opsTag profileId
  let acquired : Bool ← op .acquireLock
  if acquired then
    Async.tryFinally
      (rotateFleet ⟨next.privateKeyPath, next.publicKey, canonicalTag, canonicalTag ++ ":next".toList⟩
        opts fleet)
      (op .releaseLock)
  else
    throw "Another rotate-ops is in progress (rotate-ops.lock present). Remove it if stale."

end VopsOpsRotation

end Vops.HostOps
