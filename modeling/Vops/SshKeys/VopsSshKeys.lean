import Vops.HostOps.AuthorizedKeys
import Vops.Lib.AsyncSafe

/-!
# Local SSH keys (`ssh-keys/vops-ssh-keys.service.ts`)

* `KeyStore` — the key directory: the three generations of the ops key, file by file, and the keys of
  the user.
* `KeyOp` — what the key operations do, one file or SSH operation at a time.
* `ensureOpsKey`, `ensureNextOpsKey`, `opsLadder`, `promoteNextOpsKey` — the ops key and its
  generations.
-/

namespace Vops

open AuthorizedKeys (Text)

/-! ## Hosts -/

/-- `VopsHost`, as far as the key operations read it. -/
structure VopsHost where
  name : String
  address : String
  user : String
  port : ℕ
  userKeyName : Option String := none
  opsKeyInstalled : Bool
deriving DecidableEq

/-- The account that a host entry leads to. -/
structure Account where
  user : String
  address : String
  port : ℕ
deriving DecidableEq

def VopsHost.account (h : VopsHost) : Account := ⟨h.user, h.address, if h.port = 0 then 22 else h.port⟩

structure SshTarget where
  host : VopsHost
  keyPath : String
deriving DecidableEq

structure ExecResult where
  code : ℕ
  stdout : Text
  stderr : Text
deriving DecidableEq

/-! ## The key directory -/

/-- The generations of the ops key. -/
inductive OpsName
  | current | next | prev
deriving DecidableEq

/-- `OPS_KEY_NAME` -/
def OPS_KEY_NAME : String := "vops-ops"

def OpsName.text : OpsName → String
  | current => OPS_KEY_NAME
  | next => OPS_KEY_NAME ++ ".next"
  | prev => OPS_KEY_NAME ++ ".prev"

/-- The private key and its `.pub`. -/
inductive KeyExt
  | priv | pub
deriving DecidableEq

inductive KeyRole
  | user | ops
deriving DecidableEq

structure VopsSshKey where
  name : String
  publicKey : Text
  privateKeyPath : String
  hasPrivateKey : Bool
  imported : Bool
  role : KeyRole
deriving DecidableEq

/-- The key directory. The names of the ops keys are reserved, so the other keys are the user's. -/
structure KeyStore where
  dir : String
  file : OpsName → KeyExt → Option Text
  users : List VopsSshKey

namespace KeyStore

variable (keys : KeyStore)

/-- The files after a rename. -/
def rename (source target : OpsName) (ext : KeyExt) : KeyStore :=
  { keys with file := fun name e =>
      if e = ext then
        if name = source then none
        else if name = target then keys.file source ext
        else keys.file name e
      else keys.file name e }

/-- The files after one was written. -/
def write (name : OpsName) (ext : KeyExt) (content : Text) : KeyStore :=
  { keys with file := fun n e => if n = name ∧ e = ext then some content else keys.file n e }

/-- `read`, of an ops key that has a `.pub`. -/
def read (name : OpsName) (pub : Text) : VopsSshKey :=
  ⟨name.text, AuthorizedKeys.trim pub, keys.dir ++ "/" ++ name.text,
    (keys.file name .priv).isSome, false, .ops⟩

/-- `readOpsKey` -/
def readOpsKey (name : OpsName) : Option VopsSshKey := (keys.file name .pub).map (keys.read name)

/-- `list` -/
def list : List VopsSshKey :=
  ([OpsName.current, .next, .prev].filterMap keys.readOpsKey) ++ keys.users

/-- `opsLadder` -/
def opsLadder : List String :=
  (([OpsName.current, .next, .prev].filterMap keys.readOpsKey).filter (·.hasPrivateKey)).map
    (·.privateKeyPath)

/-- `/^[a-zA-Z0-9._-]+$/` -/
def isName (name : String) : Bool :=
  !name.toList.isEmpty && name.toList.all fun c =>
    c.isAlphanum || c == '.' || c == '_' || c == '-'

/-- `show` -/
def show' (name : String) : Except String VopsSshKey :=
  if !isName name then
    .error "Key name may only contain letters, digits, dot, dash and underscore."
  else match keys.list.find? fun k => k.name == name with
    | none => .error s!"SSH key '{name}' not found."
    | some key => .ok key

/-- `usableUserKeys` -/
def usableUserKeys : List VopsSshKey :=
  keys.list.filter fun k => k.hasPrivateKey && k.role == .user

/-- `resolveKey` -/
def resolveKey (keyName : Option String) : Except String VopsSshKey :=
  if keyName.getD "" ≠ "" then keys.show' (keyName.getD "")
  else match keys.usableUserKeys with
    | [key] => .ok key
    | [] => .error "No usable SSH key found. Create or import one first."
    | usable =>
        let names := ", ".intercalate (usable.map (·.name))
        .error s!"Multiple SSH keys available ({names}). Choose one with --key."

/-- `keyPathFor` -/
def keyPathFor (keyName : Option String) : Option String :=
  match keys.resolveKey keyName with
  | .ok key => if key.hasPrivateKey then some key.privateKeyPath else none
  | .error _ => none

/-- `resolveUserKey` -/
def resolveUserKey (keyName : Option String) : Option VopsSshKey :=
  (keys.resolveKey keyName).toOption

end KeyStore

/-! ## Operations -/

/-- The commands that the key operations send: `printf %s "$HOME"`; making `.ssh` under a home and
`cat` of the keys there, where a missing file prints nothing; `true`. -/
inductive RemoteCommand
  | printHome
  | catKeys (home : Text)
  | probe
deriving DecidableEq

/-- The path of the keys under a home. -/
def akPathOf (home : Text) : Text := home ++ "/.ssh/authorized_keys".toList

inductive KeyOp
  | readOnly
  | profileId
  | hosts
  | saveHosts (hosts : List VopsHost)
  | assertReady (name : String)
  | keyStore
  | keygen (name : OpsName)
  | rename (source target : OpsName) (ext : KeyExt)
  | acquireLock
  | releaseLock
  | run (target : SshTarget) (command : RemoteCommand)
  | putFile (target : SshTarget) (path content : Text)
  | appendAudit (action host : String)

/-- The type of an operation's answer. -/
def KeyOp.Answer : KeyOp → Type
  | readOnly | acquireLock => Bool
  | profileId => Text
  | hosts => List VopsHost
  | keyStore => KeyStore
  | run _ _ => ExecResult
  | releaseLock => Unit
  | saveHosts _ | assertReady _ | keygen _ | rename _ _ _ | putFile _ _ _ | appendAudit _ _ =>
      Except String Unit

/-- What the key operations run: errors are messages. -/
abbrev KeyProg := Async KeyOp KeyOp.Answer String

namespace KeyProg

/-- Perform an operation. -/
def op (o : KeyOp) : KeyProg o.Answer := Async.perform o

/-- An answer that may be a thrown error. -/
def orThrow (p : KeyProg (Except String Unit)) : KeyProg Unit := do
  match ← p with
  | .ok () => pure ()
  | .error e => throw e

/-- `if (c) await p` -/
def onlyIf (c : Bool) (p : KeyProg Unit) : KeyProg Unit := if c then p else pure ()

theorem allOps_orThrow {P : KeyOp → Prop} {p : KeyProg (Except String Unit)}
    (hp : Async.AllOps P p) : Async.AllOps P (orThrow p) := by
  refine hp.bind fun r => ?_
  cases r <;> trivial

theorem allOps_onlyIf {P : KeyOp → Prop} (c : Bool) {p : KeyProg Unit} (hp : Async.AllOps P p) :
    Async.AllOps P (onlyIf c p) := by
  cases c with
  | false => trivial
  | true => exact hp

end KeyProg

open KeyProg

/-! ## The ops key -/

/-- `ensureKeyFile` -/
def ensureKeyFile (name : OpsName) : KeyProg VopsSshKey := do
  let keys : KeyStore ← op .keyStore
  match keys.file name .pub with
  | some pub => pure (keys.read name pub)
  | none => do
      orThrow (op (.keygen name))
      let keys : KeyStore ← op .keyStore
      match keys.file name .pub with
      | some pub => pure (keys.read name pub)
      | none => throw "ENOENT: no such file or directory"

/-- `ensureOpsKey` -/
def ensureOpsKey : KeyProg VopsSshKey := ensureKeyFile .current

/-- `ensureNextOpsKey` -/
def ensureNextOpsKey : KeyProg VopsSshKey := ensureKeyFile .next

/-- `opsKeyOptions` -/
def opsKeyOptions (fromCidr : Option Text) : Text :=
  let source := match fromCidr with
    | some cidr => if cidr = [] then [] else "from=\"".toList ++ cidr ++ "\",".toList
    | none => []
  source ++ "no-agent-forwarding,no-X11-forwarding,no-user-rc".toList

/-- `opsAuthorizedKeysLine` -/
def opsAuthorizedKeysLine (fromCidr : Option Text) : KeyProg Text := do
  let key ← ensureOpsKey
  let profileId : Text ← op .profileId
  let parts := AuthorizedKeys.split key.publicKey
  let type := parts.getD 0 "undefined".toList
  let data := parts.getD 1 "undefined".toList
  pure (opsKeyOptions fromCidr ++ ' ' :: (type ++ ' ' :: (data ++ ' ' ::
    (OPS_KEY_NAME.toList ++ ':' :: profileId))))

/-- The body of the loop of `move` in `promoteNextOpsKey`. -/
def moveFile (source target : OpsName) (ext : KeyExt) : KeyProg Unit := do
  let keys : KeyStore ← op .keyStore
  onlyIf (keys.file source ext).isSome (orThrow (op (.rename source target ext)))

/-- `move` in `promoteNextOpsKey` -/
def move (source target : OpsName) : KeyProg Unit := do
  moveFile source target .priv
  moveFile source target .pub

/-- `promoteNextOpsKey` -/
def promoteNextOpsKey : KeyProg Unit := do
  let keys : KeyStore ← op .keyStore
  onlyIf (keys.file .current .priv).isSome (move .current .prev)
  move .next .current

end Vops
