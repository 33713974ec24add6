import Vops.Keyring.VaultStore
import Vops.Lib.AsyncSafe

/-!
# The secrets of a profile (`lib/keyring/vault-store.ts`, `lib/config/local-config-store.ts`)

* `Profile` — the vault and the legacy pair on the disk, and the key that the process holds.
* `StoreOp`, `surroundings` — the operations on them: a read, a write or a deletion can fail, and a write
  that fails, or at which the process stops, may have been done, or have left the start of a text.
* `Sealer` — sealing a payload, which its key opens.
* `readSecrets`, `writeSecrets`, `update` — the store, and what its setters change.
* `createVault`, `migrateLegacy`, `dropLegacy`, `init` — the moves (`commands/keyring/*.ts`).
-/

namespace Vops.Keyring.ProfileStore

variable {Master Key : Type} (c : Crypto Master Key)

/-! ## The disk -/

/-- `.key`: nothing, a file of another length than 32 bytes, or a key. -/
inductive KeyFile (Key : Type)
  | missing
  | short
  | key (k : Key)

/-- The files of a profile, and `vault-session.ts`. -/
structure Profile (Key : Type) where
  vault : DiskFile
  enc : Option String
  keyFile : KeyFile Key
  held : Option Key

/-- The operations. A path that is read was looked for before. -/
inductive StoreOp (Key : Type)
  | vaultExists
  | legacyExists
  | keyFileExists
  | readVault
  | readEnc
  | readKeyFile
  | mkdir
  | writeVault (content : Json)
  | writeEnc (content : String)
  | writeKeyFile (key : Key)
  | removeEnc
  | removeKeyFile
  | randomSalt
  | randomIv
  | randomKey
  | heldKey
  | setVaultKey (key : Key)

/-- The type of an operation's answer. -/
@[reducible] def StoreOp.Answer : StoreOp Key → Type
  | vaultExists | legacyExists | keyFileExists => Bool
  | readVault => Except String DiskFile
  | readEnc => Except String String
  | readKeyFile => Except String (KeyFile Key)
  | mkdir | writeVault _ | writeEnc _ | writeKeyFile _ | removeEnc | removeKeyFile => Except String Unit
  | randomSalt | randomIv => String
  | randomKey => Key
  | heldKey => Option Key
  | setVaultKey _ => Unit

abbrev StoreProg (Key : Type) := Async (StoreOp Key) StoreOp.Answer UnlockError

/-- Perform an operation. -/
def op (o : StoreOp Key) : StoreProg Key o.Answer := Async.perform o

/-- A computation that may throw. -/
def attempt {α : Type} (x : Except UnlockError α) : StoreProg Key α := .done x

/-- An operation on a file that may throw. -/
def lift {α : Type} : Except String α → StoreProg Key α
  | .ok a => pure a
  | .error e => throw (.other e)

/-- The program goes on where the condition holds. -/
def require (condition : Bool) (message : String) : StoreProg Key Unit :=
  if condition then pure () else throw (.other message)

/-! ## What can be answered -/

/-- A file is written: with an answer it is there, and without one the old or the new one is, or, where a
write may be torn, one that it left. -/
def Wrote (torn : Prop) (x : Except String Unit) (s done : Profile Key) (left : Profile Key → Prop)
    (s' : Profile Key) : Prop :=
  x = .ok () ∧ s' = done ∨ (∃ e, x = .error e) ∧ (s' = s ∨ s' = done ∨ torn ∧ left s')

/-- What can be answered. A write of the vault may be torn where `torn` holds. -/
def surroundings (torn : Prop) : Async.Surroundings (StoreOp Key) StoreOp.Answer (Profile Key)
  | .vaultExists, s, x, s' => x = Keyring.vaultExists s.vault ∧ s' = s
  | .legacyExists, s, x, s' => x = s.enc.isSome ∧ s' = s
  | .keyFileExists, s, x, s' => (x = true ↔ s.keyFile ≠ .missing) ∧ s' = s
  | .readVault, s, x, s' => (∀ file, x = .ok file → file = s.vault) ∧ s' = s
  | .readEnc, s, x, s' => (∀ text, x = .ok text → s.enc = some text) ∧ s' = s
  | .readKeyFile, s, x, s' => (∀ k, x = .ok k → k = s.keyFile ∧ k ≠ .missing) ∧ s' = s
  | .mkdir, s, _, s' => s' = s
  -- A text that is cut off is not JSON.
  | .writeVault content, s, x, s' =>
      Wrote torn x s { s with vault := .json content } (fun s' => s' = { s with vault := .malformed }) s'
  | .writeEnc content, s, x, s' =>
      Wrote True x s { s with enc := some content } (fun s' => ∃ text, s' = { s with enc := some text }) s'
  | .writeKeyFile key, s, x, s' =>
      Wrote True x s { s with keyFile := .key key } (fun s' => s' = { s with keyFile := .short }) s'
  | .removeEnc, s, x, s' => Wrote True x s { s with enc := none } (fun _ => False) s'
  | .removeKeyFile, s, x, s' => Wrote True x s { s with keyFile := .missing } (fun _ => False) s'
  | .randomSalt, s, x, s' => isSalt x = true ∧ s' = s
  | .randomIv, s, _, s' | .randomKey, s, _, s' => s' = s
  | .heldKey, s, x, s' => x = s.held ∧ s' = s
  | .setVaultKey key, s, _, s' => s' = { s with held := some key }

/-! ## The vault file -/

/-- `encryptPayload(JSON.stringify(secrets), key)` under an initialisation vector: a payload that its key
opens. -/
structure Sealer where
  encrypt : Json → Key → String → String
  nonempty : ∀ v key iv, encrypt v key iv ≠ ""
  opens : ∀ v key iv, decryptPayload c (encrypt v key iv) key = .ok (some v.reparse)

variable {c} (e : Sealer c)

/-- `serializeVault` -/
def serializeVault (header : VaultHeader) (data : String) : Json :=
  .obj [("v", .num (.fin header.v)),
    ("kdf", .obj [("algo", .str "scrypt"), ("N", .num (.fin header.kdf.N)), ("r", .num (.fin header.kdf.r)),
      ("p", .num (.fin header.kdf.p))]),
    ("salt", .str header.salt), ("user", (header.user.map Json.str).getD .null), ("data", .str data)]

/-- `readHeader` -/
def readHeader : StoreProg Key VaultHeader := do
  let present : Bool ← op .vaultExists
  require present "No vault. Run `vops keyring init` first."
  let file : DiskFile ← lift (← op .readVault)
  attempt (Keyring.readHeader c file)

/-- `readWith` -/
def readWith (key : Key) : StoreProg Key Json := do
  let file : DiskFile ← lift (← op .readVault)
  attempt (Keyring.readWith c file key)

/-- `writeVault` -/
def writeVault (secrets : Json) (key : Key) (header : VaultHeader) : StoreProg Key Unit := do
  lift (← op .mkdir)
  let iv : String ← op .randomIv
  lift (← op (.writeVault (serializeVault header (e.encrypt secrets key iv))))

/-! ## The store -/

/-- `requireVaultKey` -/
def requireVaultKey : StoreProg Key Key := do
  match ← op .heldKey with
  | some key => pure key
  | none => throw (.locked "The vops vault is locked. Run `vops keyring unlock` (or set VOPS_PASSPHRASE).")

/-- `getKey` -/
def getKey : StoreProg Key (KeyFile Key) := do
  let present : Bool ← op .keyFileExists
  if present then lift (← op .readKeyFile)
  else do
    lift (← op .mkdir)
    let key : Key ← op .randomKey
    lift (← op (.writeKeyFile key))
    pure (.key key)

/-- The legacy payload, opened with what is in `.key`. -/
def openLegacy (c : Crypto Master Key) (payload : String) : KeyFile Key → Except UnlockError Json
  | .key key => do
      match ← decryptPayload c payload key with
      | some secrets => .ok secrets
      | none => .error (.other "Unexpected token in JSON")
  | _ => .error (.other "Invalid key length")

/-- `readSecrets` -/
def readSecrets : StoreProg Key Json := do
  let isSealed : Bool ← op .vaultExists
  if isSealed then readWith (c := c) (← requireVaultKey)
  else do
    let present : Bool ← op .legacyExists
    if present then do
      let payload : String ← lift (← op .readEnc)
      attempt (openLegacy c payload (← getKey))
    else pure (.obj [])

/-- The payload that is written to `secrets.json.enc`. -/
def encryptLegacy (secrets : Json) (iv : String) : KeyFile Key → Except UnlockError String
  | .key key => .ok (e.encrypt secrets key iv)
  | _ => .error (.other "Invalid key length")

/-- `writeSecrets` -/
def writeSecrets (secrets : Json) : StoreProg Key Unit := do
  let isSealed : Bool ← op .vaultExists
  if isSealed then do
    let key ← requireVaultKey
    writeVault e secrets key (← readHeader (c := c))
  else do
    lift (← op .mkdir)
    let iv : String ← op .randomIv
    let payload ← attempt (encryptLegacy e secrets iv (← getKey))
    lift (← op (.writeEnc payload))

/-! ## What the setters change -/

/-- `fields[key] = value` -/
def setField (fields : List (String × Json)) (key : String) (value : Json) : List (String × Json) :=
  if fields.any fun f => f.1 == key then fields.map fun f => if f.1 = key then (key, value) else f
  else fields ++ [(key, value)]

/-- `{ ...value }`, of an object or of nothing. -/
def spread : Option Json → List (String × Json)
  | some (.obj fields) => fields
  | _ => []

/-- `secrets.section = { ...secrets.section, [name]: value }` -/
def setIn (part name : String) (value : Json) (secrets : List (String × Json)) : List (String × Json) :=
  setField secrets part (.obj (setField (spread ((Json.obj secrets).get? part)) name value))

/-- `delete secrets.section?.[name]` -/
def deleteIn (part name : String) (secrets : List (String × Json)) : List (String × Json) :=
  match (Json.obj secrets).get? part with
  | some (.obj fields) => setField secrets part (.obj (fields.filter fun f => f.1 ≠ name))
  | _ => secrets

/-- An object of texts. -/
def textObject (entries : List (String × String)) : Json := .obj (entries.map fun f => (f.1, .str f.2))

/-- What `setEnv` changes. -/
def mergeEnv (entries : List (String × String)) (secrets : List (String × Json)) : List (String × Json) :=
  setField secrets "env" (.obj (entries.foldl (fun fields f => setField fields f.1 (.str f.2))
    (spread ((Json.obj secrets).get? "env"))))

/-- The secrets are read, changed and written back; those of a vault are an object. -/
def update (change : List (String × Json) → List (String × Json)) : StoreProg Key Unit := do
  match ← readSecrets (c := c) with
  | .obj secrets => writeSecrets e (.obj (change secrets))
  -- What is set on an array is not written.
  | .arr secrets => writeSecrets e (.arr secrets)
  | _ => throw (.other "Cannot create property on a value")

/-- `setToken` -/
def setToken (provider token : String) : StoreProg Key Unit :=
  update e (setIn "tokens" provider (.str token))

/-- `setCredentials` -/
def setCredentials (provider : String) (creds : List (String × String)) : StoreProg Key Unit :=
  update e (setIn "credentials" provider (textObject creds))

/-- `remove` -/
def remove (provider : String) : StoreProg Key Unit :=
  update e fun secrets => deleteIn "credentials" provider (deleteIn "tokens" provider secrets)

/-- `setEnv` -/
def setEnv (entries : List (String × String)) : StoreProg Key Unit := update e (mergeEnv entries)

/-- `removeEnv` -/
def removeEnv (names : List String) : StoreProg Key Unit :=
  update e fun secrets => names.foldl (fun secrets name => deleteIn "env" name secrets) secrets

/-- `setPlanSecrets` -/
def setPlanSecrets (planId : String) (values : List (String × String)) : StoreProg Key Unit :=
  update e (setIn "planSecrets" planId (textObject values))

/-- `removePlanSecrets` -/
def removePlanSecrets (planId : String) : StoreProg Key Unit := update e (deleteIn "planSecrets" planId)

/-! ## The moves -/

/-- `{ v: VAULT_VERSION, kdf: DEFAULT_KDF, salt: newSalt(), user: null }` -/
def newHeader (salt : String) : VaultHeader := ⟨1, DEFAULT_KDF, salt, none⟩

/-- `createVault`, less the secrets that it answers. -/
def createVault (passphrase : String) : StoreProg Key Key := do
  let present : Bool ← op .vaultExists
  require (!present) "A vault already exists."
  let salt : String ← op .randomSalt
  let key ← attempt (vaultKeyFrom c passphrase (newHeader salt))
  writeVault e (.obj []) key (newHeader salt)
  pure key

/-- `readLegacy` -/
def readLegacy : StoreProg Key Json := do
  let present : Bool ← op .legacyExists
  if present then do
    let keyPresent : Bool ← op .keyFileExists
    require keyPresent "Found secrets.json.enc but no .key to open it with."
    let keyFile : KeyFile Key ← lift (← op .readKeyFile)
    let payload : String ← lift (← op .readEnc)
    attempt (openLegacy c payload keyFile)
  else pure (.obj [])

/-- `migrateLegacy`, less what it reports. -/
def migrateLegacy (passphrase : String) : StoreProg Key Key := do
  let legacy ← readLegacy (c := c)
  let salt : String ← op .randomSalt
  let key ← attempt (vaultKeyFrom c passphrase (newHeader salt))
  writeVault e legacy key (newHeader salt)
  let verified ← readWith (c := c) key
  require (c.stringify (some verified) == c.stringify (some legacy))
    "Vault migration verification failed — the old store was left untouched."
  pure key

/-- `importEnv`, of the variables that are adopted. -/
def importEnv : List (String × String) → StoreProg Key Unit
  | [] => pure ()
  | entry :: entries => setEnv e (entry :: entries)

/-- The vault of `KeyringInit.run`. -/
def newVault (carried : Bool) (passphrase : String) : StoreProg Key Key :=
  if carried then migrateLegacy e passphrase else createVault e passphrase

/-- `KeyringInit.run`, with a passphrase at hand. -/
def init (passphrase : String) (adopted : List (String × String)) : StoreProg Key Unit := do
  let present : Bool ← op .vaultExists
  require (!present) "A vault already exists."
  let carried : Bool ← op .legacyExists
  let key ← newVault e carried passphrase
  let _ : Unit ← op (.setVaultKey key)
  importEnv e adopted

/-- `dropLegacy` -/
def dropLegacy (key : Key) : StoreProg Key Unit := do
  let _ ← readWith (c := c) key
  lift (← op .removeEnc)
  lift (← op .removeKeyFile)

/-- `KeyringDropLegacy.run`, once the vault is unlocked. -/
def dropLegacyRun : StoreProg Key Unit := do
  let isSealed : Bool ← op .vaultExists
  require isSealed "This profile is not sealed. Run: vops keyring init"
  let present : Bool ← op .legacyExists
  if present then dropLegacy (c := c) (← requireVaultKey) else pure ()

end Vops.Keyring.ProfileStore
