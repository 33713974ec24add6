import Vops.Lib.Json

/-!
# The vault (`lib/keyring/derive.ts`, `vault-format.ts`, `vault-store.ts`)

* `Crypto` — what `node:crypto` computes, and how keys and values are written.
* `deriveMaster`, `deriveKey`, `domainKeyFrom`, `vaultKeyFrom` — from a passphrase to the key of a
  domain.
* `parseVault`, `readHeader`, `readWith` — the vault file, its header, and its contents under a key.

A JSON text is the value that `JSON.parse` reads from it.
-/

namespace Vops.Keyring

/-! ## Errors -/

/-- `VaultAuthError`, `VaultLockedError`, any other error, and the answers of the controller. -/
inductive UnlockError
  | auth (message : String)
  | locked (message : String)
  | other (message : String)
  | badRequest (message : String)
  | unauthorized (message : String) (failures retryInMs : ℕ)
  | tooManyRequests (message : String) (failures retryInMs : ℕ)
deriving DecidableEq

/-! ## Deriving keys -/

/-- `KEY_DOMAIN` -/
inductive KeyDomain
  | vault | session | dymmi
deriving DecidableEq

def KeyDomain.text : KeyDomain → String
  | vault => "vops:secrets:v1"
  | session => "vops:session:v1"
  | dymmi => "dymmi:secrets:v1"

/-- `KdfParams`; the algorithm is scrypt. -/
structure KdfParams where
  N : ℕ
  r : ℕ
  p : ℕ
deriving DecidableEq

/-- `DEFAULT_KDF` -/
def DEFAULT_KDF : KdfParams := ⟨65536, 8, 1⟩

/-- The functions of `node:crypto`, on salts in hexadecimal: `scryptSync` of the normalised passphrase,
`hkdfSync`, and deciphering a payload of three parts, with what `JSON.parse` reads from the plain
text; a key as hexadecimal text; `JSON.stringify`. -/
structure Crypto (Master Key : Type) where
  scrypt : String → String → KdfParams → Master
  hkdf : Master → String → String → Key
  decipher : String → String → String → Key → Option (Option Json)
  toHex : Key → String
  ofHex : String → Key
  stringify : Option Json → String

variable {Master Key : Type} (c : Crypto Master Key)

/-- `assertParams` -/
def assertParams (params : KdfParams) : Except UnlockError Unit :=
  let powerOfTwo := params.N > 1 ∧ params.N &&& (params.N - 1) = 0
  if ¬ powerOfTwo ∨ params.N < 16384 ∨ params.N > 1048576 then
    .error (.other s!"Unsupported scrypt cost N={params.N} (expected a power of two in 2^14..2^20).")
  else if params.r < 1 ∨ params.r > 32 ∨ params.p < 1 ∨ params.p > 16 then
    .error (.other s!"Unsupported scrypt parameters r={params.r} p={params.p}.")
  else .ok ()

/-- `deriveMaster` -/
def deriveMaster (passphrase salt : String) (params : KdfParams) : Except UnlockError Master := do
  assertParams params
  pure (c.scrypt passphrase salt params)

/-- `deriveKey` -/
def deriveKey (master : Master) (domain : KeyDomain) (salt : String) : Key :=
  c.hkdf master salt domain.text

/-! ## The vault file -/

structure VaultHeader where
  v : ℕ
  kdf : KdfParams
  salt : String
  user : Option String
deriving DecidableEq

structure VaultFile extends VaultHeader where
  data : String

/-- `isPositiveInt`, with the number. -/
def positiveInt : Option Json → Option ℕ
  | some (.num (.fin q)) => if q.isInt ∧ 0 < q then some q.num.toNat else none
  | _ => none

/-- `parseKdf` -/
def parseKdf : Option Json → Except UnlockError KdfParams
  | some (.obj fields) =>
      let kdf := Json.obj fields
      if (kdf.get? "algo").bind Json.str? ≠ some "scrypt" then
        let algo := c.stringify (kdf.get? "algo")
        .error (.other s!"Unsupported vault KDF {algo}.")
      else match positiveInt (kdf.get? "N"), positiveInt (kdf.get? "r"), positiveInt (kdf.get? "p") with
        | some N, some r, some p => .ok ⟨N, r, p⟩
        | _, _, _ => .error (.other "Vault KDF parameters are malformed.")
  | _ => .ok DEFAULT_KDF

/-- `/^[0-9a-f]{16,}$/i` -/
def isSalt (s : String) : Bool :=
  16 ≤ s.toList.length && s.toList.all fun ch =>
    ch.isDigit || ('a' ≤ ch && ch ≤ 'f') || ('A' ≤ ch && ch ≤ 'F')

/-- `parseVault`, behind `JSON.parse`. -/
def parseVault (parsed : Json) : Except UnlockError VaultFile :=
  match parsed with
  | .obj _ =>
      if (parsed.get? "v").bind Json.num? ≠ some 1 then
        let version := c.stringify (parsed.get? "v")
        .error (.other s!"Unsupported vault version {version} (expected 1).")
      else match parsed.get? "salt" with
        | some (.str salt) =>
            if !isSalt salt then .error (.other "Vault salt is missing or malformed.")
            else match parsed.get? "data" with
              | some (.str data) =>
                  if data = "" then .error (.other "Vault payload is missing.")
                  else match parsed.get? "user" with
                    | none | some .null => do
                        let kdf ← parseKdf c (parsed.get? "kdf")
                        pure ⟨⟨1, kdf, salt, none⟩, data⟩
                    | some (.str user) => do
                        let kdf ← parseKdf c (parsed.get? "kdf")
                        pure ⟨⟨1, kdf, salt, some user⟩, data⟩
                    | some _ => .error (.other "Vault user field is malformed.")
              | _ => .error (.other "Vault payload is missing.")
        | _ => .error (.other "Vault salt is missing or malformed.")
  | _ => .error (.other "Vault file is not an object.")

/-- What is at the path of the vault: nothing, a text that is not JSON, or a value. -/
inductive DiskFile
  | missing
  | malformed
  | json (v : Json)

/-- `vaultExists` -/
def vaultExists : DiskFile → Bool
  | .missing => false
  | _ => true

/-- `parseVault(fs.readFileSync(vaultPath(profileDir)))` -/
def readFile : DiskFile → Except UnlockError VaultFile
  | .missing => .error (.other "ENOENT: no such file or directory")
  | .malformed => .error (.other "Unexpected token in JSON")
  | .json v => parseVault c v

/-- `readHeader` -/
def readHeader (file : DiskFile) : Except UnlockError VaultHeader :=
  if vaultExists file then do
    let parsed ← readFile c file
    pure parsed.toVaultHeader
  else .error (.other "No vault. Run `vops keyring init` first.")

/-- `decryptPayload`, with what `JSON.parse` reads from the plain text. -/
def decryptPayload (payload : String) (key : Key) : Except UnlockError (Option Json) :=
  let malformed := UnlockError.auth "Malformed vault payload."
  match payload.toList.splitOn ':' with
  | iv :: tag :: data :: _ =>
      if iv = [] ∨ tag = [] ∨ data = [] then .error malformed
      else match c.decipher (String.ofList iv) (String.ofList tag) (String.ofList data) key with
        | some plain => .ok plain
        | none => .error (.auth "Wrong passphrase (the vault did not authenticate).")
  | _ => .error malformed

/-- `readWith`: the contents of the vault under a key. -/
def readWith (file : DiskFile) (key : Key) : Except UnlockError Json := do
  let parsed ← readFile c file
  match ← decryptPayload c parsed.data key with
  | none => .error (.other "Unexpected token in JSON")
  | some (.obj fields) => .ok (.obj fields)
  | some _ => .error (.auth "Vault contents are not an object.")

/-- `domainKeyFrom` -/
def domainKeyFrom (passphrase : String) (header : VaultHeader) (domain : KeyDomain) :
    Except UnlockError Key := do
  let master ← deriveMaster c passphrase header.salt header.kdf
  pure (deriveKey c master domain header.salt)

/-- `vaultKeyFrom` -/
def vaultKeyFrom (passphrase : String) (header : VaultHeader) : Except UnlockError Key :=
  domainKeyFrom c passphrase header .vault

end Vops.Keyring
