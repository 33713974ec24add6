import Vops.Keyring.VaultStore
import Vops.Lib.JsonText

/-!
# The keyring daemon (`lib/keyring/protocol.ts`, `keyring-server.ts`, `daemon-main.ts`)

* `KeyringRequest`, `KeyringResponse`, `decodeRequest` — the protocol of the local socket.
* `KeyringServer.handle` — the state machine that keeps a master for a while.
* `KeyringServer.serve` — a connection: decoding and handling; without a response when handling
  throws.
-/

namespace Vops.Keyring

variable {Master Key : Type} (c : Crypto Master Key)

/-! ## The protocol -/

inductive KeyringRequest
  | status (cookie : String)
  | unlock (cookie passphrase : String)
  | key (cookie : String) (domain : KeyDomain)
  | lock (cookie : String)
deriving DecidableEq

def KeyringRequest.cookie : KeyringRequest → String
  | status cookie | unlock cookie _ | key cookie _ | lock cookie => cookie

inductive KeyringErrorCode
  | locked | unauthorized | badRequest | badPassphrase | internal
deriving DecidableEq

inductive KeyringResponse
  | status (unlocked : Bool) (expiresAt : Option ℕ)
  | unlock
  | lock
  | key (hex : String)
  | error (code : KeyringErrorCode) (message : String)
deriving DecidableEq

/-- `JSON.stringify(req)` -/
def KeyringRequest.line (r : KeyringRequest) : List Char :=
  let field (name : String) (value : String) := quote name ++ [':'] ++ quote value
  let fields := match r with
    | status cookie => [field "op" "status", field "cookie" cookie]
    | unlock cookie passphrase =>
        [field "op" "unlock", field "cookie" cookie, field "passphrase" passphrase]
    | key cookie domain => [field "op" "key", field "cookie" cookie, field "domain" domain.text]
    | lock cookie => [field "op" "lock", field "cookie" cookie]
  ['\x7b'] ++ [','].intercalate fields ++ ['\x7d']

/-- The length of a text in UTF-16 code units. -/
def utf16Length (cs : List Char) : ℕ := (cs.map fun ch => if 0xFFFF < ch.toNat then 2 else 1).sum

/-- `MAX_LINE` -/
def MAX_LINE : ℕ := 64 * 1024

/-- `decodeRequest`, of a request that a client of the keyring encoded: the error, if there is one. -/
def decodeRequest (r : KeyringRequest) : Option String :=
  if MAX_LINE < utf16Length r.line then some "Request too large."
  else if r.cookie = "" then some "Missing cookie."
  else match r with
    | .unlock _ "" => some "unlock requires a passphrase."
    | _ => none

/-! ## The state machine -/

structure KeyringServer (Master : Type) where
  cookie : String
  ttlMs : ℕ
  master : Option Master
  expiresAt : Option ℕ

namespace KeyringServer

/-- `lock` -/
def lock (server : KeyringServer Master) : KeyringServer Master :=
  { server with master := none, expiresAt := none }

/-- `expireIfDue` -/
def expireIfDue (server : KeyringServer Master) (now : ℕ) : KeyringServer Master :=
  match server.master, server.expiresAt with
  | some _, some due => if due ≤ now then server.lock else server
  | _, _ => server

/-- `touch` -/
def touch (server : KeyringServer Master) (now : ℕ) : KeyringServer Master :=
  { server with expiresAt := some (now + server.ttlMs) }

/-- `secretEquals` -/
def secretEquals (provided expected : String) : Bool :=
  provided != "" && expected != "" && provided == expected

/-- `verify`: the master opens the vault that is there now. -/
def verify (file : DiskFile) (master : Master) : Except UnlockError Unit := do
  let header ← readHeader c file
  let _ ← readWith c file (deriveKey c master .vault header.salt)
  pure ()

/-- The text of an error. -/
def errorMessage : UnlockError → String
  | .auth message | .locked message | .other message | .badRequest message => message
  | .unauthorized message _ _ | .tooManyRequests message _ _ => message

/-- What `unlock` answers to an error of deriving or verifying. -/
def unlockError : UnlockError → KeyringResponse
  | .auth message => .error .badPassphrase message
  | e => .error .internal (errorMessage e)

/-- `unlock` -/
def unlock (server : KeyringServer Master) (file : DiskFile) (now : ℕ) (passphrase : String) :
    KeyringResponse × KeyringServer Master :=
  match readHeader c file with
  | .error e => (.error .internal (errorMessage e), server)
  | .ok header =>
      match (do
        let master ← deriveMaster c passphrase header.salt header.kdf
        verify c file master
        pure master : Except UnlockError Master) with
      | .error e => (unlockError e, server)
      | .ok master => (.unlock, { server with master := some master }.touch now)

/-- `key`: without an answer when the header cannot be read. -/
def key (server : KeyringServer Master) (file : DiskFile) (now : ℕ) (domain : KeyDomain) :
    Option KeyringResponse × KeyringServer Master :=
  match server.master with
  | none => (some (.error .locked "Keyring is locked."), server)
  | some master =>
      match readHeader c file with
      | .error _ => (none, server)
      | .ok header => (some (.key (c.toHex (deriveKey c master domain header.salt))), server.touch now)

/-- `handle` -/
def handle (server : KeyringServer Master) (file : DiskFile) (now : ℕ) (r : KeyringRequest) :
    Option KeyringResponse × KeyringServer Master :=
  if secretEquals r.cookie server.cookie then
    let server := server.expireIfDue now
    match r with
    | .status _ => (some (.status server.master.isSome server.expiresAt), server)
    | .unlock _ passphrase =>
        let answer := unlock c server file now passphrase
        (some answer.1, answer.2)
    | .key _ domain => key c server file now domain
    | .lock _ => (some .lock, server.lock)
  else (some (.error .unauthorized "Bad keyring cookie."), server)

/-- `handleConnection` -/
def serve (server : KeyringServer Master) (file : DiskFile) (now : ℕ) (r : KeyringRequest) :
    Option KeyringResponse × KeyringServer Master :=
  match decodeRequest r with
  | some message => (some (.error .badRequest message), server)
  | none => handle c server file now r

end KeyringServer

end Vops.Keyring
