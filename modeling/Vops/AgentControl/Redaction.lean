import Vops.Lib.Json
import Vops.Lib.Rewrite

/-!
# Redaction of secrets (`agent-control/redaction.ts`)

* `matchBearer`, `matchPrivateKey`, `matchUriCredential` — the three regular expressions, as matchers.
* `redactText` — the three replacements, one after the other, on one string.
* `isSensitiveKey`, `redactSecrets`, `containsSecretLikeField` — the walk over a JSON value.
* `storedJson` — what is read back of a value that the store has written.
-/

namespace Vops

/-! ## The expressions -/

/-- `\w` -/
def isWordChar (c : Char) : Bool := c.isAlphanum || c == '_'

/-- `[A-Za-z0-9._~+/=-]` -/
def isBearerChar (c : Char) : Bool :=
  c.isAlphanum || c == '.' || c == '_' || c == '~' || c == '+' || c == '/' || c == '=' || c == '-'

/-- `[A-Z ]` -/
def isHeaderChar (c : Char) : Bool := c.isUpper || c == ' '

/-- `[a-z0-9+.-]`, without regard to case. -/
def isSchemeChar (c : Char) : Bool := c.isAlphanum || c == '+' || c == '.' || c == '-'

/-- `[^:\s/@]` -/
def isUserChar (c : Char) : Bool := !(c == ':' || isJsSpace c || c == '/' || c == '@')

/-- `[^@\s/]` -/
def isPasswordChar (c : Char) : Bool := !(c == '@' || isJsSpace c || c == '/')

/-- There is no word character before the position: `\b` in front of a letter. -/
def atWordStart : Option Char → Bool
  | some c => !isWordChar c
  | none => true

/-- `/\bBearer\s+[A-Za-z0-9._~+/=-]{8,}/gi`, replaced by `Bearer [REDACTED]`. -/
def matchBearer (prev : Option Char) (s : List Char) : Option (ℕ × List Char) :=
  let spaces := (s.drop 6).takeWhile isJsSpace
  let credential := ((s.drop 6).dropWhile isJsSpace).takeWhile isBearerChar
  if atWordStart prev ∧ (s.take 6).map Char.toLower = "bearer".toList ∧ spaces ≠ [] ∧
      8 ≤ credential.length then
    some (6 + spaces.length + credential.length, "Bearer [REDACTED]".toList)
  else none

/-- The length of `-----END [A-Z ]*PRIVATE KEY-----` at the start of a text; the same for
`-----BEGIN`, by the given first part. -/
def armorLength (first : List Char) (s : List Char) : Option ℕ :=
  let label := (s.drop first.length).takeWhile isHeaderChar
  let after := (s.drop first.length).dropWhile isHeaderChar
  if first.isPrefixOf s ∧ "PRIVATE KEY".toList.isSuffixOf label ∧ "-----".toList.isPrefixOf after then
    some (first.length + label.length + 5)
  else none

/-- How far the first `-----END … PRIVATE KEY-----` of a text reaches. -/
def footerEnd : List Char → Option ℕ
  | [] => none
  | c :: s =>
      match armorLength "-----END ".toList (c :: s) with
      | some n => some n
      | none => (footerEnd s).map (· + 1)

/-- `/-----BEGIN [A-Z ]*PRIVATE KEY-----[\s\S]*?-----END [A-Z ]*PRIVATE KEY-----/g`, replaced by
`[REDACTED PRIVATE KEY]`. -/
def matchPrivateKey (_ : Option Char) (s : List Char) : Option (ℕ × List Char) :=
  (armorLength "-----BEGIN ".toList s).bind fun header =>
    (footerEnd (s.drop header)).map fun n => (header + n, "[REDACTED PRIVATE KEY]".toList)

/-- `/([a-z][a-z0-9+.-]*:\/\/[^:\s/@]+:)[^@\s/]+@/gi`, replaced by `$1[REDACTED]@`. -/
def matchUriCredential (_ : Option Char) (s : List Char) : Option (ℕ × List Char) :=
  let scheme := s.takeWhile isSchemeChar
  let authority := (s.dropWhile isSchemeChar).drop 3
  let user := authority.takeWhile isUserChar
  let afterUser := authority.dropWhile isUserChar
  let password := (afterUser.drop 1).takeWhile isPasswordChar
  let afterPassword := (afterUser.drop 1).dropWhile isPasswordChar
  if (s.head?.any Char.isAlpha) ∧ "://".toList.isPrefixOf (s.dropWhile isSchemeChar) ∧ user ≠ [] ∧
      afterUser.head? = some ':' ∧ password ≠ [] ∧ afterPassword.head? = some '@' then
    some (scheme.length + 3 + user.length + 1 + password.length + 1,
      scheme ++ "://".toList ++ user ++ ":[REDACTED]@".toList)
  else none

/-- The three replacements of `redactSecrets` on one string, on its characters. -/
def redactChars (s : List Char) : List Char :=
  replaceAll matchUriCredential 0 none
    (replaceAll matchPrivateKey 0 none (replaceAll matchBearer 0 none s))

/-- The three replacements of `redactSecrets` on one string. -/
def redactText (s : String) : String := String.ofList (redactChars s.toList)

/-! ## Sensitive keys -/

/-- `key.replace(/([a-z0-9])([A-Z])/g, '$1_$2')` -/
def normalizeKey : List Char → List Char
  | a :: b :: cs =>
      if (a.isLower || a.isDigit) && b.isUpper then a :: '_' :: normalizeKey (b :: cs)
      else a :: normalizeKey (b :: cs)
  | cs => cs

/-- The words of `SENSITIVE_KEY`, an optional `_` or `-` written out. -/
def sensitiveWords : List (List Char) :=
  ["token", "secret", "password", "passphrase", "privatekey", "private_key", "private-key",
    "authorization", "cookie", "credential", "apikey", "api_key", "api-key", "clientsecret",
    "client_secret", "client-secret"].map String.toList

/-- A sensitive word starts here and is followed by `_` or the end. -/
def sensitiveHere (s : List Char) : Bool :=
  sensitiveWords.any fun w => w.isPrefixOf s &&
    match (s.drop w.length).head? with
    | none => true
    | some c => c == '_'

/-- A sensitive word stands between `_` or the ends of the key. -/
def sensitiveIn : Bool → List Char → Bool
  | _, [] => false
  | start, c :: cs => (start && sensitiveHere (c :: cs)) || sensitiveIn (c == '_') cs

/-- `isSensitiveKey` -/
def isSensitiveKey (key : String) : Bool :=
  sensitiveIn true ((normalizeKey key.toList).map Char.toLower)

/-! ## JSON values -/

mutual

/-- The value `redactSecrets` puts in the place of a value, not looking at its own key. -/
def redactSecrets : Json → Json
  | .str s => .str (redactText s)
  | .arr xs => .arr (redactElements xs)
  | .obj fields => .obj (redactFields fields)
  | v => v

def redactElements : List Json → List Json
  | [] => []
  | x :: xs => redactSecrets x :: redactElements xs

def redactFields : List (String × Json) → List (String × Json)
  | [] => []
  | (key, v) :: fields =>
      (key, if key != "" && isSensitiveKey key then .str "[REDACTED]" else redactSecrets v) ::
        redactFields fields

end

mutual

/-- Whether `redactSecrets` changed a text or met a sensitive key. -/
def redactionApplied : Json → Bool
  | .str s => redactText s != s
  | .arr xs => redactionAppliedElements xs
  | .obj fields => redactionAppliedFields fields
  | _ => false

def redactionAppliedElements : List Json → Bool
  | [] => false
  | x :: xs => redactionApplied x || redactionAppliedElements xs

def redactionAppliedFields : List (String × Json) → Bool
  | [] => false
  | (key, v) :: fields =>
      (key != "" && isSensitiveKey key) || redactionApplied v || redactionAppliedFields fields

end

mutual

/-- `containsSecretLikeField` -/
def containsSecretLikeField : Json → Bool
  | .arr xs => containsSecretLikeElement xs
  | .obj fields => containsSecretLikeKey fields
  | _ => false

def containsSecretLikeElement : List Json → Bool
  | [] => false
  | x :: xs => containsSecretLikeField x || containsSecretLikeElement xs

def containsSecretLikeKey : List (String × Json) → Bool
  | [] => false
  | (key, v) :: fields =>
      isSensitiveKey key || containsSecretLikeField v || containsSecretLikeKey fields

end

/-- `JSON.parse(safeJson(v))`: the store redacts a value when it writes it. -/
def storedJson (v : Json) : Json := (redactSecrets v).reparse

end Vops
