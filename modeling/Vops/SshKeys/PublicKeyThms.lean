import Vops.HostOps.AuthorizedKeys
import Vops.HostOps.OpsLine
import Vops.Lib.Base64
import Vops.Lib.LengthPrefixed
import Vops.Lib.Utf8

/-!
# What is accepted as a public key

* `decodeBody_eq_some_iff` — a body is read as the bytes whose base64 it is.
* `readStrings_eq_some_iff` — a blob is read as the strings whose encoding it is; `readStringsFrom_ends` — the
  loop ends on every blob.
* `IsKeyLine` — the lines of the format.
* `parsePublicKey_exact` — a text is accepted exactly when it is such a line without the header of a private
  key.
-/

/-!
## Public keys (`ssh-keys/public-key-material.ts`)

* `decodeBody` — the bytes of a key body, when it is their base64.
* `readStrings` — the strings of a key blob.
* `parsePublicKey` — a key line, or why it is none.

A text is a list of characters.
-/

namespace Vops.PublicKey

open AuthorizedKeys (Text trim split)
open LengthPrefixed (readWord)

/-! ## The text -/

/-- `PublicKeyRejection['kind']` -/
inductive Kind
  | missing | «private» | malformed
deriving DecidableEq

/-- `PublicKeyParse` -/
inductive PublicKeyParse
  | ok (algorithm : Text) (blob : List UInt8) (comment : Text)
  | rejected (kind : Kind) (reason : String)
deriving DecidableEq

/-- `\w` -/
def isWord (c : Char) : Bool := c.isAlphanum || c = '_'

/-- The headers of private keys, `BEGIN (?:RSA |DSA |EC |OPENSSH |ENCRYPTED )?PRIVATE KEY`. -/
def privateHeaders : List Text :=
  ["BEGIN PRIVATE KEY".toList, "BEGIN RSA PRIVATE KEY".toList, "BEGIN DSA PRIVATE KEY".toList,
    "BEGIN EC PRIVATE KEY".toList, "BEGIN OPENSSH PRIVATE KEY".toList, "BEGIN ENCRYPTED PRIVATE KEY".toList]

/-- The text begins with a header that ends a word. -/
def beginsHeader (cs : Text) : Bool :=
  privateHeaders.any fun header => header.isPrefixOf cs && !(cs.drop header.length).head?.any isWord

/-- A header of a private key stands in the text as words of its own; `before` says that a character of a
word stands in front. -/
def hasPrivateHeader (before : Bool) : Text → Bool
  | [] => false
  | c :: cs => !before && beginsHeader (c :: cs) || hasPrivateHeader (isWord c) cs

/-- `ALGORITHM` -/
def isAlgorithm (tok : Text) : Bool :=
  tok == "ssh-ed25519".toList || tok == "ssh-rsa".toList || tok == "ssh-dss".toList ||
    "ecdsa-sha2-".toList.isPrefixOf tok && tok.drop 11 != [] &&
      (tok.drop 11).all fun c => c.isAlphanum || c = '.' || c = '_' || c = '-'

/-- `BLOB_FIELDS[algorithm] ?? ECDSA_FIELDS` -/
def expectedFields (algorithm : Text) : ℕ :=
  if algorithm = "ssh-ed25519".toList then 2
  else if algorithm = "ssh-rsa".toList then 3
  else if algorithm = "ssh-dss".toList then 5
  else 3

/-- `ED25519_KEY_BYTES` -/
def ed25519KeyBytes : ℕ := 32

/-! ## The blob -/

/-- `decodeBody` -/
def decodeBody (body : Text) : Option (List UInt8) :=
  if body.length % 4 ≠ 0 || !Base64.isPadded body then none
  else
    let blob := Base64.decode body
    if Base64.encode blob = body then some blob else none

/-- The loop of `readStrings`, from the rest of the blob on; `none` when it has not ended after so many
turns. -/
def readStringsFrom : ℕ → List UInt8 → List (List UInt8) → Option (Option (List (List UInt8)))
  | 0, _, _ => none
  | turns + 1, rest, out =>
      if 4 ≤ rest.length then
        let len := readWord rest
        let rest := rest.drop 4
        if rest.length < len then some none
        else readStringsFrom turns (rest.drop len) (out ++ [rest.take len])
      else some (if rest = [] ∧ out ≠ [] then some out else none)

/-- `readStrings`; each turn takes four bytes, so there are at most as many as bytes. -/
def readStrings (blob : List UInt8) : Option (List (List UInt8)) :=
  (readStringsFrom (blob.length + 1) blob []).join

/-! ## The line -/

/-- The checks of the strings of a blob. -/
def checkFields (algorithm : Text) (blob : List UInt8) (comment : Text) (fields : List (List UInt8)) :
    PublicKeyParse :=
  let name := String.ofList algorithm
  let expected := expectedFields algorithm
  if Utf8.decode (fields.headD []) ≠ algorithm then
    .rejected .malformed (s!"the key body is not an '{name}' key — its own blob names a different " ++ "algorithm")
  else if fields.length ≠ expected then
    let count := fields.length
    .rejected .malformed s!"an '{name}' key blob holds {expected} fields, this one holds {count}"
  else if algorithm = "ssh-ed25519".toList ∧ (fields.getD 1 []).length ≠ ed25519KeyBytes then
    let count := (fields.getD 1 []).length
    .rejected .malformed s!"an ed25519 public key is {ed25519KeyBytes} bytes, this one is {count}"
  else .ok algorithm blob comment

/-- `parsePublicKey`, of a text that was given or of the empty one. -/
def parsePublicKey (text : Text) : PublicKeyParse :=
  let raw := trim text
  if raw = [] then .rejected .missing "no public key material was given"
  else if hasPrivateHeader false raw then .rejected .private "this is a private key"
  else if raw.any fun c => c = '\r' || c = '\n' then
    .rejected .malformed "expected exactly one key on a single line"
  else
    let fields := split raw
    let algorithm := fields.headD []
    if !isAlgorithm algorithm then
      .rejected .malformed ("the first field is not a supported public-key algorithm (ssh-ed25519, " ++
        "ssh-rsa, ssh-dss, ecdsa-sha2-*)")
    else
      let body := fields.getD 1 []
      if body = [] then
        let name := String.ofList algorithm
        .rejected .malformed s!"only the algorithm '{name}' was given, with no key body"
      else match decodeBody body with
        | none => .rejected .malformed "the key body is not valid base64"
        | some blob =>
            match readStrings blob with
            | none =>
                .rejected .malformed ("the key body is truncated: it does not decode to a whole SSH " ++
                  "key blob")
            | some strings => checkFields algorithm blob ([' '].intercalate (fields.drop 2)) strings

end Vops.PublicKey

namespace Vops.PublicKey

open AuthorizedKeys (Text trim split)
open LengthPrefixed (Str readWord word encode readWord_word word_readWord readWord_lt encode_cons)

/-! ## The blob -/

/-- A body is read as the bytes whose base64 it is. -/
theorem decodeBody_eq_some_iff {body : Text} {blob : List UInt8} :
    decodeBody body = some blob ↔ body = Base64.encode blob ∧ blob ≠ [] := by
  unfold decodeBody
  dsimp only
  constructor
  · intro h
    split at h
    · cases h
    next hform =>
      split at h
      next hback =>
        obtain rfl := Option.some.inj h
        have hpadded : body.length % 4 = 0 ∧ Base64.isPadded body = true := by simpa using hform
        refine ⟨hback.symm, Base64.ne_nil_of_isPadded ?_⟩
        rw [hback]
        exact hpadded.2
      · cases h
  · rintro ⟨rfl, hne⟩
    have hlength := Base64.length_encode blob
    have hpadded := Base64.isPadded_encode hne
    simp [hlength, hpadded, Base64.decode_encode]

section Strings

variable {turns : ℕ} {rest : List UInt8} {out fields : List (List UInt8)}

/-- The loop ends before it has taken as many turns as there are bytes. -/
theorem readStringsFrom_isSome (h : rest.length < turns) : (readStringsFrom turns rest out).isSome = true := by
  induction turns generalizing rest out with
  | zero => exact absurd h (Nat.not_lt_zero _)
  | succ turns ih =>
      rw [readStringsFrom]
      split
      next hword =>
        dsimp only
        split
        · rfl
        · apply ih
          rw [List.length_drop, List.length_drop]
          omega
      · rfl

/-- With more turns the loop ends in the same way. -/
theorem readStringsFrom_mono {result : Option (List (List UInt8))} {more : ℕ}
    (h : readStringsFrom turns rest out = some result) (hmore : turns ≤ more) :
    readStringsFrom more rest out = some result := by
  induction turns generalizing more rest out with
  | zero => cases h
  | succ turns ih =>
      obtain ⟨more, rfl⟩ : ∃ m, more = m + 1 := ⟨more - 1, by omega⟩
      rw [readStringsFrom] at h ⊢
      dsimp only at h ⊢
      split
      next hword =>
        rw [if_pos hword] at h
        split
        next hshort =>
          rw [if_pos hshort] at h
          exact h
        next hshort =>
          rw [if_neg hshort] at h
          exact ih h (by omega)
      next hword =>
        rw [if_neg hword] at h
        exact h

/-- The loop ends on every blob. -/
theorem readStringsFrom_ends (blob : List UInt8) :
    ∃ result, ∀ turns, blob.length < turns → readStringsFrom turns blob [] = some result := by
  obtain ⟨result, hresult⟩ := Option.isSome_iff_exists.mp
    (readStringsFrom_isSome (Nat.lt_succ_self blob.length))
  exact ⟨result, fun turns hturns => readStringsFrom_mono hresult hturns⟩

/-- What the loop gives from the rest of a blob on. -/
theorem readStringsFrom_eq_some_iff (h : rest.length < turns) :
    readStringsFrom turns rest out = some (some fields) ↔
      ∃ strings : List Str, rest = encode strings ∧ fields = out ++ strings.map Str.bytes ∧ fields ≠ [] := by
  induction turns generalizing rest out with
  | zero => exact absurd h (Nat.not_lt_zero _)
  | succ turns ih =>
      rw [readStringsFrom]
      dsimp only
      split
      next hword =>
        split
        next hshort =>
          refine iff_of_false (by simp) ?_
          rintro ⟨strings, rfl, -⟩
          cases strings with
          | nil => exact absurd hword (by decide)
          | cons s strings =>
              rw [encode_cons] at hshort
              rw [readWord_word s.short] at hshort
              change (s.bytes ++ encode strings).length < _ at hshort
              rw [List.length_append] at hshort
              omega
        next hshort =>
          rw [ih (by rw [List.length_drop, List.length_drop]; omega)]
          constructor
          · rintro ⟨strings, hrest, rfl, hne⟩
            have hlength : ((rest.drop 4).take (readWord rest)).length = readWord rest := by
              rw [List.length_take]
              omega
            obtain ⟨s, hs⟩ : ∃ s : Str, s.bytes = (rest.drop 4).take (readWord rest) :=
              ⟨⟨_, hlength.trans_lt (readWord_lt rest)⟩, rfl⟩
            refine ⟨s :: strings, ?_, ?_, hne⟩
            · rw [encode_cons, hs, hlength, ← hrest, List.take_append_drop, word_readWord hword]
            · rw [List.map_cons, List.append_assoc, hs]
              rfl
          · rintro ⟨strings, rfl, rfl, hne⟩
            cases strings with
            | nil => exact absurd hword (by decide)
            | cons s strings =>
                refine ⟨strings, ?_, ?_, hne⟩
                · rw [encode_cons, readWord_word s.short]
                  exact List.drop_left
                · rw [encode_cons, readWord_word s.short, List.map_cons, List.append_assoc]
                  have htake : (List.drop 4 (word s.bytes.length ++ (s.bytes ++ encode strings))).take s.bytes.length =
                      s.bytes := List.take_left
                  rw [htake]
                  rfl
      next hword =>
        rw [Option.some_inj]
        constructor
        · intro h
          split at h
          next hdone =>
            obtain rfl := Option.some.inj h
            exact ⟨[], hdone.1, (List.append_nil out).symm, hdone.2⟩
          · cases h
        · rintro ⟨strings, rfl, rfl, hne⟩
          cases strings with
          | nil =>
              rw [List.map_nil, List.append_nil] at hne ⊢
              rw [if_pos ⟨rfl, hne⟩]
          | cons s strings =>
              rw [encode_cons] at hword
              simp [word] at hword

/-- A blob is read as the strings whose encoding it is. -/
theorem readStrings_eq_some_iff {blob : List UInt8} : readStrings blob = some fields ↔
    ∃ strings : List Str, blob = encode strings ∧ fields = strings.map Str.bytes ∧ fields ≠ [] := by
  have hloop := @readStringsFrom_eq_some_iff (blob.length + 1) blob [] fields (Nat.lt_succ_self _)
  simp only [List.nil_append] at hloop
  rw [← hloop, readStrings]
  cases readStringsFrom (blob.length + 1) blob [] with
  | none => simp
  | some result => simp

end Strings

/-! ## The line -/

/-- The strings of a key of the algorithm. -/
structure IsKey (algorithm : Text) (strings : List Str) : Prop where
  count : strings.length = expectedFields algorithm
  name : (strings.head?.map Str.bytes) = some (algorithm.map Utf8.code)
  ed25519 : algorithm = "ssh-ed25519".toList → (strings[1]?.map fun s => s.bytes.length) = some 32

/-- The trimmed text is one line: a supported algorithm, the base64 of a key of this algorithm, and a comment
or none, with white space between them. -/
def IsKeyLine (text : Text) : Prop :=
  (∀ c ∈ trim text, c ≠ '\r' ∧ c ≠ '\n') ∧ ∃ algorithm gap comment strings,
    trim text = algorithm ++ (gap ++ (Base64.encode (encode strings) ++ comment)) ∧
      isAlgorithm algorithm = true ∧ IsKey algorithm strings ∧
      gap ≠ [] ∧ (∀ c ∈ gap, isJsSpace c = true) ∧ ∀ c ∈ comment.head?, isJsSpace c = true

/-- The characters of algorithms and of base64 are ASCII and no white space. -/
theorem plain_char {c : Char} (h : c.isAlphanum = true ∨ c ∈ ['.', '_', '-', '+', '/', '=']) :
    isJsSpace c = false ∧ c.toNat < 0x80 := by
  rcases h with h | h
  · refine ⟨isJsSpace_of_isAlphanum h, ?_⟩
    rw [isAlphanum_iff] at h
    omega
  · have hall : ∀ c ∈ ['.', '_', '-', '+', '/', '='], isJsSpace c = false ∧ c.toNat < 0x80 := by decide
    exact hall c h

theorem plain_algorithm {tok : Text} (h : isAlgorithm tok = true) :
    ∀ c ∈ tok, isJsSpace c = false ∧ c.toNat < 0x80 := by
  simp only [isAlgorithm, Bool.or_eq_true, Bool.and_eq_true, beq_iff_eq] at h
  rcases h with ((rfl | rfl) | rfl) | ⟨⟨hleads, -⟩, htail⟩
  · decide
  · decide
  · decide
  · obtain ⟨tail, rfl⟩ := List.isPrefixOf_iff_prefix.mp hleads
    intro c hc
    rcases List.mem_append.mp hc with hc | hc
    · have hall : ∀ c ∈ "ecdsa-sha2-".toList, isJsSpace c = false ∧ c.toNat < 0x80 := by decide
      exact hall c hc
    · have htail' : tail.all (fun c => c.isAlphanum || c = '.' || c = '_' || c = '-') = true := htail
      apply plain_char
      have hplain := List.all_eq_true.mp htail' c hc
      simp only [Bool.or_eq_true, decide_eq_true_eq] at hplain
      rcases hplain with ((hplain | rfl) | rfl) | rfl
      · exact .inl hplain
      · exact .inr (by decide)
      · exact .inr (by decide)
      · exact .inr (by decide)

theorem isAlgorithm_ne_nil {tok : Text} (h : isAlgorithm tok = true) : tok ≠ [] := by
  rintro rfl
  exact absurd h (by decide)

theorem not_space_encode (bytes : List UInt8) : ∀ c ∈ Base64.encode bytes, isJsSpace c = false := by
  obtain ⟨digits, padding, heq, hdigits, hpadding, -⟩ := Base64.encode_split bytes
  rw [heq]
  intro c hc
  refine (plain_char ?_).1
  rcases List.mem_append.mp hc with hc | hc
  · have hdigit := hdigits c hc
    simp only [Base64.isDigit, Bool.or_eq_true, decide_eq_true_eq] at hdigit
    rcases hdigit with (hdigit | rfl) | rfl
    · exact .inl hdigit
    · exact .inr (by decide)
    · exact .inr (by decide)
  · rcases hpadding with rfl | rfl | rfl
    · cases hc
    · exact .inr (by simp_all)
    · exact .inr (by simp_all)

/-- A blob whose strings pass the checks is that of a key of the algorithm. -/
theorem checkFields_ok_iff {algorithm comment : Text} {blob : List UInt8} {strings : List Str}
    (halgorithm : isAlgorithm algorithm = true) (hne : strings ≠ []) :
    checkFields algorithm blob comment (strings.map Str.bytes) = .ok algorithm blob comment ↔
      IsKey algorithm strings := by
  have hname : Utf8.decode ((strings.map Str.bytes).headD []) = algorithm ↔
      strings.head?.map Str.bytes = some (algorithm.map Utf8.code) := by
    cases strings with
    | nil => exact absurd rfl hne
    | cons s strings =>
        rw [List.map_cons, List.headD_cons, Utf8.decode_eq_iff fun c hc => (plain_algorithm halgorithm c hc).2,
          List.head?_cons, Option.map_some, Option.some_inj]
  have hsecond : ((strings.map Str.bytes).getD 1 []).length = ed25519KeyBytes ↔
      strings[1]?.map (fun s => s.bytes.length) = some 32 := by
    rw [List.getD_eq_getElem?_getD, List.getElem?_map]
    cases strings[1]? with
    | none => simp [ed25519KeyBytes]
    | some s => simp [ed25519KeyBytes]
  have hkey : IsKey algorithm strings ↔ Utf8.decode ((strings.map Str.bytes).headD []) = algorithm ∧
      (strings.map Str.bytes).length = expectedFields algorithm ∧
      (algorithm = "ssh-ed25519".toList → ((strings.map Str.bytes).getD 1 []).length = ed25519KeyBytes) := by
    rw [hname, hsecond, List.length_map]
    exact ⟨fun h => ⟨h.name, h.count, h.ed25519⟩, fun h => ⟨h.2.1, h.1, h.2.2⟩⟩
  rw [hkey, checkFields]
  dsimp only
  split
  next hother => exact iff_of_false nofun fun h => hother h.1
  next hsame =>
    split
    next hcount => exact iff_of_false nofun fun h => hcount h.2.1
    next hcount =>
      split
      next hlength => exact iff_of_false nofun fun h => hlength.2 (h.2.2 hlength.1)
      next hlength =>
        refine iff_of_true rfl ⟨not_not.mp hsame, not_not.mp hcount, fun h => ?_⟩
        exact not_not.mp fun hother => hlength ⟨h, hother⟩

theorem eq_of_checkFields {algorithm algorithm' comment comment' : Text} {blob blob' : List UInt8}
    {fields : List (List UInt8)} (h : checkFields algorithm blob comment fields = .ok algorithm' blob' comment') :
    checkFields algorithm blob comment fields = .ok algorithm blob comment := by
  unfold checkFields at h ⊢
  dsimp only at h ⊢
  split
  · next hother =>
    rw [if_pos hother] at h
    cases h
  next hsame =>
    rw [if_neg hsame] at h
    split
    next hcount =>
      rw [if_pos hcount] at h
      cases h
    next hcount =>
      rw [if_neg hcount] at h
      split
      next hlength =>
        rw [if_pos hlength] at h
        cases h
      next hlength => rfl

/-- What is accepted is a key line. -/
theorem isKeyLine_of_ok {text algorithm comment : Text} {blob : List UInt8}
    (h : parsePublicKey text = .ok algorithm blob comment) :
    IsKeyLine text ∧ hasPrivateHeader false (trim text) = false := by
  unfold parsePublicKey at h
  dsimp only at h
  split at h
  · cases h
  next hgiven =>
    split at h
    · cases h
    next hheader =>
      split at h
      · cases h
      next hline =>
        split at h
        · cases h
        next halgorithm =>
          split at h
          · cases h
          next hbody =>
            split at h
            · cases h
            next blob' hdecode =>
              split at h
              · cases h
              next fields hstrings =>
                have hok := eq_of_checkFields h
                obtain ⟨strings, rfl, rfl, hne⟩ := readStrings_eq_some_iff.mp hstrings
                rw [Bool.not_eq_true', Bool.not_eq_false] at halgorithm
                have hkey := (checkFields_ok_iff halgorithm (by simpa using hne)).mp hok
                obtain ⟨hencoded, -⟩ := decodeBody_eq_some_iff.mp hdecode
                refine ⟨⟨?_, ?_⟩, Bool.eq_false_of_not_eq_true hheader⟩
                · simpa [not_or] using hline
                · cases hsplit : split (trim text) with
                  | nil =>
                      rw [hsplit] at hbody
                      exact absurd rfl hbody
                  | cons first more =>
                      rw [hsplit] at hbody halgorithm hkey hencoded
                      cases more with
                      | nil => exact absurd rfl hbody
                      | cons body more =>
                          obtain ⟨gap, rest, hraw, hgap, hspace, -, hrest⟩ :=
                            TextLines.eq_of_fields hsplit (List.cons_ne_nil _ _)
                          obtain ⟨comment, rfl, hcomment⟩ := TextLines.prefix_of_fields hrest
                          refine ⟨first, gap, comment, strings, ?_, halgorithm, hkey, hgap, hspace, hcomment⟩
                          rw [hraw, ← hencoded]
                          rfl

/-- A key line is accepted. -/
theorem ok_of_isKeyLine {text : Text} (h : IsKeyLine text) (hheader : hasPrivateHeader false (trim text) = false) :
    ∃ algorithm blob comment, parsePublicKey text = .ok algorithm blob comment := by
  obtain ⟨hline, algorithm, gap, comment, strings, hraw, halgorithm, hkey, hgap, hspace, hcomment⟩ := h
  have hne : strings ≠ [] := by
    rintro rfl
    cases hkey.name
  have hblob : encode strings ≠ [] := by
    obtain ⟨s, strings, rfl⟩ := List.exists_cons_of_ne_nil hne
    rw [encode_cons]
    exact List.cons_ne_nil _ _
  have hbody : Base64.encode (encode strings) ≠ [] := by
    obtain ⟨digits, padding, heq, -, -, hdigits⟩ := Base64.encode_split (encode strings)
    rw [heq]
    exact List.append_ne_nil_of_left_ne_nil (hdigits hblob) _
  have hnone : ¬trim text = [] := by
    rw [hraw]
    exact List.append_ne_nil_of_left_ne_nil (isAlgorithm_ne_nil halgorithm) _
  have hhead : (((Base64.encode (encode strings) ++ comment).head?.map isJsSpace).getD false) = false := by
    obtain ⟨c, cs, hc⟩ := List.exists_cons_of_ne_nil hbody
    have hplain := not_space_encode (encode strings)
    rw [hc] at hplain ⊢
    exact hplain c List.mem_cons_self
  obtain ⟨more, hmore⟩ := TextLines.fields_head (not_space_encode (encode strings)) hcomment
  have hfields : split (trim text) = algorithm :: Base64.encode (encode strings) :: more := by
    rw [hraw, split, TextLines.fields_gap (fun c hc => (plain_algorithm halgorithm c hc).1) hspace hgap hhead,
      hmore]
  have hdecode : decodeBody (Base64.encode (encode strings)) = some (encode strings) :=
    decodeBody_eq_some_iff.mpr ⟨rfl, hblob⟩
  have hread : readStrings (encode strings) = some (strings.map Str.bytes) :=
    readStrings_eq_some_iff.mpr ⟨strings, rfl, rfl, by simpa using hne⟩
  have hbreak : ¬(trim text).any (fun c => c = '\r' || c = '\n') = true := by
    simpa [not_or] using hline
  refine ⟨algorithm, encode strings, [' '].intercalate more, ?_⟩
  rw [parsePublicKey]
  dsimp only
  rw [if_neg hnone, if_neg (by rw [hheader]; exact Bool.false_ne_true), if_neg hbreak, hfields]
  change (if (!isAlgorithm algorithm) = true then _ else if Base64.encode (encode strings) = [] then _ else
    match decodeBody (Base64.encode (encode strings)) with
    | none => _
    | some blob => _) = _
  rw [if_neg (by rw [halgorithm]; decide), if_neg hbody, hdecode]
  dsimp only
  rw [hread]
  exact (checkFields_ok_iff halgorithm hne).mpr hkey

/-- A text is accepted exactly when it is a key line without the header of a private key. -/
theorem parsePublicKey_exact (text : Text) :
    (∃ algorithm blob comment, parsePublicKey text = .ok algorithm blob comment) ↔
      IsKeyLine text ∧ hasPrivateHeader false (trim text) = false :=
  ⟨fun ⟨_, _, _, h⟩ => isKeyLine_of_ok h, fun h => ok_of_isKeyLine h.1 h.2⟩

/-- What is accepted, read and ended: a text is a public key exactly when it is a key line without the header
of a private key; strings are read back from their encoding; and the loop ends on every blob. -/
theorem keys_read_exactly :
    (∀ text, (∃ algorithm blob comment, parsePublicKey text = .ok algorithm blob comment) ↔
      IsKeyLine text ∧ hasPrivateHeader false (trim text) = false) ∧
    (∀ (s : Str) (strings : List Str),
      readStrings (encode (s :: strings)) = some ((s :: strings).map Str.bytes)) ∧
    ∀ blob, ∃ result, ∀ turns, blob.length < turns → readStringsFrom turns blob [] = some result := by
  refine ⟨parsePublicKey_exact, fun s strings => ?_, readStringsFrom_ends⟩
  exact readStrings_eq_some_iff.mpr ⟨s :: strings, rfl, rfl, List.cons_ne_nil _ _⟩

/-! ## A comment that is refused -/

/-- The strings of a key of zeros. -/
def zeroKey : List Str :=
  [⟨"ssh-ed25519".toList.map Utf8.code, by decide⟩, ⟨List.replicate 32 0, by decide⟩]

/-- A public key whose comment is the header of a private key. -/
def headerComment : Text :=
  "ssh-ed25519".toList ++ ([' '] ++ (Base64.encode (encode zeroKey) ++ " BEGIN PRIVATE KEY".toList))

theorem trim_headerComment : trim headerComment = headerComment := by
  have hlast : headerComment.getLast? = some 'Y' := by decide
  apply AuthorizedKeys.trim_eq_self
  · intro c hc
    obtain rfl : 's' = c := Option.some.inj hc
    decide
  · intro c hc
    rw [hlast] at hc
    obtain rfl := Option.some.inj hc
    decide

theorem isKeyLine_headerComment : IsKeyLine headerComment := by
  rw [IsKeyLine, trim_headerComment]
  refine ⟨by decide, "ssh-ed25519".toList, [' '], " BEGIN PRIVATE KEY".toList, zeroKey, rfl, by decide,
    ⟨rfl, rfl, fun _ => rfl⟩, by decide, by decide, fun c hc => ?_⟩
  obtain rfl : ' ' = c := Option.some.inj hc
  decide

/-- The key line is refused. -/
theorem headerComment_refused : ¬ ∀ text,
    (∃ algorithm blob comment, parsePublicKey text = .ok algorithm blob comment) ↔ IsKeyLine text := by
  intro h
  obtain ⟨algorithm, blob, comment, hok⟩ := (h headerComment).mpr isKeyLine_headerComment
  have hheader := (isKeyLine_of_ok hok).2
  rw [trim_headerComment] at hheader
  exact absurd hheader (by decide +kernel)

end Vops.PublicKey
