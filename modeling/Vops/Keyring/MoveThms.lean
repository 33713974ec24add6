import Vops.Keyring.ProfileStore
import Vops.Lib.JsonCode

/-!
# Secrets that are moved are not lost

* `secretsOf` — what the store reads, given the passphrase; `SecretName`, `Stored` — a secret in it.
* `parseVault_serializeVault`, `SealedAs` — a vault that was written whole, and what is read of it.
* `secrets_kept` — at every moment of a move or of a change, where no write of the vault is torn.
* `unarySealer`, `legacyProfile` — a profile with a legacy pair; `secrets_torn` — its migration is cut off.
-/

namespace Vops.Keyring.ProfileStore

open Async (AllOps Safe Keeps Steps)
open JsonCode (unary unary_injective colon_not_mem_unary textCode valueText valueOf valueOf_valueText)

variable {Master Key : Type} {c : Crypto Master Key} {e : Sealer c} {passphrase : String}

/-! ## Secrets -/

/-- What the store reads, given the passphrase. -/
def secretsOf (c : Crypto Master Key) (passphrase : String) (s : Profile Key) : Except UnlockError Json :=
  if Keyring.vaultExists s.vault then do
    let header ← Keyring.readHeader c s.vault
    let key ← vaultKeyFrom c passphrase header
    Keyring.readWith c s.vault key
  else
    match s.enc with
    | none => .ok (.obj [])
    | some payload => openLegacy c payload s.keyFile

/-- `getToken`, `getCredentials`, `getEnv` and `getPlanSecrets` -/
inductive SecretName
  | token (provider : String)
  | credential (provider name : String)
  | env (name : String)
  | planSecret (planId name : String)

/-- Where the store keeps it. -/
def SecretName.path : SecretName → List String
  | token provider => ["tokens", provider]
  | credential provider name => ["credentials", provider, name]
  | env name => ["env", name]
  | planSecret planId name => ["planSecrets", planId, name]

/-- The value at a path. -/
def at? : Json → List String → Option Json
  | v, [] => some v
  | v, key :: path => (v.get? key).bind fun v => at? v path

/-- The secret is stored with that text. -/
def Stored (v : Json) (name : SecretName) (text : String) : Prop := at? v name.path = some (.str text)

theorem get?_nil (key : String) : (Json.obj []).get? key = none := rfl

theorem get?_cons (name key : String) (v : Json) (fields : List (String × Json)) :
    (Json.obj ((name, v) :: fields)).get? key =
      if name = key then some v else (Json.obj fields).get? key := by
  by_cases h : name = key <;> simp [Json.get?, h]

theorem get?_reparseFields (fields : List (String × Json)) (key : String) :
    (Json.obj (Json.reparseFields fields)).get? key = ((Json.obj fields).get? key).map Json.reparse := by
  induction fields with
  | nil => rfl
  | cons f fields ih =>
      obtain ⟨name, v⟩ := f
      rw [Json.reparseFields, get?_cons, get?_cons, ih]
      split <;> rfl

theorem get?_reparse (v : Json) (key : String) :
    v.reparse.get? key = (v.get? key).map Json.reparse := by
  cases v with
  | obj fields =>
      rw [Json.reparse]
      exact get?_reparseFields fields key
  | num n =>
      rw [Json.reparse]
      cases n.toJson <;> rfl
  | arr xs =>
      rw [Json.reparse]
      rfl
  | null | bool | str =>
      rw [Json.reparse] <;> first | rfl | simp

theorem at?_reparse (v : Json) (path : List String) :
    at? v.reparse path = (at? v path).map Json.reparse := by
  induction path generalizing v with
  | nil => rfl
  | cons key path ih =>
      rw [at?, at?, get?_reparse]
      cases v.get? key with
      | none => rfl
      | some v => exact ih v

theorem Stored.reparse {v : Json} {name : SecretName} {text : String} (h : Stored v name text) :
    Stored v.reparse name text := by
  unfold Stored at h ⊢
  rw [at?_reparse, h, Option.map_some, Json.reparse] <;> simp

/-- No text is made by writing and reading. -/
theorem Stored.of_reparse {v : Json} {name : SecretName} {text : String}
    (h : Stored v.reparse name text) : Stored v name text := by
  unfold Stored at h ⊢
  rw [at?_reparse] at h
  obtain ⟨w, hw, htext⟩ := Option.map_eq_some_iff.mp h
  rw [hw]
  cases w with
  | str t =>
      rw [Json.reparse] at htext
      · exact congrArg some htext
      all_goals simp
  | num n =>
      rw [Json.reparse] at htext
      cases hn : n.toJson <;> rw [hn] at htext <;> cases htext
  | arr xs =>
      rw [Json.reparse] at htext
      cases htext
  | obj fields =>
      rw [Json.reparse] at htext
      cases htext
  | null | bool =>
      rw [Json.reparse] at htext
      · cases htext
      all_goals simp

theorem get?_of_not_any {fields : List (String × Json)} {key : String}
    (h : (fields.any fun f => f.1 == key) = false) : (Json.obj fields).get? key = none := by
  simpa [Json.get?] using h

theorem get?_append (fields more : List (String × Json)) (key : String) :
    (Json.obj (fields ++ more)).get? key = ((Json.obj fields).get? key).or ((Json.obj more).get? key) := by
  induction fields with
  | nil => rfl
  | cons f fields ih =>
      obtain ⟨name, v⟩ := f
      rw [List.cons_append, get?_cons, get?_cons, ih]
      split <;> rfl

theorem get?_replace (fields : List (String × Json)) (key other : String) (value : Json) :
    (Json.obj (fields.map fun f => if f.1 = key then (key, value) else f)).get? other =
      ((Json.obj fields).get? other).map fun v => if other = key then value else v := by
  induction fields with
  | nil => rfl
  | cons f fields ih =>
      obtain ⟨name, v⟩ := f
      rw [List.map_cons, get?_cons]
      by_cases hname : name = key
      · rw [if_pos hname, get?_cons, ih, hname]
        by_cases hother : key = other
        · rw [if_pos hother, if_pos hother, Option.map_some, if_pos hother.symm]
        · rw [if_neg hother, if_neg hother]
      · rw [if_neg hname, get?_cons, ih]
        by_cases hother : name = other
        · rw [if_pos hother, if_pos hother, Option.map_some, if_neg (hother ▸ hname)]
        · rw [if_neg hother, if_neg hother]

/-- A field that is set is there, and the others are as before. -/
theorem get?_setField (fields : List (String × Json)) (key other : String) (value : Json) :
    (Json.obj (setField fields key value)).get? other =
      if other = key then some value else (Json.obj fields).get? other := by
  unfold setField
  cases hany : fields.any fun f => f.1 == key with
  | true =>
      rw [if_pos rfl, get?_replace]
      by_cases hother : other = key
      · subst hother
        obtain ⟨f, hf, hkey⟩ := List.any_eq_true.mp hany
        have hsome : ((Json.obj fields).get? other).isSome := by
          simp only [Json.get?, Option.isSome_map, List.find?_isSome]
          exact ⟨f, hf, hkey⟩
        obtain ⟨v, hv⟩ := Option.isSome_iff_exists.mp hsome
        simp [hv]
      · simp [hother]
  | false =>
      rw [if_neg (by simp), get?_append, get?_cons, get?_nil]
      by_cases hother : other = key
      · subst hother
        simp [get?_of_not_any hany]
      · simp [hother, Ne.symm hother]

/-- A variable that is not set keeps its value. -/
theorem get?_foldl_setField (entries : List (String × String)) {name : String}
    (hname : name ∉ entries.map Prod.fst) (fields : List (String × Json)) :
    (Json.obj (entries.foldl (fun fields f => setField fields f.1 (.str f.2)) fields)).get? name =
      (Json.obj fields).get? name := by
  induction entries generalizing fields with
  | nil => rfl
  | cons f entries ih =>
      obtain ⟨hf, hentries⟩ := not_or.mp (List.mem_cons.not.mp hname)
      rw [List.foldl_cons, ih hentries, get?_setField, if_neg hf]

/-- What is adopted from the environment replaces nothing but variables of that name. -/
theorem Stored.mergeEnv {fields : List (String × Json)} {name : SecretName} {text : String}
    (h : Stored (.obj fields) name text) (entries : List (String × String)) :
    Stored (.obj (mergeEnv entries fields)) name text ∨ ∃ n ∈ entries.map Prod.fst, name = .env n := by
  have hother {key : String} {path : List String} (hkey : key ≠ "env")
      (h : at? (.obj fields) (key :: path) = some (.str text)) :
      at? (.obj (ProfileStore.mergeEnv entries fields)) (key :: path) = some (.str text) := by
    rw [at?] at h ⊢
    rw [ProfileStore.mergeEnv, get?_setField, if_neg hkey]
    exact h
  cases name with
  | token | credential | planSecret => exact .inl (hother (by decide) h)
  | env n =>
      by_cases hn : n ∈ entries.map Prod.fst
      · exact .inr ⟨n, hn, rfl⟩
      · left
        unfold Stored SecretName.path at h ⊢
        rw [at?] at h ⊢
        rw [ProfileStore.mergeEnv, get?_setField, if_pos rfl]
        cases henv : (Json.obj fields).get? "env" with
        | none =>
            rw [henv] at h
            cases h
        | some env =>
            rw [henv] at h
            cases env with
            | obj inner =>
                rw [Option.bind_some, at?] at h ⊢
                rw [get?_foldl_setField _ hn]
                exact h
            | null | bool | num | str | arr => cases h

/-! ## A vault that is written whole -/

/-- A header as `parseVault` accepts it. -/
structure ValidHeader (header : VaultHeader) : Prop where
  version : header.v = 1
  salt : isSalt header.salt = true
  cost : 0 < header.kdf.N ∧ 0 < header.kdf.r ∧ 0 < header.kdf.p

theorem positiveInt_nat {n : ℕ} (h : 0 < n) : positiveInt (some (.num (.fin n))) = some n := by
  have hq : ((n : ℚ)).isInt ∧ 0 < (n : ℚ) := ⟨by simp [Rat.isInt], by exact_mod_cast h⟩
  simp only [positiveInt, if_pos hq]
  simp

theorem pos_of_positiveInt {v : Option Json} {n : ℕ} (h : positiveInt v = some n) : 0 < n := by
  unfold positiveInt at h
  split at h
  · split at h
    · next q hq =>
        cases h
        have hnum : 0 < q.num := Rat.num_pos.mpr hq.2
        omega
    · cases h
  · cases h

theorem parseVault_serializeVault {header : VaultHeader} {data : String} (h : ValidHeader header)
    (hdata : data ≠ "") : parseVault c (serializeVault header data) = .ok ⟨header, data⟩ := by
  obtain ⟨v, ⟨N, r, p⟩, salt, user⟩ := header
  obtain ⟨hv, hsalt, hN, hr, hp⟩ := h
  dsimp only at hv hsalt hN hr hp
  subst hv
  have hkdf : parseKdf c (some (.obj [("algo", .str "scrypt"), ("N", .num (.fin N)), ("r", .num (.fin r)),
      ("p", .num (.fin p))])) = .ok ⟨N, r, p⟩ := by
    have hN := positiveInt_nat hN
    have hr := positiveInt_nat hr
    have hp := positiveInt_nat hp
    simp [parseKdf, Json.get?, Json.str?, hN, hr, hp]
  cases user <;>
    simp [parseVault, serializeVault, Json.get?, Json.num?, hsalt, hdata, hkdf] <;> rfl

theorem pos_of_parseKdf {v : Option Json} {kdf : KdfParams} (h : parseKdf c v = .ok kdf) :
    0 < kdf.N ∧ 0 < kdf.r ∧ 0 < kdf.p := by
  unfold parseKdf at h
  split at h
  · dsimp only at h
    split at h
    · cases h
    · split at h
      · next hN hr hp =>
          cases h
          exact ⟨pos_of_positiveInt hN, pos_of_positiveInt hr, pos_of_positiveInt hp⟩
      · cases h
  · cases h
    decide

theorem ValidHeader.of_parse {parsed : Json} {file : VaultFile} (h : parseVault c parsed = .ok file) :
    ValidHeader file.toVaultHeader := by
  have hparsed {salt data : String} {user : Option String} (hsalt : isSalt salt = true)
      (h : (do
        let kdf ← parseKdf c (parsed.get? "kdf")
        pure (⟨⟨1, kdf, salt, user⟩, data⟩ : VaultFile)) = .ok file) : ValidHeader file.toVaultHeader := by
    obtain ⟨kdf, hkdf, h⟩ := Async.except_bind_eq_ok.mp h
    cases h
    exact ⟨rfl, hsalt, pos_of_parseKdf hkdf⟩
  unfold parseVault at h
  split at h
  · split at h
    · cases h
    · split at h
      · next salt _ =>
          split at h
          · cases h
          · next hsalt =>
              have hsalt : isSalt salt = true := by simpa using hsalt
              split at h
              · split at h
                · cases h
                · split at h
                  · exact hparsed hsalt h
                  · exact hparsed hsalt h
                  · exact hparsed hsalt h
                  · cases h
              · cases h
      · cases h
  · cases h

theorem ValidHeader.of_read {file : DiskFile} {header : VaultHeader}
    (h : Keyring.readHeader c file = .ok header) : ValidHeader header := by
  unfold Keyring.readHeader at h
  split at h
  · obtain ⟨parsed, hparsed, h⟩ := Async.except_bind_eq_ok.mp h
    cases h
    cases file with
    | missing => cases hparsed
    | malformed => cases hparsed
    | json v => exact .of_parse hparsed
  · cases h

theorem validHeader_new {salt : String} (h : isSalt salt = true) : ValidHeader (newHeader salt) :=
  ⟨rfl, h, by simp [newHeader, DEFAULT_KDF]⟩

/-- The vault was written whole, under the key of the passphrase. -/
def SealedAs (e : Sealer c) (passphrase : String) (s : Profile Key) (secrets : List (String × Json)) : Prop :=
  ∃ header key iv, ValidHeader header ∧ vaultKeyFrom c passphrase header = .ok key ∧
    s.vault = .json (serializeVault header (e.encrypt (.obj secrets) key iv))

section Sealed

variable {s : Profile Key} {secrets : List (String × Json)} {header : VaultHeader} {key : Key} {iv : String}

theorem readHeader_sealed (hheader : ValidHeader header) :
    Keyring.readHeader c (.json (serializeVault header (e.encrypt (.obj secrets) key iv))) = .ok header := by
  simp only [Keyring.readHeader, Keyring.vaultExists, readFile,
    parseVault_serializeVault hheader (e.nonempty _ _ _), if_true]
  rfl

theorem readWith_sealed (hheader : ValidHeader header) :
    Keyring.readWith c (.json (serializeVault header (e.encrypt (.obj secrets) key iv))) key =
      .ok (.obj (Json.reparseFields secrets)) := by
  have hopens := e.opens (.obj secrets) key iv
  rw [Json.reparse] at hopens
  simp only [Keyring.readWith, readFile, parseVault_serializeVault hheader (e.nonempty _ _ _)]
  change (decryptPayload c (e.encrypt (.obj secrets) key iv) key >>= _) = _
  rw [hopens]
  rfl

/-- What was written is read. -/
theorem SealedAs.secretsOf (h : SealedAs e passphrase s secrets) :
    secretsOf c passphrase s = .ok (.obj (Json.reparseFields secrets)) := by
  obtain ⟨header, key, iv, hheader, hkey, hvault⟩ := h
  unfold ProfileStore.secretsOf
  rw [hvault, if_pos (show Keyring.vaultExists (.json _) = true from rfl), readHeader_sealed hheader]
  change (vaultKeyFrom c passphrase header >>= _) = _
  rw [hkey]
  exact readWith_sealed hheader

end Sealed

/-! ## Runs -/

section Runs

variable {α : Type} {torn : Prop} {I : Profile Key → Prop} {Q : Except UnlockError α → Profile Key → Prop}
  {s : Profile Key}

/-- A read that may fail. -/
theorem safe_lift {β : Type} {x : Except String β} {f : β → StoreProg Key α} (hI : I s)
    (hQ : ∀ err, Q (.error err) s) (hf : ∀ b, x = .ok b → Safe (surroundings torn) I Q (f b) s) :
    Safe (surroundings torn) I Q (lift x >>= f) s := by
  cases x with
  | ok b => exact hf b rfl
  | error err => exact Safe.of_done hI (hQ _)

theorem safe_attempt {β : Type} {x : Except UnlockError β} {f : β → StoreProg Key α} (hI : I s)
    (hQ : ∀ err, Q (.error err) s) (hf : ∀ b, x = .ok b → Safe (surroundings torn) I Q (f b) s) :
    Safe (surroundings torn) I Q (attempt x >>= f) s := by
  cases x with
  | ok b => exact hf b rfl
  | error err => exact Safe.of_done hI (hQ err)

theorem safe_require {condition : Bool} {message : String} {f : Unit → StoreProg Key α} (hI : I s)
    (hQ : ∀ err, Q (.error err) s) (hf : condition = true → Safe (surroundings torn) I Q (f ()) s) :
    Safe (surroundings torn) I Q (require condition message >>= f) s := by
  unfold require
  cases condition with
  | true => exact hf rfl
  | false => exact Safe.of_done hI (hQ _)

theorem safe_readHeader {f : VaultHeader → StoreProg Key α} (hI : I s) (hQ : ∀ err, Q (.error err) s)
    (hf : ∀ header, Keyring.readHeader c s.vault = .ok header →
      Safe (surroundings torn) I Q (f header) s) :
    Safe (surroundings torn) I Q (readHeader (c := c) >>= f) s := by
  unfold readHeader
  simp only [bind_assoc]
  refine Safe.perform hI fun present s' hx => ?_
  obtain ⟨-, rfl⟩ := hx
  refine safe_require hI hQ fun _ => Safe.perform hI fun file s' hx => ?_
  obtain ⟨hfile, rfl⟩ := hx
  refine safe_lift hI hQ fun file' hok => safe_attempt hI hQ fun header hheader => hf header ?_
  rw [← hfile file' hok]
  exact hheader

theorem safe_readWith {key : Key} {f : Json → StoreProg Key α} (hI : I s) (hQ : ∀ err, Q (.error err) s)
    (hf : ∀ secrets, Keyring.readWith c s.vault key = .ok (.obj secrets) →
      Safe (surroundings torn) I Q (f (.obj secrets)) s) :
    Safe (surroundings torn) I Q (readWith (c := c) key >>= f) s := by
  unfold readWith
  simp only [bind_assoc]
  refine Safe.perform hI fun file s' hx => ?_
  obtain ⟨hfile, rfl⟩ := hx
  refine safe_lift hI hQ fun file' hok => safe_attempt hI hQ fun v hv => ?_
  rw [hfile file' hok] at hv
  obtain ⟨secrets, rfl⟩ : ∃ secrets, v = .obj secrets := by
    obtain ⟨parsed, -, h⟩ := Async.except_bind_eq_ok.mp hv
    obtain ⟨plain, -, h⟩ := Async.except_bind_eq_ok.mp h
    split at h
    · cases h
    · cases h
      exact ⟨_, rfl⟩
    · cases h
  exact hf secrets hv

theorem safe_requireVaultKey {f : Key → StoreProg Key α} (hI : I s) (hQ : ∀ err, Q (.error err) s)
    (hf : ∀ key, s.held = some key → Safe (surroundings torn) I Q (f key) s) :
    Safe (surroundings torn) I Q (requireVaultKey >>= f) s := by
  unfold requireVaultKey
  simp only [bind_assoc]
  refine Safe.perform hI fun held s' hx => ?_
  obtain ⟨hheld, rfl⟩ := hx
  cases held with
  | none => exact Safe.of_done hI (hQ _)
  | some key => exact hf key hheld.symm

/-- The rule for a vault that is written, where no write is torn: the old one is there or the new one. -/
theorem safe_writeVault {secrets : Json} {key : Key} {header : VaultHeader} {f : Unit → StoreProg Key α}
    (hI : I s) (hQ : ∀ err, Q (.error err) s)
    (hdone : ∀ iv s', s' = { s with vault := .json (serializeVault header (e.encrypt secrets key iv)) } →
      I s' ∧ (∀ err, Q (.error err) s') ∧ Safe (surroundings False) I Q (f ()) s') :
    Safe (surroundings False) I Q (writeVault e secrets key header >>= f) s := by
  unfold writeVault
  simp only [bind_assoc]
  refine Safe.perform hI fun made s' hx => ?_
  obtain rfl : s' = s := hx
  refine safe_lift hI hQ fun _ _ => Safe.perform hI fun iv s'' hx => ?_
  obtain rfl : s'' = s' := hx
  refine Safe.perform hI fun x s' hx => ?_
  rcases hx with ⟨rfl, hs⟩ | ⟨⟨err, rfl⟩, rfl | hs | ⟨htorn, -⟩⟩
  · exact (hdone iv s' hs).2.2
  · exact Safe.of_done hI (hQ _)
  · obtain ⟨hI', hQ', -⟩ := hdone iv s' hs
    exact Safe.of_done hI' (hQ' _)
  · exact htorn.elim

end Runs

/-! ## Changes -/

/-- The key that the process holds is the one of the passphrase. -/
def HeldIs (c : Crypto Master Key) (passphrase : String) (s : Profile Key) : Prop :=
  ∀ key, s.held = some key → ∀ header, Keyring.readHeader c s.vault = .ok header →
    vaultKeyFrom c passphrase header = .ok key

/-- The profile is as it was, or its secrets were changed. -/
def Changed (e : Sealer c) (passphrase : String) (change : List (String × Json) → List (String × Json))
    (s s' : Profile Key) : Prop :=
  s' = s ∨ ∃ secrets, secretsOf c passphrase s = .ok (.obj secrets) ∧
    SealedAs e passphrase s' (change secrets)

theorem keeps_update {s : Profile Key} {change : List (String × Json) → List (String × Json)}
    (hsealed : Keyring.vaultExists s.vault = true) (hheld : HeldIs c passphrase s) :
    Keeps (surroundings False) (Changed e passphrase change s) (update e change) s := by
  have hI : Changed e passphrase change s s := .inl rfl
  have hQ : ∀ err : UnlockError, True := fun _ => trivial
  unfold update readSecrets
  simp only [bind_assoc]
  refine Safe.perform hI fun isSealed s' hx => ?_
  obtain ⟨hpresent, rfl⟩ := hx
  rw [hsealed] at hpresent
  subst hpresent
  rw [if_pos rfl]
  simp only [bind_assoc]
  refine safe_requireVaultKey hI hQ fun key hkey => safe_readWith hI hQ fun secrets hread => ?_
  dsimp only
  unfold writeSecrets
  refine Safe.perform hI fun isSealed s'' hx => ?_
  obtain ⟨hpresent, rfl⟩ := hx
  rw [hsealed] at hpresent
  subst hpresent
  rw [if_pos rfl]
  refine safe_requireVaultKey hI hQ fun key' hkey' => ?_
  obtain rfl : key = key' := Option.some.inj (hkey.symm.trans hkey')
  refine safe_readHeader hI hQ fun header hheader => ?_
  have hderived := hheld key hkey header hheader
  have hsecrets : secretsOf c passphrase s'' = .ok (.obj secrets) := by
    unfold secretsOf
    rw [if_pos hsealed, hheader]
    change (vaultKeyFrom c passphrase header >>= _) = _
    rw [hderived]
    exact hread
  rw [← bind_pure (writeVault e _ _ _)]
  refine safe_writeVault hI hQ fun iv s₁ hs => ?_
  have hchanged : Changed e passphrase change s'' s₁ :=
    .inr ⟨secrets, hsecrets, header, key, iv, .of_read hheader, hderived, by rw [hs]⟩
  exact ⟨hchanged, hQ, Safe.of_done hchanged trivial⟩

/-! ## The initialisation -/

/-- The secrets of a profile without a vault were moved into one, and what was adopted was added. -/
def Moved (e : Sealer c) (passphrase : String) (adopted : List (String × String)) (s s' : Profile Key) :
    Prop :=
  s' = s ∨ s.vault = .missing ∧ ∃ secrets, secretsOf c passphrase s = .ok (.obj secrets) ∧
    (SealedAs e passphrase s' secrets ∨
      SealedAs e passphrase s' (mergeEnv adopted (Json.reparseFields secrets)))

/-- What `migrateLegacy` and `createVault` leave where they succeed: a vault with the secrets, and its key. -/
def MovedWith (e : Sealer c) (passphrase : String) (s : Profile Key) (key : Key) (s' : Profile Key) : Prop :=
  ∃ secrets header iv, secretsOf c passphrase s = .ok (.obj secrets) ∧ ValidHeader header ∧
    vaultKeyFrom c passphrase header = .ok key ∧
    s'.vault = .json (serializeVault header (e.encrypt (.obj secrets) key iv))

section Init

variable {s : Profile Key} {adopted : List (String × String)}

theorem MovedWith.moved {s' : Profile Key} {key : Key} (hvault : s.vault = .missing)
    (h : MovedWith e passphrase s key s') : Moved e passphrase adopted s s' := by
  obtain ⟨secrets, header, iv, hsecrets, hheader, hkey, hs⟩ := h
  exact .inr ⟨hvault, secrets, hsecrets, .inl ⟨header, key, iv, hheader, hkey, hs⟩⟩

theorem safe_readLegacy {α : Type} {torn : Prop} {I : Profile Key → Prop}
    {Q : Except UnlockError α → Profile Key → Prop} {f : Json → StoreProg Key α}
    (hvault : s.vault = .missing) (hI : I s) (hQ : ∀ err, Q (.error err) s)
    (hf : ∀ v, secretsOf c passphrase s = .ok v → Safe (surroundings torn) I Q (f v) s) :
    Safe (surroundings torn) I Q (readLegacy (c := c) >>= f) s := by
  have hsecrets : secretsOf c passphrase s =
      match s.enc with
      | none => .ok (.obj [])
      | some payload => openLegacy c payload s.keyFile := by
    unfold secretsOf
    rw [hvault]
    exact if_neg Bool.false_ne_true
  unfold readLegacy
  simp only [bind_assoc]
  refine Safe.perform hI fun present s' hx => ?_
  obtain ⟨hpresent, rfl⟩ := hx
  cases henc : s'.enc with
  | none =>
      rw [henc] at hpresent hsecrets
      subst hpresent
      exact hf _ hsecrets
  | some payload =>
      rw [henc] at hpresent hsecrets
      subst hpresent
      rw [Option.isSome_some, if_pos rfl]
      simp only [bind_assoc]
      refine Safe.perform hI fun keyPresent s'' hx => ?_
      obtain ⟨-, rfl⟩ := hx
      refine safe_require hI hQ fun _ => Safe.perform hI fun keyFile s' hx => ?_
      obtain ⟨hkeyFile, rfl⟩ := hx
      refine safe_lift hI hQ fun keyFile' hok => Safe.perform hI fun text s'' hx => ?_
      obtain ⟨htext, rfl⟩ := hx
      refine safe_lift hI hQ fun text' hok' => safe_attempt hI hQ fun v hv => hf v ?_
      rw [hsecrets, ← (hkeyFile keyFile' hok).1, ← Option.some.inj (henc.symm.trans (htext text' hok')).symm]
      exact hv

theorem safe_migrateLegacy (hvault : s.vault = .missing)
    (hobject : ∀ v, secretsOf c passphrase s = .ok v → ∃ secrets, v = .obj secrets) :
    Safe (surroundings False) (Moved e passphrase adopted s)
      (fun r s' => ∀ key, r = .ok key → MovedWith e passphrase s key s') (migrateLegacy e passphrase) s := by
  have hI : Moved e passphrase adopted s s := .inl rfl
  unfold migrateLegacy
  refine safe_readLegacy hvault hI (fun _ _ h => nomatch h)
    fun v (hv : secretsOf c passphrase s = .ok v) => ?_
  obtain ⟨secrets, rfl⟩ := hobject v hv
  refine Safe.perform hI fun salt s' hx => ?_
  obtain ⟨hsalt, rfl⟩ := hx
  refine safe_attempt hI (fun _ _ h => nomatch h) fun key hkey => ?_
  refine safe_writeVault hI (fun _ _ h => nomatch h) fun iv s₁ hs => ?_
  have hmoved : MovedWith e passphrase s' key s₁ :=
    ⟨secrets, newHeader salt, iv, hv, validHeader_new hsalt, hkey, by rw [hs]⟩
  have hI' : Moved e passphrase adopted s' s₁ := hmoved.moved hvault
  refine ⟨hI', (fun _ _ h => nomatch h), ?_⟩
  refine safe_readWith hI' (fun _ _ h => nomatch h) fun verified _ => ?_
  refine safe_require hI' (fun _ _ h => nomatch h) fun _ => Safe.of_done hI' fun key' heq => ?_
  cases heq
  exact hmoved

theorem safe_createVault (hvault : s.vault = .missing) (henc : s.enc = none) :
    Safe (surroundings False) (Moved e passphrase adopted s)
      (fun r s' => ∀ key, r = .ok key → MovedWith e passphrase s key s') (createVault e passphrase) s := by
  have hI : Moved e passphrase adopted s s := .inl rfl
  have hsecrets : secretsOf c passphrase s = .ok (.obj []) := by
    unfold secretsOf
    rw [hvault, henc]
    exact if_neg Bool.false_ne_true
  unfold createVault
  refine Safe.perform hI fun present s' hx => ?_
  obtain ⟨-, rfl⟩ := hx
  refine safe_require hI (fun _ _ h => nomatch h) fun _ => Safe.perform hI fun salt s'' hx => ?_
  obtain ⟨hsalt, rfl⟩ := hx
  refine safe_attempt hI (fun _ _ h => nomatch h) fun key hkey => ?_
  refine safe_writeVault hI (fun _ _ h => nomatch h) fun iv s₁ hs => ?_
  have hmoved : MovedWith e passphrase s'' key s₁ :=
    ⟨[], newHeader salt, iv, hsecrets, validHeader_new hsalt, hkey, by rw [hs]⟩
  refine ⟨hmoved.moved hvault, (fun _ _ h => nomatch h), Safe.of_done (hmoved.moved hvault) fun key' heq => ?_⟩
  cases heq
  exact hmoved

theorem keeps_init
    (hobject : ∀ v, secretsOf c passphrase s = .ok v → ∃ secrets, v = .obj secrets) :
    Keeps (surroundings False) (Moved e passphrase adopted s) (init e passphrase adopted) s := by
  have hI : Moved e passphrase adopted s s := .inl rfl
  have hQ : ∀ err : UnlockError, True := fun _ => trivial
  unfold init
  refine Safe.perform hI fun present s' hx => ?_
  obtain ⟨hpresent, rfl⟩ := hx
  refine safe_require hI hQ fun hnot => ?_
  have hvault : s'.vault = .missing := by
    cases hv : s'.vault with
    | missing => rfl
    | malformed | json =>
        rw [hv] at hpresent
        subst hpresent
        cases hnot
  refine Safe.perform hI fun carried s'' hx => ?_
  obtain ⟨hcarried, rfl⟩ := hx
  have hstart : Safe (surroundings False) (Moved e passphrase adopted s'')
      (fun r s' => ∀ key, r = .ok key → MovedWith e passphrase s'' key s')
      (newVault e carried passphrase) s'' := by
    cases carried with
    | true => exact safe_migrateLegacy hvault hobject
    | false => exact safe_createVault hvault (by simpa using hcarried.symm)
  refine Keeps.seq hstart fun key s₁ _ hmoved => ?_
  refine Safe.perform (hmoved.moved hvault) fun _ s₂ hs => ?_
  have hs : s₂ = { s₁ with held := some key } := hs
  have hmoved' : MovedWith e passphrase s'' key s₂ := by
    rw [hs]
    exact hmoved
  cases adopted with
  | nil => exact Keeps.of_done (hmoved'.moved hvault)
  | cons entry entries =>
      obtain ⟨secrets, header, iv, hsecrets, hheader, hkey, hwritten⟩ := hmoved'
      have hheld : HeldIs c passphrase s₂ := by
        intro key' hkey' header' hheader'
        rw [hwritten, readHeader_sealed hheader] at hheader'
        cases hheader'
        rw [hs] at hkey'
        cases hkey'
        exact hkey
      refine Safe.weaken (keeps_update (by rw [hwritten]; rfl) hheld) fun s₃ hchanged => ?_
      rcases hchanged with rfl | ⟨secrets', hsecrets', hsealed⟩
      · exact .inr ⟨hvault, secrets, hsecrets, .inl ⟨header, key, iv, hheader, hkey, hwritten⟩⟩
      · have hread := SealedAs.secretsOf (e := e) (s := s₂) ⟨header, key, iv, hheader, hkey, hwritten⟩
        rw [hread] at hsecrets'
        cases hsecrets'
        exact .inr ⟨hvault, secrets, hsecrets, .inr hsealed⟩

end Init

/-! ## The legacy pair is dropped -/

theorem keeps_dropLegacyRun {s : Profile Key} :
    Keeps (surroundings False) (fun s' => s' = s ∨ Keyring.vaultExists s.vault = true ∧ s'.vault = s.vault)
      (dropLegacyRun (c := c)) s := by
  have hI : s = s ∨ Keyring.vaultExists s.vault = true ∧ s.vault = s.vault := .inl rfl
  have hQ : ∀ err : UnlockError, True := fun _ => trivial
  unfold dropLegacyRun
  refine Safe.perform hI fun isSealed s' hx => ?_
  obtain ⟨hsealed, rfl⟩ := hx
  refine safe_require hI hQ fun hsealed' => ?_
  rw [hsealed'] at hsealed
  refine Safe.perform hI fun present s'' hx => ?_
  obtain ⟨-, rfl⟩ := hx
  cases present with
  | false => exact Safe.of_done hI trivial
  | true =>
      rw [if_pos rfl]
      refine safe_requireVaultKey hI hQ fun key _ => ?_
      unfold dropLegacy
      refine safe_readWith hI hQ fun secrets _ => Safe.perform hI fun x s₁ hx => ?_
      have h₁ : s₁.vault = s''.vault := by
        rcases hx with ⟨-, rfl⟩ | ⟨-, rfl | rfl | ⟨-, hleft⟩⟩
        · rfl
        · rfl
        · rfl
        · exact hleft.elim
      refine safe_lift (.inr ⟨hsealed.symm, h₁⟩) hQ fun _ _ => ?_
      refine Safe.perform (.inr ⟨hsealed.symm, h₁⟩) fun x s₂ hx => ?_
      have h₂ : s₂.vault = s''.vault := by
        rcases hx with ⟨-, rfl⟩ | ⟨-, rfl | rfl | ⟨-, hleft⟩⟩
        · exact h₁
        · exact h₁
        · exact h₁
        · exact hleft.elim
      rw [← bind_pure (lift x)]
      exact safe_lift (.inr ⟨hsealed.symm, h₂⟩) hQ fun _ _ =>
        Safe.of_done (.inr ⟨hsealed.symm, h₂⟩) trivial

/-! ## Every run -/

/-- The initialisation never replaces a vault, leaves none that cannot be read, and loses no secret but a
variable of a name that is adopted. -/
structure InitKept (c : Crypto Master Key) (passphrase : String) (adopted : List (String × String))
    (s s' : Profile Key) : Prop where
  vault : Keyring.vaultExists s.vault = true → s'.vault = s.vault
  readable : s'.vault = s.vault ∨ (secretsOf c passphrase s').isOk
  secrets : ∀ v, secretsOf c passphrase s = .ok v → ∃ v', secretsOf c passphrase s' = .ok v' ∧
    ∀ name text, Stored v name text → Stored v' name text ∨ ∃ n ∈ adopted.map Prod.fst, name = .env n

/-- A vault was made of the secrets. -/
theorem InitKept.of_sealed {s s' : Profile Key} {adopted : List (String × String)}
    {secrets written : List (String × Json)} (hvault : s.vault = .missing)
    (hsecrets : secretsOf c passphrase s = .ok (.obj secrets)) (hsealed : SealedAs e passphrase s' written)
    (hkept : ∀ name text, Stored (.obj (Json.reparseFields secrets)) name text →
      Stored (.obj written) name text ∨ ∃ n ∈ adopted.map Prod.fst, name = .env n) :
    InitKept c passphrase adopted s s' where
  vault hexists := by
    rw [hvault] at hexists
    cases hexists
  readable := by
    rw [hsealed.secretsOf]
    exact .inr rfl
  secrets v hv := by
    refine ⟨_, hsealed.secretsOf, fun name text h => ?_⟩
    rw [hsecrets] at hv
    cases hv
    rw [← Json.reparse]
    refine (hkept name text ?_).imp_left Stored.reparse
    rw [← Json.reparse]
    exact h.reparse

theorem Moved.kept {s s' : Profile Key} {adopted : List (String × String)}
    (h : Moved e passphrase adopted s s') : InitKept c passphrase adopted s s' := by
  rcases h with rfl | ⟨hvault, secrets, hsecrets, hsealed | hsealed⟩
  · exact ⟨fun _ => rfl, .inl rfl, fun v hv => ⟨v, hv, fun _ _ h => .inl h⟩⟩
  · refine .of_sealed hvault hsecrets hsealed fun _ _ h => .inl ?_
    rw [← Json.reparse] at h
    exact h.of_reparse
  · exact .of_sealed hvault hsecrets hsealed fun _ _ h => h.mergeEnv adopted

/-- At every moment of an initialisation, of a change of a vault and of dropping the legacy pair, the secrets
of before can be read with the passphrase: where no write of the vault is torn, and what is moved is an
object. -/
theorem secrets_kept (c : Crypto Master Key) (e : Sealer c) (passphrase : String) (s : Profile Key) :
    (∀ adopted t p s', (∀ v, secretsOf c passphrase s = .ok v → ∃ secrets, v = .obj secrets) →
      Steps (surroundings False) (init e passphrase adopted) s t p s' →
        InitKept c passphrase adopted s s') ∧
    (∀ change t p s', Keyring.vaultExists s.vault = true → HeldIs c passphrase s →
      Steps (surroundings False) (update e change) s t p s' →
        s' = s ∨ ∃ secrets, secretsOf c passphrase s = .ok (.obj secrets) ∧
          secretsOf c passphrase s' = .ok (Json.obj (change secrets)).reparse) ∧
    ∀ t p s', Steps (surroundings False) (dropLegacyRun (c := c)) s t p s' →
      s'.vault = s.vault ∧ secretsOf c passphrase s' = secretsOf c passphrase s := by
  refine ⟨fun adopted t p s' hobject h => ?_, fun change t p s' hsealed hheld h => ?_, fun t p s' h => ?_⟩
  · exact ((keeps_init hobject).steps h).kept
  · have hkeeps : Keeps (surroundings False) (Changed e passphrase change s) (update e change) s :=
      keeps_update hsealed hheld
    rcases hkeeps.steps h with rfl | ⟨secrets, hs, hs'⟩
    · exact .inl rfl
    · exact .inr ⟨secrets, hs, by rw [Json.reparse]; exact hs'.secretsOf⟩
  · rcases keeps_dropLegacyRun.steps h with rfl | ⟨hsealed, hvault⟩
    · exact ⟨rfl, rfl⟩
    · refine ⟨hvault, ?_⟩
      unfold secretsOf
      rw [hvault, if_pos hsealed, if_pos hsealed]

/-! ## A write that is torn -/

/-- A payload is its value, as a text, and its key opens it. -/
noncomputable def unaryCrypto : Crypto String String where
  scrypt passphrase _ _ := passphrase
  hkdf master salt _ := master ++ salt
  decipher _ tag data key :=
    if tag.toList = unary (textCode key) then some (some (valueOf data.toList).reparse) else none
  toHex key := key
  ofHex hex := hex
  stringify _ := ""

/-- The sealer of `unaryCrypto`. -/
noncomputable def unarySealer : Sealer unaryCrypto where
  encrypt v key _ := String.ofList (['0'] ++ ':' :: (unary (textCode key) ++ ':' :: valueText v))
  nonempty v key iv h := by simpa using congrArg String.toList h
  opens v key iv := by
    have hsplit : (['0'] ++ ':' :: (unary (textCode key) ++ ':' :: valueText v)).splitOn ':' =
        [['0'], unary (textCode key), valueText v] := by
      rw [List.splitOn_append_cons_self_of_not_mem (by simp),
        List.splitOn_append_cons_self_of_not_mem (colon_not_mem_unary _),
        List.splitOn_eq_singleton (show ':' ∉ valueText v from colon_not_mem_unary _)]
    have hopen : unaryCrypto.decipher (String.ofList ['0']) (String.ofList (unary (textCode key)))
        (String.ofList (valueText v)) key = some (some v.reparse) := by
      simp [unaryCrypto, valueOf_valueText]
    unfold decryptPayload
    rw [String.toList_ofList, hsplit]
    simp only [hopen]
    simp [unary, valueText]

/-- One token. -/
def tokens : List (String × Json) := [("tokens", .obj [("hetzner", .str "secret")])]

/-- They are sealed under the key beside them. -/
@[irreducible] noncomputable def payload : String := unarySealer.encrypt (.obj tokens) "key" ""

theorem openLegacy_payload : openLegacy unaryCrypto payload (.key "key") = .ok (.obj tokens) := by
  have hopens := unarySealer.opens (.obj tokens) "key" ""
  unfold openLegacy payload
  change (decryptPayload unaryCrypto (unarySealer.encrypt (.obj tokens) "key" "") "key" >>= _) = _
  rw [hopens]
  simp [tokens, Json.reparse, Json.reparseFields]
  rfl

/-- A profile with a legacy pair. -/
noncomputable def legacyProfile : Profile String where
  vault := .missing
  enc := some payload
  keyFile := .key "key"
  held := none

theorem secretsOf_legacyProfile (passphrase : String) :
    secretsOf unaryCrypto passphrase legacyProfile = .ok (.obj tokens) :=
  openLegacy_payload

theorem steps_readLegacy (torn : Prop) :
    Steps (surroundings torn) (readLegacy (c := unaryCrypto)) legacyProfile
      [⟨.legacyExists, true⟩, ⟨.keyFileExists, true⟩, ⟨.readKeyFile, Except.ok (KeyFile.key "key")⟩,
        ⟨.readEnc, Except.ok payload⟩]
      (.done (.ok (.obj tokens))) legacyProfile := by
  refine .head ⟨rfl, rfl⟩ (.head ⟨by simp [legacyProfile], rfl⟩ (.head ⟨?_, rfl⟩ (.head ⟨?_, rfl⟩ ?_)))
  · rintro k ⟨⟩
    exact ⟨rfl, nofun⟩
  · intro text h
    rw [← Except.ok.inj h]
    rfl
  · change Steps _ (attempt (openLegacy unaryCrypto payload (.key "key"))) _ _ _ _
    rw [openLegacy_payload]
    exact .refl _ _

theorem steps_writeVault {torn : Prop} {key : String} {header : VaultHeader} {secrets : Json}
    {s s' : Profile String} {x : Except String Unit}
    (hx : surroundings torn
      (.writeVault (serializeVault header (unarySealer.encrypt secrets key ""))) s x s') :
    ∃ t p, Steps (surroundings torn) (writeVault unarySealer secrets key header) s t p s' :=
  ⟨_, _, .head (x := Except.ok ()) rfl (.head (x := "") rfl (.head hx (.refl _ _)))⟩

/-- The vault that the migration writes. -/
noncomputable def written : Json :=
  serializeVault (newHeader "0123456789abcdef")
    (unarySealer.encrypt (.obj tokens) "passphrase0123456789abcdef" "")

theorem steps_init {torn : Prop} {s' : Profile String} {x : Except String Unit}
    (hx : surroundings torn (.writeVault written) legacyProfile x s') :
    ∃ t p, Steps (surroundings torn) (init unarySealer "passphrase" []) legacyProfile t p s' := by
  obtain ⟨t, p, hwrite⟩ := steps_writeVault hx
  have hkey : vaultKeyFrom unaryCrypto "passphrase" (newHeader "0123456789abcdef") =
      .ok "passphrase0123456789abcdef" := rfl
  have hsalted : Steps (surroundings torn) (op .randomSalt) legacyProfile
      [⟨.randomSalt, "0123456789abcdef"⟩] (.done (.ok "0123456789abcdef")) legacyProfile :=
    .head ⟨by decide, rfl⟩ (.refl _ _)
  have hmigrate := (steps_readLegacy torn).bind (f := fun legacy => do
    let salt : String ← op .randomSalt
    let key ← attempt (vaultKeyFrom unaryCrypto "passphrase" (newHeader salt))
    writeVault unarySealer legacy key (newHeader salt)
    let verified ← readWith (c := unaryCrypto) key
    require (unaryCrypto.stringify (some verified) == unaryCrypto.stringify (some legacy))
      "Vault migration verification failed — the old store was left untouched."
    pure key) (hsalted.bind (hwrite.bind_left _))
  exact ⟨_, _, .head (x := false) ⟨rfl, rfl⟩ (.head (x := true) ⟨rfl, rfl⟩ (hmigrate.bind_left _))⟩

/-- The write of the vault was cut off. -/
noncomputable def tornProfile : Profile String := { legacyProfile with vault := .malformed }

/-- The migration is cut off in the write: the vault that is selected cannot be read. -/
theorem secrets_torn : ∃ t p, Steps (surroundings True) (init unarySealer "passphrase" []) legacyProfile
    t p tornProfile ∧ ¬InitKept unaryCrypto "passphrase" [] legacyProfile tornProfile := by
  have hcut : surroundings True (.writeVault written) legacyProfile
      (.error "ENOSPC: no space left on device") tornProfile := .inr ⟨⟨_, rfl⟩, .inr (.inr ⟨trivial, rfl⟩)⟩
  obtain ⟨t, p, h⟩ := steps_init hcut
  refine ⟨t, p, h, fun hkept => ?_⟩
  obtain ⟨v, hv, -⟩ := hkept.secrets _ (secretsOf_legacyProfile "passphrase")
  cases hv

/-- Written whole, it has what the legacy pair had. -/
theorem legacyProfile_kept : ∃ t p, Steps (surroundings False) (init unarySealer "passphrase" [])
    legacyProfile t p { legacyProfile with vault := .json written } ∧
      InitKept unaryCrypto "passphrase" [] legacyProfile { legacyProfile with vault := .json written } := by
  have hwhole : surroundings False (.writeVault written) legacyProfile (.ok ())
      { legacyProfile with vault := .json written } := .inl ⟨rfl, rfl⟩
  obtain ⟨t, p, h⟩ := steps_init hwhole
  refine ⟨t, p, h, (secrets_kept unaryCrypto unarySealer "passphrase" legacyProfile).1 [] t p _ ?_ h⟩
  intro v hv
  rw [secretsOf_legacyProfile] at hv
  exact ⟨tokens, (Except.ok.inj hv).symm⟩

end Vops.Keyring.ProfileStore
