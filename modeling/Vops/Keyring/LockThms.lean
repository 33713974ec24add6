import Mathlib.Data.List.Chain
import Vops.Keyring.UnlockThms

/-!
# The lock of the keyring

* `KeyringEvent`, `History` — requests at any time and over any vault file, with their responses.
* `Sound` — every request is answered, and a key is only returned while an unlock lasts.
* `VaultKept` — a key that is held is asked for over the vault that was unlocked, however often that
  was sealed again under its key.
* `lock_sound`, `keyAsked_unsound` — every history, and two over a vault that was deleted or replaced.
-/

namespace Vops.Keyring

open Async

variable {Master Key : Type} {c : Crypto Master Key} {cookie : String} {ttlMs : ℕ}

/-! ## Histories -/

/-- A request, with the time, the vault file and the response, or an idle check. -/
inductive KeyringEvent
  | call (now : ℕ) (file : DiskFile) (r : KeyringRequest) (response : Option KeyringResponse)
  | idle (now : ℕ)

/-- `DEFAULT_TTL_MS` -/
def DEFAULT_TTL_MS : ℕ := 12 * 60 * 60 * 1000

/-- The vault file over which a passphrase was accepted. -/
def KeyringEvent.unlocked : KeyringEvent → Option DiskFile
  | call _ file _ (some .unlock) => some file
  | _ => none

/-- The time of an authorised use: an unlock, or a key that was returned. -/
def KeyringEvent.use : KeyringEvent → Option ℕ
  | call now _ _ (some .unlock) => some now
  | call now _ _ (some (.key _)) => some now
  | _ => none

/-- The keyring was locked by a request. -/
def KeyringEvent.locks : KeyringEvent → Bool
  | call _ _ _ (some .lock) => true
  | _ => false

/-- What happens to a keyring from its start on, where every request meets a condition. -/
inductive History (c : Crypto Master Key) (cookie : String) (ttlMs : ℕ)
    (P : List KeyringEvent → KeyringServer Master → ℕ → DiskFile → KeyringRequest → Prop) :
    List KeyringEvent → KeyringServer Master → Prop
  | start : History c cookie ttlMs P [] ⟨cookie, ttlMs, none, none⟩
  | call {h : List KeyringEvent} {server : KeyringServer Master} {now : ℕ} {file : DiskFile}
      {r : KeyringRequest} (hbefore : History c cookie ttlMs P h server) (hP : P h server now file r) :
      History c cookie ttlMs P (h ++ [.call now file r (server.handle c file now r).1])
        (server.handle c file now r).2
  | idle {h : List KeyringEvent} {server : KeyringServer Master} {now : ℕ}
      (hbefore : History c cookie ttlMs P h server) :
      History c cookie ttlMs P (h ++ [.idle now]) (server.expireIfDue now)

/-! ## What is asked of it -/

/-- The passphrase gives a master that opens the vault. -/
def Verified (c : Crypto Master Key) (file : DiskFile) (passphrase : String) (master : Master) : Prop :=
  ∃ header, readHeader c file = .ok header ∧
    deriveMaster c passphrase header.salt header.kdf = .ok master ∧
    KeyringServer.verify c file master = .ok ()

/-- Each use comes before the time that the one before left runs out. -/
def InTime (ttlMs : ℕ) (uses : List ℕ) : Prop := uses.IsChain fun a b => b < a + ttlMs

/-- A passphrase was accepted and opened the vault, no request locked the keyring since, and every use since,
up to the one now, came in time. -/
def Justified (c : Crypto Master Key) (ttlMs : ℕ) (before : List KeyringEvent) (now : ℕ) : Prop :=
  ∃ earlier since then_ file cookie passphrase master,
    before = earlier ++ .call then_ file (.unlock cookie passphrase) (some .unlock) :: since ∧
    Verified c file passphrase master ∧ (∀ e ∈ since, e.locks = false) ∧
    InTime ttlMs (then_ :: since.filterMap KeyringEvent.use ++ [now])

/-- A request is answered. A key is only returned to the cookie and where it is justified, and one of the
vault opens the vault as it is. -/
def Sound (c : Crypto Master Key) (cookie : String) (ttlMs : ℕ) (before : List KeyringEvent) :
    KeyringEvent → Prop
  | .idle _ => True
  | .call now file r response => response.isSome ∧ ∀ hex, response = some (.key hex) →
      KeyringServer.secretEquals r.cookie cookie = true ∧ Justified c ttlMs before now ∧
      (r = .key r.cookie .vault → ∃ key secrets, hex = c.toHex key ∧ readWith c file key = .ok secrets)

/-! ## The condition -/

/-- The vault is the same, or sealed again under its key. -/
def Resealed (c : Crypto Master Key) (file file' : DiskFile) : Prop :=
  (readHeader c file').map VaultHeader.salt = (readHeader c file).map VaultHeader.salt ∧
    ∀ key, (readWith c file key).isOk → (readWith c file' key).isOk

/-- A key that is asked for while the keyring is unlocked is asked for over a vault whose header can be read;
that of the vault over the vault that was unlocked last. -/
def VaultKept (c : Crypto Master Key) (h : List KeyringEvent) (server : KeyringServer Master) (now : ℕ)
    (file : DiskFile) : KeyringRequest → Prop
  | .key cookie domain =>
      KeyringServer.secretEquals cookie server.cookie = true → (server.expireIfDue now).master.isSome →
        (readHeader c file).isOk ∧
        (domain = .vault → ∀ last ∈ (h.filterMap KeyringEvent.unlocked).getLast?, Resealed c last file)
  | _ => True

/-! ## An unlock that lasts -/

/-- The master that is held comes from the last unlock, no request locked the keyring since, and its time is
counted from the last use. -/
structure Held (c : Crypto Master Key) (h : List KeyringEvent) (server : KeyringServer Master)
    (master : Master) : Prop where
  unlocked : ∃ earlier since then_ file cookie passphrase,
    h = earlier ++ .call then_ file (.unlock cookie passphrase) (some .unlock) :: since ∧
    Verified c file passphrase master ∧ (∀ e ∈ since, e.locks = false) ∧
    (since.filterMap KeyringEvent.unlocked = []) ∧
    InTime server.ttlMs (then_ :: since.filterMap KeyringEvent.use) ∧
    server.expiresAt = (then_ :: since.filterMap KeyringEvent.use).getLast?.map (· + server.ttlMs)

/-- What a keyring is after a history. -/
structure AfterHistory (c : Crypto Master Key) (cookie : String) (ttlMs : ℕ) (h : List KeyringEvent)
    (server : KeyringServer Master) : Prop where
  cookie_eq : server.cookie = cookie
  ttl_eq : server.ttlMs = ttlMs
  held : ∀ master, server.master = some master → Held c h server master

variable {h : List KeyringEvent} {server : KeyringServer Master} {now : ℕ} {file : DiskFile}

/-- The event neither unlocks, uses nor locks the keyring. -/
def KeyringEvent.Quiet (e : KeyringEvent) : Prop := e.unlocked = none ∧ e.use = none ∧ e.locks = false

theorem Held.quiet {master : Master} {e : KeyringEvent} (hheld : Held c h server master) (he : e.Quiet) :
    Held c (h ++ [e]) server master := by
  obtain ⟨earlier, since, then_, file, cookie, passphrase, rfl, hverified, hlocks, hlast, htime, hdue⟩ :=
    hheld.unlocked
  have huses : (since ++ [e]).filterMap KeyringEvent.use = since.filterMap KeyringEvent.use := by
    rw [List.filterMap_append, List.filterMap_cons_none he.2.1, List.filterMap_nil, List.append_nil]
  refine ⟨earlier, since ++ [e], then_, file, cookie, passphrase, by simp, hverified, ?_, ?_, ?_, ?_⟩
  · intro e' he'
    rcases List.mem_append.mp he' with he' | he'
    · exact hlocks e' he'
    · rw [List.mem_singleton.mp he']
      exact he.2.2
  · rw [List.filterMap_append, hlast, List.filterMap_cons_none he.1, List.filterMap_nil, List.append_nil]
  · rw [huses]
    exact htime
  · rw [huses]
    exact hdue

/-- A key is returned: the time is counted from now on. -/
theorem Held.key {master : Master} {r : KeyringRequest} {hex : String}
    (hheld : Held c h server master) (hnow : ∀ due, server.expiresAt = some due → now < due) :
    Held c (h ++ [.call now file r (some (.key hex))]) (server.touch now) master := by
  obtain ⟨earlier, since, then_, file', cookie, passphrase, rfl, hverified, hlocks, hlast, htime, hdue⟩ :=
    hheld.unlocked
  have huses : (since ++ [KeyringEvent.call now file r (some (.key hex))]).filterMap KeyringEvent.use =
      since.filterMap KeyringEvent.use ++ [now] := by
    rw [List.filterMap_append]
    rfl
  refine ⟨earlier, since ++ [.call now file r (some (.key hex))], then_, file', cookie, passphrase, by simp,
    hverified, ?_, ?_, ?_, ?_⟩
  · intro e' he'
    rcases List.mem_append.mp he' with he' | he'
    · exact hlocks e' he'
    · rw [List.mem_singleton.mp he']
      rfl
  · rw [List.filterMap_append, hlast]
    rfl
  · rw [huses, ← List.cons_append]
    refine List.isChain_append.mpr ⟨htime, List.isChain_singleton _, fun x hx y hy => ?_⟩
    cases hy
    exact hnow _ (by rw [hdue, Option.mem_def.mp hx]; rfl)
  · rw [huses, ← List.cons_append, List.getLast?_concat]
    rfl

theorem Held.justified {master : Master} (hheld : Held c h server master)
    (hnow : ∀ due, server.expiresAt = some due → now < due) : Justified c server.ttlMs h now := by
  obtain ⟨earlier, since, then_, file, cookie, passphrase, rfl, hverified, hlocks, -, htime, hdue⟩ :=
    hheld.unlocked
  refine ⟨earlier, since, then_, file, cookie, passphrase, master, rfl, hverified, hlocks, ?_⟩
  refine List.isChain_append.mpr ⟨htime, List.isChain_singleton _, fun x hx y hy => ?_⟩
  cases hy
  exact hnow _ (by rw [hdue, Option.mem_def.mp hx]; rfl)

/-- The vault that was unlocked last is the one that the master was verified against. -/
theorem Held.verified {master : Master} (hheld : Held c h server master) :
    ∃ file passphrase, (h.filterMap KeyringEvent.unlocked).getLast? = some file ∧
      Verified c file passphrase master := by
  obtain ⟨earlier, since, then_, file, cookie, passphrase, rfl, hverified, -, hlast, -, -⟩ := hheld.unlocked
  refine ⟨file, passphrase, ?_, hverified⟩
  rw [List.filterMap_append, List.filterMap_cons_some (f := KeyringEvent.unlocked) rfl, hlast, List.getLast?_concat]

/-! ## One request -/

theorem verified_of_verify {header : VaultHeader} {master : Master} {file : DiskFile}
    (hheader : readHeader c file = .ok header) (h : KeyringServer.verify c file master = .ok ()) :
    (readWith c file (deriveKey c master .vault header.salt)).isOk := by
  obtain ⟨header', hheader', h⟩ := except_bind_eq_ok.mp h
  obtain ⟨secrets, hsecrets, -⟩ := except_bind_eq_ok.mp h
  obtain rfl := Except.ok.inj (hheader.symm.trans hheader')
  rw [hsecrets]
  rfl

/-- A passphrase is refused and nothing changes, or it opens the vault and its master is held. -/
theorem unlock_outcome (server : KeyringServer Master) (now : ℕ) (file : DiskFile) (passphrase : String) :
    (∃ code message, server.unlock c file now passphrase = (.error code message, server)) ∨
      ∃ master, server.unlock c file now passphrase =
        (.unlock, { server with master := some master }.touch now) ∧ Verified c file passphrase master := by
  unfold KeyringServer.unlock
  cases hheader : readHeader c file with
  | error e => exact .inl ⟨_, _, rfl⟩
  | ok header =>
      simp only
      split
      next e he =>
        cases e <;> exact .inl ⟨_, _, rfl⟩
      next master hmaster =>
        obtain ⟨m, hm, hmaster⟩ := except_bind_eq_ok.mp hmaster
        obtain ⟨_, hverify, hmaster⟩ := except_bind_eq_ok.mp hmaster
        cases hmaster
        exact .inr ⟨_, rfl, header, hheader, hm, hverify⟩

/-- A keyring that is unlocked after an expiry was due at no time before. -/
theorem expireIfDue_cases (server : KeyringServer Master) (now : ℕ) :
    (server.expireIfDue now).master = none ∧ (server.expireIfDue now).cookie = server.cookie ∧
        (server.expireIfDue now).ttlMs = server.ttlMs ∨
      server.expireIfDue now = server ∧ ∀ due, server.expiresAt = some due → now < due := by
  unfold KeyringServer.expireIfDue
  cases hmaster : server.master with
  | none => exact .inl ⟨hmaster, rfl, rfl⟩
  | some master =>
      cases hdue : server.expiresAt with
      | none => exact .inr ⟨rfl, nofun⟩
      | some due =>
          dsimp only
          split
          · exact .inl ⟨rfl, rfl, rfl⟩
          · next hnot =>
              refine .inr ⟨rfl, fun due' heq => ?_⟩
              cases heq
              exact not_le.mp hnot

theorem AfterHistory.expire (hkeeps : AfterHistory c cookie ttlMs h server) :
    AfterHistory c cookie ttlMs h (server.expireIfDue now) := by
  rcases expireIfDue_cases server now with ⟨hnone, hcookie, httl⟩ | ⟨hsame, -⟩
  · exact ⟨hcookie.trans hkeeps.cookie_eq, httl.trans hkeeps.ttl_eq, fun master hm => by rw [hnone] at hm; cases hm⟩
  · rw [hsame]
    exact hkeeps

theorem AfterHistory.quiet {e : KeyringEvent} (hkeeps : AfterHistory c cookie ttlMs h server) (he : e.Quiet) :
    AfterHistory c cookie ttlMs (h ++ [e]) server :=
  ⟨hkeeps.cookie_eq, hkeeps.ttl_eq, fun master hm => (hkeeps.held master hm).quiet he⟩

/-- One request, over a vault that was kept: it is answered as it must be, and the invariant holds. -/
theorem AfterHistory.call {r : KeyringRequest} (hkeeps : AfterHistory c cookie ttlMs h server)
    (hvault : VaultKept c h server now file r) :
    Sound c cookie ttlMs h (.call now file r (server.handle c file now r).1) ∧
      AfterHistory c cookie ttlMs (h ++ [.call now file r (server.handle c file now r).1])
        (server.handle c file now r).2 := by
  unfold KeyringServer.handle
  split
  · next hcookie =>
      have hexpired : AfterHistory c cookie ttlMs h (server.expireIfDue now) := hkeeps.expire
      cases r with
      | status => exact ⟨⟨rfl, nofun⟩, hexpired.quiet ⟨rfl, rfl, rfl⟩⟩
      | lock => exact ⟨⟨rfl, nofun⟩, hkeeps.expire.cookie_eq, hkeeps.expire.ttl_eq, nofun⟩
      | unlock cookie' passphrase =>
          dsimp only
          rcases unlock_outcome (c := c) (server.expireIfDue now) now file passphrase with
            ⟨code, message, heq⟩ | ⟨master, heq, hverified⟩
          · rw [heq]
            exact ⟨⟨rfl, nofun⟩, hexpired.quiet ⟨rfl, rfl, rfl⟩⟩
          · rw [heq]
            refine ⟨⟨rfl, nofun⟩, hexpired.cookie_eq, hexpired.ttl_eq, fun master' hm => ?_⟩
            cases hm
            exact ⟨h, [], now, file, cookie', passphrase, rfl, hverified, nofun, rfl,
              List.isChain_singleton _, rfl⟩
      | key cookie' domain =>
          dsimp only
          unfold KeyringServer.key
          cases hmaster : (server.expireIfDue now).master with
          | none =>
              refine ⟨⟨rfl, nofun⟩, ?_⟩
              exact hexpired.quiet ⟨rfl, rfl, rfl⟩
          | some master =>
              obtain ⟨hreadable, hlast⟩ := hvault hcookie (by rw [hmaster]; rfl)
              have hsame : server.expireIfDue now = server ∧
                  ∀ due, server.expiresAt = some due → now < due := by
                rcases expireIfDue_cases server now with ⟨hnone, -⟩ | hsame
                · rw [hnone] at hmaster
                  cases hmaster
                · exact hsame
              rw [hsame.1] at hmaster ⊢
              have hheld := hkeeps.held master hmaster
              cases hheader : readHeader c file with
              | error e =>
                  rw [hheader] at hreadable
                  cases hreadable
              | ok header =>
                  refine ⟨⟨rfl, ?_⟩, hkeeps.cookie_eq, hkeeps.ttl_eq, fun master' hm => ?_⟩
                  · rintro hex heq
                    cases heq
                    refine ⟨by rw [← hkeeps.cookie_eq]; exact hcookie, ?_, fun hr => ?_⟩
                    · rw [← hkeeps.ttl_eq]
                      exact hheld.justified hsame.2
                    · cases hr
                      obtain ⟨file₀, passphrase, hfile₀, header₀, hheader₀, -, hverify⟩ := hheld.verified
                      obtain ⟨hsalt, hopens⟩ := hlast rfl file₀ hfile₀
                      rw [hheader, hheader₀] at hsalt
                      have hopen := hopens _ (verified_of_verify hheader₀ hverify)
                      rw [← Except.ok.inj hsalt] at hopen
                      cases hread : readWith c file (deriveKey c master .vault header.salt) with
                      | error e =>
                          rw [hread] at hopen
                          cases hopen
                      | ok secrets => exact ⟨_, secrets, rfl, hread⟩
                  · have heq : master = master' := Option.some.inj (hmaster.symm.trans hm)
                    subst heq
                    exact hheld.key hsame.2
  · exact ⟨⟨rfl, nofun⟩, hkeeps.quiet ⟨rfl, rfl, rfl⟩⟩

/-! ## Every history -/

/-- An event of a longer history is its last one, or one of the shorter history. -/
theorem snoc_cases {h before after : List KeyringEvent} {e last : KeyringEvent}
    (heq : h ++ [last] = before ++ e :: after) :
    before = h ∧ e = last ∨ ∃ after', h = before ++ e :: after' := by
  rcases List.eq_nil_or_concat after with rfl | ⟨after', e', rfl⟩
  · obtain ⟨rfl, he⟩ := List.append_inj' heq rfl
    exact .inl ⟨rfl, (List.singleton_inj.mp he).symm⟩
  · rw [List.concat_eq_append, ← List.cons_append, ← List.append_assoc] at heq
    exact .inr ⟨after', (List.append_inj' heq rfl).1⟩

/-- Whatever is asked, and whenever, of a keyring whose vault is kept: every request is answered, and a key is
only returned to the cookie while an unlock lasts, one of the vault only where it opens the vault. -/
theorem lock_sound (c : Crypto Master Key) (cookie : String) (ttlMs : ℕ) (h : List KeyringEvent)
    (server : KeyringServer Master) (hh : History c cookie ttlMs (VaultKept c) h server)
    (before after : List KeyringEvent) (e : KeyringEvent) (heq : h = before ++ e :: after) :
    Sound c cookie ttlMs before e := by
  have hsound : AfterHistory c cookie ttlMs h server ∧
      ∀ before e after, h = before ++ e :: after → Sound c cookie ttlMs before e := by
    clear heq
    induction hh with
    | start => exact ⟨⟨rfl, rfl, nofun⟩, fun before e after heq => by simp at heq⟩
    | @call h server now file r hbefore hP ih =>
        obtain ⟨hsound, hafter⟩ := ih.1.call hP
        refine ⟨hafter, fun before e after heq => ?_⟩
        rcases snoc_cases heq with ⟨rfl, rfl⟩ | ⟨after', heq⟩
        · exact hsound
        · exact ih.2 before e after' heq
    | @idle h server now hbefore ih =>
        refine ⟨ih.1.expire.quiet ⟨rfl, rfl, rfl⟩, fun before e after heq => ?_⟩
        rcases snoc_cases heq with ⟨rfl, rfl⟩ | ⟨after', heq⟩
        · trivial
        · exact ih.2 before e after' heq
  exact hsound.2 before e after heq

/-! ## A vault that is deleted or replaced -/

/-- A key is the passphrase with the salt, and a payload opens under the key that it ends in. -/
def saltedCrypto : Crypto String String where
  scrypt passphrase _ _ := passphrase
  hkdf master salt _ := master ++ salt
  decipher _ _ data key := if data = key then some (some (.obj [])) else none
  toHex key := key
  ofHex hex := hex
  stringify _ := "undefined"

/-- A vault of a passphrase and a salt. -/
def saltedVault (passphrase salt : String) : DiskFile :=
  .json (.obj [("v", .num 1), ("salt", .str salt), ("data", .str ("00:00:" ++ passphrase ++ salt))])

def firstVault : DiskFile := saltedVault "right" "0123456789abcdef"

/-- The vault, made again. -/
def secondVault : DiskFile := saltedVault "other" "fedcba9876543210"

/-- The passphrase is given, and a minute later the key of the vault is asked for over a vault file. -/
def keyAsked (file : DiskFile) : List KeyringEvent × KeyringServer String :=
  let start : KeyringServer String := ⟨"cookie", DEFAULT_TTL_MS, none, none⟩
  let unlock := start.handle saltedCrypto firstVault 0 (.unlock "cookie" "right")
  let key := unlock.2.handle saltedCrypto file 60000 (.key "cookie" .vault)
  ([.call 0 firstVault (.unlock "cookie" "right") unlock.1, .call 60000 file (.key "cookie" .vault) key.1],
    key.2)

/-- The key is asked for over the vault that was unlocked. -/
theorem keyAsked_sound : ∃ before e, (keyAsked firstVault).1 = before ++ [e] ∧
    Sound saltedCrypto "cookie" DEFAULT_TTL_MS before e ∧ e.use = some 60000 := by
  refine ⟨[_], _, rfl, ?_, by decide +kernel⟩
  have hunlock : VaultKept saltedCrypto [] ⟨"cookie", DEFAULT_TTL_MS, none, none⟩ 0 firstVault
      (.unlock "cookie" "right") := trivial
  refine lock_sound saltedCrypto "cookie" DEFAULT_TTL_MS _ _ (.call (.call .start hunlock) ?_) _ [] _ rfl
  intro _ _
  refine ⟨by decide +kernel, fun _ last hlast => ?_⟩
  have hsame : last = firstVault := (Option.some.inj hlast).symm
  rw [hsame]
  exact ⟨rfl, fun _ h => h⟩

/-- Asked over that file, the keyring is not sound. -/
def UnsoundOver (file : DiskFile) : Prop :=
  ∃ before e, (keyAsked file).1 = before ++ [e] ∧
    History saltedCrypto "cookie" DEFAULT_TTL_MS (fun _ _ _ _ _ => True) (keyAsked file).1 (keyAsked file).2 ∧
    ¬Sound saltedCrypto "cookie" DEFAULT_TTL_MS before e

/-- Where the vault is gone the request is not answered, and over another vault the key does not open it. -/
theorem keyAsked_unsound : UnsoundOver .missing ∧ UnsoundOver secondVault := by
  refine ⟨⟨[_], _, rfl, .call (.call .start trivial) trivial, ?_⟩,
    ⟨[_], _, rfl, .call (.call .start trivial) trivial, ?_⟩⟩
  · rintro ⟨hsome, -⟩
    exact absurd hsome (by decide +kernel)
  · rintro ⟨-, hkey⟩
    obtain ⟨-, -, hopens⟩ := hkey "rightfedcba9876543210" (by decide +kernel)
    obtain ⟨key, secrets, hhex, hread⟩ := hopens rfl
    have hrefused : (readWith saltedCrypto secondVault "rightfedcba9876543210").isOk = false := by
      decide +kernel
    rw [hhex, show saltedCrypto.toHex key = key from rfl, hread] at hrefused
    cases hrefused

end Vops.Keyring
