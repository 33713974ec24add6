import Vops.HostOps.OpsLine

/-!
# Other people's keys

* `KeysSurvive` — every text that is written holds the foreign lines of every text that was there when
  the keys were read.
* `ReadWhole` — a read lost no foreign line.
* `keys_survive` — at every moment of a run whose reads were whole, the keys survive.
-/

namespace Vops.HostOps

open AuthorizedKeys KeyProg Async
open TextLines (lines dropBlank)

variable {publicData : Text → Text} {id : ProfileId}

/-! ## What survives -/

/-- The lines that carry neither the tag of the profile nor its `:next` tag. -/
def foreign (id : ProfileId) (ls : List Text) : List Text :=
  ls.filter fun l => !isOpsLine l (opsTag id.text) && !isOpsLine l (opsTag id.text ++ ":next".toList)

/-- Lines that hold the foreign lines of every text that was read. -/
def Covers (id : ProfileId) (a : Account) (log : List Event) (ls : List Text) : Prop :=
  ∀ file got, .read a file got ∈ log → List.Sublist (foreign id (lines file)) ls

/-- Every text that was written holds the foreign lines of every text that had been read. -/
def KeysSurvive (id : ProfileId) (log : List Event) : Prop :=
  ∀ before a content after, log = before ++ .wrote a content :: after →
    Covers id a before (lines content)

/-- A read lost no foreign line: what was printed, taken apart by `W`, holds those of the file. -/
def ReadWhole (id : ProfileId) (W : Text → List Text) : (o : KeyOp) → World → o.Answer → Prop
  | .run target (.catKeys _), s, x =>
      List.Sublist (foreign id (lines (s.authorizedKeys target.host.account)))
        (W (x : ExecResult).stdout)
  | _, _, _ => True

/-- The lines that a swap keeps: the foreign ones, without the empty ones at their end. -/
def keptLines (id : ProfileId) (content : Text) : List Text := dropBlank (foreign id (toLines content))

/-! ## Foreign lines -/

theorem foreign_sublist (ls : List Text) : List.Sublist (foreign id ls) ls := List.filter_sublist

theorem foreign_foreign (ls : List Text) : foreign id (foreign id ls) = foreign id ls := by
  simp [foreign, List.filter_filter]

/-- Foreign lines stay where own lines are taken out. -/
theorem foreign_sublist_filter {ls L : List Text} {tag : Text}
    (htag : tag = opsTag id.text ∨ tag = opsTag id.text ++ ":next".toList)
    (h : List.Sublist (foreign id ls) L) :
    List.Sublist (foreign id ls) (L.filter fun l => !isOpsLine l tag) := by
  have hfilter : (foreign id ls).filter (fun l => !isOpsLine l tag) = foreign id ls := by
    rw [List.filter_eq_self]
    intro l hl
    have hown := (List.mem_filter.mp hl).2
    simp only [Bool.and_eq_true] at hown
    rcases htag with rfl | rfl
    · exact hown.1
    · exact hown.2
  rw [← hfilter]
  exact h.filter _

/-- What holds the foreign lines of a text holds those of a part of it. -/
theorem foreign_sublist_of_sublist {ls ls' L : List Text} (h : List.Sublist (foreign id ls) ls')
    (h' : List.Sublist (foreign id ls') L) : List.Sublist (foreign id ls) L := by
  rw [← foreign_foreign]
  exact (h.filter _).trans h'

theorem Covers.mono {a : Account} {log : List Event} {ls ls' : List Text} (h : Covers id a log ls)
    (hls : List.Sublist ls ls') : Covers id a log ls' :=
  fun file got hread => (h file got hread).trans hls

theorem Covers.filter {a : Account} {log : List Event} {ls : List Text} {tag : Text}
    (h : Covers id a log ls) (htag : tag = opsTag id.text ∨ tag = opsTag id.text ++ ":next".toList) :
    Covers id a log (ls.filter fun l => !isOpsLine l tag) :=
  fun file got hread => foreign_sublist_filter htag (h file got hread)

/-- After one more read. -/
theorem Covers.read {a : Account} {log : List Event} {file : Text} {ls : List Text}
    (h : Covers id a log (lines file)) (got : Text) (hls : List.Sublist (foreign id (lines file)) ls) :
    Covers id a (log ++ [.read a file got]) ls := by
  intro file' got' hread
  rcases List.mem_append.mp hread with hread | hread
  · exact foreign_sublist_of_sublist (h file' got' hread) hls
  · obtain ⟨-, rfl, -⟩ : a = a ∧ file' = file ∧ got' = got := by simpa using hread
    exact hls

theorem Covers.put {s : World} {a b : Account} {path content : Text} {ls : List Text}
    (h : Covers id a s.log ls) : Covers id a ((s.sent b path content).put b path content).log ls := by
  change Covers id a (s.sent b path content).log ls
  unfold World.sent
  split
  · intro file got hread
    rcases List.mem_append.mp hread with hread | hread
    · exact h file got hread
    · exact absurd hread (by simp)
  · exact h

/-- After an event that is no read of the account. -/
theorem Covers.append {a : Account} {log : List Event} {e : Event} {ls : List Text}
    (h : Covers id a log ls) (he : ∀ file got, e ≠ .read a file got) :
    Covers id a (log ++ [e]) ls := by
  intro file got hread
  rcases List.mem_append.mp hread with hread | hread
  · exact h file got hread
  · exact absurd (List.mem_singleton.mp hread).symm (he file got)

theorem KeysSurvive.append {log : List Event} {e : Event} (h : KeysSurvive id log)
    (he : ∀ a content, e = .wrote a content → Covers id a log (lines content)) :
    KeysSurvive id (log ++ [e]) := by
  intro before a content after heq
  rcases List.eq_nil_or_concat after with rfl | ⟨after, e', rfl⟩
  · obtain ⟨rfl, he'⟩ := List.append_inj' heq rfl
    exact he a content (by simpa using he')
  · rw [List.concat_eq_append, ← List.cons_append, ← List.append_assoc] at heq
    obtain ⟨heq, -⟩ := List.append_inj' heq rfl
    exact h before a content after heq

/-! ## The invariant -/

/-- The keys survived so far, and every file holds the foreign lines that were read of it. -/
structure ForeignKept (id : ProfileId) (s : World) : Prop where
  profileId : s.profileId = id
  survive : KeysSurvive id s.log
  covered : ∀ a, Covers id a s.log (lines (s.authorizedKeys a))

/-- The operation neither reads nor writes the keys of a host. -/
def Quiet : KeyOp → Prop
  | .run _ (.catKeys _) | .putFile _ _ _ => False
  | _ => True

/-- The keys of the hosts are as they were, and at most a session was tried. -/
structure SameHosts (s s' : World) : Prop where
  profileId : s'.profileId = s.profileId
  home : s'.home = s.home
  files : s'.files = s.files
  log : s'.log = s.log ∨ ∃ a code, s'.log = s.log ++ [.probed a code]

theorem SameHosts.refl (s : World) : SameHosts s s := ⟨rfl, rfl, rfl, .inl rfl⟩

theorem SameHosts.authorizedKeys {s s' : World} (h : SameHosts s s') (a : Account) :
    s'.authorizedKeys a = s.authorizedKeys a := by
  unfold World.authorizedKeys World.akPath
  rw [h.home, h.files]

theorem sameHosts_of_quiet {o : KeyOp} {s s' : World} {x : o.Answer} (ho : Quiet o)
    (hx : surroundings publicData o s x s') : SameHosts s s' := by
  cases o with
  | readOnly | profileId | hosts | keyStore =>
      obtain ⟨-, rfl⟩ := hx
      exact .refl _
  | assertReady | appendAudit =>
      obtain rfl := hx
      exact .refl _
  | saveHosts hosts =>
      cases (x : Except String Unit) with
      | ok u =>
          obtain rfl := hx
          exact ⟨rfl, rfl, rfl, .inl rfl⟩
      | error e =>
          obtain ⟨left, rfl⟩ := hx
          exact ⟨rfl, rfl, rfl, .inl rfl⟩
  | keygen name =>
      cases (x : Except String Unit) with
      | ok u =>
          obtain ⟨private', pub, -, -, rfl⟩ := hx
          exact ⟨rfl, rfl, rfl, .inl rfl⟩
      | error e =>
          rcases hx with rfl | ⟨private', -, rfl⟩
          · exact .refl _
          · exact ⟨rfl, rfl, rfl, .inl rfl⟩
  | rename source target ext =>
      cases (x : Except String Unit) with
      | ok u =>
          obtain ⟨-, rfl⟩ := hx
          exact ⟨rfl, rfl, rfl, .inl rfl⟩
      | error e =>
          obtain rfl := hx
          exact .refl _
  | acquireLock =>
      obtain ⟨-, rfl⟩ := hx
      exact ⟨rfl, rfl, rfl, .inl rfl⟩
  | releaseLock =>
      rcases hx with rfl | rfl
      · exact .refl _
      · exact ⟨rfl, rfl, rfl, .inl rfl⟩
  | putFile => exact ho.elim
  | run target command =>
      cases command with
      | printHome =>
          obtain ⟨-, rfl⟩ := hx
          exact .refl _
      | catKeys => exact ho.elim
      | probe =>
          obtain ⟨-, rfl⟩ := hx
          exact ⟨rfl, rfl, rfl, .inr ⟨_, _, rfl⟩⟩

theorem SameHosts.covers {s s' : World} (h : SameHosts s s') {a : Account} {ls : List Text}
    (hc : Covers id a s.log ls) : Covers id a s'.log ls := by
  rcases h.log with hlog | ⟨b, code, hlog⟩ <;> rw [hlog]
  · exact hc
  · exact hc.append (by simp)

theorem SameHosts.foreignKept {s s' : World} (h : SameHosts s s') (hs : ForeignKept id s) :
    ForeignKept id s' := by
  refine ⟨h.profileId.trans hs.profileId, ?_, fun a => ?_⟩
  · rcases h.log with hlog | ⟨b, code, hlog⟩ <;> rw [hlog]
    · exact hs.survive
    · exact hs.survive.append (by simp)
  · rw [h.authorizedKeys]
    exact h.covers (hs.covered a)

theorem ForeignKept.read {s : World} (hs : ForeignKept id s) (a : Account) (got : Text) :
    ForeignKept id (s.logged (.read a (s.authorizedKeys a) got)) := by
  refine ⟨hs.profileId, hs.survive.append (by simp), fun b => ?_⟩
  change Covers id b (s.log ++ [_]) (lines (s.authorizedKeys b))
  by_cases hb : b = a
  · subst hb
    exact (hs.covered b).read got (foreign_sublist _)
  · exact (hs.covered b).append fun file got' h => hb (Event.read.inj h).1.symm

/-- A text that holds what was read can be sent, and written. -/
theorem ForeignKept.put {s : World} (hs : ForeignKept id s) {a : Account} {path content : Text}
    (h : path = s.akPath a → Covers id a s.log (lines content)) :
    ForeignKept id (s.sent a path content) ∧
      ForeignKept id ((s.sent a path content).put a path content) := by
  have hsent : ForeignKept id (s.sent a path content) := by
    unfold World.sent
    split
    · next hpath =>
      refine ⟨hs.profileId, hs.survive.append ?_, fun b => (hs.covered b).append (by simp)⟩
      intro b content' heq
      obtain ⟨rfl, rfl⟩ := Event.wrote.inj heq
      exact h hpath
    · exact hs
  refine ⟨hsent, hsent.profileId, hsent.survive, fun b => ?_⟩
  rw [World.authorizedKeys_put]
  split
  · next hb =>
    obtain ⟨rfl, hpath⟩ := hb
    have hpath' : path = s.akPath b := by rw [← hpath, World.akPath_sent]
    change Covers id b (s.sent b path content).log (lines content)
    rw [World.sent, if_pos hpath']
    exact (h hpath').append (by simp)
  · exact hsent.covered b

/-! ## Quiet parts -/

theorem quiet_showHost (name : String) : AllOps Quiet (showHost name) := by
  unfold showHost
  refine .perform_bind trivial fun (hosts : List VopsHost) => ?_
  split <;> trivial

theorem quiet_updateHost (host : VopsHost) : AllOps Quiet (updateHost host) :=
  .perform_bind trivial fun _ => allOps_orThrow (.of_perform trivial)

theorem quiet_assertHostWritable (host : VopsHost) : AllOps Quiet (assertHostWritable host) :=
  .perform_bind trivial fun readOnly => allOps_onlyIf readOnly trivial

theorem quiet_ensureKeyFile (name : OpsName) : AllOps Quiet (ensureKeyFile name) := by
  refine .perform_bind trivial fun (keys : KeyStore) => ?_
  split
  · trivial
  · refine (allOps_orThrow (.of_perform trivial)).bind fun _ => ?_
    refine .perform_bind trivial fun (keys : KeyStore) => ?_
    split <;> trivial

theorem quiet_opsAuthorizedKeysLine (fromCidr : Option Text) :
    AllOps Quiet (opsAuthorizedKeysLine fromCidr) :=
  (quiet_ensureKeyFile _).bind fun _ => .perform_bind trivial fun _ => trivial

theorem quiet_opsTarget (host : VopsHost) : AllOps Quiet (VopsHostKeys.opsTarget host) := by
  refine .perform_bind trivial fun keys => ?_
  split <;> trivial

theorem quiet_revokeTarget (host : VopsHost) : AllOps Quiet (VopsHostKeys.revokeTarget host) := by
  have hops : AllOps Quiet (do
      let target ← VopsHostKeys.opsTarget host
      pure (target, (none : Option Text))) := (quiet_opsTarget host).bind fun _ => trivial
  refine .perform_bind trivial fun keys => ?_
  split
  · refine .perform_bind trivial fun chk => ?_
    split
    · trivial
    · exact hops
  · exact hops

theorem quiet_promoteNextOpsKey : AllOps Quiet promoteNextOpsKey := by
  have hmove : ∀ source target ext, AllOps Quiet (moveFile source target ext) :=
    fun source target ext => .perform_bind trivial fun keys =>
      allOps_onlyIf _ (allOps_orThrow (.of_perform trivial))
  have hmoves : ∀ source target, AllOps Quiet (move source target) := fun source target =>
    (hmove source target .priv).bind fun _ => hmove source target .pub
  exact .perform_bind trivial fun keys => (allOps_onlyIf _ (hmoves _ _)).bind fun _ => hmoves _ _

/-! ## The rules -/

section Rules

variable {W : Text → List Text} {s : World} {α β : Type}

/-- What can be answered when the reads are whole. -/
abbrev whole (publicData : Text → Text) (id : ProfileId) (W : Text → List Text) :
    Surroundings KeyOp KeyOp.Answer World :=
  given (surroundings publicData) (ReadWhole id W)

/-- After a quiet part, what is known of the hosts is still so. -/
theorem keeps_quiet {J : World → Prop} {p : KeyProg α} {f : α → KeyProg β} (hp : AllOps Quiet p)
    (hs : ForeignKept id s) (hJ : J s) (hsame : ∀ s s', SameHosts s s' → J s → J s')
    (hf : ∀ a s', ForeignKept id s' → J s' → Keeps (whole publicData id W) (ForeignKept id) (f a) s') :
    Keeps (whole publicData id W) (ForeignKept id) (p >>= f) s := by
  have hsafe : Safe (whole publicData id W) (ForeignKept id)
      (fun _ s => ForeignKept id s ∧ J s) p s := by
    refine Safe.of_allOps hp ?_ (fun s hs => hs.1) ⟨hs, hJ⟩
    intro o x s s' ho hx hs
    have hsame' := sameHosts_of_quiet ho hx.1
    exact ⟨hsame'.foreignKept hs.1, hsame _ _ hsame' hs.2⟩
  exact Keeps.seq (hsafe.mono fun r s _ hs a _ => hs) fun a s' _ hs => hf a s' hs.1 hs.2

/-- A quiet part before which nothing is known of the hosts. -/
theorem keeps_quiet' {p : KeyProg α} {f : α → KeyProg β} (hp : AllOps Quiet p)
    (hs : ForeignKept id s)
    (hf : ∀ a s', ForeignKept id s' → Keeps (whole publicData id W) (ForeignKept id) (f a) s') :
    Keeps (whole publicData id W) (ForeignKept id) (p >>= f) s :=
  keeps_quiet (J := fun _ => True) hp hs trivial (fun _ _ _ h => h) fun a s' hs' _ => hf a s' hs'

theorem keeps_of_quiet {p : KeyProg α} (hp : AllOps Quiet p) (hs : ForeignKept id s) :
    Keeps (whole publicData id W) (ForeignKept id) p s := by
  have h : Keeps (whole publicData id W) (ForeignKept id) (p >>= pure) s :=
    keeps_quiet' hp hs fun a s' hs' => Keeps.of_done hs'
  rwa [bind_pure] at h

/-- A text that holds what was read is written. -/
theorem keeps_putFile {target : SshTarget} {path content : Text} {f : Unit → KeyProg β}
    (hs : ForeignKept id s)
    (hc : path = s.akPath target.host.account →
      Covers id target.host.account s.log (lines content))
    (hf : ForeignKept id ((s.sent target.host.account path content).put target.host.account path
        content) →
      Keeps (whole publicData id W) (ForeignKept id) (f ())
        ((s.sent target.host.account path content).put target.host.account path content)) :
    Keeps (whole publicData id W) (ForeignKept id)
      (orThrow (op (.putFile target path content)) >>= f) s := by
  obtain ⟨hsent, hput⟩ := hs.put hc
  refine Keeps.perform hs fun (x : Except String Unit) s' hx => ?_
  cases x with
  | ok u =>
      obtain ⟨rfl, -⟩ := hx
      exact hf hput
  | error e =>
      obtain ⟨rfl | rfl, -⟩ := hx
      · exact Keeps.of_done hsent
      · exact Keeps.of_done hput

/-- A text is written if a condition holds. -/
theorem keeps_putIf {J : World → Prop} {c : Bool} {target : SshTarget} {path content : Text}
    {f : Unit → KeyProg β} (hs : ForeignKept id s) (hJ : J s)
    (hc : path = s.akPath target.host.account →
      Covers id target.host.account s.log (lines content))
    (hput : J ((s.sent target.host.account path content).put target.host.account path content))
    (hf : ∀ s', ForeignKept id s' → J s' →
      Keeps (whole publicData id W) (ForeignKept id) (f ()) s') :
    Keeps (whole publicData id W) (ForeignKept id)
      (onlyIf c (orThrow (op (.putFile target path content))) >>= f) s := by
  cases c with
  | false => exact hf s hs hJ
  | true => exact keeps_putFile hs hc fun hs' => hf _ hs' hput

/-- The keys of a host are read. -/
theorem safe_readAuthorizedKeys (target : SshTarget) (hs : ForeignKept id s) :
    Safe (whole publicData id W) (ForeignKept id) (fun r s' => ∀ state, r = .ok state →
      s' = s.logged (.read target.host.account (s.authorizedKeys target.host.account) state.content) ∧
      List.Sublist (foreign id (lines (s.authorizedKeys target.host.account))) (W state.content))
      (readAuthorizedKeys target) s := by
  refine Safe.perform hs fun (home : ExecResult) s₁ hhome => ?_
  obtain ⟨⟨-, rfl⟩, -⟩ := hhome
  change Safe _ _ _ (if _ then _ else _) s₁
  split
  · exact Safe.of_done hs (by simp)
  · refine Safe.perform hs fun (read : ExecResult) s₂ hread => ?_
    obtain ⟨⟨-, rfl⟩, hwhole⟩ := hread
    refine Safe.of_done (hs.read _ _) ?_
    rintro state ⟨⟩
    exact ⟨rfl, hwhole⟩

end Rules

/-! ## Installing and revoking -/

section Programs

variable {s : World}

theorem toLines_sublist (content : Text) : List.Sublist (toLines content) (lines content) := by
  rw [toLines_eq]
  exact TextLines.trimmed_sublist content

theorem keeps_writeOpsLine (host : VopsHost) {target : SshTarget} (opsKey : VopsSshKey)
    (state : RemoteAkState) {content : Text} (changed : Bool) (hs : ForeignKept id s)
    (hold : Covers id target.host.account s.log (lines state.content))
    (hnew : Covers id target.host.account s.log (lines content)) :
    Keeps (whole publicData id toLines) (ForeignKept id)
      (VopsHostKeys.writeOpsLine host target opsKey state content changed) s := by
  let J : World → Prop := fun s => Covers id target.host.account s.log (lines state.content)
  refine keeps_putIf (J := J) hs hold (fun _ => hnew) hold.put fun s₁ hs₁ hJ₁ => ?_
  refine keeps_quiet (J := J) (p := op (.run ⟨host, opsKey.privateKeyPath⟩ .probe))
    (.of_perform trivial) hs₁ hJ₁ (fun s s' hsame => hsame.covers)
    fun (verify : ExecResult) s₂ hs₂ hJ₂ => ?_
  split
  · exact keeps_putIf (J := J) hs₂ hJ₂ (fun _ => hJ₂) hJ₂.put fun s₃ hs₃ _ => Keeps.of_done hs₃
  · refine keeps_of_quiet ?_ hs₂
    exact (quiet_updateHost _).bind fun _ => (allOps_orThrow (.of_perform trivial)).bind fun _ => trivial

theorem keeps_installOps (name : String) (opts : VopsHostKeys.InstallOpsOptions)
    (hs : ForeignKept id s) :
    Keeps (whole publicData id toLines) (ForeignKept id) (VopsHostKeys.installOps name opts) s := by
  refine keeps_quiet' (quiet_showHost name) hs fun host s₁ hs₁ => ?_
  refine keeps_quiet' (quiet_assertHostWritable host) hs₁ fun _ s₂ hs₂ => ?_
  refine keeps_quiet' (p := op .keyStore) (.of_perform trivial) hs₂ fun (keys : KeyStore) s₃ hs₃ => ?_
  split
  · exact Keeps.of_done hs₃
  · next userKeyPath _ =>
    refine keeps_quiet' (allOps_onlyIf _ (allOps_orThrow (.of_perform trivial))) hs₃
      fun _ s₄ hs₄ => ?_
    refine keeps_quiet' (quiet_ensureKeyFile _) hs₄ fun opsKey s₅ hs₅ => ?_
    refine keeps_quiet' (quiet_opsAuthorizedKeysLine _) hs₅ fun line s₆ hs₆ => ?_
    refine Keeps.perform hs₆ fun (profileId : Text) s₇ hprofile => ?_
    obtain ⟨⟨rfl, rfl⟩, -⟩ := hprofile
    refine Keeps.seq (safe_readAuthorizedKeys ⟨host, userKeyPath⟩ hs₆) fun state s₈ hs₈ hread => ?_
    obtain ⟨rfl, hwhole⟩ := hread
    have hread := (hs₆.covered host.account).read state.content hwhole
    change Keeps _ _ (if opts.dryRun = true then _ else _) _
    split
    · exact Keeps.of_done hs₈
    · refine keeps_writeOpsLine host opsKey state _ hs₈ (hread.mono (toLines_sublist _)) ?_
      have hkept := hread.filter (.inl (congrArg (fun p => opsTag p.text) hs₆.profileId))
      exact (lines_upsertOpsLine state.content line _).symm ▸
        hkept.mono (List.sublist_append_left _ _)

theorem keeps_revokeOps (name : String) (opts : VopsHostKeys.RevokeOpsOptions)
    (hs : ForeignKept id s) :
    Keeps (whole publicData id toLines) (ForeignKept id) (VopsHostKeys.revokeOps name opts) s := by
  refine keeps_quiet' (quiet_showHost name) hs fun host s₁ hs₁ => ?_
  refine keeps_quiet' (quiet_assertHostWritable host) hs₁ fun _ s₂ hs₂ => ?_
  refine Keeps.perform hs₂ fun (profileId : Text) s₃ hprofile => ?_
  obtain ⟨⟨rfl, rfl⟩, -⟩ := hprofile
  refine keeps_quiet (J := fun s => s.profileId = s₃.profileId) (quiet_revokeTarget host) hs₂ rfl
    (fun s s' hsame h => hsame.profileId.trans h) fun session s₄ hs₄ hprofile => ?_
  refine Keeps.seq (safe_readAuthorizedKeys session.1 hs₄) fun state s₅ hs₅ hread => ?_
  obtain ⟨rfl, hwhole⟩ := hread
  have hread := (hs₄.covered session.1.host.account).read state.content hwhole
  change Keeps _ _ (if opts.dryRun = true then _ else if _ then _ else _) _
  split
  · exact Keeps.of_done hs₅
  · split
    · exact Keeps.of_done hs₅
    · have hkept := hread.filter (.inl (congrArg (fun p => opsTag p.text) hs₂.profileId))
      refine keeps_putIf (J := fun _ => True) hs₅ trivial (fun _ => ?_) trivial fun s₆ hs₆ _ => ?_
      · exact (lines_removeOpsLine state.content _).symm ▸ hkept
      · refine keeps_of_quiet ?_ hs₆
        exact (quiet_updateHost _).bind fun _ => (allOps_orThrow (.of_perform trivial)).bind fun _ =>
          trivial

/-! ## Rotating -/

open VopsOpsRotation

theorem keptLines_sublist (content : Text) :
    List.Sublist (keptLines id content) ((toLines content).filter fun l =>
      !isOpsLine l (opsTag id.text ++ ":next".toList)) := by
  refine (TextLines.dropBlank_isPrefix _).sublist.trans ?_
  have hfilter : foreign id (toLines content) = ((toLines content).filter fun l =>
      !isOpsLine l (opsTag id.text ++ ":next".toList)).filter fun l =>
        !isOpsLine l (opsTag id.text) := by
    simp [foreign, List.filter_filter]
  rw [hfilter]
  exact List.filter_sublist

theorem keptLines_sublist_lines (content : Text) :
    List.Sublist (keptLines id content) (lines content) :=
  ((keptLines_sublist content).trans List.filter_sublist).trans (toLines_sublist content)

/-- A swap keeps the foreign lines. -/
theorem keptLines_sublist_swapToCanonical (content line : Text) :
    List.Sublist (keptLines id content) (lines (swapToCanonical content (opsTag id.text)
      (opsTag id.text ++ ":next".toList) line)) := by
  unfold swapToCanonical
  simp only
  rw [lines_upsertOpsLine, toLines_removeOpsLine, toLines_removeOpsLine,
    TextLines.dropBlank_filter (by simp [isOpsLine_nil]), List.filter_filter]
  refine List.Sublist.trans ?_ (List.sublist_append_left _ _)
  change List.Sublist (keptLines id content) ((keptLines id content).filter _)
  rw [List.filter_eq_self.mpr]
  intro l hl
  have hforeign := (List.mem_filter.mp ((TextLines.dropBlank_isPrefix _).subset hl)).2
  simp only [Bool.and_eq_true] at hforeign
  exact hforeign.1

/-- The foreign lines of a text that only gained a line of the profile. -/
theorem foreign_upsertOpsLine {content line tag : Text} (htag : tag = opsTag id.text ++ ":next".toList)
    (hline : isOpsLine line tag = true) (hnewline : '\n' ∉ line) :
    List.Sublist (foreign id (lines (upsertOpsLine content line tag).1)) (lines content) := by
  rw [lines_upsertOpsLine, TextLines.lines_append_newline hnewline]
  have hown : foreign id [line] = [] := by
    subst htag
    simp only [foreign, List.filter_singleton, hline, Bool.not_true, Bool.and_false]
    rfl
  have happend : ∀ ls, foreign id (ls ++ line :: lines []) = foreign id ls := by
    intro ls
    rw [foreign, List.filter_append]
    change foreign id ls ++ foreign id [line] = _
    rw [hown, List.append_nil]
  rw [happend]
  exact (foreign_sublist _).trans (List.filter_sublist.trans (toLines_sublist content))

/-- A text holds what was read, and the foreign lines that are there now: it can be put back. -/
def Restorable (id : ProfileId) (a : Account) (content : Text) (s : World) : Prop :=
  Covers id a s.log (lines content) ∧
    List.Sublist (foreign id (lines (s.authorizedKeys a))) (lines content)

theorem SameHosts.restorable {s s' : World} (h : SameHosts s s') {a : Account} {content : Text}
    (hr : Restorable id a content s) : Restorable id a content s' :=
  ⟨h.covers hr.1, by rw [h.authorizedKeys]; exact hr.2⟩

variable {r : Rotation}

/-- The tags of a rotation. -/
structure RotationTags (id : ProfileId) (r : Rotation) : Prop where
  canonical : r.canonicalTag = opsTag id.text
  temp : r.tempTag = opsTag id.text ++ ":next".toList

theorem keeps_swapHost (hr : RotationTags id r) (host : VopsHost) (session : SshTarget)
    (original : RemoteAkState) (options : Text) (hs : ForeignKept id s)
    (hrestore : Restorable id session.host.account original.content s) :
    Keeps (whole publicData id (keptLines id)) (ForeignKept id)
      (swapHost r host session original options) s := by
  refine Keeps.seq (safe_readAuthorizedKeys session hs) fun beforeSwap s₁ hs₁ hread => ?_
  obtain ⟨rfl, hwhole⟩ := hread
  have hread := (hs.covered session.host.account).read beforeSwap.content hwhole
  have hold := (hs.covered session.host.account).read beforeSwap.content hrestore.2
  let J : World → Prop := fun s => Covers id session.host.account s.log (lines original.content)
  refine keeps_putFile hs₁ (fun _ => ?_) fun hs₂ => ?_
  · rw [hr.canonical, hr.temp]
    exact hread.mono (keptLines_sublist_swapToCanonical _ _)
  · refine keeps_quiet (J := J) (p := op (.run ⟨host, r.nextKeyPath⟩ .probe)) (.of_perform trivial)
      hs₂ hold.put (fun s s' hsame => hsame.covers) fun (reverify : ExecResult) s₃ hs₃ hold₃ => ?_
    split
    · exact keeps_putFile hs₃ (fun _ => hold₃) fun hs₄ => Keeps.of_done hs₄
    · exact keeps_quiet' (allOps_orThrow (.of_perform trivial)) hs₃ fun _ s₄ hs₄ => Keeps.of_done hs₄

theorem keeps_rotateSession (hr : RotationTags id r) (dryRun : Bool) (host : VopsHost)
    (session : SshTarget) (hs : ForeignKept id s) :
    Keeps (whole publicData id (keptLines id)) (ForeignKept id)
      (rotateSession r dryRun host session) s := by
  refine Keeps.seq (safe_readAuthorizedKeys session hs) fun original s₁ hs₁ hread => ?_
  obtain ⟨rfl, hwhole⟩ := hread
  have hread := (hs.covered session.host.account).read original.content hwhole
  have hlines : List.Sublist (keptLines id original.content) (lines original.content) :=
    keptLines_sublist_lines original.content
  have hrestore : Restorable id session.host.account original.content
      (s.logged (.read session.host.account (s.authorizedKeys session.host.account)
        original.content)) := ⟨hread.mono hlines, hwhole.trans hlines⟩
  change Keeps _ _ (if _ then _ else if _ then _ else _) _
  split
  · exact Keeps.of_done hs₁
  · split
    · exact Keeps.of_done hs₁
    · refine keeps_putIf (J := Restorable id session.host.account original.content) hs₁ hrestore
        (fun _ => ?_) ?_ fun s₂ hs₂ hrestore₂ => ?_
      · rw [lines_upsertOpsLine, hr.temp]
        exact hread.mono ((keptLines_sublist _).trans (List.sublist_append_left _ _))
      · refine ⟨hrestore.1.put, ?_⟩
        rw [World.authorizedKeys_put, World.authorizedKeys_sent]
        have htag : IsTag r.tempTag := hr.temp ▸ (isTag_opsTag id).next
        have hoptions := isOptions_optionsOf original.content r.canonicalTag
        split
        · exact foreign_upsertOpsLine hr.temp (isOpsLine_buildOpsLine hoptions htag)
            (newline_notMem_buildOpsLine hoptions htag)
        · exact hrestore.2
      · refine keeps_quiet (J := Restorable id session.host.account original.content)
          (p := op (.run ⟨host, r.nextKeyPath⟩ .probe)) (.of_perform trivial) hs₂ hrestore₂
          (fun s s' hsame => hsame.restorable) fun (verify : ExecResult) s₃ hs₃ hrestore₃ => ?_
        split
        · refine Keeps.seq (safe_readAuthorizedKeys session hs₃) fun again s₄ hs₄ hread₄ => ?_
          obtain ⟨rfl, hwhole₄⟩ := hread₄
          have hread₄ := (hs₃.covered session.host.account).read again.content hwhole₄
          refine keeps_putFile hs₄ (fun _ => ?_) fun hs₅ => Keeps.of_done hs₅
          rw [lines_removeOpsLine, hr.temp]
          exact hread₄.mono (keptLines_sublist _)
        · exact keeps_swapHost hr host session original _ hs₃ hrestore₃

theorem keeps_rotateHost (hr : RotationTags id r) (dryRun : Bool) (host : VopsHost)
    (hs : ForeignKept id s) :
    Keeps (whole publicData id (keptLines id)) (ForeignKept id) (rotateHost r dryRun host) s := by
  refine keeps_quiet' (p := op .keyStore) (.of_perform trivial) hs fun (keys : KeyStore) s₁ hs₁ => ?_
  refine keeps_quiet' (allOps_pickWorkingTarget (fun _ => trivial) host _) hs₁ fun session s₂ hs₂ => ?_
  cases session with
  | none => exact Keeps.of_done hs₂
  | some session => exact keeps_rotateSession hr dryRun host session hs₂

theorem keeps_rotateFleet (hr : RotationTags id r) (opts : RotateOptions) (fleet : List VopsHost)
    (hs : ForeignKept id s) :
    Keeps (whole publicData id (keptLines id)) (ForeignKept id) (rotateFleet r opts fleet) s := by
  have hloop : Safe (whole publicData id (keptLines id)) (ForeignKept id)
      (fun _ s => ForeignKept id s) (fleet.mapM (rotateHost r opts.dryRun)) s :=
    Safe.mapM (fun host _ s hs => (keeps_rotateHost hr opts.dryRun host hs).safe) (fun s hs => hs) hs
  refine Keeps.seq (hloop.mono fun _ s _ hs a _ => hs) fun results s₁ hs₁ _ => ?_
  refine keeps_of_quiet ?_ hs₁
  change AllOps Quiet (if _ then _ else _)
  split
  · exact quiet_promoteNextOpsKey.bind fun _ => trivial
  · trivial

theorem keeps_rotate (opts : RotateOptions) (hs : ForeignKept id s) :
    Keeps (whole publicData id (keptLines id)) (ForeignKept id) (rotate opts) s := by
  refine keeps_quiet' (p := op .hosts) (.of_perform trivial) hs fun (hosts : List VopsHost) s₁ hs₁ => ?_
  refine keeps_quiet' (allOps_onlyIf _ trivial) hs₁ fun _ s₂ hs₂ => ?_
  refine keeps_quiet' (quiet_ensureKeyFile .next) hs₂ fun next s₃ hs₃ => ?_
  refine Keeps.perform hs₃ fun (profileId : Text) s₄ hprofile => ?_
  obtain ⟨⟨rfl, rfl⟩, -⟩ := hprofile
  refine keeps_quiet' (p := op .acquireLock) (.of_perform trivial) hs₃
    fun (acquired : Bool) s₅ hs₅ => ?_
  have htag := congrArg (fun p => opsTag p.text) hs₃.profileId
  cases acquired with
  | false => exact Keeps.of_done hs₅
  | true =>
      refine Keeps.of_safe (Safe.tryFinally (Q := fun _ _ => True) ?_)
      refine (keeps_rotateFleet ⟨htag, congrArg (· ++ ":next".toList) htag⟩ opts _ hs₅).safe.mono
        fun r s₆ _ hs₆ => ?_
      refine (keeps_of_quiet (p := op .releaseLock) (.of_perform trivial) hs₆).mono fun r' s₇ _ _ => ?_
      cases r' <;> trivial

end Programs

/-- Nothing has happened yet. -/
def World.fresh (s : World) : World := { s with log := [] }

theorem foreignKept_fresh (s : World) : ForeignKept s.profileId s.fresh := by
  refine ⟨rfl, ?_, fun a file got hread => absurd hread (by simp [World.fresh])⟩
  intro before a content after heq
  exact absurd heq (by simp [World.fresh])

/-- The keys of other people survive, whatever is answered, when no read loses a foreign line (and a
rotation finds none of them empty at the end). -/
theorem keys_survive (publicData : Text → Text) (s : World) :
    (∀ name opts t p s', Steps (whole publicData s.profileId toLines)
        (VopsHostKeys.installOps name opts) s.fresh t p s' → KeysSurvive s.profileId s'.log) ∧
    (∀ name opts t p s', Steps (whole publicData s.profileId toLines)
        (VopsHostKeys.revokeOps name opts) s.fresh t p s' → KeysSurvive s.profileId s'.log) ∧
    ∀ opts t p s', Steps (whole publicData s.profileId (keptLines s.profileId))
      (VopsOpsRotation.rotate opts) s.fresh t p s' → KeysSurvive s.profileId s'.log := by
  have hs := foreignKept_fresh s
  refine ⟨?_, ?_, ?_⟩
  · exact fun name opts t p s' h => ((keeps_installOps name opts hs).steps h).survive
  · exact fun name opts t p s' h => ((keeps_revokeOps name opts hs).steps h).survive
  · exact fun opts t p s' h => ((keeps_rotate opts hs).steps h).survive

/-! ## A host with the key of someone else -/

instance (id : ProfileId) (W : Text → List Text) (o : KeyOp) (s : World) (x : o.Answer) :
    Decidable (ReadWhole id W o s x) := by
  unfold ReadWhole
  split <;> infer_instance

namespace AliceHost

def host : VopsHost :=
  { name := "web", address := "192.0.2.1", user := "root", port := 22, opsKeyInstalled := true }

/-- The ops key, its successor, and a key of the user. -/
def keys : KeyStore where
  dir := "keys"
  file
    | .current, .priv => some "AAAAOPS".toList
    | .current, .pub => some "ssh-ed25519 AAAAOPS vops-ops".toList
    | .next, .priv => some "AAAANEXT".toList
    | .next, .pub => some "ssh-ed25519 AAAANEXT vops-ops.next".toList
    | _, _ => none
  users := [⟨"laptop", "ssh-ed25519 AAAAUSER me".toList, "id_ed25519", true, true, .user⟩]

/-- The key of Alice, and the line of the profile. -/
def content : Text := "ssh-ed25519 AAAAALICE alice\nssh-ed25519 AAAAOPS vops-ops:ab\n".toList

def world : World where
  readOnly := false
  profileId := ⟨['a', 'b'], by decide⟩
  hosts := [host]
  keys := keys
  locked := false
  home := fun _ => "/root".toList
  files := fun _ _ => some content
  log := []

/-- Every session opens and every read is whole. -/
def calm : Handler KeyOp KeyOp.Answer World := answering (fun _ _ => false) fun _ _ => false

/-- The connection is lost whenever the keys are read. -/
def losing : Handler KeyOp KeyOp.Answer World := answering (fun _ _ => false) fun _ _ => true

/-- Where every read is whole, installing, revoking and rotating write the key of Alice back. -/
theorem keys_survive_calm :
    KeysSurvive world.profileId (run calm (VopsHostKeys.installOps "web" {}) world.fresh).2.log ∧
    KeysSurvive world.profileId (run calm (VopsHostKeys.revokeOps "web" {}) world.fresh).2.log ∧
    KeysSurvive world.profileId (run calm (VopsOpsRotation.rotate {}) world.fresh).2.log := by
  have h := keys_survive (fun key => key) world
  obtain ⟨t, ht⟩ := Steps.of_checked (surroundings_answering (fun key => key) _ _)
    (by decide +kernel : Checked calm (ReadWhole world.profileId toLines)
      (VopsHostKeys.installOps "web" {}) world.fresh)
  obtain ⟨t', ht'⟩ := Steps.of_checked (surroundings_answering (fun key => key) _ _)
    (by decide +kernel : Checked calm (ReadWhole world.profileId toLines)
      (VopsHostKeys.revokeOps "web" {}) world.fresh)
  obtain ⟨t'', ht''⟩ := Steps.of_checked (surroundings_answering (fun key => key) _ _)
    (by decide +kernel : Checked calm (ReadWhole world.profileId (keptLines world.profileId))
      (VopsOpsRotation.rotate {}) world.fresh)
  exact ⟨h.1 _ _ _ _ _ ht, h.2.1 _ _ _ _ _ ht', h.2.2 _ _ _ _ ht''⟩

/-- Where the connection is lost while the keys are read, the key of Alice is overwritten. -/
theorem not_keys_survive_losing : ¬ ∀ (publicData : Text → Text) (s : World) name opts t p s',
    Steps (surroundings publicData) (VopsHostKeys.installOps name opts) s.fresh t p s' →
      KeysSurvive s.profileId s'.log := by
  intro h
  obtain ⟨t, ht⟩ := Steps.of_checked (surroundings_answering (fun key => key) _ _)
    (by decide +kernel : Checked losing (fun _ _ _ => True)
      (VopsHostKeys.installOps "web" {}) world.fresh)
  have hsurvive := h _ world _ _ _ _ _ (ht.mono fun _ _ _ _ hx => hx.1)
  have hlog : (run losing (VopsHostKeys.installOps "web" {}) world.fresh).2.log =
      [.read host.account content []] ++ .wrote host.account
        "no-agent-forwarding,no-X11-forwarding,no-user-rc ssh-ed25519 AAAAOPS vops-ops:ab\n".toList ::
        [.probed host.account 0] := by
    decide +kernel
  have hcovers := hsurvive _ _ _ _ hlog content [] (by simp)
  exact absurd hcovers (by decide +kernel)

end AliceHost

end Vops.HostOps
