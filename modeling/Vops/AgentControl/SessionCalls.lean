import Vops.AgentControl.AgentSessionManager

/-!
# Runs of session manager calls

* `SessionCall` — a call of `AgentSessionManager`, with its arguments; `SessionCall.prog` is the method.
* `runCall`, `runCalls` — one call, a sequence of calls, each executed to its end.
* `run_showSession_bind`, `run_saveWithEvent` — how the methods read and write a record.
* `SessionsOk` — the table has one row for each identifier, and all of them have been drawn; every
  call keeps it (`sessionsOk_runCall`).
-/

namespace Vops.AgentSessionManager

/-- A call of the session manager. -/
inductive SessionCall
  | create (input : CreateAgentSessionInput)
  | authenticate (token : Option ℕ)
  | list
  | pause (id : ℕ)
  | resume (id : ℕ)
  | revoke (id : ℕ)
  | stopAll
  | incrementOperation (id : ℕ)
  | commitProviderSpend (id : ℕ) (monthlyEur : Json)
  | extendForConditionalIntent (id : ℕ) (expiresAt : DateText)
  | grantScope (id : ℕ) (grant : GrantInput)
  | narrowScope (id : ℕ) (narrow : NarrowInput)

/-- Run a method for its effect. -/
def discard {α : Type} (p : Prog α) : Prog Unit := p >>= fun _ => pure ()

/-- The method that is called. -/
def SessionCall.prog : SessionCall → Prog Unit
  | create input => discard (AgentSessionManager.create input)
  | authenticate token => discard (AgentSessionManager.authenticate token)
  | list => discard AgentSessionManager.list
  | pause id => discard (AgentSessionManager.pause id)
  | resume id => discard (AgentSessionManager.resume id)
  | revoke id => discard (AgentSessionManager.revoke id)
  | stopAll => discard AgentSessionManager.stopAll
  | incrementOperation id => discard (AgentSessionManager.incrementOperation id)
  | commitProviderSpend id monthlyEur =>
      discard (AgentSessionManager.commitProviderSpend id monthlyEur)
  | extendForConditionalIntent id expiresAt =>
      discard (AgentSessionManager.extendForConditionalIntent id expiresAt)
  | grantScope id grant => discard (AgentSessionManager.grantScope id grant)
  | narrowScope id narrow => discard (AgentSessionManager.narrowScope id narrow)

variable (env : Env)

/-- One call, executed to its end. -/
def runCall (call : SessionCall) (w : World) : World := (Async.run (handle env) call.prog w).2

/-- A sequence of calls. -/
def runCalls (calls : List SessionCall) (w : World) : World :=
  calls.foldl (fun w call => runCall env call w) w

variable {env} {w : World} {α β : Type}

/-! ## Reading and writing a record -/

theorem run_bind_state (p : Prog α) (f : α → Prog β) (w : World) :
    (Async.run (handle env) (p >>= f) w).2 =
      match Async.run (handle env) p w with
      | (.ok a, w') => (Async.run (handle env) (f a) w').2
      | (.error _, w') => w' := by
  rw [Async.run_bind]
  cases Async.run (handle env) p w with
  | mk r w' => cases r <;> rfl

/-- Discarding the result changes nothing. -/
@[simp] theorem run_discard (p : Prog α) :
    (Async.run (handle env) (discard p) w).2 = (Async.run (handle env) p w).2 := by
  unfold discard
  rw [run_bind_state]
  cases Async.run (handle env) p w with
  | mk r w' => cases r <;> rfl

/-- Reading a record, then going on with it: the method fails when it is not there. -/
theorem showSession_bind (id : ℕ) (f : AgentSession → Prog β) :
    ∃ e, (showSession id >>= f) = .await (.getSession id) fun found =>
      match found with
      | some s => f s
      | none => .done (.error e) := by
  let name := idText "ses" id
  refine ⟨.control { code := .notFound, message := s!"Agent session '{name}' was not found." }, ?_⟩
  refine congrArg (Async.await _) (funext fun found => ?_)
  cases found <;> rfl

/-- Reading a record: it is there, or the method fails without an effect. -/
theorem run_showSession_bind (id : ℕ) (f : AgentSession → Prog β) :
    (Async.run (handle env) (showSession id >>= f) w).2 =
      match w.session id with
      | some s => (Async.run (handle env) (f s) w).2
      | none => w := by
  have hread : (handle env (.getSession id) w).1 = w.session id := rfl
  obtain ⟨e, he⟩ := showSession_bind id f
  rw [he, Async.run_await, hread]
  cases w.session id <;> rfl

/-- Reading a record is quiet. -/
theorem showSession_quiet (id : ℕ) : (showSession id).AllOps (·.quiet = true) :=
  ⟨rfl, fun found => by cases found <;> trivial⟩

/-- A method that starts by reading a record keeps what the rest of it keeps. -/
theorem run_showSession_bind_keeps {I : World → Prop} {id : ℕ} {f : AgentSession → Prog α}
    (hw : I w)
    (hf : ∀ s, s.id = id → w.session s.id = some s → I (Async.run (handle env) (f s) w).2) :
    I (Async.run (handle env) (showSession id >>= f) w).2 := by
  rw [run_showSession_bind]
  cases hs : w.session id with
  | none => exact hw
  | some s =>
      have hid := session_id hs
      exact hf s hid (hid.symm ▸ hs)

/-- An event is appended quietly. -/
theorem event_quiet (s : AgentSession) (eventType summary : String) :
    (event s eventType summary).AllOps (·.quiet = true) := by
  refine Async.AllOps.bind (Async.AllOps.of_perform rfl) fun eventId => ?_
  refine Async.AllOps.bind (Async.AllOps.of_perform rfl) fun timestamp => ?_
  exact Async.AllOps.bind (appendEvent_quiet _) fun _ => Async.AllOps.of_done _

/-- What quiet operations and saving this record keep, `saveWithEvent` keeps. -/
theorem run_saveWithEvent {I : World → Prop} (u : AgentSession) (eventType summary : String)
    (hquiet : ∀ o w, o.quiet = true → I w → I (handle env o w).2)
    (hsave : I (w.saveSession u none)) :
    I (Async.run (handle env) (saveWithEvent u eventType summary) w).2 := by
  have hprog : saveWithEvent u eventType summary = .await (.saveSession u none) fun _ =>
      event u eventType summary >>= fun _ => pure u := rfl
  rw [hprog, Async.run_await]
  exact ((event_quiet u eventType summary).bind fun _ => Async.AllOps.of_done _).run_keeps
    (fun o w ho hw => hquiet o w ho hw) hsave

/-- A commitment that is refused ends in an error, without an operation. -/
theorem refuseSpend_eq (s : AgentSession) (monthlyEur : Json) :
    ∃ e, refuseSpend s monthlyEur = .done (.error e) := by
  unfold refuseSpend
  cases monthlyEur <;> cases s.limits.maxProviderSpendEur <;> exact ⟨_, rfl⟩

/-- Refusing a commitment changes nothing. -/
theorem refuseSpend_quiet (s : AgentSession) (monthlyEur : Json) :
    (refuseSpend s monthlyEur).AllOps (·.quiet = true) := by
  obtain ⟨e, he⟩ := refuseSpend_eq s monthlyEur
  rw [he]
  trivial

/-- After the record is saved, a commitment only records its event. -/
theorem commitEvent_quiet (s : AgentSession) (monthlyEur : Json) :
    (commitEvent s monthlyEur).AllOps (·.quiet = true) := by
  unfold commitEvent
  cases monthlyEur <;> cases s.limits.maxProviderSpendEur <;>
    first | trivial | exact (event_quiet _ _ _).bind fun _ => Async.AllOps.of_done _

/-- Looking for expired sessions only reads the clock. -/
theorem expiredAmong_quiet (sessions : List AgentSession) :
    (expiredAmong sessions).AllOps (·.quiet = true) := by
  induction sessions with
  | nil => trivial
  | cons session sessions ih =>
      unfold expiredAmong
      split
      · exact ⟨rfl, fun now => ih.bind fun rest => Async.AllOps.of_done _⟩
      · exact ih

/-! ## The table of sessions -/

/-- One row for each identifier, and every identifier has been drawn. -/
structure SessionsOk (w : World) : Prop where
  keyed : Table.Keyed SessionRow.id w.sessions
  drawn : ∀ r ∈ w.sessions, r.id < w.nextId

/-- A session that is stored has an identifier that was drawn. -/
theorem SessionsOk.lt {id : ℕ} {s : AgentSession} (hw : SessionsOk w) (h : w.session id = some s) :
    id < w.nextId := by
  obtain ⟨r, hr, rfl, hid⟩ := mem_of_session h
  have := hw.drawn r hr
  rwa [show r.id = r.record.id from rfl, hid] at this

/-- A record with an identifier that was drawn can be saved. -/
theorem SessionsOk.save {s : AgentSession} {tokenHash : Option TokenHash} (hw : SessionsOk w)
    (hs : s.id < w.nextId) : SessionsOk (w.saveSession s tokenHash) := by
  refine ⟨hw.keyed.upsert, fun r hr => ?_⟩
  rcases Table.mem_upsert hr with rfl | hr
  · exact hs
  · exact hw.drawn r hr

theorem sessionsOk_quiet {o : Op} (ho : o.quiet = true) (hw : SessionsOk w) :
    SessionsOk (handle env o w).2 := by
  have hs : (handle env o w).2.sessions = w.sessions := handle_sessions (Op.quiet_writes ho).1
  refine ⟨hs ▸ hw.keyed, fun r hr => ?_⟩
  rw [hs] at hr
  exact (hw.drawn r hr).trans_le handle_nextId

theorem sessionsOk_empty : SessionsOk World.empty := ⟨by simp [World.empty, Table.Keyed], by simp [World.empty]⟩

/-! ## What a call may write -/

/-- `call` may save the record `u` in place of the stored record `s`. -/
inductive SessionCall.Updates : SessionCall → AgentSession → AgentSession → Prop
  | authenticate (token : Option ℕ) (s) :
      Updates (.authenticate token) s { s with status := .expired }
  | list (s) : Updates .list s { s with status := .expired }
  | pause (s) : Updates (.pause s.id) s { s with status := .paused }
  | resume (s) : Updates (.resume s.id) s { s with status := .active }
  | revoke (s) : Updates (.revoke s.id) s { s with status := .revoked }
  | stopAll_expired (s) : Updates .stopAll s { s with status := .expired }
  | stopAll (s) : Updates .stopAll s { s with status := .revoked }
  | incrementOperation (s) :
      Updates (.incrementOperation s.id) s { s with operationCount := s.operationCount + 1 }
  | commitProviderSpend (s) (monthlyEur : Json) :
      Updates (.commitProviderSpend s.id monthlyEur) s (spendRecord s monthlyEur)
  | extend (s) (expiresAt : DateText) (expires : ℤ) :
      Updates (.extendForConditionalIntent s.id expiresAt) s (extendRecord s expires)
  | grantScope (s) (grant : GrantInput) :
      Updates (.grantScope s.id grant) s (grantRecord s grant)
  | narrowScope (s u) (narrow : NarrowInput) (h : narrowRecord s narrow = .ok u) :
      Updates (.narrowScope s.id narrow) s u

/-- A narrowed record keeps its identifier, its status and what has been used up. -/
theorem narrowRecord_frame {s u : AgentSession} {narrow : NarrowInput}
    (h : narrowRecord s narrow = .ok u) : u.id = s.id ∧ u.status = s.status ∧
      u.operationCount = s.operationCount ∧ u.providerSpendEur = s.providerSpendEur := by
  cases he : narrow.expiresAt with
  | invalid => simp only [narrowRecord, he] at h; cases h
  | _ =>
      simp only [narrowRecord, he] at h
      obtain rfl := Except.ok.inj h
      exact ⟨rfl, rfl, rfl, rfl⟩

/-- `I` is kept by quiet operations, by the record of a new session, and by any record saved in place
of a stored one to which `P` relates it. -/
structure KeptBy (env : Env) (P : AgentSession → AgentSession → Prop) (I : World → Prop) : Prop where
  quiet : ∀ o w, o.quiet = true → I w → I (handle env o w).2
  save : ∀ w s u, I w → w.session s.id = some s → u.id = s.id → P s u → I (w.saveSession u none)
  fresh : ∀ w input repository now expiresAt tokenHash, I w → I { w with nextId := w.nextId + 1 } →
    I (({ w with nextId := w.nextId + 1 } : World).saveSession
      (newRecord input repository w.nextId now expiresAt) tokenHash)

namespace KeptBy

variable {P : AgentSession → AgentSession → Prop} {I : World → Prop}

/-- A program of quiet operations. -/
theorem allQuiet (hI : KeptBy env P I) {p : Prog α} (hp : p.AllOps (·.quiet = true)) (hw : I w) :
    I (Async.run (handle env) p w).2 :=
  hp.run_keeps (fun o w ho hw => hI.quiet o w ho hw) hw

/-- A method that ends by saving `u` in place of `s`. -/
theorem saveWithEvent (hI : KeptBy env P I) {s u : AgentSession} (hw : I w)
    (hs : w.session s.id = some s) (hid : u.id = s.id) (hP : P s u) (eventType summary : String) :
    I (Async.run (handle env) (AgentSessionManager.saveWithEvent u eventType summary) w).2 :=
  run_saveWithEvent u eventType summary hI.quiet (hI.save w s u hw hs hid hP)

theorem setStatus (hI : KeptBy env P I) {id : ℕ} {status : AgentSessionStatus} (hw : I w)
    (hP : ∀ s : AgentSession, s.id = id → P s { s with status := status }) :
    I (Async.run (handle env) (AgentSessionManager.setStatus id status) w).2 :=
  run_showSession_bind_keeps hw fun s hid hs =>
    hI.saveWithEvent (u := { s with status := status }) hw hs rfl (hP s hid) _ _

theorem setStatusAll (hI : KeptBy env P I) {status : AgentSessionStatus}
    (hP : ∀ s : AgentSession, P s { s with status := status }) (sessions : List AgentSession)
    (hw : I w) :
    I (Async.run (handle env) (AgentSessionManager.setStatusAll status sessions) w).2 := by
  induction sessions generalizing w with
  | nil => exact hw
  | cons session sessions ih =>
      refine Async.run_bind_keeps (hI.setStatus hw fun s _ => hP s) fun updated w' hw' => ?_
      exact Async.run_bind_keeps (ih hw') fun rest w'' hw'' => hw''

theorem list (hI : KeptBy env P I) (hP : ∀ s : AgentSession, P s { s with status := .expired })
    (hw : I w) : I (Async.run (handle env) AgentSessionManager.list w).2 := by
  refine Async.run_bind_keeps (hI.quiet .listSessions w rfl hw) fun sessions w₁ h₁ => ?_
  refine Async.run_bind_keeps (hI.allQuiet (expiredAmong_quiet sessions) h₁) fun expired w₂ h₂ => ?_
  refine Async.run_bind_keeps (hI.setStatusAll hP expired h₂) fun _ w₃ h₃ => ?_
  exact hI.quiet .listSessions w₃ rfl h₃

theorem expire (hI : KeptBy env P I) (hP : ∀ s : AgentSession, P s { s with status := .expired })
    (session : AgentSession) (hw : I w) :
    I (Async.run (handle env) (AgentSessionManager.expire session) w).2 := by
  unfold AgentSessionManager.expire
  split
  · exact hw
  · exact Async.run_bind_keeps (hI.setStatus hw fun s _ => hP s) fun _ w' hw' => hw'

theorem authenticateRecord (hI : KeptBy env P I)
    (hP : ∀ s : AgentSession, P s { s with status := .expired }) (session : AgentSession)
    (hw : I w) : I (Async.run (handle env) (AgentSessionManager.authenticateRecord session) w).2 := by
  refine Async.run_bind_keeps (hI.quiet .now w rfl hw) fun now w₁ h₁ => ?_
  split
  · exact Async.run_bind_keeps (hI.expire hP session h₁) fun _ w₂ h₂ => h₂
  · split
    · exact h₁
    · split <;> exact h₁

theorem authenticate (hI : KeptBy env P I)
    (hP : ∀ s : AgentSession, P s { s with status := .expired }) (token : Option ℕ)
    (hw : I w) : I (Async.run (handle env) (AgentSessionManager.authenticate token) w).2 := by
  cases token with
  | none => exact hw
  | some token =>
      refine Async.run_bind_keeps (hI.quiet (.getSessionByTokenHash (hashToken token)) w rfl hw) fun found w₁ h₁ => ?_
      cases found with
      | none => exact h₁
      | some session => exact hI.authenticateRecord hP session h₁

theorem create (hI : KeptBy env P I) (input : CreateAgentSessionInput) (hw : I w) :
    I (Async.run (handle env) (AgentSessionManager.create input) w).2 := by
  unfold AgentSessionManager.create
  split
  · exact hw
  have hrepo : (resolveRepository input.repository).AllOps (·.quiet = true) := by
    refine ⟨rfl, fun r => ?_⟩
    cases r with
    | error e => trivial
    | ok path => exact ⟨rfl, fun b => by cases b <;> trivial⟩
  refine Async.run_bind_keeps (hI.allQuiet hrepo hw) fun repository w₁ h₁ => ?_
  refine Async.run_bind_keeps (hI.quiet .now w₁ rfl h₁) fun now w₂ h₂ => ?_
  refine Async.run_bind_keeps (hI.quiet .localId w₂ rfl h₂) fun token w₃ h₃ => ?_
  have h₄ := hI.quiet .localId w₃ rfl h₃
  simp only [Async.perform_bind, Async.run_await]
  cases hexp : expiryOf now (JsNum.max 1 (JsNum.min (input.expiresInMinutes.getD 60) 720)) with
  | error e => exact h₄
  | ok expiresAt =>
      simp only [liftExcept, Async.pure_eq, Async.ok_bind, Async.run_await]
      have hsave := hI.fresh w₃ input repository now expiresAt (some (hashToken token)) h₃ h₄
      exact hI.allQuiet ((event_quiet _ _ _).bind fun _ => Async.AllOps.of_done _) hsave

theorem extend (hI : KeptBy env P I) {s : AgentSession} {expiresAt : DateText} (hw : I w)
    (hs : w.session s.id = some s) (hP : ∀ expires, P s (extendRecord s expires)) :
    I (Async.run (handle env) (extendRecordUntil s expiresAt) w).2 := by
  unfold extendRecordUntil
  split
  · cases expiresAt with
    | empty => exact hw
    | invalid => exact hw
    | «at» expires =>
        have hnow := hI.quiet .now w rfl hw
        have hnow' := hI.quiet .now _ rfl hnow
        simp only [Async.perform_bind, Async.run_await]
        split
        · exact hnow
        · rw [Async.run_await]
          split
          · exact hnow'
          · exact hI.saveWithEvent (s := s) (u := extendRecord s expires) hnow' hs rfl (hP expires) _ _
  · exact hw

/-- Every call keeps what its updates keep. -/
theorem runCall (hI : KeptBy env P I) {call : SessionCall}
    (hP : ∀ s u, call.Updates s u → P s u) (hw : I w) :
    I (AgentSessionManager.runCall env call w) := by
  unfold AgentSessionManager.runCall
  cases call with
  | create input => exact (run_discard _).symm ▸ hI.create input hw
  | authenticate token =>
      exact (run_discard _).symm ▸ hI.authenticate (fun s => hP _ _ (.authenticate token s)) token hw
  | list => exact (run_discard _).symm ▸ hI.list (fun s => hP _ _ (.list s)) hw
  | pause id =>
      refine (run_discard _).symm ▸ hI.setStatus hw fun s hid => ?_
      subst hid
      exact hP _ _ (.pause s)
  | revoke id =>
      refine (run_discard _).symm ▸ hI.setStatus hw fun s hid => ?_
      subst hid
      exact hP _ _ (.revoke s)
  | resume id =>
      refine (run_discard _).symm ▸ run_showSession_bind_keeps hw fun s hid hs => ?_
      refine Async.run_bind_keeps (hI.quiet .now w rfl hw) fun now w₁ h₁ => ?_
      split
      · exact h₁
      · refine hI.setStatus h₁ fun s hid => ?_
        subst hid
        exact hP _ _ (.resume s)
  | stopAll =>
      refine (run_discard _).symm ▸ Async.run_bind_keeps
        (hI.list (fun s => hP _ _ (.stopAll_expired s)) hw) fun sessions w₁ h₁ => ?_
      exact hI.setStatusAll (fun s => hP _ _ (.stopAll s)) _ h₁
  | incrementOperation id =>
      refine (run_discard _).symm ▸ run_showSession_bind_keeps hw fun s hid hs => ?_
      subst hid
      exact hI.save _ s _ hw hs rfl (hP _ _ (.incrementOperation s))
  | commitProviderSpend id monthlyEur =>
      refine (run_discard _).symm ▸ run_showSession_bind_keeps hw fun s hid hs => ?_
      subst hid
      have hsave := hI.save w s (spendRecord s monthlyEur) hw hs rfl
        (hP _ _ (.commitProviderSpend s monthlyEur))
      unfold commitRecord
      split
      · exact hI.allQuiet (refuseSpend_quiet s monthlyEur) hw
      · exact Async.run_bind_keeps hsave fun _ w₁ h₁ =>
          hI.allQuiet (commitEvent_quiet s monthlyEur) h₁
  | extendForConditionalIntent id expiresAt =>
      refine (run_discard _).symm ▸ run_showSession_bind_keeps hw fun s hid hs => ?_
      subst hid
      exact hI.extend hw hs fun expires => hP _ _ (.extend s expiresAt expires)
  | grantScope id grant =>
      refine (run_discard _).symm ▸ run_showSession_bind_keeps hw fun s hid hs => ?_
      subst hid
      exact hI.saveWithEvent (u := grantRecord s grant) hw hs rfl (hP _ _ (.grantScope s grant)) _ _
  | narrowScope id narrow =>
      refine (run_discard _).symm ▸ run_showSession_bind_keeps hw fun s hid hs => ?_
      subst hid
      cases hu : narrowRecord s narrow with
      | error e => exact hw
      | ok u =>
          exact hI.saveWithEvent hw hs (narrowRecord_frame hu).1 (hP _ _ (.narrowScope s u narrow hu)) _ _

end KeptBy

end Vops.AgentSessionManager
