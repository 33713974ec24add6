import Vops.AgentControl.SessionCalls

/-!
# Is revocation terminal?

`resume` looks at the expiry of a session and not at its status, so it brings back a revoked session
that has not expired yet. No other call does.

* `Inactive id` — the stored session is there, is not active, and no token authenticates as it
  (`Inactive.authenticate`).
* `ResumeFails` — the call, if it resumes the session, finds it expired.
* `revocation_terminal_iff` — a revoked session stays inactive along a sequence of calls exactly when
  every call of it satisfies `ResumeFails`.
-/

namespace Vops.AgentSessionManager

variable {env : Env} {w : World} {id : ℕ}

/-! ## Reachable stores -/

theorem sessionsOk_kept : KeptBy env (fun _ _ => True) SessionsOk where
  quiet _ _ := sessionsOk_quiet
  save _ _ _ hw hs hid _ := hw.save (hid ▸ hw.lt hs)
  fresh _ _ _ _ _ _ _ hw' := hw'.save (Nat.lt_succ_self _)

/-- Every sequence of calls keeps the table well formed. -/
theorem sessionsOk_runCalls (calls : List SessionCall) (hw : SessionsOk w) :
    SessionsOk (runCalls env calls w) := by
  induction calls generalizing w with
  | nil => exact hw
  | cons call calls ih => exact ih (sessionsOk_kept.runCall (fun _ _ _ => trivial) hw)

theorem runCalls_append (calls calls' : List SessionCall) :
    runCalls env (calls ++ calls') w = runCalls env calls' (runCalls env calls w) :=
  List.foldl_append

/-! ## Inactive sessions -/

/-- The session is stored, and it is not active. -/
structure Inactive (id : ℕ) (w : World) : Prop where
  ok : SessionsOk w
  stored : ∃ s, w.session id = some s ∧ s.status ≠ .active

/-- The token does not authenticate as the session. -/
def Refused (env : Env) (w : World) (id token : ℕ) : Prop :=
  ∀ s, (Async.run (handle env) (authenticate (some token)) w).1 = .ok s → s.id ≠ id

/-- A record that `authenticateRecord` answers is active. -/
theorem active_of_authenticateRecord {session s : AgentSession}
    (h : (Async.run (handle env) (authenticateRecord session) w).1 = .ok s) :
    s = session ∧ s.status = .active := by
  unfold authenticateRecord at h
  rw [Async.perform_bind, Async.run_await] at h
  split at h
  · rw [Async.run_bind] at h
    cases hr : Async.run (handle env) (expire session) (handle env .now w).2 with
    | mk r w' => cases r <;> simp [hr, throwControl] at h
  · split at h
    · cases h
    · rename_i hactive
      split at h
      · cases h
      · cases h
        exact ⟨rfl, not_not.mp hactive⟩

/-- No token authenticates as an inactive session. -/
theorem Inactive.authenticate (hw : Inactive id w) (token : ℕ) : Refused env w id token := by
  rintro s hs rfl
  obtain ⟨u, hu, hstatus⟩ := hw.stored
  rw [AgentSessionManager.authenticate, Async.perform_bind, Async.run_await] at hs
  cases hfound : (handle env (.getSessionByTokenHash (hashToken token)) w).1 with
  | none => rw [hfound] at hs; cases hs
  | some session =>
      rw [hfound] at hs
      obtain ⟨rfl, hactive⟩ := active_of_authenticateRecord hs
      obtain ⟨r, hr, rfl⟩ := Option.map_eq_some_iff.mp hfound
      have hget := hw.ok.keyed.get_eq (List.mem_of_find?_eq_some hr)
      have hread : w.session r.record.id = some r.record :=
        Option.map_eq_some_iff.mpr ⟨r, hget, rfl⟩
      rw [hread] at hu
      exact hstatus (Option.some.inj hu ▸ hactive)

/-- An inactive session stays inactive when its own updates leave it inactive. -/
theorem inactive_kept (env : Env) (id : ℕ) :
    KeptBy env (fun s u => s.id = id → s.status ≠ .active → u.status ≠ .active) (Inactive id) where
  quiet o w ho hw := by
    refine ⟨sessionsOk_quiet ho hw.ok, ?_⟩
    have hs : (handle env o w).2.sessions = w.sessions := handle_sessions (Op.quiet_writes ho).1
    simpa only [World.session, hs] using hw.stored
  save w s u hw hs hid hP := by
    refine ⟨hw.ok.save (hid ▸ hw.ok.lt hs), ?_⟩
    obtain ⟨t, ht, hstatus⟩ := hw.stored
    by_cases h : u.id = id
    · have hs' : some s = some t := by rw [← hs, ← hid, h, ht]
      obtain rfl := Option.some.inj hs'
      exact ⟨storedSession u, by simp [h], hP (hid.symm.trans h) hstatus⟩
    · exact ⟨t, by simpa [h] using ht, hstatus⟩
  fresh w input repository now expiresAt tokenHash hw hw' := by
    refine ⟨hw'.ok.save (Nat.lt_succ_self _), ?_⟩
    obtain ⟨t, ht, hstatus⟩ := hw'.stored
    have hne : (newRecord input repository w.nextId now expiresAt).id ≠ id :=
      (hw.ok.lt ht).ne'
    exact ⟨t, by simpa [hne] using ht, hstatus⟩

/-! ## What a call does to an inactive session -/

/-- The call, if it resumes the session, finds it expired. -/
def ResumeFails (env : Env) (id : ℕ) (w : World) (call : SessionCall) : Prop :=
  call = .resume id → ∀ s, w.session id = some s → s.limits.expiresAt ≤ env.clock w.answers

/-- An update other than that of `resume` leaves an inactive session inactive. -/
theorem status_of_updates {call : SessionCall} {s u : AgentSession} (h : call.Updates s u)
    (hcall : call ≠ .resume s.id) (hs : s.status ≠ .active) : u.status ≠ .active := by
  cases h with
  | resume s => exact absurd rfl hcall
  | incrementOperation s => exact hs
  | commitProviderSpend s monthlyEur => exact hs
  | extend s expiresAt expires => exact hs
  | grantScope s grant => exact hs
  | narrowScope s u narrow h => exact (narrowRecord_frame h).2.1 ▸ hs
  | _ => exact fun h => nomatch h

/-- What `resume` does: nothing if the session is expired, else it becomes active. -/
theorem runCall_resume (env : Env) {s : AgentSession} (hs : w.session id = some s) :
    if s.limits.expiresAt ≤ env.clock w.answers then
      runCall env (.resume id) w = w.drawn
    else ∃ u, (runCall env (.resume id) w).session id = some u ∧ u.status = .active := by
  have hid := session_id hs
  have hrun : runCall env (.resume id) w = (Async.run (handle env) (resume id) w).2 := run_discard _
  unfold resume at hrun
  simp only [run_showSession_bind, hs, Async.perform_bind, Async.run_await] at hrun
  split
  · rename_i hexp
    rw [hrun, if_pos (show s.limits.expiresAt ≤ (handle env .now w).1 from hexp)]
    rfl
  · rename_i hexp
    rw [hrun, if_neg (show ¬ s.limits.expiresAt ≤ (handle env .now w).1 from hexp)]
    have hs' : (handle env .now w).2.session id = some s := hs
    unfold setStatus
    simp only [run_showSession_bind, hs']
    refine run_saveWithEvent (I := fun v => ∃ u, v.session id = some u ∧ u.status = .active) _ _ _
      (fun o v ho hv => ?_) ⟨storedSession { s with status := .active }, by simp [hid], rfl⟩
    have hsame : (handle env o v).2.sessions = v.sessions := handle_sessions (Op.quiet_writes ho).1
    simpa only [World.session, hsame] using hv

/-- A call that satisfies the condition leaves an inactive session inactive. -/
theorem Inactive.runCall (hw : Inactive id w) {call : SessionCall} (hcall : ResumeFails env id w call) :
    Inactive id (runCall env call w) := by
  by_cases hresume : call = .resume id
  · subst hresume
    obtain ⟨s, hs, hstatus⟩ := hw.stored
    have hrun := runCall_resume env hs
    rw [if_pos (hcall rfl s hs)] at hrun
    rw [hrun]
    exact (inactive_kept env id).quiet .now w rfl hw
  · refine (inactive_kept env id).runCall (fun s u hu hid hs => ?_) hw
    exact status_of_updates hu (fun h => hresume (hid ▸ h)) hs

/-! ## The claim over whole sequences -/

/-- The stored session is not active and no token authenticates as it. -/
def StaysOut (env : Env) (w : World) (id : ℕ) : Prop :=
  (∀ s, w.session id = some s → s.status ≠ .active) ∧ ∀ token, Refused env w id token

theorem Inactive.staysOut (hw : Inactive id w) : StaysOut env w id := by
  refine ⟨fun s hs => ?_, hw.authenticate⟩
  obtain ⟨t, ht, hstatus⟩ := hw.stored
  rw [ht] at hs
  exact Option.some.inj hs ▸ hstatus

/-- Every call of the sequence, in the store it finds, satisfies the condition. -/
theorem inactive_runCalls (calls : List SessionCall) (hw : Inactive id w)
    (hcalls : ∀ pre call post, calls = pre ++ call :: post →
      ResumeFails env id (runCalls env pre w) call) :
    Inactive id (runCalls env calls w) := by
  induction calls generalizing w with
  | nil => exact hw
  | cons call calls ih =>
      refine ih (hw.runCall (hcalls [] call calls rfl)) fun pre c post h => ?_
      exact hcalls (call :: pre) c post (h ▸ rfl)

/-- In every store reached by calls of the session manager, a revoked session stays inactive along
any further calls, and no token authenticates as it, if and only if every `resume` of it among them
finds it expired. -/
theorem revocation_terminal_iff (env : Env) (before after : List SessionCall) (id : ℕ)
    (s : AgentSession) (hs : (runCalls env before World.empty).session id = some s)
    (hrevoked : s.status = .revoked) :
    (∀ pre post, after = pre ++ post → StaysOut env (runCalls env (before ++ pre) World.empty) id) ↔
    ∀ pre call post, after = pre ++ call :: post →
      ResumeFails env id (runCalls env (before ++ pre) World.empty) call := by
  have hok : ∀ calls, SessionsOk (runCalls env calls World.empty) :=
    fun calls => sessionsOk_runCalls calls sessionsOk_empty
  have hstart : Inactive id (runCalls env before World.empty) :=
    ⟨hok before, s, hs, fun h => by rw [hrevoked] at h; cases h⟩
  constructor
  · rintro hout pre call post hafter rfl t ht
    by_contra hexp
    have hrun := runCall_resume env ht
    rw [if_neg hexp] at hrun
    obtain ⟨u, hu, hactive⟩ := hrun
    refine (hout (pre ++ [.resume id]) post (by simpa using hafter)).1 u ?_ hactive
    rw [← List.append_assoc, runCalls_append]
    exact hu
  · intro hcond pre post hafter
    rw [runCalls_append]
    refine (inactive_runCalls pre hstart fun pre' call post' hpre => ?_).staysOut
    rw [← runCalls_append]
    exact hcond pre' call (post' ++ post) (by rw [hafter, hpre]; simp)

/-- The request for a session on a repository. -/
def sampleInput : CreateAgentSessionInput :=
  { client := .codex, objective := "deploy", repository := "/work" }

/-- A session is created and revoked. -/
theorem sampleRevoked : ∃ s,
    (runCalls Env.sample [.create sampleInput, .revoke 1] World.empty).session 1 = some s ∧
    s.status = .revoked :=
  Option.map_eq_some_iff.mp (show Option.map AgentSession.status _ = some .revoked from rfl)

/-- The theorem at a revoked session that is paused next. -/
theorem revocation_terminal_iff_pause :
    (∀ pre post, [.pause 1] = pre ++ post → StaysOut Env.sample
      (runCalls Env.sample ([.create sampleInput, .revoke 1] ++ pre) World.empty) 1) ↔
    ∀ pre call post, [.pause 1] = pre ++ call :: post → ResumeFails Env.sample 1
      (runCalls Env.sample ([.create sampleInput, .revoke 1] ++ pre) World.empty) call := by
  obtain ⟨s, hs, hrevoked⟩ := sampleRevoked
  exact revocation_terminal_iff Env.sample _ [.pause 1] 1 s hs hrevoked

/-- Create, revoke, resume: the session is active again. -/
theorem resume_reactivates_revoked : ¬ ∀ (env : Env) (before after : List SessionCall) (id : ℕ)
    (s : AgentSession), (runCalls env before World.empty).session id = some s →
    s.status = .revoked → ∀ pre post, after = pre ++ post →
      StaysOut env (runCalls env (before ++ pre) World.empty) id := by
  intro h
  obtain ⟨s, hs, hrevoked⟩ := sampleRevoked
  have hout := h Env.sample _ [.resume 1] 1 s hs hrevoked [.resume 1] [] rfl
  have hactive : ((runCalls Env.sample ([.create sampleInput, .revoke 1] ++ [.resume 1])
      World.empty).session 1).map AgentSession.status = some .active := by decide +kernel
  obtain ⟨t, ht, hstatus⟩ := Option.map_eq_some_iff.mp hactive
  exact hout.1 t ht hstatus

end Vops.AgentSessionManager
