import Vops.Lib.Interleave
import Vops.AgentControl.SessionCalls
import Mathlib.Algebra.BigOperators.Group.Finset.Piecewise
import Mathlib.Algebra.Order.BigOperators.Group.Finset
import Mathlib.Tactic.FinCases

/-!
# Interleaved updates of one session

`commitProviderSpend`, `incrementOperation`, `revoke`, `narrowScope` and `grantScope` read the whole
record and later write the whole record. When two calls overlap, the second write may undo the first.

* `Update`, `Update.call` — a call of one of the five methods.
* `UpdateStep`, `follows_update` — the two phases of a call: before and after it writes its record.
* `NothingLost` — the condition: a call writes what it makes of the record as it is stored at that
  moment.
* `NoLostUpdate`, `updates_add_up` — along every schedule under the condition the counter counts the
  increments, the spend is the sum of the commitments, each within the limit in force, and a revoked
  session stays revoked.
-/

set_option linter.unusedSectionVars false

namespace Vops.AgentSessionManager

open scoped BigOperators

/-! ## Calls and phases -/

/-- A call of one of the five methods. -/
inductive Update
  | commitProviderSpend (monthlyEur : JsNum)
  | incrementOperation
  | revoke
  | narrowScope (narrow : NarrowInput)
  | grantScope (grant : GrantInput)
deriving DecidableEq

/-- The call, on the session `id`. -/
def Update.call (id : ℕ) : Update → SessionCall
  | commitProviderSpend monthlyEur => .commitProviderSpend id (.num monthlyEur)
  | incrementOperation => .incrementOperation id
  | revoke => .revoke id
  | narrowScope narrow => .narrowScope id narrow
  | grantScope grant => .grantScope id grant

/-- Where a call stands: before it has written its record, or after. -/
inductive UpdatePhase
  | unsaved
  | saved (u : AgentSession)

/-- What the code has checked of the record it writes: a commitment is within the limit. -/
def Update.Checked : Update → AgentSession → Prop
  | commitProviderSpend _, u => (JsNum.ofField u.limits.maxProviderSpendEur).lt
      (JsNum.ofField u.providerSpendEur) = false
  | _, _ => True

/-- The steps of a call: it reads and records events, and writes its record once. -/
inductive UpdateStep (c : Update) : Async.Protocol Op Res UpdatePhase
  | quiet (φ : UpdatePhase) (o : Op) (x : Res o) (ho : o.quiet = true) : UpdateStep c φ o x φ
  | save (u : AgentSession) (hu : c.Checked u) :
      UpdateStep c .unsaved (.saveSession u none) () (.saved u)

/-- How a call ends: with its record written, or with an error. An error after the write is that of a
commitment in a session without a limit. -/
def UpdateEnd {α : Type} (c : Update) : Except Failure α → UpdatePhase → Prop
  | .ok _, .saved _ => True
  | .ok _, .unsaved => False
  | .error _, .unsaved => True
  | .error _, .saved u => (∃ n, c = .commitProviderSpend n) ∧ u.limits.maxProviderSpendEur = none

variable {env : Env} {c : Update} {φ : UpdatePhase} {α : Type}

/-! ## Every call follows the two phases -/

/-- Recording an event leaves the phase as it is and does not fail. -/
theorem follows_event {β : Type} (u : AgentSession) (b : β) (eventType summary : String)
    (hb : UpdateEnd c (.ok b : Except Failure β) φ) :
    Async.Follows (UpdateStep c) (UpdateEnd c) (event u eventType summary >>= fun _ => pure b) φ :=
  fun _ => ⟨φ, .quiet φ _ _ rfl, fun _ => ⟨φ, .quiet φ _ _ rfl, fun _ => ⟨φ, .quiet φ _ _ rfl,
    fun _ => ⟨φ, .quiet φ _ _ rfl, fun _ => ⟨φ, .quiet φ _ _ rfl, hb⟩⟩⟩⟩⟩

/-- A record that has been checked is written, and the event recorded. -/
theorem follows_saveWithEvent {u : AgentSession} (hu : c.Checked u) (eventType summary : String) :
    Async.Follows (UpdateStep c) (UpdateEnd c) (saveWithEvent u eventType summary) .unsaved :=
  Async.Follows.of_await fun _ => ⟨.saved u, .save u hu, follows_event u u eventType summary trivial⟩

/-- A method that starts by reading the record. -/
theorem follows_showSession_bind {id : ℕ} {f : AgentSession → Prog α}
    (hf : ∀ s, Async.Follows (UpdateStep c) (UpdateEnd c) (f s) .unsaved) :
    Async.Follows (UpdateStep c) (UpdateEnd c) (showSession id >>= f) .unsaved :=
  Async.Follows.of_allOps_bind (showSession_quiet id) (fun o x ho => .quiet _ o x ho) hf
    fun _ => trivial

/-- The result of a call is discarded; how it ends stays. -/
theorem follows_discard {p : Prog α} (hp : Async.Follows (UpdateStep c) (UpdateEnd c) p φ) :
    Async.Follows (UpdateStep c) (UpdateEnd c) (discard p) φ :=
  Async.Follows.bind (hp.mono fun r φ hr => by cases r <;> cases φ <;> exact hr)

/-- A commitment that is within the limit is written; the event needs a limit to name. -/
theorem follows_commit {s : AgentSession} {monthlyEur : JsNum}
    (hu : (Update.commitProviderSpend monthlyEur).Checked (spendRecord s (.num monthlyEur))) :
    Async.Follows (UpdateStep (.commitProviderSpend monthlyEur))
      (UpdateEnd (.commitProviderSpend monthlyEur))
      (perform (.saveSession (spendRecord s (.num monthlyEur)) none) >>= fun _ =>
        commitEvent s (.num monthlyEur)) .unsaved := by
  refine Async.Follows.of_await fun _ => ⟨.saved _, .save _ hu, ?_⟩
  unfold commitEvent
  cases hmax : s.limits.maxProviderSpendEur with
  | none => exact ⟨⟨monthlyEur, rfl⟩, hmax⟩
  | some limit => exact follows_event _ _ _ _ trivial

/-- Every call reads, writes its record at most once, and has written it when it returns. -/
theorem follows_update (id : ℕ) (c : Update) :
    Async.Follows (UpdateStep c) (UpdateEnd c) (c.call id).prog .unsaved := by
  cases c with
  | commitProviderSpend monthlyEur =>
      refine follows_discard (follows_showSession_bind fun s => ?_)
      unfold commitRecord
      split
      · unfold refuseSpend
        cases s.limits.maxProviderSpendEur <;> exact Async.Follows.of_done trivial
      · rename_i hlimit
        exact follows_commit (Bool.eq_false_iff.mpr hlimit)
  | incrementOperation =>
      refine follows_discard (follows_showSession_bind fun s => ?_)
      exact Async.Follows.of_await fun _ => ⟨.saved _, .save _ trivial, trivial⟩
  | revoke =>
      exact follows_discard (follows_showSession_bind fun s =>
        follows_saveWithEvent (c := .revoke) (u := { s with status := .revoked }) trivial _ _)
  | narrowScope narrow =>
      refine follows_discard (follows_showSession_bind fun s => ?_)
      cases narrowRecord s narrow with
      | error e => exact Async.Follows.of_done trivial
      | ok u => exact follows_saveWithEvent (c := .narrowScope narrow) (u := u) trivial _ _
  | grantScope grant =>
      exact follows_discard (follows_showSession_bind fun s =>
        follows_saveWithEvent (c := .grantScope grant) (u := grantRecord s grant) trivial _ _)

/-! ## What an update does to the tally -/

/-- The provider spend of a record, as a number. -/
def spent (s : AgentSession) : ℚ :=
  match JsNum.ofField s.providerSpendEur with
  | .fin q => q
  | _ => 0

/-- What a call adds to the provider spend. -/
def Update.amount : Update → ℚ
  | commitProviderSpend (.fin q) => q
  | _ => 0

/-- What a call adds to the operation counter. -/
def Update.counted : Update → ℕ
  | incrementOperation => 1
  | _ => 0

/-- The amount of a commitment is a number, and not a negative one. -/
def Update.WellFormed (c : Update) : Prop :=
  ∀ n, c = .commitProviderSpend n → ∃ q : ℚ, 0 ≤ q ∧ n = .fin q

/-- What an update by the call `c` makes of a record whose spend is the number `a`. -/
structure Tallied (c : Update) (a : ℚ) (s u : AgentSession) : Prop where
  id_eq : u.id = s.id
  operationCount : u.operationCount = s.operationCount + c.counted
  spend : JsNum.ofField u.providerSpendEur = .fin (a + c.amount)
  revoked : c = .revoke → u.status = .revoked
  stays_revoked : s.status = .revoked → u.status = .revoked
  limits : (∃ n, c = .commitProviderSpend n) → u.limits = s.limits

/-- Every update of a call counts its increment and books its amount. -/
theorem tallied_of_updates {id : ℕ} {s u : AgentSession} {a : ℚ} (h : (c.call id).Updates s u)
    (hc : c.WellFormed) (ha : JsNum.ofField s.providerSpendEur = .fin a) : Tallied c a s u := by
  cases c with
  | commitProviderSpend n =>
      obtain ⟨q, hq, rfl⟩ := hc n rfl
      cases h
      have hspend : committedTotal s (.num (.fin q)) = .fin (a + q) := by
        simp [committedTotal, ha, Json.toNumber, hq]
      exact ⟨rfl, rfl, hspend, nofun, id, fun _ => rfl⟩
  | incrementOperation =>
      cases h
      exact ⟨rfl, rfl, ha.trans (by simp [Update.amount]), nofun, id, nofun⟩
  | revoke =>
      cases h
      exact ⟨rfl, rfl, ha.trans (by simp [Update.amount]), fun _ => rfl, fun _ => rfl, nofun⟩
  | narrowScope narrow =>
      cases h with
      | narrowScope _ _ _ hu =>
          obtain ⟨hid, hstatus, hcount, hspend⟩ := narrowRecord_frame hu
          refine ⟨hid, hcount, ?_, nofun, fun hs => hstatus.trans hs, nofun⟩
          rw [hspend, ha, Update.amount, add_zero]
          exact nofun
  | grantScope grant =>
      cases h
      exact ⟨rfl, rfl, ha.trans (by simp [Update.amount]), nofun, id, nofun⟩

/-! ## Interleaved calls -/

/-- The calls of a pool, and the record of what they did. -/
abbrev Updates (ι : Type) := Pool Op Res Failure Unit ι (World × List (Pool.Event Op ι World))

variable {ι : Type} [Fintype ι] [DecidableEq ι]

/-- The calls on the session `id`, before the first operation. -/
def startUpdates (id : ℕ) (calls : ι → Update) (w : World) : Updates ι :=
  ⟨(w, []), fun i => ((calls i).call id).prog⟩

/-- The record that a program writes next, if its next operation writes one. -/
def writing : Prog Unit → Option AgentSession
  | .await (.saveSession u _) _ => some u
  | _ => none

/-- The condition on a step: a call that writes a record writes what it makes of the record as it is
stored at that moment. -/
def NothingLost (id : ℕ) (calls : ι → Update) (p : Updates ι) (i : ι) : Prop :=
  ∀ u, writing (p.task i) = some u →
    ∃ s, p.state.1.session id = some s ∧ ((calls i).call id).Updates s u

/-- The call has returned normally. -/
def completed (p : Updates ι) (i : ι) : Bool :=
  match p.task i with
  | .done (.ok _) => true
  | _ => false

/-- What a call in this phase has added to the counter. -/
def countedIn (c : Update) : UpdatePhase → ℕ
  | .unsaved => 0
  | .saved _ => c.counted

/-- What a call in this phase has added to the spend. -/
def bookedIn (c : Update) : UpdatePhase → ℚ
  | .unsaved => 0
  | .saved _ => c.amount

/-- A recorded write of a commitment was within the limit of the record it replaced. -/
def WithinLimit (id : ℕ) (calls : ι → Update) (e : Pool.Event Op ι World) : Prop :=
  ∀ u tokenHash n, e.op = .saveSession u tokenHash → calls e.task = .commitProviderSpend n →
    ∃ s, e.before.session id = some s ∧
      (JsNum.ofField u.providerSpendEur).le (JsNum.ofField s.limits.maxProviderSpendEur) = true

/-- The record is the sum of what the calls have written. -/
structure AddsUp (id : ℕ) (calls : ι → Update) (s₀ : AgentSession) (φ : ι → UpdatePhase)
    (p : Updates ι) (s : AgentSession) : Prop where
  read : p.state.1.session id = some s
  operationCount : s.operationCount = s₀.operationCount + ∑ i, countedIn (calls i) (φ i)
  spend : JsNum.ofField s.providerSpendEur = .fin (spent s₀ + ∑ i, bookedIn (calls i) (φ i))
  revoked : ∀ i u, calls i = .revoke → φ i = .saved u → s.status = .revoked

/-- The invariant of a schedule under the condition. -/
structure Tally (id : ℕ) (calls : ι → Update) (s₀ : AgentSession) (φ : ι → UpdatePhase)
    (p : Updates ι) : Prop where
  stored : Stored p.state.1
  adds_up : ∃ s, AddsUp id calls s₀ φ p s
  unlimited : ∀ i u, (∃ n, calls i = .commitProviderSpend n) → φ i = .saved u →
    u.limits.maxProviderSpendEur = none → (calls i).amount = 0
  within : ∀ e ∈ p.state.2, WithinLimit id calls e

/-- A sum over the calls, when one of them that had added nothing moves on. -/
theorem sum_update {M Φ : Type} [AddCommMonoid M] (F : ι → Φ → M) (φ : ι → Φ) (i : ι) (x : Φ)
    (hi : F i (φ i) = 0) :
    ∑ j, F j (Function.update φ i x j) = (∑ j, F j (φ j)) + F i x := by
  rw [← Finset.add_sum_erase _ _ (Finset.mem_univ i), ← Finset.add_sum_erase _ _ (Finset.mem_univ i),
    Function.update_self, hi, zero_add, add_comm]
  refine congrArg (· + _) (Finset.sum_congr rfl fun j hj => ?_)
  rw [Function.update_of_ne (Finset.ne_of_mem_erase hj)]

variable {id : ℕ} {calls : ι → Update} {s₀ : AgentSession} {φ : ι → UpdatePhase} {p : Updates ι}

/-- What is booked is never negative. -/
theorem sum_booked_nonneg (hc : ∀ i, (calls i).WellFormed) :
    0 ≤ ∑ i, bookedIn (calls i) (φ i) := by
  refine Finset.sum_nonneg fun i _ => ?_
  cases φ i with
  | unsaved => exact le_rfl
  | saved u =>
      cases hcall : calls i with
      | commitProviderSpend n =>
          obtain ⟨q, hq, rfl⟩ := hc i n hcall
          exact hq
      | _ => exact le_rfl

/-- A quiet operation keeps the tally. -/
theorem Tally.quiet (ht : Tally id calls s₀ φ p) {i : ι} {o : Op} {k : Res o → Prog Unit}
    (hp : p.task i = .await o k) (ho : o.quiet = true) :
    Tally id calls s₀ φ (p.step (Pool.recorded (handle env)) i) := by
  obtain ⟨s, hs⟩ := ht.adds_up
  have hsessions : (handle env o p.state.1).2.sessions = p.state.1.sessions :=
    handle_sessions (Op.quiet_writes ho).1
  rw [Pool.step_of_await hp]
  refine ⟨stored_handle ht.stored, ⟨s, ?_, hs.operationCount, hs.spend, hs.revoked⟩, ht.unlimited,
    fun e he => ?_⟩
  · simpa only [Pool.recorded, World.session, hsessions] using hs.read
  · rcases List.mem_append.mp he with he | he
    · exact ht.within e he
    · obtain rfl := List.mem_singleton.mp he
      rintro u tokenHash n rfl
      cases ho

/-- The limit of a record that was read back is a number. -/
theorem limit_of_stored {s : AgentSession} (h : storedSession s = s) :
    ∃ q, JsNum.ofField s.limits.maxProviderSpendEur = .fin q := by
  rw [← h]
  rcases hx : s.limits.maxProviderSpendEur with _ | (_ | _ | q | _) <;>
    simp [storedSession, hx, JsNum.toJson]

/-- A commitment that adds nothing to the tally: it was checked without a limit. -/
theorem amount_eq_zero {s u : AgentSession} {a : ℚ} (hc : c.WellFormed) (ha : 0 ≤ a)
    (ht : Tallied c a s u) (hcall : ∃ n, c = .commitProviderSpend n) (hu : c.Checked u)
    (hmax : u.limits.maxProviderSpendEur = none) : c.amount = 0 := by
  obtain ⟨n, rfl⟩ := hcall
  obtain ⟨q, hq, rfl⟩ := hc n rfl
  have hle : a + q ≤ 0 := by
    simpa [Update.Checked, hmax, ht.spend, Update.amount] using hu
  change q = 0
  linarith

/-- A write under the condition keeps the tally. -/
theorem Tally.save (hc : ∀ i, (calls i).WellFormed) (hs₀ : 0 ≤ spent s₀)
    (ht : Tally id calls s₀ φ p) {i : ι} {u : AgentSession} {k : Unit → Prog Unit}
    (hp : p.task i = .await (.saveSession u none) k) (hφ : φ i = .unsaved)
    (hchecked : (calls i).Checked u) (hC : NothingLost id calls p i) :
    Tally id calls s₀ (Function.update φ i (.saved u)) (p.step (Pool.recorded (handle env)) i) := by
  obtain ⟨s, hs⟩ := ht.adds_up
  obtain ⟨s', hs', hu⟩ := hC u (by rw [hp]; rfl)
  obtain rfl : s' = s := Option.some.inj (hs'.symm.trans hs.read)
  have htally := tallied_of_updates hu (hc i) hs.spend
  have hid : u.id = id := htally.id_eq.trans (session_id hs')
  have hcounted := sum_update (fun j => countedIn (calls j)) φ i (.saved u) (by rw [hφ]; rfl)
  have hbooked := sum_update (fun j => bookedIn (calls j)) φ i (.saved u) (by rw [hφ]; rfl)
  rw [Pool.step_of_await hp]
  refine ⟨stored_handle ht.stored, ⟨storedSession u, ?_, ?_, ?_, ?_⟩, ?_, ?_⟩
  · simp [Pool.recorded, handle, hid]
  · rw [hcounted, ← add_assoc, ← hs.operationCount]
    exact htally.operationCount
  · rw [hbooked, ← add_assoc]
    exact ofField_stored htally.spend
  · intro j u' hj hsaved
    by_cases hij : j = i
    · subst hij
      exact htally.revoked hj
    · rw [Function.update_of_ne hij] at hsaved
      exact htally.stays_revoked (hs.revoked j u' hj hsaved)
  · intro j u' hj hsaved hmax
    by_cases hij : j = i
    · subst hij
      rw [Function.update_self] at hsaved
      cases hsaved
      exact amount_eq_zero (hc j) (add_nonneg hs₀ (sum_booked_nonneg hc)) htally hj hchecked hmax
    · rw [Function.update_of_ne hij] at hsaved
      exact ht.unlimited j u' hj hsaved hmax
  · intro e he
    rcases List.mem_append.mp he with he | he
    · exact ht.within e he
    · obtain rfl := List.mem_singleton.mp he
      rintro v tokenHash n hop hcall
      cases hop
      obtain ⟨q, hq⟩ := limit_of_stored (ht.stored.session hs')
      refine ⟨s', hs', ?_⟩
      have hlimit : (JsNum.fin q).lt (JsNum.ofField u.providerSpendEur) = false := by
        have hlim := htally.limits ⟨n, hcall⟩
        rw [hcall] at hchecked
        rwa [Update.Checked, hlim, hq] at hchecked
      rw [hq, htally.spend, JsNum.le_fin]
      rw [htally.spend, JsNum.lt_fin] at hlimit
      simpa using hlimit

/-- The spend of a record that was read back is a number. -/
theorem spend_of_stored {s : AgentSession} (h : storedSession s = s) :
    JsNum.ofField s.providerSpendEur = .fin (spent s) := by
  rw [← h]
  rcases hx : s.providerSpendEur with _ | (_ | _ | q | _) <;>
    simp [storedSession, hx, JsNum.toJson, spent]

/-- A commitment never takes the spend below zero, whatever the amount. -/
theorem spent_commit_nonneg {s : AgentSession} (h : storedSession s = s) (hs : 0 ≤ spent s)
    (monthlyEur : Json) : 0 ≤ spent (storedSession (spendRecord s monthlyEur)) := by
  have ha := spend_of_stored h
  unfold spendRecord committedTotal
  rw [ha]
  cases monthlyEur.toNumber with
  | fin q =>
      have hsum : 0 ≤ spent s + max 0 q := add_nonneg hs (le_max_left 0 q)
      simpa [storedSession, spent] using hsum
  | nan => simp [storedSession, spent, JsNum.max, JsNum.add, JsNum.toJson]
  | negInf => simpa [storedSession, spent, JsNum.max, JsNum.lt] using hs
  | posInf => simp [storedSession, spent, JsNum.max, JsNum.lt, JsNum.add, JsNum.toJson]

/-- An update of a record that was read back never takes the spend below zero. -/
theorem spent_of_updates {call : SessionCall} {s u : AgentSession} (h : call.Updates s u)
    (hs : storedSession s = s) (hspent : 0 ≤ spent s) : 0 ≤ spent (storedSession u) := by
  have hread : 0 ≤ spent (storedSession s) := by rwa [hs]
  cases h with
  | commitProviderSpend s monthlyEur => exact spent_commit_nonneg hs hspent monthlyEur
  | narrowScope s u narrow h =>
      have hsame : (storedSession u).providerSpendEur = (storedSession s).providerSpendEur :=
        congrArg (·.bind JsNum.toJson) (narrowRecord_frame h).2.2.2
      rwa [spent, hsame]
  | _ => exact hread

/-- No stored session has a negative spend. -/
structure SpentOk (w : World) : Prop where
  stored : Stored w
  nonneg : ∀ id s, w.session id = some s → 0 ≤ spent s

theorem SpentOk.save {w : World} {u : AgentSession} {tokenHash : Option TokenHash} (hw : SpentOk w)
    (hu : 0 ≤ spent (storedSession u)) : SpentOk (w.saveSession u tokenHash) := by
  have hstored : Stored (handle Env.sample (.saveSession u tokenHash) w).2 := stored_handle hw.stored
  refine ⟨hstored, fun id s hs => ?_⟩
  rw [session_saveSession] at hs
  split at hs
  · cases hs
    exact hu
  · exact hw.nonneg id s hs

theorem spentOk_kept (call : SessionCall) : KeptBy env call.Updates SpentOk where
  quiet o w ho hw := by
    have hsame : (handle env o w).2.sessions = w.sessions :=
      handle_sessions (Op.quiet_writes ho).1
    refine ⟨stored_handle hw.stored, fun id s hs => hw.nonneg id s ?_⟩
    simpa only [World.session, hsame] using hs
  save w s u hw hs _ hu :=
    hw.save (spent_of_updates hu (hw.stored.session hs) (hw.nonneg _ s hs))
  fresh w input repository now expiresAt tokenHash _ hw' := hw'.save le_rfl

/-- In every store that calls of the session manager lead to, no session has a negative spend. -/
theorem spentOk_runCalls (env : Env) (before : List SessionCall) {w : World} (hw : SpentOk w) :
    SpentOk (runCalls env before w) := by
  induction before generalizing w with
  | nil => exact hw
  | cons call before ih => exact ih ((spentOk_kept call).runCall (fun s u hu => hu) hw)

/-- Before the first operation nothing has been added. -/
theorem tally_start {w : World} (hw : Stored w) (hs₀ : w.session id = some s₀) :
    Tally id calls s₀ (fun _ => .unsaved) (startUpdates id calls w) where
  stored := hw
  adds_up :=
    ⟨s₀, hs₀, by simp [countedIn], by simpa [bookedIn] using spend_of_stored (hw.session hs₀),
      fun _ _ _ h => nomatch h⟩
  unlimited _ _ _ h := nomatch h
  within _ he := nomatch he

/-- Along a schedule under the condition the tally is kept. -/
theorem tally_along {sched : List ι} (hc : ∀ i, (calls i).WellFormed) (hs₀ : 0 ≤ spent s₀)
    (hC : Pool.Along (Pool.recorded (handle env)) (NothingLost id calls) sched p)
    (hf : Pool.Following (fun i => UpdateStep (calls i)) (fun i => UpdateEnd (calls i)) p φ)
    (ht : Tally id calls s₀ φ p) :
    ∃ φ', Pool.Following (fun i => UpdateStep (calls i)) (fun i => UpdateEnd (calls i))
        (p.runs (Pool.recorded (handle env)) sched) φ' ∧
      Tally id calls s₀ φ' (p.runs (Pool.recorded (handle env)) sched) := by
  refine Pool.Following.along (fun φ p => Tally id calls s₀ φ p) ?_ hC hf ht
  intro φ p i o k φ' hp hCi hT _ ht
  generalize hφ : φ i = ψ at hT
  cases hT with
  | quiet ψ o x ho =>
      rw [← hφ, Function.update_eq_self]
      exact ht.quiet hp ho
  | save u hu => exact ht.save hc hs₀ hp hφ hu hCi

/-- No update is lost: what the claim says of the record when every call has ended. -/
structure NoLostUpdate (id : ℕ) (calls : ι → Update) (s₀ : AgentSession) (p : Updates ι) : Prop where
  /-- When every call has ended, the counter and the spend are those of the calls that returned. -/
  adds_up : (∀ i, p.live i = false) → ∃ s, p.state.1.session id = some s ∧
    s.operationCount = s₀.operationCount + ∑ i with completed p i, (calls i).counted ∧
    JsNum.ofField s.providerSpendEur = .fin (spent s₀ + ∑ i with completed p i, (calls i).amount)
  /-- Every commitment was within the limit in force when it was accepted. -/
  within : ∀ e ∈ p.state.2, WithinLimit id calls e
  /-- A completed revocation leaves the session revoked. -/
  revoked : ∀ i, calls i = .revoke → completed p i →
    ∃ s, p.state.1.session id = some s ∧ s.status = .revoked

/-- A call that has returned is in the phase after its write. -/
theorem saved_of_completed {i : ι} (hf : Pool.Following (fun i => UpdateStep (calls i))
    (fun i => UpdateEnd (calls i)) p φ) (h : completed p i = true) : ∃ u, φ i = .saved u := by
  have hi := hf i
  unfold completed at h
  split at h
  · rename_i a hdone
    rw [hdone] at hi
    cases hφ : φ i with
    | unsaved =>
        rw [hφ] at hi
        cases hi
    | saved u => exact ⟨u, rfl⟩
  · cases h

/-- A call that has failed has written nothing, or a commitment that adds nothing. -/
theorem failed_adds_nothing {i : ι} (hf : Pool.Following (fun i => UpdateStep (calls i))
    (fun i => UpdateEnd (calls i)) p φ) (ht : Tally id calls s₀ φ p) (hl : p.live i = false)
    (h : completed p i = false) :
    countedIn (calls i) (φ i) = 0 ∧ bookedIn (calls i) (φ i) = 0 := by
  have hi := hf i
  cases hp : p.task i with
  | await o k => simp [Pool.live, hp, Async.isDone] at hl
  | done r =>
      rw [hp] at hi
      cases hφ : φ i with
      | unsaved => exact ⟨rfl, rfl⟩
      | saved u =>
          cases r with
          | ok a => simp [completed, hp] at h
          | error e =>
              rw [hφ] at hi
              obtain ⟨⟨n, hn⟩, hmax⟩ := hi
              refine ⟨?_, ht.unlimited i u ⟨n, hn⟩ hφ hmax⟩
              rw [hn]
              rfl

/-- For every session, every family of calls with amounts that are numbers and not negative, and
every schedule of them along which each write is what its call makes of the record as it is stored at
that moment, no update is lost. -/
theorem updates_add_up (env : Env) (w : World) (id : ℕ) (s₀ : AgentSession) (calls : ι → Update)
    (sched : List ι) (hw : Stored w) (hs₀ : w.session id = some s₀) (hspent : 0 ≤ spent s₀)
    (hc : ∀ i, (calls i).WellFormed)
    (hC : Pool.Along (Pool.recorded (handle env)) (NothingLost id calls) sched
      (startUpdates id calls w)) :
    NoLostUpdate id calls s₀ ((startUpdates id calls w).runs (Pool.recorded (handle env)) sched) := by
  have hstart : Tally id calls s₀ (fun _ => .unsaved) (startUpdates id calls w) := tally_start hw hs₀
  have hfollows : Pool.Following (fun i => UpdateStep (calls i)) (fun i => UpdateEnd (calls i))
      (startUpdates id calls w) (fun _ => .unsaved) := by
    intro i
    exact follows_update id (calls i)
  obtain ⟨φ, hf, ht⟩ := tally_along hc hspent hC hfollows hstart
  obtain ⟨s, hs⟩ := ht.adds_up
  refine ⟨fun hended => ⟨s, hs.read, ?_, ?_⟩, ht.within, fun i hi hdone => ?_⟩
  · rw [hs.operationCount, Finset.sum_filter]
    refine congrArg _ (Finset.sum_congr rfl fun i _ => ?_)
    split
    · rename_i hdone
      obtain ⟨u, hu⟩ := saved_of_completed hf hdone
      rw [hu]
      rfl
    · rename_i hdone
      exact (failed_adds_nothing hf ht (hended i) (Bool.eq_false_iff.mpr hdone)).1
  · rw [hs.spend, Finset.sum_filter]
    refine congrArg (fun x => JsNum.fin (spent s₀ + x)) (Finset.sum_congr rfl fun i _ => ?_)
    split
    · rename_i hdone
      obtain ⟨u, hu⟩ := saved_of_completed hf hdone
      rw [hu]
      rfl
    · rename_i hdone
      exact (failed_adds_nothing hf ht (hended i) (Bool.eq_false_iff.mpr hdone)).2
  · obtain ⟨u, hu⟩ := saved_of_completed hf hdone
    exact ⟨s, hs.read, hs.revoked i u hi hu⟩

/-! ## Two calls -/

/-- An increment and a revocation of the sample session. -/
def sampleUpdates : Fin 2 → Update
  | 0 => .incrementOperation
  | 1 => .revoke

theorem sampleUpdates_wellFormed : ∀ i, (sampleUpdates i).WellFormed := by
  intro i n h
  fin_cases i <;> cases h

/-- The theorem where the increment runs to its end before the revocation reads. -/
theorem updates_add_up_in_turn : NoLostUpdate 0 sampleUpdates sampleSession
    ((startUpdates 0 sampleUpdates sampleWorld).runs (Pool.recorded (handle Env.sample))
      [0, 0, 1]) := by
  refine updates_add_up Env.sample sampleWorld 0 sampleSession sampleUpdates [0, 0, 1]
    stored_sampleWorld rfl le_rfl sampleUpdates_wellFormed ⟨?_, ?_, ?_, trivial⟩
  · exact fun u hu => nomatch hu
  · intro u hu
    cases hu
    exact ⟨sampleSession, rfl, .incrementOperation sampleSession⟩
  · exact fun u hu => nomatch hu

/-- The increment reads, the revocation runs to its end, the increment writes what it read: the
session is active again. -/
theorem increment_undoes_revocation : ¬ ∀ (env : Env) (w : World) (id : ℕ) (s₀ : AgentSession)
    (calls : Fin 2 → Update) (sched : List (Fin 2)), Stored w → w.session id = some s₀ →
    0 ≤ spent s₀ → (∀ i, (calls i).WellFormed) →
    NoLostUpdate id calls s₀
      ((startUpdates id calls w).runs (Pool.recorded (handle env)) sched) := by
  intro h
  have hlost := h Env.sample sampleWorld 0 sampleSession sampleUpdates
    [0, 1, 1, 1, 1, 1, 1, 1, 0] stored_sampleWorld rfl le_rfl sampleUpdates_wellFormed
  obtain ⟨s, hs, hrevoked⟩ := hlost.revoked 1 rfl (by decide +kernel)
  have hactive : (((startUpdates 0 sampleUpdates sampleWorld).runs
      (Pool.recorded (handle Env.sample)) [0, 1, 1, 1, 1, 1, 1, 1, 0]).state.1.session 0).map
        AgentSession.status = some .active := by decide +kernel
  rw [hs, Option.map_some, hrevoked] at hactive
  cases hactive

end Vops.AgentSessionManager
