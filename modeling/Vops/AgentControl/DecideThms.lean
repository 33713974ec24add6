import Vops.Lib.Interleave
import Vops.AgentControl.AgentStore
import Vops.AgentControl.ApprovalManager

/-!
# Interleaved decisions about one approval (`ApprovalManager.approve`, `deny`, `list`)

A decision reads the approval, checks that it is pending, and later writes the whole record and grants
the scope.

* `DecisionCall`, `DecisionCall.prog` — a call, as far as it concerns the approval.
* `DecisionPhase`, `DecisionStep` — how far a call has come; `follows_call` — it goes through the phases.
* `SavesPending` — the condition: what a decision writes, it writes over a pending record.
* `decided_once` — along every schedule under the condition one decision takes effect.
-/

set_option linter.unusedSectionVars false

namespace Vops.ApprovalManager

open Async

/-! ## Calls -/

/-- The operation does not write the approval `id`. -/
def Foreign (id : ℕ) (o : Op) : Prop := ∀ a, o = .saveApproval a → a.id ≠ id

/-- A call while the approval `id` is decided; `other` is any program that does not write it. -/
inductive DecisionCall (id : ℕ)
  | approve (reason actor : String)
  | deny (reason actor : String)
  | list (status : Option ApprovalStatus)
  | other (p : Prog Unit) (hp : p.AllOps (Foreign id))

/-- What `list` does with the approval `id`: it reads the approvals, decides this one if its time is over,
and reads them again. The decisions that it starts about other approvals run beside it. -/
def listFor (id : ℕ) (status : Option ApprovalStatus) : Prog Unit := do
  let approvals ← perform (.listApprovals status)
  let expired ← expiredAmong approvals
  if expired.any fun a => a.id == id then do
    let _ ← decideAgainst id .expired "Approval window expired." "vops"
    let _ ← perform (.listApprovals status)
    return ()
  else return ()

/-- The program of a call, with the status that it returns. -/
def DecisionCall.prog {id : ℕ} : DecisionCall id → Prog (Option ApprovalStatus)
  | approve reason actor => do
      let a ← ApprovalManager.approve id reason actor
      return some a.status
  | deny reason actor => do
      let a ← ApprovalManager.deny id reason actor
      return some a.status
  | list status => do
      listFor id status
      return none
  | other p _ => do
      p
      return none

/-! ## Phases -/

/-- How far a call has come: before it has read a pending record, behind that, behind its write with the
scope still to be granted, at an outcome. -/
inductive DecisionPhase
  | open
  | read (a : AgentApproval)
  | granting (status : ApprovalStatus)
  | settled (status : ApprovalStatus)
  | other

/-- The steps of a call. -/
inductive DecisionStep (id : ℕ) : Protocol Op Res DecisionPhase
  | list (status : Option ApprovalStatus) (x : List AgentApproval) (φ : DecisionPhase) :
      DecisionStep id φ (.listApprovals status) x φ
  | clock (x : ℤ) (φ : DecisionPhase) : DecisionStep id φ .now x φ
  | missing (φ : DecisionPhase) (hφ : φ = .open ∨ ∃ b, φ = .read b) :
      DecisionStep id φ (.getApproval id) none .open
  | pending (φ : DecisionPhase) (hφ : φ = .open ∨ ∃ b, φ = .read b) (a : AgentApproval)
      (ha : a.status = .pending) : DecisionStep id φ (.getApproval id) (some a) (.read a)
  | seen (φ : DecisionPhase) (hφ : φ = .open ∨ ∃ b, φ = .read b) (a : AgentApproval)
      (ha : a.status ≠ .pending) : DecisionStep id φ (.getApproval id) (some a) (.settled a.status)
  | save (a : AgentApproval) (status : ApprovalStatus) (reason : String) (hs : status ≠ .pending) :
      DecisionStep id (.read a) (.saveApproval (decided a status reason)) ()
        (if (grantFor status a).isSome then .granting status else .settled status)
  | grant (status : ApprovalStatus) (session : ℕ) (x : Option AgentSession) :
      DecisionStep id (.granting status) (.getSession session) x (.settled status)
  | rest (status : ApprovalStatus) (o : Op) (x : Res o) (ho : Foreign id o)
      (hget : ∀ session, o ≠ .getSession session) :
      DecisionStep id (.settled status) o x (.settled status)
  | other (o : Op) (x : Res o) (ho : Foreign id o) : DecisionStep id .other o x .other

/-- How a call ends: a status that it returns is its outcome, and nothing is left to be granted. -/
def DecisionEnd {α : Type} (status : α → Option ApprovalStatus) (r : Except Failure α)
    (φ : DecisionPhase) : Prop :=
  (∀ s, φ ≠ .granting s) ∧ ∀ a, r = .ok a → ∀ s, status a = some s → φ = .settled s

section Following

variable {id : ℕ} {α β : Type} {status : α → Option ApprovalStatus} {s : ApprovalStatus}

theorem DecisionEnd.error {e : Failure} {φ : DecisionPhase} (hφ : ∀ s, φ ≠ .granting s) :
    DecisionEnd status (.error e) φ := by
  refine ⟨hφ, ?_⟩
  rintro a ⟨⟩

theorem DecisionEnd.settled {a : α} (h : ∀ s', status a = some s' → s' = s) :
    DecisionEnd status (.ok a) (.settled s) := by
  refine ⟨by simp, ?_⟩
  rintro _ ⟨⟩ s' hs'
  rw [h s' hs']

/-- The status of a result is returned. -/
theorem follows_status {p : Prog α} {φ : DecisionPhase}
    (hp : Follows (DecisionStep id) (DecisionEnd status) p φ) :
    Follows (DecisionStep id) (DecisionEnd fun r => r) (p >>= fun a => pure (status a)) φ := by
  refine Follows.bind (hp.mono fun r φ hr => ?_)
  cases r with
  | error e => exact .error hr.1
  | ok a =>
      refine ⟨hr.1, ?_⟩
      rintro _ ⟨⟩ s hs
      exact hr.2 a rfl s hs

/-- The operation neither writes the approval nor reads a session. -/
def Rest (id : ℕ) (o : Op) : Prop := Foreign id o ∧ ∀ session, o ≠ .getSession session

/-- Behind an outcome the program reads no session and does not write the approval. -/
theorem follows_rest {p : Prog β} {f : β → Prog α} (hp : p.AllOps (Rest id))
    (hf : ∀ b, Follows (DecisionStep id) (DecisionEnd status) (f b) (.settled s)) :
    Follows (DecisionStep id) (DecisionEnd status) (p >>= f) (.settled s) :=
  Follows.of_allOps_bind hp (fun o x ho => .rest s o x ho.1 ho.2) hf fun _ => .error (by simp)

theorem rest_appendEvent (e : ℕ → ℤ → AgentEvent) :
    (do
      let eventId ← perform .localId
      let timestamp ← perform .now
      let _ ← appendEvent (e eventId timestamp)
      return ()).AllOps (Rest id) := by
  refine ⟨⟨by simp [Foreign], by simp⟩, fun eventId => ⟨⟨by simp [Foreign], by simp⟩, fun now => ?_⟩⟩
  refine ⟨⟨by simp [Foreign], by simp⟩, fun hash => ⟨⟨by simp [Foreign], by simp⟩, fun digest => ?_⟩⟩
  exact ⟨⟨by simp [Foreign], by simp⟩, fun _ => trivial⟩

theorem follows_event (a : AgentApproval) (eventType summary actor : String) :
    Follows (DecisionStep id) (DecisionEnd fun b => some b.status)
      (event a eventType summary actor >>= fun _ => pure a) (.settled a.status) :=
  follows_rest (rest_appendEvent _) fun _ => .settled (by simp)

/-- The scope is granted, and the event recorded. -/
theorem follows_grant (a : AgentApproval) (grant : AgentSessionManager.GrantInput)
    (eventType summary actor : String) :
    Follows (DecisionStep id) (DecisionEnd fun b => some b.status)
      (AgentSessionManager.grantScope a.sessionId grant >>= fun _ =>
        event a eventType summary actor >>= fun _ => pure a) (.granting a.status) := by
  intro found
  refine ⟨_, .grant _ _ _, ?_⟩
  cases found with
  | none => exact .error (by simp)
  | some session =>
      have hsave : (AgentSessionManager.saveWithEvent
          (AgentSessionManager.grantRecord session grant) "session.scope_granted"
          s!"Granted {grant.capability} to the session.").AllOps (Rest id) :=
        ⟨⟨by simp [Foreign], by simp⟩, fun _ => (rest_appendEvent _).bind fun _ => trivial⟩
      exact follows_rest hsave fun _ => follows_event a _ _ _

/-- A pending record that was read is written as decided. -/
theorem follows_settle (a : AgentApproval) (hs : s ≠ .pending) (reason actor : String) :
    Follows (DecisionStep id) (DecisionEnd fun b => some b.status) (settle a s reason actor)
      (.read a) := by
  intro x
  refine ⟨_, .save a s reason hs, ?_⟩
  have hgrant : grantFor s (decided a s reason) = grantFor s a := rfl
  dsimp only
  rw [hgrant]
  cases grantFor s a with
  | some grant => exact follows_grant (decided a s reason) grant _ _ _
  | none => exact follows_event (decided a s reason) _ _ _

/-- The record is read; the rest goes on with what it holds. -/
theorem follows_showApproval {φ : DecisionPhase} (hφ : φ = .open ∨ ∃ b, φ = .read b)
    {f : AgentApproval → Prog α}
    (hpending : ∀ a, a.status = .pending →
      Follows (DecisionStep id) (DecisionEnd status) (f a) (.read a))
    (hseen : ∀ a, a.status ≠ .pending →
      Follows (DecisionStep id) (DecisionEnd status) (f a) (.settled a.status)) :
    Follows (DecisionStep id) (DecisionEnd status) (showApproval id >>= f) φ := by
  intro found
  cases found with
  | none => exact ⟨_, .missing φ hφ, .error (by simp)⟩
  | some a =>
      by_cases ha : a.status = .pending
      · exact ⟨_, .pending φ hφ a ha, hpending a ha⟩
      · exact ⟨_, .seen φ hφ a ha, hseen a ha⟩

/-- An approval that was decided before is returned if it was decided so, else the call fails. -/
theorem follows_seen {a : AgentApproval} {p : Prog AgentApproval} (ha : a.status ≠ .pending) :
    Follows (DecisionStep id) (DecisionEnd fun b => some b.status)
      (if a.status ≠ .pending then
        (if a.status = s then pure a else refuseDecided a id) else p) (.settled a.status) := by
  rw [if_pos ha]
  split
  · exact .settled (by simp)
  · exact .error (by simp)

theorem follows_decideAgainst {φ : DecisionPhase} (hφ : φ = .open ∨ ∃ b, φ = .read b)
    (hs : s ≠ .pending) (reason actor : String) :
    Follows (DecisionStep id) (DecisionEnd fun b => some b.status)
      (decideAgainst id s reason actor) φ := by
  refine follows_showApproval hφ (fun a ha => ?_) fun a ha => follows_seen ha
  rw [if_neg (not_not.mpr ha)]
  exact follows_settle a hs reason actor

theorem follows_approve (reason actor : String) :
    Follows (DecisionStep id) (DecisionEnd fun b => some b.status) (approve id reason actor)
      .open := by
  refine follows_showApproval (.inl rfl) (fun a ha => ?_) fun a ha => follows_seen ha
  rw [if_neg (not_not.mpr ha)]
  intro now
  refine ⟨.read a, .clock now _, ?_⟩
  change Follows _ _ (if _ then _ else _) _
  split
  · exact follows_decideAgainst (.inr ⟨a, rfl⟩) (by simp) _ _
  · exact follows_settle a (by simp) reason actor

theorem follows_expiredAmong {φ : DecisionPhase} (approvals : List AgentApproval)
    {f : List AgentApproval → Prog α} (hφ : ∀ s, φ ≠ .granting s)
    (hf : ∀ expired, Follows (DecisionStep id) (DecisionEnd status) (f expired) φ) :
    Follows (DecisionStep id) (DecisionEnd status) (expiredAmong approvals >>= f) φ := by
  have hops : (expiredAmong approvals).AllOps (· = .now) := by
    induction approvals with
    | nil => trivial
    | cons a approvals ih =>
        unfold expiredAmong
        split
        · exact ⟨rfl, fun now => ih.bind fun rest => trivial⟩
        · exact ih
  refine Follows.of_allOps_bind hops ?_ hf fun _ => .error hφ
  rintro o x rfl
  exact .clock x φ

/-- The phase in which a call starts. -/
def DecisionCall.start : DecisionCall id → DecisionPhase
  | .other _ _ => .other
  | _ => .open

/-- Every call goes through the phases. -/
theorem follows_call (call : DecisionCall id) :
    Follows (DecisionStep id) (DecisionEnd fun r => r) call.prog call.start := by
  cases call with
  | approve reason actor => exact follows_status (follows_approve reason actor)
  | deny reason actor =>
      exact follows_status (follows_decideAgainst (.inl rfl) (by simp) reason actor)
  | list status =>
      refine follows_status fun approvals => ⟨.open, .list _ _ _, ?_⟩
      refine follows_expiredAmong approvals (by simp) fun expired => ?_
      split
      · refine Follows.bind ((follows_decideAgainst (.inl rfl) (by simp) _ _).mono fun r φ hr => ?_)
        cases r with
        | error e => exact .error hr.1
        | ok a => exact fun approvals => ⟨φ, .list _ _ _, hr.1, by simp⟩
      · exact ⟨by simp, by simp⟩
  | other p hp =>
      refine follows_status ?_
      refine Follows.of_allOps hp (fun o x ho => .other o x ho) fun r => ?_
      exact ⟨by simp [DecisionCall.start], by simp⟩

end Following

/-! ## One decision takes effect -/

variable {ι : Type} [DecidableEq ι] {id : ℕ}

/-- The call decides about the approval. -/
def DecisionCall.decides : DecisionCall id → Bool
  | other _ _ => false
  | _ => true

/-- The calls, before any of them has started. -/
def startDecisions (calls : ι → DecisionCall id) (w : World) :
    Pool Op Res Failure (Option ApprovalStatus) ι (World × List (Pool.Event Op ι World)) :=
  ⟨(w, []), fun i => (calls i).prog⟩

/-- A decision reads a session: it does so in `grantScope` and nowhere else. -/
def isGrant (calls : ι → DecisionCall id) (e : Pool.Event Op ι World) : Bool :=
  match e.op with
  | .getSession _ => (calls e.task).decides
  | _ => false

/-- How often `grantScope` has been called. -/
def grants (calls : ι → DecisionCall id) (log : List (Pool.Event Op ι World)) : ℕ :=
  log.countP (isGrant calls)

/-- What a decision writes, it writes over a record that is still pending. -/
def SavesPending (id : ℕ)
    (p : Pool Op Res Failure (Option ApprovalStatus) ι (World × List (Pool.Event Op ι World)))
    (i : ι) : Prop :=
  ∀ a k, p.task i = .await (.saveApproval a) k → a.id = id →
    ∀ b, p.state.1.approval id = some b → b.status = .pending

/-- An approval that was pending is decided in such a way that a scope is granted. -/
def Due (a₀ : AgentApproval) (status : ApprovalStatus) : Prop :=
  a₀.status = .pending ∧ (grantFor status a₀).isSome

/-- What holds at every moment: the stored record is `a`, it was `a₀`. -/
structure Deciding (calls : ι → DecisionCall id) (a₀ a : AgentApproval) (φ : ι → DecisionPhase)
    (s : World × List (Pool.Event Op ι World)) : Prop where
  stored : s.1.approval id = some a
  undecided : a.status = .pending → a = a₀
  read : ∀ i b, φ i = .read b → b = a₀ ∧ a₀.status = .pending
  outcome : ∀ i s, φ i = .settled s ∨ φ i = .granting s → a.status = s ∧ s ≠ .pending
  others : ∀ i, φ i = .other ↔ (calls i).decides = false
  notDue : ¬ Due a₀ a.status → grants calls s.2 = 0 ∧ ∀ i s, φ i ≠ .granting s
  due : Due a₀ a.status →
    (grants calls s.2 = 0 ∧ ∃ i, φ i = .granting a.status ∧ ∀ j s, φ j = .granting s → j = i) ∨
      grants calls s.2 = 1 ∧ ∀ j s, φ j ≠ .granting s

section Steps

variable {calls : ι → DecisionCall id} {a₀ a : AgentApproval} {φ : ι → DecisionPhase}
  {s s' : World × List (Pool.Event Op ι World)} {i : ι} {φ' : DecisionPhase}

theorem grants_concat_of_ne {log : List (Pool.Event Op ι World)} {e : Pool.Event Op ι World}
    (he : isGrant calls e = false) : grants calls (log ++ [e]) = grants calls log := by
  simp [grants, List.countP_append, he]

/-- A step that neither writes the record nor grants, to a phase that is none of granting. -/
theorem Deciding.move (h : Deciding calls a₀ a φ s) (hstored : s'.1.approval id = s.1.approval id)
    (hgrants : grants calls s'.2 = grants calls s.2)
    (hread : ∀ b, φ' = .read b → b = a₀ ∧ a₀.status = .pending)
    (houtcome : ∀ s, φ' = .settled s → a.status = s ∧ s ≠ .pending)
    (hother : φ' = .other ↔ φ i = .other) (hgranting : ∀ s, φ' = .granting s ↔ φ i = .granting s) :
    Deciding calls a₀ a (Function.update φ i φ') s' := by
  have hsame : ∀ j s, Function.update φ i φ' j = .granting s ↔ φ j = .granting s := by
    intro j s
    by_cases hj : j = i
    · subst hj
      rw [Function.update_self]
      exact hgranting s
    · rw [Function.update_of_ne hj]
  refine ⟨hstored.trans h.stored, h.undecided, ?_, ?_, ?_, ?_, ?_⟩
  · intro j b hj
    by_cases hij : j = i
    · subst hij
      exact hread b (by rwa [Function.update_self] at hj)
    · exact h.read j b (by rwa [Function.update_of_ne hij] at hj)
  · intro j s hj
    rcases hj with hj | hj
    · by_cases hij : j = i
      · subst hij
        exact houtcome s (by rwa [Function.update_self] at hj)
      · exact h.outcome j s (.inl (by rwa [Function.update_of_ne hij] at hj))
    · exact h.outcome j s (.inr ((hsame j s).mp hj))
  · intro j
    by_cases hij : j = i
    · subst hij
      rw [Function.update_self, hother]
      exact h.others j
    · rw [Function.update_of_ne hij]
      exact h.others j
  · intro hdue
    obtain ⟨hzero, hno⟩ := h.notDue hdue
    exact ⟨hgrants.trans hzero, fun j s hj => hno j s ((hsame j s).mp hj)⟩
  · intro hdue
    rcases h.due hdue with ⟨hzero, j, hj, honly⟩ | ⟨hone, hno⟩
    · exact .inl ⟨hgrants.trans hzero, j, (hsame j _).mpr hj,
        fun j' s hj' => honly j' s ((hsame j' s).mp hj')⟩
    · exact .inr ⟨hgrants.trans hone, fun j s hj => hno j s ((hsame j s).mp hj)⟩

theorem grantFor_pending (a : AgentApproval) : grantFor .pending a = none := by
  unfold grantFor
  split <;> simp

/-- A decision is written over the pending record. -/
theorem Deciding.save {b : AgentApproval} {status : ApprovalStatus} {reason : String}
    (h : Deciding calls a₀ a φ s) (hi : φ i = .read b) (hid : b.id = id)
    (hpending : a.status = .pending) (hs : status ≠ .pending)
    (hstored : s'.1.approval id = some (storedApproval (decided b status reason)))
    (hgrants : grants calls s'.2 = grants calls s.2) :
    Deciding calls a₀ (storedApproval (decided b status reason)) (Function.update φ i
      (if (grantFor status b).isSome then .granting status else .settled status)) s' := by
  obtain ⟨rfl, hstart⟩ := h.read i b hi
  obtain rfl := h.undecided hpending
  have hnotDue : ¬ Due a a.status := by
    rintro ⟨-, hgrant⟩
    rw [hpending, grantFor_pending] at hgrant
    cases hgrant
  obtain ⟨hzero, hno⟩ := h.notDue hnotDue
  have hothers : ∀ j s, ¬ (φ j = .settled s ∨ φ j = .granting s) := by
    intro j s hj
    obtain ⟨hsame, hne⟩ := h.outcome j s hj
    exact hne (hsame.symm.trans hpending)
  have hphase : ∀ j s, Function.update φ i
      (if (grantFor status a).isSome then .granting status else .settled status) j = .granting s →
        j = i ∧ s = status ∧ (grantFor status a).isSome := by
    intro j s hj
    by_cases hij : j = i
    · subst hij
      rw [Function.update_self] at hj
      split at hj
      next hsome => exact ⟨rfl, (DecisionPhase.granting.inj hj).symm, hsome⟩
      · cases hj
    · rw [Function.update_of_ne hij] at hj
      exact absurd (.inr hj) (hothers j s)
  refine ⟨hstored, fun hp => absurd hp hs, ?_, ?_, ?_, ?_, ?_⟩
  · intro j b hj
    by_cases hij : j = i
    · subst hij
      rw [Function.update_self] at hj
      split at hj <;> cases hj
    · exact h.read j b (by rwa [Function.update_of_ne hij] at hj)
  · intro j s hj
    by_cases hij : j = i
    · subst hij
      rw [Function.update_self] at hj
      have hsame : status = s := by
        split at hj <;> rcases hj with hj | hj <;> cases hj <;> rfl
      exact ⟨hsame, hsame ▸ hs⟩
    · rw [Function.update_of_ne hij] at hj
      exact absurd hj (hothers j s)
  · intro j
    by_cases hij : j = i
    · subst hij
      rw [← h.others j, Function.update_self, hi]
      split <;> simp
    · rw [Function.update_of_ne hij]
      exact h.others j
  · intro hdue
    refine ⟨hgrants.trans hzero, fun j s hj => hdue ⟨hstart, ?_⟩⟩
    exact (hphase j s hj).2.2
  · rintro ⟨-, hgrant⟩
    have hsome : (grantFor status a).isSome := hgrant
    refine .inl ⟨hgrants.trans hzero, i, ?_, fun j s hj => (hphase j s hj).1⟩
    rw [Function.update_self, if_pos hsome]
    rfl

/-- The scope is granted. -/
theorem Deciding.grant {status : ApprovalStatus} (h : Deciding calls a₀ a φ s)
    (hi : φ i = .granting status) (hstored : s'.1.approval id = s.1.approval id)
    (hgrants : grants calls s'.2 = grants calls s.2 + 1) :
    Deciding calls a₀ a (Function.update φ i (.settled status)) s' := by
  obtain ⟨hsame, hne⟩ := h.outcome i status (.inr hi)
  have hdue : Due a₀ a.status := by
    by_contra hdue
    exact (h.notDue hdue).2 i status hi
  have honly : grants calls s.2 = 0 ∧ ∀ j s, φ j = .granting s → j = i := by
    rcases h.due hdue with ⟨hzero, j, -, honly⟩ | ⟨-, hno⟩
    · obtain rfl := honly i status hi
      exact ⟨hzero, honly⟩
    · exact absurd hi (hno i status)
  refine ⟨hstored.trans h.stored, h.undecided, ?_, ?_, ?_, fun hno => absurd hdue hno, ?_⟩
  · intro j b hj
    by_cases hij : j = i
    · subst hij
      rw [Function.update_self] at hj
      cases hj
    · exact h.read j b (by rwa [Function.update_of_ne hij] at hj)
  · intro j s hj
    by_cases hij : j = i
    · subst hij
      rw [Function.update_self] at hj
      have hstatus : status = s := by rcases hj with hj | hj <;> cases hj; rfl
      exact hstatus ▸ ⟨hsame, hne⟩
    · exact h.outcome j s (by rwa [Function.update_of_ne hij] at hj)
  · intro j
    by_cases hij : j = i
    · subst hij
      rw [← h.others j, Function.update_self, hi]
      simp
    · rw [Function.update_of_ne hij]
      exact h.others j
  · intro _
    refine .inr ⟨by rw [hgrants, honly.1], fun j s hj => ?_⟩
    by_cases hij : j = i
    · subst hij
      rw [Function.update_self] at hj
      cases hj
    · rw [Function.update_of_ne hij] at hj
      exact hij (honly.2 j s hj)

end Steps

/-- Every step under the condition keeps what holds at every moment. -/
theorem deciding_step {env : Env} {calls : ι → DecisionCall id} {a₀ : AgentApproval}
    (hid : a₀.id = id) {φ : ι → DecisionPhase}
    {p : Pool Op Res Failure (Option ApprovalStatus) ι (World × List (Pool.Event Op ι World))}
    {i : ι} {o : Op} {k : Res o → Prog (Option ApprovalStatus)} {φ' : DecisionPhase}
    (ht : p.task i = .await o k) (hC : SavesPending id p i)
    (hT : DecisionStep id (φ i) o (Pool.recorded (handle env) i o p.state).1 φ')
    (h : ∃ a, Deciding calls a₀ a φ p.state) :
    ∃ a, Deciding calls a₀ a (Function.update φ i φ') (p.step (Pool.recorded (handle env)) i).state := by
  obtain ⟨a, h⟩ := h
  rw [Pool.step_of_await ht]
  have hforeign : Foreign id o → (handle env o p.state.1).2.approval id = p.state.1.approval id := by
    intro ho
    by_cases hsaves : o.savesApproval = true
    · cases o with
      | saveApproval b => exact (approval_saveApproval _ b id).trans (if_neg (ho b rfl))
      | _ => cases hsaves
    · rw [World.approval, handle_approvals (by simpa using hsaves)]
      rfl
  have hcount : isGrant calls ⟨i, o, p.state.1⟩ = false →
      grants calls (Pool.recorded (handle env) i o p.state).2.2 = grants calls p.state.2 :=
    grants_concat_of_ne
  have hstep := hT
  generalize hφ : φ i = φi at hT
  generalize hx : (Pool.recorded (handle env) i o p.state).1 = x at hT
  cases hT with
  | list status y ψ =>
      refine ⟨a, h.move (hforeign (by simp [Foreign])) (hcount rfl) ?_ ?_ (by rw [hφ]) (by simp [hφ])⟩
      · exact fun b hb => h.read i b (hφ.trans hb)
      · exact fun s hs => h.outcome i s (.inl (hφ.trans hs))
  | clock y ψ =>
      refine ⟨a, h.move (hforeign (by simp [Foreign])) (hcount rfl) ?_ ?_ (by rw [hφ]) (by simp [hφ])⟩
      · exact fun b hb => h.read i b (hφ.trans hb)
      · exact fun s hs => h.outcome i s (.inl (hφ.trans hs))
  | missing ψ hψ =>
      refine ⟨a, h.move (hforeign (by simp [Foreign])) (hcount rfl) (by simp) (by simp) ?_ ?_⟩
      · rw [hφ]; rcases hψ with rfl | ⟨b, rfl⟩ <;> simp
      · rw [hφ]; rcases hψ with rfl | ⟨b, rfl⟩ <;> simp
  | pending ψ hψ b hb =>
      obtain rfl : a = b := Option.some.inj (h.stored.symm.trans hx)
      refine ⟨a, h.move (hforeign (by simp [Foreign])) (hcount rfl) ?_ (by simp) ?_ ?_⟩
      · rintro _ ⟨⟩
        have hsame := h.undecided hb
        exact ⟨hsame, hsame ▸ hb⟩
      · rw [hφ]; rcases hψ with rfl | ⟨b, rfl⟩ <;> simp
      · rw [hφ]; rcases hψ with rfl | ⟨b, rfl⟩ <;> simp
  | seen ψ hψ b hb =>
      obtain rfl : a = b := Option.some.inj (h.stored.symm.trans hx)
      refine ⟨a, h.move (hforeign (by simp [Foreign])) (hcount rfl) (by simp) ?_ ?_ ?_⟩
      · rintro _ ⟨⟩
        exact ⟨rfl, hb⟩
      · rw [hφ]; rcases hψ with rfl | ⟨b, rfl⟩ <;> simp
      · rw [hφ]; rcases hψ with rfl | ⟨b, rfl⟩ <;> simp
  | save b status reason hs =>
      have hb : b.id = id := by rw [(h.read i b hφ).1, hid]
      refine ⟨storedApproval (decided b status reason),
        h.save hφ hb (hC _ k ht hb a h.stored) hs ?_ (hcount rfl)⟩
      exact (approval_saveApproval _ (decided b status reason) id).trans (if_pos hb)
  | grant status session y =>
      refine ⟨a, h.grant hφ (hforeign (by simp [Foreign])) ?_⟩
      have hdecides : (calls i).decides = true := by
        rw [← Bool.not_eq_false, ← h.others i, hφ]
        simp
      simp [Pool.recorded, grants, List.countP_append, isGrant, hdecides]
  | rest status o y ho hget =>
      have hno : isGrant calls ⟨i, o, p.state.1⟩ = false := by
        cases o with
        | getSession session => exact absurd rfl (hget session)
        | _ => rfl
      refine ⟨a, h.move (hforeign ho) (hcount hno) (by simp) ?_ (by rw [hφ]) (by simp [hφ])⟩
      exact fun s hs => h.outcome i s (.inl (hφ.trans hs))
  | other o y ho =>
      have hno : isGrant calls ⟨i, o, p.state.1⟩ = false := by
        have hdecides := (h.others i).mp hφ
        cases o <;> first | exact hdecides | rfl
      exact ⟨a, h.move (hforeign ho) (hcount hno) (by simp) (by simp) (by rw [hφ]) (by simp [hφ])⟩

/-- One decision took effect: what the calls return is the stored status, and the scope is granted for an
approved expansion only, once. -/
structure DecidedAs (calls : ι → DecisionCall id) (a₀ a : AgentApproval)
    (p : Pool Op Res Failure (Option ApprovalStatus) ι (World × List (Pool.Event Op ι World))) :
    Prop where
  stored : p.state.1.approval id = some a
  returned : ∀ i s, p.task i = .done (.ok (some s)) → s = a.status
  granted : 0 < grants calls p.state.2 → a.status = .approved ∧ Due a₀ a.status
  once : grants calls p.state.2 ≤ 1
  complete : (∀ i, p.live i = false) → Due a₀ a.status → grants calls p.state.2 = 1

theorem status_of_grantFor {status : ApprovalStatus} {a : AgentApproval}
    (h : (grantFor status a).isSome) : status = .approved := by
  unfold grantFor at h
  split at h
  · split at h
    next hs => exact hs.1
    · cases h
  · cases h

theorem Deciding.decidedAs {calls : ι → DecisionCall id} {a₀ a : AgentApproval}
    {φ : ι → DecisionPhase}
    {p : Pool Op Res Failure (Option ApprovalStatus) ι (World × List (Pool.Event Op ι World))}
    (h : Deciding calls a₀ a φ p.state)
    (hf : Pool.Following (fun _ => DecisionStep id) (fun _ => DecisionEnd fun r => r) p φ) :
    DecidedAs calls a₀ a p := by
  have hdone : ∀ i r, p.task i = .done r → DecisionEnd (fun r => r) r (φ i) := by
    intro i r hi
    have hend := hf i
    rw [hi] at hend
    exact hend
  refine ⟨h.stored, ?_, ?_, ?_, ?_⟩
  · intro i s hi
    have hphase := (hdone i _ hi).2 (some s) rfl s rfl
    exact (h.outcome i s (.inl hphase)).1.symm
  · intro hpos
    have hdue : Due a₀ a.status := by
      by_contra hdue
      rw [(h.notDue hdue).1] at hpos
      exact absurd hpos (by omega)
    exact ⟨status_of_grantFor hdue.2, hdue⟩
  · by_cases hdue : Due a₀ a.status
    · rcases h.due hdue with ⟨hzero, -⟩ | ⟨hone, -⟩ <;> omega
    · have hzero := (h.notDue hdue).1
      omega
  · intro hall hdue
    rcases h.due hdue with ⟨-, i, hi, -⟩ | ⟨hone, -⟩
    · cases ht : p.task i with
      | done r => exact absurd hi ((hdone i r ht).1 _)
      | await o k =>
          have hlive := hall i
          rw [Pool.live_of_await ht] at hlive
          cases hlive
    · exact hone

/-- An approval is decided once, by any number of calls in any order, when no decision writes over
another one. -/
theorem decided_once (env : Env) (w : World) (a₀ : AgentApproval) (h₀ : w.approval id = some a₀)
    (calls : ι → DecisionCall id) (sched : List ι)
    (hC : Pool.Along (Pool.recorded (handle env)) (SavesPending id) sched (startDecisions calls w)) :
    ∃ a, DecidedAs calls a₀ a
      ((startDecisions calls w).runs (Pool.recorded (handle env)) sched) := by
  let start : ι → DecisionPhase := fun i => (calls i).start
  have hopen : ∀ i, start i = .open ∨ start i = .other := by
    intro i
    show (calls i).start = .open ∨ (calls i).start = .other
    cases calls i <;> simp [DecisionCall.start]
  have hstart : Deciding calls a₀ a₀ start (startDecisions calls w).state := by
    have hno : ∀ i s, start i ≠ .settled s ∧ start i ≠ .granting s ∧ ∀ b, start i ≠ .read b := by
      intro i s
      rcases hopen i with h | h <;> simp [h]
    refine ⟨h₀, fun _ => rfl, fun i b hb => absurd hb ((hno i .pending).2.2 b), ?_, ?_, ?_, ?_⟩
    · rintro i s (h | h)
      · exact absurd h (hno i s).1
      · exact absurd h (hno i s).2.1
    · intro i
      show (calls i).start = .other ↔ (calls i).decides = false
      cases calls i <;> simp [DecisionCall.decides, DecisionCall.start]
    · exact fun _ => ⟨rfl, fun i s => (hno i s).2.1⟩
    · rintro ⟨hpending, hgrant⟩
      rw [hpending, grantFor_pending] at hgrant
      cases hgrant
  have hf : Pool.Following (fun _ => DecisionStep id) (fun _ => DecisionEnd fun r => r)
      (startDecisions calls w) start := fun i => follows_call (calls i)
  obtain ⟨φ, hf', a, ha⟩ := hf.along (fun φ p => ∃ a, Deciding calls a₀ a φ p.state)
    (fun φ p i o k φ' ht hC hT _ h => deciding_step (approval_id h₀) ht hC hT h) hC ⟨a₀, hstart⟩
  exact ⟨a, ha.decidedAs hf'⟩

/-! ## An approval and a denial -/

/-- A pending request for `server.provision`. -/
def sampleRequest : AgentApproval where
  id := 3
  sessionId := 0
  planId := none
  capability := some "server.provision"
  status := .pending
  reason := "more room"
  risk := .high
  target := none
  environment := none
  expectedEffects := []
  reversible := .no
  expiresAt := 60
  decisionReason := none

def requestWorld : World := { sampleWorld with approvals := [⟨0, sampleRequest⟩] }

/-- One user approves, another one denies. -/
def sampleDecisions : Fin 2 → DecisionCall 3
  | 0 => .approve "yes" "ann"
  | 1 => .deny "no" "bob"

/-- The theorem where the approval ends before the denial reads. -/
theorem decided_once_in_turn : ∃ a, DecidedAs sampleDecisions sampleRequest a
    ((startDecisions sampleDecisions requestWorld).runs (Pool.recorded (handle Env.sample))
      [0, 0, 0, 1]) := by
  refine decided_once Env.sample requestWorld sampleRequest rfl sampleDecisions [0, 0, 0, 1]
    ⟨?_, ?_, ?_, ?_, trivial⟩
  · intro a k ht
    cases ht
  · intro a k ht
    cases ht
  · intro a k ht hid b hb
    obtain rfl : sampleRequest = b := Option.some.inj hb
    rfl
  · intro a k ht
    cases ht

/-- Both read the pending request, the approval is written and granted, the denial is written over it. -/
theorem decided_twice : ¬ ∀ (env : Env) (w : World) (a₀ : AgentApproval)
    (calls : Fin 2 → DecisionCall 3) (sched : List (Fin 2)), w.approval 3 = some a₀ →
    ∃ a, DecidedAs calls a₀ a
      ((startDecisions calls w).runs (Pool.recorded (handle env)) sched) := by
  intro h
  obtain ⟨a, ha⟩ := h Env.sample requestWorld sampleRequest sampleDecisions
    [0, 1, 0, 0, 0, 1] rfl
  have hgrants : grants sampleDecisions ((startDecisions sampleDecisions requestWorld).runs
      (Pool.recorded (handle Env.sample)) [0, 1, 0, 0, 0, 1]).state.2 = 1 := by decide +kernel
  have hdenied : (((startDecisions sampleDecisions requestWorld).runs
      (Pool.recorded (handle Env.sample)) [0, 1, 0, 0, 0, 1]).state.1.approval 3).map
        AgentApproval.status = some .denied := by decide +kernel
  have happroved := (ha.granted (by omega)).1
  rw [ha.stored, Option.map_some, happroved] at hdenied
  cases hdenied

end Vops.ApprovalManager
