import Vops.Remote.RemoteFrames

/-!
# Interleaved calls on a conditional intent (`IntentService`)

The watcher, the calls that stop an intent and a signed command each get a copy of the whole record, and
every update of it writes back a copy with the next version.

* `IntentCall` — the calls; `IntentPhase` — which copies of the intent a call has.
* `Writes` — the updates, each of a copy that the call has; `IntentStep` — all its steps.
* `follows_call` — every call goes through the phases.

An answer that is not the record of the asked id leads to the phase `lost`, in which everything is
allowed; no store answers so.
-/

set_option linter.unusedSectionVars false

namespace Vops.IntentService

open Async

variable {id : String}

/-! ## Calls -/

/-- The operation changes the intent, or marks the execution of its plan. -/
def changes (id : String) : RemoteOp → Bool
  | .saveIntent intent => intent.id == id
  | .executePlan intentId _ _ => intentId == id
  | _ => false

/-- The operation changes the intent, or reads it. -/
def concerns (id : String) : RemoteOp → Bool
  | .getIntent id' => id' == id
  | .listIntents => true
  | o => changes id o

/-- A call on the intent, or any program that does not change it; `command` is the execution of a signed
request to pause or to revoke it. -/
inductive IntentCall (id : String)
  | tick (now : ℤ)
  | pause (deviceId : String)
  | revoke (deviceId : String)
  | disableForDevice (deviceId : String) (revokes : Bool)
  | command (device : RemoteDevice) (payload : SignedRemoteCommandPayload)
      (hid : payload.subject.id = id)
  | other (p : RemoteProg Unit) (hp : p.AllOps fun o => changes id o = false)

/-- The program of a call. -/
def IntentCall.prog : IntentCall id → RemoteProg Unit
  | tick now => IntentService.tick now
  | pause deviceId => IntentService.pause id deviceId >>= fun _ => return ()
  | revoke deviceId => IntentService.revoke id deviceId >>= fun _ => return ()
  | disableForDevice deviceId revokes => IntentService.disableForDevice deviceId revokes
  | command device payload _ => RemoteCommandHandler.stopIntent device payload >>= fun _ => return ()
  | other p _ => p

/-- The call is the watcher. -/
def IntentCall.ticks : IntentCall id → Bool
  | tick _ => true
  | _ => false

/-- The call stops intents. -/
def IntentCall.stops : IntentCall id → Bool
  | pause _ | revoke _ | disableForDevice _ _ | command _ _ _ => true
  | _ => false

/-- The intents that a call selects from the list. -/
def IntentCall.selects (c : IntentCall id) (intent : RemoteIntent) : Bool :=
  match c with
  | tick _ => intent.status == .active
  | disableForDevice deviceId _ =>
      intent.deviceId == deviceId && (intent.status == .active || intent.status == .paused)
  | _ => false

/-! ## Phases -/

/-- How far the watcher has come with a matching intent. -/
inductive WatchStage
  | checked | triggered | executing | dispatched | concluded
deriving DecidableEq

/-- Which copies of the intent a call has: `pending` and `stopped` those it has not come to yet; at work
on one, the copy from the list (`base`) and the one it wrote last. -/
inductive IntentPhase
  | entered
  | verified (seen : RemoteIntent)
  | pending (copies : List RemoteIntent)
  | working (stage : WatchStage) (base last : RemoteIntent) (copies : List RemoteIntent)
  | stopped (copies : List RemoteIntent)
  | nothing
  | outside
  | lost

/-- The copies that a call has not come to yet. -/
def IntentPhase.rest : IntentPhase → List RemoteIntent
  | pending copies | working _ _ _ copies | stopped copies => copies
  | _ => []

/-- The watcher is at this copy from the list. -/
def IntentPhase.Evaluates (φ : IntentPhase) (base : RemoteIntent) (copies : List RemoteIntent) :
    Prop :=
  φ.rest = base :: copies ∨ ∃ stage last, φ = .working stage base last copies

/-- The phase in which a call that stops one intent reads it. -/
def IntentCall.Reads (c : IntentCall id) : IntentPhase → Prop
  | .entered =>
      match c with
      | pause _ | revoke _ => True
      | _ => False
  | .verified _ => True
  | _ => False

/-- The updates: the copy, what is changed, and the phase that the new copy leads to. -/
inductive Writes (c : IntentCall id) :
    IntentPhase → RemoteIntent → IntentPatch → (RemoteIntent → IntentPhase) → Prop
  | stop {φ : IntentPhase} {copy : RemoteIntent} {copies : List RemoteIntent} {status : IntentStatus}
      (hc : c.stops = true) (hφ : φ.rest = copy :: copies)
      (hone : (∀ device payload hid, c ≠ .command device payload hid) ∨
        φ = .pending (copy :: copies))
      (hs : status = .paused ∨ status = .revoked) :
      Writes c φ copy { status := some status } fun _ => .stopped copies
  | expire {φ : IntentPhase} {copy : RemoteIntent} {copies : List RemoteIntent}
      (hc : c.ticks = true) (hφ : φ.rest = copy :: copies) :
      Writes c φ copy { status := some .expired } fun _ => .pending copies
  | check {φ : IntentPhase} {copy : RemoteIntent} {copies : List RemoteIntent} (now : ℤ)
      (hc : c.ticks = true) (hφ : φ.rest = copy :: copies) :
      Writes c φ copy { lastCheckedAt := some now } fun r => .working .checked copy r copies
  | trigger {base last : RemoteIntent} {copies : List RemoteIntent} (now : ℤ) (hc : c.ticks = true) :
      Writes c (.working .checked base last copies) last
        { status := some .triggered, matchedAt := some now }
        fun r => .working .triggered base r copies
  | start {base last : RemoteIntent} {copies : List RemoteIntent} (hc : c.ticks = true) :
      Writes c (.working .triggered base last copies) last { status := some .executing }
        fun r => .working .executing base r copies
  | conclude {stage : WatchStage} {base last : RemoteIntent} {copies : List RemoteIntent}
      {patch : IntentPatch} (hc : c.ticks = true)
      (hstage : stage = .dispatched ∨ stage = .concluded)
      (hs : patch.status = some .succeeded ∨ patch.status = some .failed)
      (hcount : patch.executionCount = some 1) :
      Writes c (.working stage base last copies) last patch
        fun r => .working .concluded base r copies
  | fail {φ : IntentPhase} {base : RemoteIntent} {copies : List RemoteIntent} {patch : IntentPatch}
      (hc : c.ticks = true) (hφ : φ.Evaluates base copies) (hs : patch.status = some .failed)
      (hcount : patch.executionCount = none) :
      Writes c φ base patch fun _ => .pending copies

/-- The steps of a call. -/
inductive IntentStep (c : IntentCall id) : Protocol RemoteOp RemoteRes IntentPhase
  | aside (φ : IntentPhase) (o : RemoteOp) (x : RemoteRes o) (ho : concerns id o = false) :
      IntentStep c φ o x φ
  | outside (o : RemoteOp) (x : RemoteRes o) (ho : changes id o = false) :
      IntentStep c .outside o x .outside
  | lost (o : RemoteOp) (x : RemoteRes o) : IntentStep c .lost o x .lost
  | amiss (φ : IntentPhase) (found : RemoteIntent) (hid : found.id ≠ id) :
      IntentStep c φ (.getIntent id) (some found) .lost
  | verify (device : RemoteDevice) (payload : SignedRemoteCommandPayload)
      (hid : payload.subject.id = id) (hc : c = .command device payload hid) (seen : RemoteIntent)
      (hv : payload.subject.version = .fin seen.version) :
      IntentStep c .entered (.getIntent id) (some seen) (.verified seen)
  | refuse (φ : IntentPhase) (x : Option RemoteIntent) (hs : c.stops = true)
      (hc : ∀ deviceId revokes, c ≠ .disableForDevice deviceId revokes) :
      IntentStep c φ (.getIntent id) x .nothing
  | find (φ : IntentPhase) (hφ : c.Reads φ) (copy : RemoteIntent) (hid : copy.id = id)
      (hs : copy.status = .active ∨ copy.status = .paused) :
      IntentStep c φ (.getIntent id) (some copy) (.pending [copy])
  | found (φ : IntentPhase) (hφ : c.Reads φ) (copy : RemoteIntent)
      (hs : copy.status = .paused ∨ copy.status = .revoked) :
      IntentStep c φ (.getIntent id) (some copy) (.stopped [])
  | list (x : List RemoteIntent)
      (hx : c.ticks = true ∨ x.filter (fun r => r.id == id && c.selects r) ≠ []) :
      IntentStep c .entered .listIntents x
        (.pending (x.filter fun r => r.id == id && c.selects r))
  | listNone (x : List RemoteIntent) (hx : x.filter (fun r => r.id == id && c.selects r) = []) :
      IntentStep c .entered .listIntents x .nothing
  | write {φ : IntentPhase} {copy : RemoteIntent} {patch : IntentPatch}
      {next : RemoteIntent → IntentPhase} (now : ℤ) (h : Writes c φ copy patch next) :
      IntentStep c φ (.saveIntent (patched copy patch now)) () (next (patched copy patch now))
  | dispatch (base last : RemoteIntent) (copies : List RemoteIntent) (token planId : ℕ)
      (hc : c.ticks = true) :
      IntentStep c (.working .executing base last copies) (.executePlan last.id token planId) ()
        (.working .dispatched base last copies)

/-- A call that stops an intent and ends without an error has stopped it; `disableForDevice` may have
found nothing to stop. -/
def IntentCall.Ends (c : IntentCall id) (φ : IntentPhase) : Prop :=
  match c with
  | pause _ | revoke _ | command _ _ _ => (∃ copies, φ = .stopped copies) ∨ φ = .lost
  | disableForDevice _ _ => (∃ copies, φ = .stopped copies) ∨ φ = .nothing
  | _ => True

/-- How a call ends. -/
def IntentEnd {α : Type} (c : IntentCall id) (r : Except RemoteFailure α) (φ : IntentPhase) : Prop :=
  ∀ a, r = .ok a → c.Ends φ

/-- The phase in which a call begins. -/
def IntentCall.start : IntentCall id → IntentPhase
  | other _ _ => .outside
  | _ => .entered

/-! ## Every call goes through the phases -/

section Following

variable {c : IntentCall id} {φ : IntentPhase} {α β : Type}
  {Q : Except RemoteFailure α → IntentPhase → Prop}

theorem aside_of_quiet {p : RemoteProg α} (hp : Quiet p) :
    p.AllOps fun o => concerns id o = false := by
  refine AllOps.mono (fun o ho => ?_) hp
  cases o <;> first | rfl | cases ho

/-- Operations that do not concern the intent leave the phase as it is. -/
theorem follows_aside {p : RemoteProg β} {f : β → RemoteProg α}
    (hp : p.AllOps fun o => concerns id o = false) (hf : ∀ b, Follows (IntentStep c) Q (f b) φ)
    (herr : ∀ e, Q (.error e) φ) : Follows (IntentStep c) Q (p >>= f) φ :=
  Follows.of_allOps_bind hp (fun o x ho => .aside φ o x ho) hf herr

/-- A whole program of such operations. -/
theorem follows_aside_end {p : RemoteProg α} (hp : p.AllOps fun o => concerns id o = false)
    (hQ : ∀ r, Q r φ) : Follows (IntentStep c) Q p φ :=
  Follows.of_allOps hp (fun o x ho => .aside φ o x ho) hQ

/-- One such operation. -/
theorem follows_wait {o : RemoteOp} {f : RemoteRes o → RemoteProg α} (ho : concerns id o = false)
    (hf : ∀ x, Follows (IntentStep c) Q (f x) φ) : Follows (IntentStep c) Q (wait o >>= f) φ :=
  fun x => ⟨φ, .aside φ o x ho, hf x⟩

/-- An update, at one reading of the clock. -/
theorem follows_update {copy : RemoteIntent} {patch : IntentPatch}
    {next : RemoteIntent → IntentPhase} {f : RemoteIntent → RemoteProg α}
    (h : Writes c φ copy patch next)
    (hf : ∀ r, Follows (IntentStep c) Q (f r) (next r)) :
    Follows (IntentStep c) Q (update copy patch >>= f) φ :=
  fun now => ⟨φ, .aside φ _ _ rfl, fun _ => ⟨_, .write now h, hf _⟩⟩

/-- An update of another intent. -/
theorem aside_update {copy : RemoteIntent} (hid : copy.id ≠ id) (patch : IntentPatch) :
    (update copy patch).AllOps fun o => concerns id o = false :=
  ⟨rfl, fun _ => ⟨beq_false_of_ne hid, fun _ => trivial⟩⟩

/-! ### Calls that stop one intent -/

/-- The call has stopped the intent, or its copy is none of the intent. -/
def HasStopped (r : Except RemoteFailure α) (φ : IntentPhase) : Prop :=
  ∀ a, r = .ok a → (∃ copies, φ = .stopped copies) ∨ φ = .lost

theorem hasStopped_error {e : RemoteFailure} :
    HasStopped (.error e : Except RemoteFailure α) φ := nofun

theorem hasStopped_of_stopped {r : Except RemoteFailure α} {copies : List RemoteIntent} :
    HasStopped r (.stopped copies) := fun _ _ => .inl ⟨copies, rfl⟩

/-- A program without an intent of the asked id. -/
theorem follows_lost (p : RemoteProg α) : Follows (IntentStep c) HasStopped p .lost :=
  Follows.of_allOps (AllOps.of_forall (fun _ => trivial) p) (fun o x _ => .lost o x) fun _ _ _ =>
    .inr rfl

theorem follows_transition (hc : c.stops = true) (hφ : c.Reads φ)
    (hd : ∀ deviceId revokes, c ≠ .disableForDevice deviceId revokes) (deviceId : String)
    {status : IntentStatus} (hs : status = .paused ∨ status = .revoked) :
    Follows (IntentStep c) HasStopped (transition id deviceId status) φ := by
  intro found
  cases found with
  | none => exact ⟨.nothing, .refuse φ _ hc hd, hasStopped_error⟩
  | some copy =>
      by_cases hid : copy.id = id
      · by_cases hdevice : copy.deviceId ≠ deviceId
        · refine ⟨.nothing, .refuse φ _ hc hd, ?_⟩
          show Follows _ _ (if _ then _ else _) _
          rw [if_pos hdevice]
          exact hasStopped_error
        · by_cases hstatus : copy.status = .active ∨ copy.status = .paused
          · refine ⟨.pending [copy], .find φ hφ copy hid hstatus, ?_⟩
            show Follows _ _ (if _ then _ else if _ then _ else _) _
            rw [if_neg hdevice, if_pos hstatus]
            refine follows_update (.stop hc rfl (.inr rfl) hs) fun updated => ?_
            exact follows_aside (aside_of_quiet (quiet_event _ _ _)) (fun _ => hasStopped_of_stopped)
              fun _ => hasStopped_error
          · by_cases hpresent : copy.status = status
            · refine ⟨.stopped [], .found φ hφ copy (hpresent ▸ hs), ?_⟩
              show Follows _ _ (if _ then _ else if _ then _ else if _ then _ else _) _
              rw [if_neg hdevice, if_neg hstatus, if_pos hpresent]
              exact hasStopped_of_stopped
            · refine ⟨.nothing, .refuse φ _ hc hd, ?_⟩
              show Follows _ _ (if _ then _ else if _ then _ else if _ then _ else _) _
              rw [if_neg hdevice, if_neg hstatus, if_neg hpresent]
              exact hasStopped_error
      · exact ⟨.lost, .amiss φ copy hid, follows_lost _⟩

/-- Only the result is changed. -/
theorem follows_then {p : RemoteProg β} {f : β → α} (hp : Follows (IntentStep c) HasStopped p φ) :
    Follows (IntentStep c) HasStopped (p >>= fun b => pure (f b)) φ := by
  refine Follows.bind (hp.mono fun r φ hr => ?_)
  cases r with
  | error e => exact hasStopped_error
  | ok b => exact fun _ _ => hr b rfl

/-- `revoke` goes on after the intent is stopped. -/
theorem follows_revoke (hc : c.stops = true) (hφ : c.Reads φ)
    (hd : ∀ deviceId revokes, c ≠ .disableForDevice deviceId revokes) (deviceId : String) :
    Follows (IntentStep c) HasStopped (revoke id deviceId) φ := by
  refine Follows.bind ((follows_transition hc hφ hd deviceId (.inr rfl)).mono fun r φ hr => ?_)
  cases r with
  | error e => exact hasStopped_error
  | ok intent =>
      rcases hr intent rfl with ⟨copies, rfl⟩ | rfl
      · exact follows_aside (aside_of_quiet (quiet_deactivate _)) (fun _ => hasStopped_of_stopped)
          fun _ => hasStopped_error
      · exact follows_lost _

/-- A signed command about the intent: the version that it names is that of the record that is read. -/
theorem follows_command {device : RemoteDevice} {payload : SignedRemoteCommandPayload}
    (hid : payload.subject.id = id) (hc : c = .command device payload hid) :
    Follows (IntentStep c) HasStopped (RemoteCommandHandler.stopIntent device payload) .entered := by
  have hd : ∀ deviceId revokes, c ≠ .disableForDevice deviceId revokes := by
    rintro deviceId revokes rfl
    cases hc
  have hstops : c.stops = true := by rw [hc]; rfl
  unfold RemoteCommandHandler.stopIntent
  refine Follows.bind (follows_aside_end ?_ fun r => ?_)
  · unfold RemoteCommandHandler.requireSubject
    split <;> trivial
  cases r with
  | error e => exact hasStopped_error
  | ok u =>
      rw [hid]
      intro found
      cases found with
      | none => exact ⟨.nothing, .refuse _ _ hstops hd, hasStopped_error⟩
      | some seen =>
          by_cases hseen : seen.id = id
          · by_cases hdevice : seen.deviceId ≠ device.id
            · refine ⟨.nothing, .refuse _ _ hstops hd, ?_⟩
              show Follows _ _ (if _ then _ else _) _
              rw [if_pos hdevice]
              exact hasStopped_error
            · by_cases hversion : payload.subject.version = .fin seen.version
              · refine ⟨.verified seen, .verify device payload hid hc seen hversion, ?_⟩
                show Follows _ _ (if _ then _ else _) _
                rw [if_neg hdevice]
                show Follows _ _ ((if _ then _ else pure ()) >>= fun _ => _) _
                rw [if_neg (by simp [hversion]), hseen]
                show Follows _ _ (if _ then _ >>= _ else _ >>= _) _
                split
                · exact follows_then (follows_transition (φ := .verified seen) hstops trivial hd device.id (.inl rfl))
                · exact follows_then (follows_revoke (φ := .verified seen) hstops trivial hd device.id)
              · refine ⟨.nothing, .refuse _ _ hstops hd, ?_⟩
                show Follows _ _ (if _ then _ else _) _
                rw [if_neg hdevice]
                show Follows _ _ ((if _ then _ else pure ()) >>= fun _ => _) _
                rw [if_pos (.inl hversion)]
                exact hasStopped_error
          · exact ⟨.lost, .amiss _ seen hseen, follows_lost _⟩

/-! ### `disableForDevice` -/

/-- The intents that are left are stopped, those with the id among them. -/
theorem follows_disableAll (hc : c.stops = true)
    (hone : ∀ device payload hid, c ≠ .command device payload hid) (revokes : Bool)
    (intents : List RemoteIntent)
    (hrest : φ.rest = intents.filter fun r => r.id == id)
    (hφ : φ.rest = [] → (∃ copies, φ = .stopped copies) ∨ φ = .nothing) :
    Follows (IntentStep c) (fun r φ => r = .ok () → (∃ copies, φ = .stopped copies) ∨ φ = .nothing)
      (disableAll revokes intents) φ := by
  induction intents generalizing φ with
  | nil => exact fun _ => hφ hrest
  | cons intent intents ih =>
      have hafter : ∀ {φ' : IntentPhase} {updated : RemoteIntent} {f : RemoteProg Unit}
          {eventType summary : String},
          Follows (IntentStep c)
            (fun r φ => r = .ok () → (∃ copies, φ = .stopped copies) ∨ φ = .nothing) f φ' →
          Follows (IntentStep c)
            (fun r φ => r = .ok () → (∃ copies, φ = .stopped copies) ∨ φ = .nothing) (do
              event updated eventType summary
              onlyWhen revokes (deactivate updated)
              f) φ' := by
        intro φ' updated f eventType summary hf
        refine follows_aside (aside_of_quiet (quiet_event _ _ _)) (fun _ => ?_) fun _ => nofun
        exact follows_aside (allOps_onlyWhen (aside_of_quiet (quiet_deactivate _))) (fun _ => hf)
          fun _ => nofun
      by_cases hid : intent.id = id
      · rw [List.filter_cons_of_pos (by simpa using hid)] at hrest
        have hs : (if revokes then IntentStatus.revoked else .paused) = .paused ∨
            (if revokes then IntentStatus.revoked else .paused) = .revoked := by
          cases revokes
          · exact .inl rfl
          · exact .inr rfl
        exact follows_update (.stop hc hrest (.inl hone) hs) fun updated => hafter
          (ih rfl fun _ => .inl ⟨_, rfl⟩)
      · rw [List.filter_cons_of_neg (by simpa using hid)] at hrest
        exact follows_aside (aside_update hid _) (fun updated => hafter (ih hrest hφ)) fun _ => nofun

theorem follows_disableForDevice {deviceId : String} {revokes : Bool}
    (hc : c = .disableForDevice deviceId revokes) :
    Follows (IntentStep c) (IntentEnd c) (disableForDevice deviceId revokes) .entered := by
  intro intents
  have hfilter : (intents.filter fun i => i.deviceId == deviceId &&
      (i.status == .active || i.status == .paused)).filter (fun r => r.id == id) =
      intents.filter fun r => r.id == id && c.selects r := by
    rw [List.filter_filter, hc]
    rfl
  have hstops : c.stops = true := by rw [hc]; rfl
  have hone : ∀ device payload hid, c ≠ .command device payload hid := by
    rintro device payload hid rfl
    cases hc
  have hrun : ∀ {φ : IntentPhase}, φ.rest = intents.filter (fun r => r.id == id && c.selects r) →
      (φ.rest = [] → (∃ copies, φ = .stopped copies) ∨ φ = .nothing) →
      Follows (IntentStep c) (IntentEnd c) (disableAll revokes (intents.filter fun i =>
        i.deviceId == deviceId && (i.status == .active || i.status == .paused))) φ := by
    intro φ hrest hφ
    refine (follows_disableAll hstops hone revokes _ (hrest.trans hfilter.symm) hφ).mono
      fun r φ hr a ha => ?_
    rw [hc]
    exact hr ha
  by_cases hnone : intents.filter (fun r => r.id == id && c.selects r) = []
  · exact ⟨.nothing, .listNone _ hnone, hrun hnone.symm fun _ => .inr rfl⟩
  · exact ⟨_, .list _ (.inr hnone), hrun rfl fun h => absurd h hnone⟩

/-! ### The watcher -/

/-- The watcher is past this copy, or it has thrown while it was at it. -/
def Visited (base : RemoteIntent) (copies : List RemoteIntent) (r : Except RemoteFailure α)
    (φ : IntentPhase) : Prop :=
  match r with
  | .ok _ => φ.rest = copies
  | .error _ => φ.Evaluates base copies

theorem visited_working {base last : RemoteIntent} {copies : List RemoteIntent}
    {stage : WatchStage} (r : Except RemoteFailure α) :
    Visited base copies r (.working stage base last copies) := by
  cases r with
  | ok a => rfl
  | error e => exact .inr ⟨stage, last, rfl⟩

/-- The `catch` of `execute`, over the record that was written last. -/
theorem follows_failExecution {stage : WatchStage} {base last : RemoteIntent}
    {copies : List RemoteIntent} (hc : c.ticks = true)
    (hstage : stage = .dispatched ∨ stage = .concluded) (summary : String)
    (failure : RemoteFailure) :
    Follows (IntentStep c) (Visited base copies) (failIntent last (some 1) summary failure)
      (.working stage base last copies) :=
  follows_update (.conclude hc hstage (.inr rfl) rfl) fun _ =>
    follows_aside_end (aside_of_quiet (quiet_conclude _ _ _)) fun r => visited_working r

theorem follows_dispatch {base last : RemoteIntent} {copies : List RemoteIntent}
    {token planId : ℕ} {f : Unit → RemoteProg α} (hc : c.ticks = true)
    (hf : ∀ u, Follows (IntentStep c) Q (f u) (.working .dispatched base last copies)) :
    Follows (IntentStep c) Q (wait (.executePlan last.id token planId) >>= f)
      (.working .executing base last copies) :=
  fun u => ⟨_, .dispatch base last copies token planId hc, hf u⟩

/-- The plan is executed, and the outcome recorded. -/
theorem follows_executeOnce {base last : RemoteIntent} {copies : List RemoteIntent}
    (hc : c.ticks = true) (token : ℕ) :
    Follows (IntentStep c) (fun r φ =>
      match r with
      | .ok (recorded, _) => φ = .working .concluded base recorded copies
      | .error _ => φ = .working .dispatched base last copies)
      (executeOnce token last) (.working .executing base last copies) := by
  refine follows_dispatch hc fun _ => ?_
  refine follows_aside (aside_of_quiet (quiet_lift _)) (fun operation => ?_) fun _ => rfl
  have hs : (outcomePatch operation).status = some .succeeded ∨
      (outcomePatch operation).status = some .failed := by
    unfold outcomePatch
    dsimp only
    split
    · exact .inl rfl
    · exact .inr rfl
  exact follows_update (.conclude hc (.inl rfl) hs rfl) fun recorded => rfl

/-- The plan of a triggered intent is executed. -/
theorem follows_execute {base last : RemoteIntent} {copies : List RemoteIntent}
    (hc : c.ticks = true) :
    Follows (IntentStep c) (Visited base copies) (execute last)
      (.working .triggered base last copies) := by
  intro token
  refine ⟨_, .aside _ _ _ rfl, ?_⟩
  show Follows _ _ (orFail token >>= _) _
  rcases token with e | _ | token
  · exact visited_working _
  · exact visited_working _
  · refine follows_update (.start hc) fun executing => ?_
    refine Follows.bind (Follows.tryCatch (Follows.bind ((follows_executeOnce hc token).mono
      fun r φ hr => ?_)))
    rcases r with e | ⟨recorded, operation⟩
    · obtain rfl : φ = .working .dispatched base executing copies := hr
      exact follows_failExecution hc (.inl rfl) _ _
    · obtain rfl : φ = .working .concluded base recorded copies := hr
      refine Follows.tryCatch (follows_aside_end (aside_of_quiet (quiet_conclude _ _ _)) fun r => ?_)
      cases r with
      | ok u => rfl
      | error e => exact follows_failExecution hc (.inr rfl) _ _

/-- An intent is evaluated. -/
theorem follows_evaluate {base : RemoteIntent} {copies : List RemoteIntent} (hc : c.ticks = true)
    (hφ : φ.rest = base :: copies) (now : ℤ) :
    Follows (IntentStep c) (fun r φ => ∀ u, r = .ok u → φ.rest = copies) (evaluate base now) φ := by
  refine Follows.tryCatch (Follows.mono (Q := Visited base copies) ?_ fun r φ hr => ?_)
  · intro plans
    refine ⟨_, .aside _ _ _ rfl, ?_⟩
    show Follows _ _ (orFail plans >>= _) _
    cases plans with
    | error e => exact .inl hφ
    | ok plans =>
        refine follows_update (.check now hc hφ) fun checked => ?_
        split
        · refine follows_update (.trigger now hc) fun triggered => ?_
          exact follows_aside (aside_of_quiet (quiet_event _ _ _)) (fun _ => follows_execute hc)
            fun _ => visited_working _
        · exact visited_working _
  · cases r with
    | ok u => exact fun _ _ => hr
    | error e =>
        refine follows_update (.fail hc hr rfl rfl) fun failed => ?_
        exact follows_aside_end (aside_of_quiet (quiet_conclude _ _ _)) fun _ _ _ => rfl

/-- The watcher visits the intent. -/
theorem follows_visit {base : RemoteIntent} {copies : List RemoteIntent} (hc : c.ticks = true)
    (hφ : φ.rest = base :: copies) (now : ℤ) :
    Follows (IntentStep c) (fun r φ => ∀ u, r = .ok u → φ.rest = copies) (visit base now) φ := by
  unfold visit
  split
  · refine follows_update (.expire hc hφ) fun expired => ?_
    exact follows_aside_end (aside_of_quiet (quiet_conclude _ _ _)) fun _ _ _ => rfl
  · exact follows_evaluate hc hφ now

/-! ### Other intents -/

/-- An update of another intent, whose copies all keep its id. -/
theorem follows_updateOther {copy : RemoteIntent} {patch : IntentPatch}
    {f : RemoteIntent → RemoteProg α} (hid : copy.id ≠ id)
    (hf : ∀ r : RemoteIntent, r.id ≠ id → Follows (IntentStep c) Q (f r) φ) :
    Follows (IntentStep c) Q (update copy patch >>= f) φ :=
  fun _ => ⟨φ, .aside φ _ _ rfl, fun _ => ⟨φ, .aside φ _ _ (beq_false_of_ne hid), hf _ hid⟩⟩

/-- A call that ends as it began. -/
def Stays (φ : IntentPhase) (_ : Except RemoteFailure α) (ψ : IntentPhase) : Prop := ψ = φ

theorem follows_quiet {p : RemoteProg α} (hp : Quiet p) : Follows (IntentStep c) (Stays φ) p φ :=
  follows_aside_end (aside_of_quiet hp) fun _ => rfl

theorem follows_failOther {copy : RemoteIntent} (hid : copy.id ≠ id) (count : Option ℕ)
    (summary : String) (failure : RemoteFailure) :
    Follows (IntentStep c) (Stays φ) (failIntent copy count summary failure) φ :=
  follows_updateOther hid fun _ _ => follows_quiet (quiet_conclude _ _ _)

theorem follows_executeOther {copy : RemoteIntent} (hid : copy.id ≠ id) :
    Follows (IntentStep c) (Stays φ) (execute copy) φ := by
  have honce : ∀ (token : ℕ) {executing : RemoteIntent}, executing.id ≠ id →
      Follows (IntentStep c) (fun r ψ => ψ = φ ∧ ∀ a, r = .ok a → a.1.id ≠ id)
        (executeOnce token executing) φ := by
    intro token executing hexecuting
    refine follows_wait (beq_false_of_ne hexecuting) fun _ => ?_
    refine follows_aside (aside_of_quiet (quiet_lift _)) (fun operation => ?_)
      fun _ => ⟨rfl, by rintro _ ⟨⟩⟩
    refine follows_updateOther hexecuting fun recorded hrecorded => ⟨rfl, ?_⟩
    rintro _ ⟨⟩
    exact hrecorded
  intro token
  refine ⟨φ, .aside _ _ _ rfl, ?_⟩
  show Follows _ _ (orFail token >>= _) _
  rcases token with e | _ | token
  · exact rfl
  · exact rfl
  · refine follows_updateOther hid fun executing hexecuting => ?_
    refine Follows.bind (Follows.tryCatch (Follows.bind ((honce token hexecuting).mono
      fun r ψ ⟨hψ, hr⟩ => ?_)))
    subst hψ
    rcases r with e | ⟨recorded, operation⟩
    · exact follows_failOther hexecuting _ _ _
    · refine Follows.tryCatch ((follows_quiet (quiet_conclude _ _ _)).mono fun r ψ' hψ' => ?_)
      obtain rfl : ψ' = ψ := hψ'
      cases r with
      | ok u => rfl
      | error e => exact follows_failOther (hr _ rfl) _ _ _

theorem follows_visitOther {base : RemoteIntent} (hid : base.id ≠ id) (now : ℤ) :
    Follows (IntentStep c) (Stays φ) (visit base now) φ := by
  unfold visit
  split
  · exact follows_updateOther hid fun _ _ => follows_quiet (quiet_conclude _ _ _)
  · refine Follows.tryCatch (Follows.mono (Q := Stays φ) ?_ fun r ψ hψ => ?_)
    · intro plans
      refine ⟨φ, .aside _ _ _ rfl, ?_⟩
      show Follows _ _ (orFail plans >>= _) _
      cases plans with
      | error e => exact rfl
      | ok plans =>
          refine follows_updateOther hid fun checked hchecked => ?_
          split
          · refine follows_updateOther hchecked fun triggered htriggered => ?_
            exact follows_aside (aside_of_quiet (quiet_event _ _ _))
              (fun _ => follows_executeOther htriggered) fun _ => rfl
          · exact rfl
    · obtain rfl : ψ = φ := hψ
      cases r with
      | ok u => rfl
      | error e => exact follows_failOther hid _ _ _

/-! ### Every call -/

/-- The intents that are left are visited, those with the id among them. -/
theorem follows_visitAll (hc : c.ticks = true) (now : ℤ) (intents : List RemoteIntent)
    (hrest : φ.rest = intents.filter fun r => r.id == id) :
    Follows (IntentStep c) (fun _ _ => True) (visitAll now intents) φ := by
  induction intents generalizing φ with
  | nil => trivial
  | cons intent intents ih =>
      by_cases hid : intent.id = id
      · rw [List.filter_cons_of_pos (by simpa using hid)] at hrest
        refine Follows.bind ((follows_visit hc hrest now).mono fun r ψ hψ => ?_)
        cases r with
        | ok u => exact ih (hψ u rfl)
        | error e => trivial
      · rw [List.filter_cons_of_neg (by simpa using hid)] at hrest
        refine Follows.bind ((follows_visitOther hid now).mono fun r ψ hψ => ?_)
        obtain rfl : ψ = φ := hψ
        cases r with
        | ok u => exact ih hrest
        | error e => trivial

theorem follows_tick {now : ℤ} (hc : c = .tick now) :
    Follows (IntentStep c) (IntentEnd c) (tick now) .entered := by
  have hticks : c.ticks = true := by rw [hc]; rfl
  have hends : ∀ (r : Except RemoteFailure Unit) (φ : IntentPhase), IntentEnd c r φ := by
    intro r φ a ha
    rw [hc]
    trivial
  intro free
  refine ⟨.entered, .aside _ _ _ rfl, ?_⟩
  cases free with
  | false => exact hends _ _
  | true =>
      show Follows _ _ (attempt (watch now) >>= _) _
      refine Follows.bind (Follows.tryCatch (Follows.bind ?_))
      intro intents
      refine ⟨_, .list intents (.inl hticks), ?_⟩
      have hfilter : (intents.filter fun i => i.status == .active).filter (fun r => r.id == id) =
          intents.filter fun r => r.id == id && c.selects r := by
        rw [List.filter_filter, hc]
        rfl
      have hlast : ∀ (ended : Except RemoteFailure Unit) (φ : IntentPhase),
          Follows (IntentStep c) (IntentEnd c) (wait .endCheck >>= fun _ => orFail ended) φ := by
        intro ended φ
        refine follows_wait rfl fun _ => ?_
        cases ended <;> exact hends _ _
      refine (follows_visitAll (φ := .pending _) hticks now _ hfilter.symm).mono fun r φ _ => ?_
      cases r with
      | ok u => exact hlast _ _
      | error e => exact hlast _ _

/-- Every call goes through the phases. -/
theorem follows_call (c : IntentCall id) : Follows (IntentStep c) (IntentEnd c) c.prog c.start := by
  have hone : ∀ {p : RemoteProg RemoteIntent}, Follows (IntentStep c) HasStopped p .entered →
      (∀ φ, ((∃ copies, φ = .stopped copies) ∨ φ = .lost) → c.Ends φ) →
      Follows (IntentStep c) (IntentEnd c) (p >>= fun _ => return ()) .entered := by
    intro p hp hends
    exact (follows_then (f := fun _ => ()) hp).mono fun r φ hr a ha => hends φ (hr a ha)
  cases c with
  | tick now => exact follows_tick rfl
  | pause deviceId =>
      exact hone (follows_transition (c := .pause deviceId) (φ := .entered) rfl trivial nofun deviceId (.inl rfl))
        fun _ h => h
  | revoke deviceId =>
      exact hone (follows_revoke (c := .revoke deviceId) (φ := .entered) rfl trivial nofun deviceId) fun _ h => h
  | disableForDevice deviceId revokes => exact follows_disableForDevice rfl
  | command device payload hid =>
      exact (follows_then (f := fun _ => ()) (follows_command hid rfl)).mono fun r φ hr a ha => hr a ha
  | other p hp =>
      exact Follows.of_allOps hp (fun o x ho => .outside o x ho) fun _ _ _ => trivial

end Following

end Vops.IntentService
