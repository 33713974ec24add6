import Vops.Lib.Numerals
import Vops.Remote.RemoteFrames

/-!
# When can a route be paired?

`register` lets a route through whose device is revoked, and then inserts a second device under it;
the column of the routes is unique.

* `RegistryCall`, `Reachable` — the calls on the registry, and the states their schedules reach.
* `KnownStep`, `Registered` — a call writes a device under an identifier that it has drawn or read,
  and so no two devices share an identifier or a route.
* `Registered.registers_iff` — when `register` succeeds.
* `Registered.registers_as_permitted` — when it succeeds as it should.
-/

/-!
## Is revocation irreversible?

`touch`, `setRole`, `suspend`, `resume` and `revoke` read the whole record of a device, change it and
write it back. A call that has read the record before a revocation, and writes it after, brings the device
back. Where no call does so, a revoked device stays revoked.

* `DeviceCall` — the calls; `DevicePhase`, `DeviceStep`, `follows_call` — how far a call has come.
* `WritesRevoked` — the condition on a step of a schedule: over a revoked record a call writes what it has
  read as revoked, or it revokes.
* `Revocations` — the invariant.
* `revoked_for_ever` — after a revocation the device is revoked at every later moment of every schedule that
  meets the condition, and no route leads to it.
* `touch_resumes` — a message of the device that arrives while it is revoked.
-/

set_option linter.unusedSectionVars false

namespace Vops.DeviceRegistry

open Async

variable {ι : Type} [DecidableEq ι]

/-! ## Calls -/

/-- The operation writes the record of the device. -/
def saves (id : String) : RemoteOp → Bool
  | .saveDevice device => device.id == id
  | _ => false

/-- A call on the device, or any program that does not write its record. -/
inductive DeviceCall (id : String)
  | touch
  | setRole (role : RemoteDeviceRole)
  | suspend
  | resume
  | revoke
  | other (p : RemoteProg Unit) (hp : p.AllOps fun o => saves id o = false)

variable {id : String}

/-- The program of a call. -/
def DeviceCall.prog : DeviceCall id → RemoteProg Unit
  | touch => DeviceRegistry.touch id >>= fun _ => return ()
  | setRole role => DeviceRegistry.setRole id role >>= fun _ => return ()
  | suspend => DeviceRegistry.suspend id >>= fun _ => return ()
  | resume => DeviceRegistry.resume id >>= fun _ => return ()
  | revoke => DeviceRegistry.revoke id >>= fun _ => return ()
  | other p _ => p

/-- The status with which a call writes a record that it has read; none, where it refuses to. -/
def DeviceCall.writes (read : RemoteDeviceStatus) : DeviceCall id → Option RemoteDeviceStatus
  | touch => some read
  | setRole _ => if read = .revoked then none else some read
  | suspend => if read = .revoked then none else some .suspended
  | resume => if read = .revoked then none else some .active
  | revoke => some .revoked
  | other _ _ => none

/-- A call writes a record that is revoked as revoked. -/
theorem DeviceCall.writes_revoked {c : DeviceCall id} {status : RemoteDeviceStatus}
    (h : c.writes .revoked = some status) : status = .revoked := by
  cases c <;> simp [DeviceCall.writes] at h <;> exact h.symm

/-! ## Phases -/

/-- How far a call has come: it has not read the record, has read it, is past the write. -/
inductive DevicePhase
  | entered
  | read (device : RemoteDevice)
  | past

/-- The steps of a call. -/
inductive DeviceStep (c : DeviceCall id) : Protocol RemoteOp RemoteRes DevicePhase
  | missing : DeviceStep c .entered (.getDevice id) none .entered
  | read (device : RemoteDevice) :
      DeviceStep c .entered (.getDevice id) (some device) (.read device)
  | time (device : RemoteDevice) (now : ℤ) :
      DeviceStep c (.read device) (.agent .now) now (.read device)
  | write (device updated : RemoteDevice) (hid : updated.id = device.id)
      (hs : c.writes device.status = some updated.status) :
      DeviceStep c (.read device) (.saveDevice updated) (.ok ()) .past
  | refused (device updated : RemoteDevice) (failure : RemoteFailure) :
      DeviceStep c (.read device) (.saveDevice updated) (.error failure) (.read device)
  | aside (o : RemoteOp) (x : RemoteRes o) (ho : saves id o = false) :
      DeviceStep c .past o x .past

/-- A call that ends without an error has written the record. -/
def DeviceEnd {α : Type} (r : Except RemoteFailure α) (φ : DevicePhase) : Prop :=
  ∀ a, r = .ok a → φ = .past

/-- The phase in which a call begins. -/
def DeviceCall.start : DeviceCall id → DevicePhase
  | other _ _ => .past
  | _ => .entered

section Following

variable {c : DeviceCall id} {α β : Type}

theorem aside_of_calm {p : RemoteProg α} (hp : Calm p) : p.AllOps fun o => saves id o = false := by
  refine AllOps.mono (fun o ho => ?_) hp
  cases o <;> first | rfl | cases ho

/-- What follows the write. -/
theorem follows_past {p : RemoteProg α} (hp : p.AllOps fun o => saves id o = false) :
    Follows (DeviceStep c) DeviceEnd p .past :=
  Follows.of_allOps hp (fun o x ho => .aside o x ho) fun _ _ _ => rfl

/-- The record is read, or there is none. -/
theorem follows_get {f : RemoteDevice → RemoteProg α}
    (hf : ∀ device, Follows (DeviceStep c) DeviceEnd (f device) (.read device)) :
    Follows (DeviceStep c) DeviceEnd (get id >>= f) .entered := by
  intro found
  cases found with
  | none => exact ⟨.entered, .missing, nofun⟩
  | some device => exact ⟨.read device, .read device, hf device⟩

/-- The record is written, at one reading of the clock. -/
theorem follows_write {device : RemoteDevice} {record : ℤ → RemoteDevice}
    {f : ℤ → RemoteProg α} (hid : ∀ now, (record now).id = device.id)
    (hs : ∀ now, c.writes device.status = some (record now).status)
    (hf : ∀ now, Calm (f now)) :
    Follows (DeviceStep c) DeviceEnd (do
      let now ← clock
      orFail (← wait (.saveDevice (record now)))
      f now) (.read device) := by
  intro now
  refine ⟨.read device, .time device now, fun saved => ?_⟩
  cases saved with
  | ok _ =>
      exact ⟨.past, .write device _ (hid now) (hs now), follows_past (aside_of_calm (hf now))⟩
  | error failure => exact ⟨.read device, .refused device _ failure, nofun⟩

theorem calm_event (device : RemoteDevice) (eventType summary : String) :
    Calm (event device eventType summary) :=
  ⟨rfl, fun _ => ⟨rfl, fun _ => calm_of_quiet (quiet_appendAudit _)⟩⟩

theorem calm_afterStatus (updated : RemoteDevice) (status : RemoteDeviceStatus) :
    Calm (afterStatus updated status) := by
  refine (allOps_onlyWhen (IntentService.calm_disableForDevice _ _)).bind fun _ =>
    AllOps.perform_bind rfl fun _ => (calm_event _ _ _).bind fun _ => trivial

/-- A call that does not write a status it refuses. -/
theorem follows_setStatus {status : RemoteDeviceStatus}
    (hc : ∀ read : RemoteDeviceStatus, ¬ (read = .revoked ∧ status ≠ .revoked) →
      c.writes read = some status) :
    Follows (DeviceStep c) DeviceEnd (setStatus id status) .entered := by
  refine follows_get fun device => ?_
  show Follows _ _ (if _ then _ else _) _
  split
  · exact (nofun : DeviceEnd (Except.error _) _)
  next hread =>
    exact follows_write (fun _ => rfl) (fun _ => hc _ hread) fun _ => calm_afterStatus _ _

/-- Every call goes through the phases. -/
theorem follows_call (c : DeviceCall id) : Follows (DeviceStep c) DeviceEnd c.prog c.start := by
  have hdrop : ∀ {p : RemoteProg RemoteDevice}, Follows (DeviceStep c) DeviceEnd p .entered →
      Follows (DeviceStep c) DeviceEnd (p >>= fun _ => return ()) .entered := by
    intro p hp
    refine Follows.bind (hp.mono fun r φ hr => ?_)
    cases r with
    | ok device => exact fun _ _ => hr device rfl
    | error e => exact nofun
  cases c with
  | touch =>
      exact hdrop (follows_get fun device => follows_write (fun _ => rfl) (fun _ => rfl) fun _ => trivial)
  | setRole role =>
      refine hdrop (follows_get fun device => ?_)
      show Follows _ _ (if _ then _ else _) _
      split
      · exact (nofun : DeviceEnd (Except.error _) _)
      next hread =>
        exact follows_write (fun _ => rfl) (fun _ => if_neg hread) fun _ =>
          (calm_event _ _ _).bind fun _ => trivial
  | suspend =>
      exact hdrop (follows_setStatus fun read hread => if_neg fun h => hread ⟨h, nofun⟩)
  | resume =>
      exact hdrop (follows_setStatus fun read hread => if_neg fun h => hread ⟨h, nofun⟩)
  | revoke => exact hdrop (follows_setStatus fun _ _ => rfl)
  | other p hp => exact follows_past hp

end Following

/-! ## Pools of calls -/

/-- What the calls have done, in which state. -/
abbrev DeviceLog (ι : Type) := List (Pool.Event RemoteOp ι RemoteWorld)

/-- Calls at work, and what they have done. -/
abbrev DevicePool (ι : Type) :=
  Pool RemoteOp RemoteRes RemoteFailure Unit ι (RemoteWorld × DeviceLog ι)

/-- The calls, before their first operation. -/
def startDevices (calls : ι → DeviceCall id) (w : RemoteWorld) : DevicePool ι :=
  ⟨(w, []), fun i => (calls i).prog⟩

/-- The stored status of a device. -/
def deviceStatus (w : RemoteWorld) (id : String) : Option RemoteDeviceStatus :=
  (w.device id).map RemoteDevice.status

/-- The event reads the record of the device. -/
def readsDevice (id : String) (e : Pool.Event RemoteOp ι RemoteWorld) : Bool :=
  match e.op with
  | .getDevice id' => id' == id
  | _ => false

/-- The next operation of a program writes the record of the device. -/
def writing (id : String) : RemoteProg Unit → Bool
  | .await o _ => saves id o
  | _ => false

/-- The call revokes the device. -/
def DeviceCall.revokes : DeviceCall id → Bool
  | revoke => true
  | _ => false

/-- Over a record that is revoked, a call other than a revocation writes only what it has read as
revoked. -/
def WritesRevoked (calls : ι → DeviceCall id) (p : DevicePool ι) (i : ι) : Prop :=
  writing id (p.task i) = true → deviceStatus p.state.1 id = some .revoked →
    (calls i).revokes = true ∨ ∃ e ∈ p.state.2, e.task = i ∧ readsDevice id e = true ∧
      deviceStatus e.before id = some .revoked

instance (calls : ι → DeviceCall id) (p : DevicePool ι) (i : ι) :
    Decidable (WritesRevoked calls p i) :=
  inferInstanceAs (Decidable (_ → _ → _ ∨ _))

/-- The device is revoked, and no route leads to it. -/
structure Revoked (env : RemoteEnv) (id : String) (w : RemoteWorld) : Prop where
  status : deviceStatus w id = some .revoked
  unreachable : ∀ routeId device w',
    run (remoteHandle env) (getActiveByRoute routeId) w = (.ok device, w') → device.id ≠ id

/-! ## The invariant -/

/-- What a call in a phase has read. -/
def HasRead (i : ι) (id : String) (log : DeviceLog ι) : DevicePhase → Prop
  | .entered => ∀ e ∈ log, e.task = i → readsDevice id e = true →
      deviceStatus e.before id ≠ some .revoked
  | .read device => device.id = id ∧ ∀ e ∈ log, e.task = i → readsDevice id e = true →
      deviceStatus e.before id = some .revoked → device.status = .revoked
  | .past => True

/-- What holds at every moment. -/
structure Revocations (calls : ι → DeviceCall id) (φ : ι → DevicePhase)
    (s : RemoteWorld × DeviceLog ι) : Prop where
  keyed : Table.Keyed RemoteDevice.id s.1.devices
  hasRead : ∀ i, HasRead i id s.2 (φ i)
  revoked : ∀ i, (calls i).revokes = true → φ i = .past → deviceStatus s.1 id = some .revoked

section Steps

variable {env : RemoteEnv} {calls : ι → DeviceCall id} {φ : ι → DevicePhase}
  {s : RemoteWorld × DeviceLog ι} {i : ι} {φ' : DevicePhase} {w' : RemoteWorld} {o : RemoteOp}

theorem deviceStatus_saveDevice (w : RemoteWorld) (device : RemoteDevice) :
    deviceStatus (w.saveDevice device) id =
      if device.id = id then some device.status else deviceStatus w id := by
  unfold deviceStatus
  rw [RemoteWorld.device_saveDevice]
  split <;> rfl

/-- The record of a device is written by operations on it only. -/
theorem deviceStatus_of_not_saves (env : RemoteEnv) (w : RemoteWorld) (h : saves id o = false) :
    deviceStatus (remoteHandle env o w).2 id = deviceStatus w id := by
  by_cases hq : o.quiet = true
  · unfold deviceStatus RemoteWorld.device
    rw [(@untouched_of_quiet env _ w hq).devices]
  · cases o with
    | saveDevice device =>
        simp only [remoteHandle]
        split
        · rfl
        · exact (deviceStatus_saveDevice w device).trans (if_neg (by simpa [saves] using h))
    | rememberCommand id deviceId nonce record =>
        simp only [remoteHandle]
        split <;> rfl
    | _ => first | rfl | exact absurd rfl hq

/-- The key of the devices is kept. -/
theorem keyed_step {w : RemoteWorld} (h : Table.Keyed RemoteDevice.id w.devices) :
    Table.Keyed RemoteDevice.id (remoteHandle env o w).2.devices := by
  by_cases hq : o.quiet = true
  · rw [(@untouched_of_quiet env _ w hq).devices]
    exact h
  · cases o with
    | saveDevice device =>
        simp only [remoteHandle]
        split
        · exact h
        · exact h.upsert
    | rememberCommand id deviceId nonce record =>
        simp only [remoteHandle]
        split <;> exact h
    | _ => first | exact h | exact absurd rfl hq

/-- What a step has to show. -/
theorem Revocations.step (h : Revocations calls φ s)
    (hkeyed : Table.Keyed RemoteDevice.id w'.devices)
    (hread : HasRead i id (s.2 ++ [⟨i, o, s.1⟩]) φ')
    (hkeep : deviceStatus s.1 id = some .revoked → deviceStatus w' id = some .revoked)
    (hpast : (calls i).revokes = true → φ' = .past →
      φ i = .past ∨ deviceStatus w' id = some .revoked) :
    Revocations calls (Function.update φ i φ') (w', s.2 ++ [⟨i, o, s.1⟩]) := by
  refine ⟨hkeyed, ?_, ?_⟩
  · refine (Function.forall_update_iff φ fun j ψ =>
      HasRead j id (s.2 ++ [⟨i, o, s.1⟩]) ψ).mpr ⟨hread, fun j hj => ?_⟩
    -- The new event is one of another call.
    have hold := h.hasRead j
    have hevent : ∀ {e : Pool.Event RemoteOp ι RemoteWorld}, e ∈ s.2 ++ [⟨i, o, s.1⟩] →
        e.task = j → e ∈ s.2 := by
      intro e he htask
      rcases List.mem_append.mp he with he | he
      · exact he
      · rw [List.mem_singleton.mp he] at htask
        exact absurd htask.symm hj
    generalize φ j = ψ at hold
    cases ψ with
    | entered => exact fun e he htask => hold e (hevent he htask) htask
    | read device => exact ⟨hold.1, fun e he htask => hold.2 e (hevent he htask) htask⟩
    | past => trivial
  · refine (Function.forall_update_iff φ fun j ψ => (calls j).revokes = true → ψ = .past →
      deviceStatus w' id = some .revoked).mpr ⟨fun hc hφ => ?_, fun j _ hc hφ => ?_⟩
    · rcases hpast hc hφ with hold | hnew
      · exact hkeep (h.revoked i hc hold)
      · exact hnew
    · exact hkeep (h.revoked j hc hφ)

/-- Every step that meets the condition keeps what holds at every moment, and a revocation. -/
theorem revocations_step {p : DevicePool ι} {k : RemoteRes o → RemoteProg Unit}
    (ht : p.task i = .await o k) (hC : WritesRevoked calls p i)
    (hT : DeviceStep (calls i) (φ i) o (Pool.recorded (remoteHandle env) i o p.state).1 φ')
    (h : Revocations calls φ p.state) :
    Revocations calls (Function.update φ i φ')
        (p.step (Pool.recorded (remoteHandle env)) i).state ∧
      (deviceStatus p.state.1 id = some .revoked →
        deviceStatus (p.step (Pool.recorded (remoteHandle env)) i).state.1 id = some .revoked) := by
  rw [Pool.step_of_await ht]
  show Revocations calls _ ((remoteHandle env o p.state.1).2, p.state.2 ++ [⟨i, o, p.state.1⟩]) ∧
    (_ → deviceStatus (remoteHandle env o p.state.1).2 id = _)
  have hkeyed : Table.Keyed RemoteDevice.id (remoteHandle env o p.state.1).2.devices :=
    keyed_step h.keyed
  have hread := h.hasRead i
  have hwritten := h.revoked i
  generalize hφ : φ i = φi at hT hread hwritten
  generalize hx : (Pool.recorded (remoteHandle env) i o p.state).1 = x at hT
  -- An operation that does not write the record, nor reads it, leaves what was read.
  have hlast : ∀ {P : Pool.Event RemoteOp ι RemoteWorld → Prop}, (∀ e ∈ p.state.2, P e) →
      P ⟨i, o, p.state.1⟩ → ∀ e ∈ p.state.2 ++ [⟨i, o, p.state.1⟩], P e :=
    fun hall hnew => List.forall_mem_append.mpr ⟨hall, List.forall_mem_singleton.mpr hnew⟩
  cases hT with
  | missing =>
      have hnone : p.state.1.device id = none := hx
      refine ⟨h.step hkeyed (hlast hread fun _ _ => ?_) (fun hr => hr) nofun, fun hr => hr⟩
      simp [deviceStatus, hnone]
  | read device =>
      have hsome : p.state.1.device id = some device := hx
      refine ⟨h.step hkeyed ⟨RemoteWorld.device_id hsome, hlast ?_ ?_⟩ (fun hr => hr) nofun,
        fun hr => hr⟩
      · intro e he htask hreads hrevoked
        exact absurd hrevoked (hread e he htask hreads)
      · intro _ _ hrevoked
        simpa [deviceStatus, hsome] using hrevoked
  | time device now =>
      exact ⟨h.step hkeyed ⟨hread.1, hlast hread.2 nofun⟩ (fun hr => hr) nofun, fun hr => hr⟩
  | refused device updated failure =>
      have hsame : (remoteHandle env (.saveDevice updated) p.state.1).2 = p.state.1 := by
        rcases RemoteWorld.saveDevice_cases env p.state.1 updated with ⟨-, heq⟩ | ⟨-, heq⟩
        · have hok : (remoteHandle env (.saveDevice updated) p.state.1).1 = .error failure := hx
          rw [heq] at hok
          cases hok
        · rw [heq]
      rw [hsame] at hkeyed ⊢
      exact ⟨h.step hkeyed ⟨hread.1, hlast hread.2 nofun⟩ (fun hr => hr) nofun, fun hr => hr⟩
  | write device updated hid hs =>
      have hsaved : (remoteHandle env (.saveDevice updated) p.state.1).2 =
          p.state.1.saveDevice updated := by
        rcases RemoteWorld.saveDevice_cases env p.state.1 updated with ⟨-, heq⟩ | ⟨-, heq⟩
        · rw [heq]
        · have hok : (remoteHandle env (.saveDevice updated) p.state.1).1 = .ok () := hx
          rw [heq] at hok
          cases hok
      rw [hsaved] at hkeyed ⊢
      have hupdated : updated.id = id := hid.trans hread.1
      have hstatus : deviceStatus (p.state.1.saveDevice updated) id = some updated.status :=
        (deviceStatus_saveDevice _ _).trans (if_pos hupdated)
      have hrevokes : (calls i).revokes = true → updated.status = .revoked := by
        intro hc
        generalize calls i = c at hc hs
        cases c <;> first | exact (Option.some.inj hs).symm | cases hc
      have hkeep : deviceStatus p.state.1 id = some .revoked →
          deviceStatus (p.state.1.saveDevice updated) id = some .revoked := by
        intro hr
        rw [hstatus]
        have hwriting : writing id (p.task i) = true := by
          rw [ht]
          exact beq_iff_eq.mpr hupdated
        rcases hC hwriting hr with hc | ⟨e, he, htask, hreads, hrevoked⟩
        · rw [hrevokes hc]
        · rw [hread.2 e he htask hreads hrevoked] at hs
          rw [DeviceCall.writes_revoked hs]
      refine ⟨h.step hkeyed trivial hkeep fun hc _ => .inr ?_, hkeep⟩
      exact hstatus.trans (congrArg some (hrevokes hc))
  | aside o x ho =>
      have hsame := deviceStatus_of_not_saves env p.state.1 ho
      exact ⟨h.step hkeyed trivial (fun hr => hsame.trans hr) fun _ _ => .inl hφ,
        fun hr => hsame.trans hr⟩

end Steps

/-! ## Every schedule -/

section Schedules

variable {env : RemoteEnv} {calls : ι → DeviceCall id} {φ : ι → DevicePhase}

/-- A device that is found under a route is stored there, and active. -/
theorem getActiveByRoute_ok {routeId : String} {device : RemoteDevice} {w w' : RemoteWorld}
    (h : run (remoteHandle env) (getActiveByRoute routeId) w = (.ok device, w')) :
    w.deviceByRoute routeId = some device ∧ device.status = .active := by
  rw [getActiveByRoute, perform_bind, run_await] at h
  cases hfound : w.deviceByRoute routeId with
  | none => simp [remoteHandle, hfound, throwRemote] at h
  | some found =>
      rw [show (remoteHandle env (.getDeviceByRoute routeId) w).1 = some found from hfound] at h
      dsimp only at h
      by_cases hactive : found.status = .active
      · rw [if_neg (not_not.mpr hactive)] at h
        have hdevice : found = device := by
          cases hvalid : found.restrictions.validUntil with
          | «at» expires =>
              simp only [hvalid, clock, perform_bind, run_await] at h
              split at h <;> cases h
              rfl
          | _ =>
              rw [hvalid] at h
              cases h
              rfl
        exact ⟨congrArg some hdevice, hdevice ▸ hactive⟩
      · rw [if_pos hactive] at h
        cases h

/-- No route leads to a device that is revoked. -/
theorem revoked_of_status {w : RemoteWorld} (hkeyed : Table.Keyed RemoteDevice.id w.devices)
    (h : deviceStatus w id = some .revoked) : Revoked env id w := by
  refine ⟨h, ?_⟩
  rintro routeId device w' hrun rfl
  obtain ⟨hfound, hactive⟩ := getActiveByRoute_ok hrun
  have hstored : w.device device.id = some device := hkeyed.get_eq (List.mem_of_find?_eq_some hfound)
  simp [deviceStatus, hstored, hactive] at h

/-- The calls follow their phases, and the invariant holds. -/
structure Underway (calls : ι → DeviceCall id) (φ : ι → DevicePhase) (p : DevicePool ι) : Prop where
  following : Pool.Following (fun i => DeviceStep (calls i)) (fun _ => DeviceEnd) p φ
  revocations : Revocations calls φ p.state

/-- A schedule that meets the condition keeps a revocation. -/
theorem Underway.runs {p : DevicePool ι} {sched : List ι} (h : Underway calls φ p)
    (hC : Pool.Along (Pool.recorded (remoteHandle env)) (WritesRevoked calls) sched p) :
    (∃ φ', Underway calls φ' (p.runs (Pool.recorded (remoteHandle env)) sched)) ∧
      (deviceStatus p.state.1 id = some .revoked → deviceStatus
        (p.runs (Pool.recorded (remoteHandle env)) sched).state.1 id = some .revoked) := by
  obtain ⟨φ', hf, hrevocations, hkeep⟩ := h.following.along
    (fun φ q => Revocations calls φ q.state ∧
      (deviceStatus p.state.1 id = some .revoked → deviceStatus q.state.1 id = some .revoked))
    (fun φ q i o k φ' ht hC hT _ ⟨hrevocations, hkeep⟩ => by
      obtain ⟨hnext, hstep⟩ := revocations_step ht hC hT hrevocations
      exact ⟨hnext, fun hr => hstep (hkeep hr)⟩)
    hC ⟨h.revocations, fun hr => hr⟩
  exact ⟨⟨φ', hf, hrevocations⟩, hkeep⟩

theorem startDevices_underway {w : RemoteWorld} (hkeyed : Table.Keyed RemoteDevice.id w.devices) :
    Underway calls (fun i => (calls i).start) (startDevices calls w) where
  following := fun i => follows_call (calls i)
  revocations := by
    refine ⟨hkeyed, fun i => ?_, fun i hc hφ => ?_⟩
    · cases calls i <;> first | trivial | simp [DeviceCall.start, HasRead, startDevices]
    · generalize calls i = c at hc hφ
      cases c with
      | revoke => cases hφ
      | _ => cases hc

end Schedules

/-- Along every schedule in which nothing is written over the record of a revoked device that was read
before: once a call of `revoke` has ended without an error, the device is revoked at every later moment,
and no route leads to it. -/
theorem revoked_for_ever (env : RemoteEnv) (w : RemoteWorld) (calls : ι → DeviceCall id)
    (hkeyed : Table.Keyed RemoteDevice.id w.devices) (sched sched' : List ι)
    (hC : Pool.Along (Pool.recorded (remoteHandle env)) (WritesRevoked calls) (sched ++ sched')
      (startDevices calls w)) (i : ι) (hi : (calls i).revokes = true)
    (hdone : ((startDevices calls w).runs (Pool.recorded (remoteHandle env)) sched).task i =
      .done (.ok ())) :
    Revoked env id
      ((startDevices calls w).runs (Pool.recorded (remoteHandle env)) (sched ++ sched')).state.1 := by
  obtain ⟨⟨φ, hmiddle⟩, -⟩ := (startDevices_underway hkeyed).runs hC.append_left
  obtain ⟨⟨φ', hlast⟩, hkeep⟩ := hmiddle.runs hC.append_right
  have hpast : φ i = .past := by
    have hend := hmiddle.following i
    rw [hdone] at hend
    exact hend () rfl
  rw [Pool.runs_append]
  exact revoked_of_status hlast.revocations.keyed
    (hkeep (hmiddle.revocations.revoked i hi hpast))

/-! ## A schedule that meets the condition, and one that does not -/

/-- The sample device is paired. -/
def paired : RemoteWorld := { RemoteWorld.empty with devices := [sampleDevice] }

/-- A revocation, and a message of the device. -/
def revokeOrTouch (revoked : Bool) : DeviceCall sampleDevice.id := if revoked then .revoke else .touch

/-- The theorem at a message that arrives after the revocation. -/
theorem revoked_for_ever_touch : Revoked .sample sampleDevice.id
    ((startDevices revokeOrTouch paired).runs (Pool.recorded (remoteHandle .sample))
      (List.replicate 20 true ++ [false, false, false])).state.1 :=
  revoked_for_ever .sample paired revokeOrTouch (by simp [Table.Keyed, paired]) _ _
    (by decide +kernel) true rfl rfl

/-- A message of the device is being received when the device is revoked, and brings it back. -/
theorem touch_resumes : ¬ ∀ (env : RemoteEnv) (w : RemoteWorld) (id : String)
    (calls : Bool → DeviceCall id), Table.Keyed RemoteDevice.id w.devices →
    ∀ (sched sched' : List Bool) (i : Bool), (calls i).revokes = true →
    ((startDevices calls w).runs (Pool.recorded (remoteHandle env)) sched).task i = .done (.ok ()) →
    Revoked env id
      ((startDevices calls w).runs (Pool.recorded (remoteHandle env)) (sched ++ sched')).state.1 := by
  intro h
  have hrevoked := h .sample paired sampleDevice.id revokeOrTouch (by simp [Table.Keyed, paired])
    (false :: List.replicate 20 true) [false, false] true rfl rfl
  have hactive : deviceStatus ((startDevices revokeOrTouch paired).runs
      (Pool.recorded (remoteHandle .sample))
      (false :: List.replicate 20 true ++ [false, false])).state.1 sampleDevice.id = some .active := by
    decide +kernel
  cases hactive.symm.trans hrevoked.status

end Vops.DeviceRegistry

namespace Vops.DeviceRegistry

open Async

variable {env : RemoteEnv} {w w' : RemoteWorld}

/-! ## The devices that are stored -/

/-- A call on the registry. -/
inductive RegistryCall
  | register (input : RegisterInput)
  | setStatus (id : String) (status : RemoteDeviceStatus)
  | touch (id : String)

/-- The program of a call. -/
def RegistryCall.prog : RegistryCall → RemoteProg Unit
  | register input => DeviceRegistry.register input >>= fun _ => return ()
  | setStatus id status => DeviceRegistry.setStatus id status >>= fun _ => return ()
  | touch id => DeviceRegistry.touch id >>= fun _ => return ()

/-- The identifier was drawn. -/
def Drawn (w : RemoteWorld) (id : String) : Prop := ∃ n < w.agent.nextId, id = idText "device" n

/-- No two devices share an identifier or a route, and every identifier was drawn. -/
structure Registered (w : RemoteWorld) : Prop where
  ids : Table.Keyed RemoteDevice.id w.devices
  routes : Table.Keyed RemoteDevice.routeId w.devices
  drawn : ∀ d ∈ w.devices, Drawn w d.id

theorem idText_injective {kind : String} {n m : ℕ} (h : idText kind n = idText kind m) : n = m := by
  have hlist : (kind ++ "_").toList ++ (toString n).toList =
      (kind ++ "_").toList ++ (toString m).toList := by
    rw [← String.toList_append, ← String.toList_append]
    exact congrArg String.toList h
  have htext : toString (n : ℤ) = toString (m : ℤ) :=
    String.toList_inj.mp (List.append_cancel_left hlist)
  exact Int.ofNat.inj (Numerals.toString_int_injective htext)

/-- Identifiers only grow. -/
theorem nextId_le (o : RemoteOp) : w.agent.nextId ≤ (remoteHandle env o w).2.agent.nextId := by
  cases o with
  | agent o => exact handle_nextId
  | saveDevice d => simp only [remoteHandle]; split <;> exact le_rfl
  | rememberCommand id deviceId nonce record => simp only [remoteHandle]; split <;> exact le_rfl
  | setToken id token => simp only [remoteHandle, vaultWritten]; split <;> exact le_rfl
  | removeToken id => simp only [remoteHandle, vaultWritten]; split <;> exact le_rfl
  | _ => exact le_rfl

theorem Drawn.step {id : String} (h : Drawn w id) (o : RemoteOp) :
    Drawn (remoteHandle env o w).2 id := by
  obtain ⟨n, hn, rfl⟩ := h
  exact ⟨n, hn.trans_le (nextId_le o), rfl⟩

/-- The operation writes the record of a device. -/
def isSave : RemoteOp → Bool
  | .saveDevice _ => true
  | _ => false

/-- The identifiers that a call knows: it has drawn them, or has read them in a record. -/
inductive KnownStep : Protocol RemoteOp RemoteRes (List String)
  | draw (known : List String) (n : ℕ) :
      KnownStep known (.agent .localId) n (idText "device" n :: known)
  | read (known : List String) (id : String) (device : RemoteDevice) :
      KnownStep known (.getDevice id) (some device) (device.id :: known)
  | save (known : List String) (device : RemoteDevice) (x : Except RemoteFailure Unit)
      (hid : device.id ∈ known) : KnownStep known (.saveDevice device) x known
  | aside (known : List String) (o : RemoteOp) (x : RemoteRes o)
      (ho : isSave o = false) :
      KnownStep known o x known

theorem follows_aside {α : Type} {p : RemoteProg α} (hp : Calm p) (known : List String) :
    Follows KnownStep (fun _ _ => True) p known := by
  refine Follows.of_allOps hp (fun o x ho => .aside known o x ?_) fun _ => trivial
  cases o <;> first | rfl | cases ho

/-- The record is written under an identifier that is known. -/
theorem follows_save {α : Type} {device : RemoteDevice} {known : List String} {f : RemoteProg α}
    (hid : device.id ∈ known) (hf : Calm f) :
    Follows KnownStep (fun _ _ => True) (do
      orFail (← wait (.saveDevice device))
      f) known := by
  intro saved
  refine ⟨known, .save known device saved hid, ?_⟩
  cases saved with
  | ok _ => exact follows_aside hf known
  | error failure => trivial

/-- What is done with a record that was read. -/
theorem follows_known_get {α : Type} {id : String} {f : RemoteDevice → RemoteProg α}
    (hf : ∀ device, Follows KnownStep (fun _ _ => True) (f device) [device.id]) :
    Follows KnownStep (fun _ _ => True) (get id >>= f) [] := by
  intro found
  cases found with
  | none => exact ⟨[], .aside [] (.getDevice id) none rfl, trivial⟩
  | some device => exact ⟨[device.id], .read [] id device, hf device⟩

theorem follows_touch (id : String) :
    Follows KnownStep (fun _ _ => True) (touch id) [] := by
  refine follows_known_get fun device now => ⟨_, .aside _ _ now rfl, ?_⟩
  exact follows_save List.mem_cons_self trivial

theorem follows_setStatus_known (id : String) (status : RemoteDeviceStatus) :
    Follows KnownStep (fun _ _ => True) (setStatus id status) [] := by
  refine follows_known_get fun device => ?_
  show Follows _ _ (if _ then _ else _) _
  split
  · trivial
  · exact fun now => ⟨_, .aside _ _ now rfl, follows_save List.mem_cons_self
      (calm_afterStatus _ _)⟩

theorem allOps_cleanLabel (P : RemoteOp → Prop) (label : String) :
    (cleanLabel label).AllOps P := by
  unfold cleanLabel
  split
  · exact AllOps.of_done _
  · exact AllOps.of_done _

theorem follows_register (input : RegisterInput) :
    Follows KnownStep (fun _ _ => True) (register input) [] := by
  refine fun existing => ⟨[], .aside [] (.getDeviceByRoute input.routeId) existing rfl, ?_⟩
  show Follows _ _ (if _ then _ else _) _
  split
  · exact Follows.of_done True.intro
  refine fun now => ⟨[], .aside [] (.agent .now) now rfl, fun id => ⟨_, .draw [] id, ?_⟩⟩
  show Follows _ _ (cleanLabel input.label >>= _) _
  refine Follows.of_allOps_bind (allOps_cleanLabel (fun o => isSave o = false) input.label)
    (fun o x ho => .aside _ o x ho) (fun label => ?_) fun _ => True.intro
  exact follows_save List.mem_cons_self ((calm_event _ _ _).bind fun _ => trivial)

/-- Every call writes only under identifiers that it knows. -/
theorem follows_registryCall (c : RegistryCall) :
    Follows KnownStep (fun _ _ => True) c.prog [] := by
  have hdrop {p : RemoteProg RemoteDevice} (hp : Follows KnownStep (fun _ _ => True) p []) :
      Follows KnownStep (fun _ _ => True) (p >>= fun _ => return ()) [] := by
    refine Follows.bind (hp.mono fun r known _ => ?_)
    cases r <;> trivial
  cases c with
  | register input => exact hdrop (follows_register input)
  | setStatus id status => exact hdrop (follows_setStatus_known id status)
  | touch id => exact hdrop (follows_touch id)

/-! ## Any schedule of calls -/

variable {known known' : List String}

theorem Drawn.steps {o : RemoteOp} (h : ∀ id ∈ known, Drawn w id) :
    ∀ id ∈ known, Drawn (remoteHandle env o w).2 id :=
  fun id hid => (h id hid).step o

/-- A device that is written under an identifier that was drawn, and under a route of its own. -/
theorem Registered.saveDevice {device : RemoteDevice} (h : Registered w) (hid : Drawn w device.id)
    (hroute : w.routeTaken device = false) : Registered (w.saveDevice device) where
  ids := h.ids.upsert
  routes := h.ids.upsert_other h.routes fun d hd he => by
    by_contra hne
    have htaken : w.routeTaken device = true :=
      List.any_eq_true.mpr ⟨d, hd, by simp [he, hne]⟩
    exact absurd htaken (by simp [hroute])
  drawn := fun d hd => by
    rcases Table.mem_upsert hd with rfl | hd
    · exact hid
    · exact h.drawn d hd

theorem Registered.of_devices {o : RemoteOp} (h : Registered w)
    (hdevices : (remoteHandle env o w).2.devices = w.devices) :
    Registered (remoteHandle env o w).2 where
  ids := hdevices ▸ h.ids
  routes := hdevices ▸ h.routes
  drawn := fun d hd => (h.drawn d (hdevices ▸ hd)).step o

/-- The devices change with the write of a device only. -/
theorem devices_of_not_isSave {o : RemoteOp} (ho : isSave o = false) :
    (remoteHandle env o w).2.devices = w.devices := by
  by_cases hq : o.quiet = true
  · exact (untouched_of_quiet hq).devices
  · cases o with
    | saveDevice d => cases ho
    | rememberCommand id deviceId nonce record => simp only [remoteHandle]; split <;> rfl
    | _ => first | rfl | exact absurd rfl hq

/-- One step of a call keeps the devices registered, and what the call knows drawn. -/
theorem Registered.step {o : RemoteOp} (h : Registered w) (hknown : ∀ id ∈ known, Drawn w id)
    (hT : KnownStep known o (remoteHandle env o w).1 known') :
    Registered (remoteHandle env o w).2 ∧ ∀ id ∈ known', Drawn (remoteHandle env o w).2 id := by
  generalize hx : (remoteHandle env o w).1 = x at hT
  cases hT with
  | draw _ n =>
      refine ⟨h.of_devices rfl, List.forall_mem_cons.mpr ⟨?_, Drawn.steps hknown⟩⟩
      exact ⟨n, hx ▸ Nat.lt_succ_self _, rfl⟩
  | read _ id device =>
      have hmem : device ∈ w.devices := Table.mem_of_get hx
      exact ⟨h, List.forall_mem_cons.mpr ⟨h.drawn device hmem, hknown⟩⟩
  | save _ device _ hid =>
      rcases RemoteWorld.saveDevice_cases env w device with ⟨hroute, hs⟩ | ⟨-, hs⟩
      · rw [hs]
        exact ⟨h.saveDevice (hknown _ hid) hroute, hknown⟩
      · rw [hs]
        exact ⟨h, hknown⟩
  | aside _ _ _ ho => exact ⟨h.of_devices (devices_of_not_isSave ho), Drawn.steps hknown⟩

section Schedules

variable {ι : Type} [DecidableEq ι]

/-- Calls at work on a registry in which nothing was registered. -/
def startRegistry (calls : ι → RegistryCall) :
    Pool RemoteOp RemoteRes RemoteFailure Unit ι RemoteWorld :=
  ⟨RemoteWorld.empty, fun i => (calls i).prog⟩

/-- The state is reached by calls on the registry, in some schedule. -/
def Reachable (env : RemoteEnv) (w : RemoteWorld) : Prop :=
  ∃ (ι : Type) (_ : DecidableEq ι) (calls : ι → RegistryCall) (sched : List ι),
    w = ((startRegistry calls).runs (fun _ => remoteHandle env) sched).state

theorem registered_empty : Registered RemoteWorld.empty where
  ids := by simp [Table.Keyed, RemoteWorld.empty]
  routes := by simp [Table.Keyed, RemoteWorld.empty]
  drawn := by simp [RemoteWorld.empty]

/-- What the calls of a schedule keep. -/
theorem registered_of_reachable (h : Reachable env w) : Registered w := by
  obtain ⟨ι, _, calls, sched, rfl⟩ := h
  obtain ⟨φ, -, hw, -⟩ := Pool.Following.along
    (h := fun _ => remoteHandle env) (C := fun _ _ => True)
    (T := fun _ => KnownStep) (Q := fun _ _ _ => True) (p := startRegistry calls) (φ := fun _ => [])
    (fun φ p => Registered p.state ∧ ∀ i, ∀ id ∈ φ i, Drawn p.state id)
    (fun φ p i o k φ' hp _ hT _ hJ => by
      rw [Pool.step_of_await hp]
      obtain ⟨hw, hi⟩ := hJ.1.step (hJ.2 i) hT
      refine ⟨hw, fun j => ?_⟩
      by_cases hj : j = i
      · subst hj
        simpa using hi
      · rw [Function.update_of_ne hj]
        exact Drawn.steps (hJ.2 j))
    (Pool.Along.of_forall fun _ _ => trivial) (fun i => follows_registryCall (calls i))
    ⟨registered_empty, by simp⟩
  exact hw

end Schedules

/-! ## When a registration succeeds -/

/-- `register` succeeds. -/
def Registers (env : RemoteEnv) (w : RemoteWorld) (input : RegisterInput) : Prop :=
  ∃ device w', run (remoteHandle env) (register input) w = (.ok device, w')

/-- A device that is not revoked has the route. -/
def ActiveRoute (w : RemoteWorld) (routeId : String) : Prop :=
  ∃ d ∈ w.devices, d.routeId = routeId ∧ d.status ≠ .revoked

/-- A device that is revoked has the route. -/
def RevokedRoute (w : RemoteWorld) (routeId : String) : Prop :=
  ∃ d ∈ w.devices, d.routeId = routeId ∧ d.status = .revoked

/-- The label has between 1 and 80 characters. -/
def LabelFits (label : String) : Prop :=
  ¬ (labelText label = "" ∨ 80 < (labelText label).toList.length)

/-- The record that `register` writes. -/
def pairedRecord (input : RegisterInput) (now : ℤ) (id : ℕ) (label : String) : RemoteDevice where
  id := idText "device" id
  routeId := input.routeId
  label := label
  role := input.role
  status := .active
  signingPublicKey := input.signingPublicKey
  exchangePublicKey := input.exchangePublicKey
  keyId := input.keyId
  restrictions := normalizeRestrictions input.role input.restrictions
  pairedAt := now
  updatedAt := now
  lastSeenAt := none
  revokedAt := none
  suspendedAt := none

/-- What `register` does with the record. -/
def savePaired (device : RemoteDevice) : RemoteProg RemoteDevice := do
  orFail (← wait (.saveDevice device))
  event device "remote.device.paired" s!"Paired remote device '{device.label}'."
  return device

theorem not_ok_of_error {α : Type} (failure : RemoteFailure) (w : RemoteWorld) :
    ¬ ∃ (a : α) (w' : RemoteWorld), ((.error failure, w) : Except RemoteFailure α × RemoteWorld) =
      (.ok a, w') := by
  rintro ⟨a, w', h⟩
  cases h

/-- An event is recorded where the audit can be written. -/
theorem run_event_ok (env : RemoteEnv) (device : RemoteDevice) (eventType summary : String)
    (w : RemoteWorld) :
    (∃ w', run (remoteHandle env) (event device eventType summary) w = (.ok (), w')) ↔
      env.auditWrite w.answers = .ok () := by
  have hrun (w' : RemoteWorld) :
      run (remoteHandle env) (event device eventType summary) w = (.ok (), w') →
        env.auditWrite w.answers = .ok () := by
    intro h
    cases ha : env.auditWrite w.answers with
    | ok _ => rfl
    | error failure =>
        change run (remoteHandle env) (orFail (env.auditWrite w.answers) >>= _) _ = _ at h
        rw [ha] at h
        cases h
  constructor
  · rintro ⟨w', h⟩
    exact hrun w' h
  · intro ha
    have hgo : run (remoteHandle env) (event device eventType summary) w =
        run (remoteHandle env) (orFail (env.auditWrite w.answers) >>= _) _ := rfl
    rw [hgo, ha]
    exact ⟨_, rfl⟩

/-- The record is stored where no other device has the route, and the audit can be written. -/
theorem run_savePaired_ok (env : RemoteEnv) (device : RemoteDevice) (w : RemoteWorld) :
    (∃ d w', run (remoteHandle env) (savePaired device) w = (.ok d, w')) ↔
      w.routeTaken device = false ∧ env.auditWrite w.answers = .ok () := by
  rcases RemoteWorld.saveDevice_cases env w device with ⟨hroute, hs⟩ | ⟨hroute, hs⟩
  · have hevent := run_event_ok env device "remote.device.paired"
      s!"Paired remote device '{device.label}'." (w.saveDevice device)
    have hgo : run (remoteHandle env) (savePaired device) w = run (remoteHandle env)
        (event device "remote.device.paired" s!"Paired remote device '{device.label}'." >>= fun _ =>
          return device) (w.saveDevice device) := by
      show run _ (orFail (remoteHandle env (.saveDevice device) w).1 >>= _) _ = _
      rw [hs]
      rfl
    rw [hgo]
    constructor
    · rintro ⟨d, w', h⟩
      obtain ⟨_, w₁, hrun, -⟩ := run_bind_eq_ok.mp h
      exact ⟨hroute, hevent.mp ⟨w₁, hrun⟩⟩
    · rintro ⟨-, haudit⟩
      obtain ⟨w₁, hrun⟩ := hevent.mpr haudit
      exact ⟨device, w₁, run_bind_eq_ok.mpr ⟨(), w₁, hrun, rfl⟩⟩
  · have hgo : run (remoteHandle env) (savePaired device) w = (.error routeConflict, w) := by
      show run _ (orFail (remoteHandle env (.saveDevice device) w).1 >>= _) _ = _
      rw [hs]
      rfl
    rw [hgo]
    exact ⟨fun h => absurd h (not_ok_of_error _ _), fun h => absurd h.1 (by simp [hroute])⟩

/-- `register` reads the route first. -/
theorem run_register (env : RemoteEnv) (input : RegisterInput) (w : RemoteWorld) :
    run (remoteHandle env) (register input) w =
      if (w.deviceByRoute input.routeId).any (fun d => d.status != .revoked) then
        (.error (.thrown "This device route is already paired."), w)
      else
        run (remoteHandle env) (cleanLabel input.label >>= fun label =>
            savePaired (pairedRecord input (env.agent.clock w.agent.answers) w.agent.nextId label))
          { w with agent := { w.agent.drawn with nextId := w.agent.nextId + 1 } } := by
  show run _ (if (w.deviceByRoute input.routeId).any (fun d => d.status != .revoked) then _
    else _) w = _
  by_cases hactive : (w.deviceByRoute input.routeId).any (fun d => d.status != .revoked) = true
  · rw [if_pos hactive, if_pos hactive]
    rfl
  · rw [if_neg hactive, if_neg hactive]
    rfl

theorem deviceByRoute_eq_none {routeId : String} :
    w.deviceByRoute routeId = none ↔ ∀ d ∈ w.devices, d.routeId ≠ routeId := by
  simp [RemoteWorld.deviceByRoute, List.find?_eq_none]

/-- The new identifier is not stored yet, so the route is taken where any device has it. -/
theorem Registered.routeTaken (h : Registered w) (input : RegisterInput) (now : ℤ)
    (label : String) :
    w.routeTaken (pairedRecord input now w.agent.nextId label) = true ↔
      ∃ d ∈ w.devices, d.routeId = input.routeId := by
  have hfresh (d : RemoteDevice) (hd : d ∈ w.devices) : d.id ≠ idText "device" w.agent.nextId := by
    obtain ⟨n, hn, hid⟩ := h.drawn d hd
    intro he
    exact hn.ne (idText_injective (hid.symm.trans he))
  simp only [RemoteWorld.routeTaken, List.any_eq_true, Bool.and_eq_true, beq_iff_eq, bne_iff_ne,
    pairedRecord]
  constructor
  · rintro ⟨d, hd, hroute, -⟩
    exact ⟨d, hd, hroute⟩
  · rintro ⟨d, hd, hroute⟩
    exact ⟨d, hd, hroute, hfresh d hd⟩

/-- `register` succeeds where no device, revoked or not, has the route, the label fits and the audit
can be written. -/
theorem Registered.registers_iff (h : Registered w) (input : RegisterInput) :
    Registers env w input ↔ (∀ d ∈ w.devices, d.routeId ≠ input.routeId) ∧
      LabelFits input.label ∧ env.auditWrite w.answers = .ok () := by
  unfold Registers
  rw [run_register]
  split
  next hactive =>
    refine ⟨fun h => absurd h (not_ok_of_error _ _), fun hfree => ?_⟩
    rw [deviceByRoute_eq_none.mpr hfree.1] at hactive
    cases hactive
  next hactive =>
    by_cases hlabel : LabelFits input.label
    · have hclean : cleanLabel input.label = .done (.ok (labelText input.label)) := if_neg hlabel
      rw [hclean, ok_bind, run_savePaired_ok]
      have htaken := not_congr (h.routeTaken input (env.agent.clock w.agent.answers)
        (labelText input.label))
      rw [Bool.not_eq_true, not_exists] at htaken
      constructor
      · rintro ⟨hroute, haudit⟩
        exact ⟨fun d hd he => htaken.mp hroute d ⟨hd, he⟩, hlabel, haudit⟩
      · rintro ⟨hfree, -, haudit⟩
        exact ⟨htaken.mpr fun d hd => hfree d hd.1 hd.2, haudit⟩
    · have hclean : cleanLabel input.label =
          .done (.error (.thrown "Device label must be between 1 and 80 characters.")) :=
        if_pos (not_not.mp hlabel)
      rw [hclean]
      exact ⟨fun h => absurd h (not_ok_of_error _ _), fun hfits => absurd hfits.2.1 hlabel⟩

/-- A registration goes as it should where a device that is not revoked has the route, or else no
device has it, the label fits and the audit can be written. -/
theorem Registered.registers_as_permitted (h : Registered w) (input : RegisterInput) :
    (Registers env w input ↔ ¬ ActiveRoute w input.routeId) ↔
      ActiveRoute w input.routeId ∨ ¬ RevokedRoute w input.routeId ∧ LabelFits input.label ∧
        env.auditWrite w.answers = .ok () := by
  rw [h.registers_iff input]
  have hfree : (∀ d ∈ w.devices, d.routeId ≠ input.routeId) ↔
      ¬ ActiveRoute w input.routeId ∧ ¬ RevokedRoute w input.routeId := by
    constructor
    · refine fun hno => ⟨?_, ?_⟩
      · rintro ⟨d, hd, he, -⟩
        exact hno d hd he
      · rintro ⟨d, hd, he, -⟩
        exact hno d hd he
    · rintro ⟨hactive, hrevoked⟩ d hd he
      by_cases hs : d.status = .revoked
      · exact hrevoked ⟨d, hd, he, hs⟩
      · exact hactive ⟨d, hd, he, hs⟩
  rw [hfree]
  tauto

end Vops.DeviceRegistry
