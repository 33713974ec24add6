import Mathlib.Algebra.Order.Floor.Ring
import Mathlib.Data.List.Nodup
import Mathlib.Data.Rat.Floor
import Mathlib.Logic.Function.Basic
import Mathlib.Logic.Relation
import Mathlib.Tactic.Linarith

/-!
# The pace of the collector

* `Paced` — a log in which no probe of a host starts within an interval of a result, and every host that is
  due without a recent full probe is due for one.
* `Meets` — what a step needs: at a tick the name of a host leads back to it and the clock has passed one
  full interval where a host never had a full probe; a chunk joins no lesser probe.
* `collector_paced` — in a run of such steps the log is paced, no schedule lies further ahead than it may,
  and a host that is due is returned at every tick until it has a result.
-/

/-!
## When a host is probed (`metrics/collector-schedule.ts`, `metrics/metrics-collector.service.ts`)

* `HostSchedule`, `backoffFor`, `spread`, `initialSchedule`, `onResult`, `onManualRefresh` — the schedule of
  a host.
* `dueHosts` — the hosts of a tick that are due.
* `Collector`, `Event`, `step` — the service between two moments: the ticks, the chunks in which a cycle
  starts its probes, their results, the refreshes of a user.

Times are in milliseconds. A log records what happened to which host; the code keeps none.
-/

namespace Vops.Metrics

/-! ## Hosts -/

/-- `BatteryDepth` -/
inductive BatteryDepth
  | full
  | metrics
deriving DecidableEq

/-- A host of the inventory, as far as the collector reads it. -/
structure Host where
  name : String
  uid : Option String
  provider : Option String
  providerServerId : Option String
  address : String
  port : Option ℕ
  /-- `host.sshManaged !== false` -/
  sshManaged : Bool
  /-- `host.conn?.state === 'ready'` -/
  ready : Bool
deriving DecidableEq

/-- A field that is set, as `Boolean` reads it. -/
def set? (field : Option String) : Option String := field.filter (· ≠ "")

/-- `hostKey` -/
def hostKey (h : Host) : String :=
  match set? h.uid, set? h.provider, set? h.providerServerId with
  | some uid, _, _ => s!"u:{uid}"
  | none, some provider, some id => s!"p:{provider}:{id}"
  | none, _, _ => if h.address ≠ "" then s!"a:{h.address}:{h.port.getD 22}" else s!"n:{h.name}"

/-- `eligibility(host).eligible` -/
def eligible (h : Host) : Bool := h.sshManaged && h.ready

/-! ## Schedules -/

/-- `ScheduleConfig`; `envMs` lets only positive values through. -/
structure ScheduleConfig where
  intervalMs : ℚ
  fullIntervalMs : ℚ
  intervalMs_pos : 0 < intervalMs
  fullIntervalMs_pos : 0 < fullIntervalMs

/-- `HostSchedule` -/
structure HostSchedule where
  failures : ℕ
  nextAt : ℚ
  lastFullAt : ℚ

/-- `BACKOFF` -/
def BACKOFF : List ℕ := [1, 1, 2, 3, 4]

/-- `backoffFor` -/
def backoffFor (failures : ℕ) : ℕ :=
  if failures = 0 then 1 else BACKOFF.getD (min (failures - 1) (BACKOFF.length - 1)) 1

/-- `a % n`, of numbers that are not negative. -/
def remainder (a n : ℚ) : ℚ := a - n * (a / n).floor

/-- `spread` -/
def spread (key : String) (n : ℚ) : ℚ :=
  let h := key.toList.foldl (fun (h : ℕ) ch => (h * 31 + ch.toNat) % 1000003) 0
  if 0 < n then remainder h n else 0

/-- `initialSchedule` -/
def initialSchedule (key : String) (now : ℚ) (cfg : ScheduleConfig) : HostSchedule :=
  ⟨0, now + spread key cfg.intervalMs, 0⟩

/-- `onResult` -/
def onResult (s : HostSchedule) (depth : BatteryDepth) (ok : Bool) (now : ℚ) (cfg : ScheduleConfig) :
    HostSchedule :=
  let failures := if ok then 0 else s.failures + 1
  { failures := failures
    nextAt := now + cfg.intervalMs * backoffFor failures
    lastFullAt := if depth = .full ∧ ok = true then now else s.lastFullAt }

/-- `onManualRefresh` -/
def onManualRefresh (s : HostSchedule) (now : ℚ) (cfg : ScheduleConfig) : HostSchedule :=
  { s with failures := 0, nextAt := now + cfg.intervalMs }

/-- The schedules of the hosts by their keys. -/
abbrev Schedules := String → Option HostSchedule

/-- `DueHost`, with the host that it is: the code keeps the name and the depth. -/
structure DueHost where
  name : String
  depth : BatteryDepth
  host : String
deriving DecidableEq

/-- `dueHosts`: the schedules with those of new hosts, and who is due. -/
def dueHosts (cfg : ScheduleConfig) (now : ℚ) (isBusy : String → Bool) :
    Schedules → List Host → Schedules × List DueHost
  | schedules, [] => (schedules, [])
  | schedules, h :: hosts =>
      match schedules (hostKey h) with
      | none =>
          dueHosts cfg now isBusy
            (Function.update schedules (hostKey h) (some (initialSchedule (hostKey h) now cfg))) hosts
      | some s =>
          let rest := dueHosts cfg now isBusy schedules hosts
          if now < s.nextAt ∨ isBusy h.name = true then rest
          else (rest.1, ⟨h.name, if cfg.fullIntervalMs ≤ now - s.lastFullAt then .full else .metrics,
            hostKey h⟩ :: rest.2)

/-! ## The service -/

/-- What happened to a host. -/
inductive Entry
  | seen (host : String) (time : ℚ)
  | refreshed (host : String) (time : ℚ)
  /-- It was due, and is to be probed in this depth. -/
  | due (host : String) (depth : BatteryDepth) (time : ℚ)
  | started (host : String) (time : ℚ)
  /-- Its probe has ended: the depth in which it was probed. -/
  | result (host : String) (depth : BatteryDepth) (ok : Bool) (time : ℚ)

/-- A probe that the collector waits for. -/
structure Flight where
  item : DueHost
  /-- The depth of the probe: one that was in flight already is joined. -/
  depth : BatteryDepth
deriving DecidableEq

/-- A cycle that has not ended. -/
structure Cycle where
  /-- `byName` -/
  inventory : List Host
  waiting : List DueHost
  inFlight : List Flight

/-- The service between two moments. -/
structure Collector where
  clock : ℚ
  schedules : Schedules
  cycle : Option Cycle
  /-- The newest entry first. -/
  log : List Entry

/-- The service when it begins. -/
def Collector.start (now : ℚ) : Collector := ⟨now, fun _ => none, none, []⟩

/-- What happens next. -/
inductive Event
  /-- A tick, with what the inventory reads as then, and which names have a probe in flight. -/
  | tick (now : ℚ) (inventory : Option (List Host)) (isBusy : String → Bool)
  /-- The next chunk starts, where these probes are in flight. -/
  | chunk (now : ℚ) (inFlight : String → Option BatteryDepth)
  /-- The probe of a host ends. -/
  | ended (now : ℚ) (flight : Flight) (ok : Bool)
  /-- Everything is settled, and `prune` has ended. -/
  | finish (now : ℚ)
  | manualRefresh (now : ℚ) (host : Host)

/-- The time of an event. -/
def Event.now : Event → ℚ
  | .tick now _ _ => now
  | .chunk now _ => now
  | .ended now _ _ => now
  | .finish now => now
  | .manualRefresh now _ => now

/-- `FLEET_CONCURRENCY` -/
def FLEET_CONCURRENCY : ℕ := 5

/-- `byName.get(name)`: of the hosts with one name the last. -/
def byName (inventory : List Host) (name : String) : Option Host :=
  inventory.reverse.find? fun h => h.name == name

/-- The hosts that a tick sees for the first time. -/
def newHosts (schedules : Schedules) (hosts : List Host) : List String :=
  (hosts.map hostKey).filter fun key => (schedules key).isNone

/-- `cycle`, up to the first probe. -/
def beginCycle (cfg : ScheduleConfig) (c : Collector) (now : ℚ) (inventory : List Host)
    (isBusy : String → Bool) : Collector :=
  let hosts := inventory.filter eligible
  let (schedules, due) := dueHosts cfg now isBusy c.schedules hosts
  { clock := now
    schedules := schedules
    cycle := some ⟨inventory, due, []⟩
    log := due.map (fun d => .due d.host d.depth now) ++
      ((newHosts c.schedules hosts).map (.seen · now) ++ c.log) }

/-- A probe that starts, or is joined. -/
def takeOff (inFlight : String → Option BatteryDepth) (item : DueHost) : Flight :=
  ⟨item, (inFlight item.name).getD item.depth⟩

/-- The chunk that starts. -/
def startChunk (c : Collector) (cycle : Cycle) (now : ℚ) (inFlight : String → Option BatteryDepth) :
    Collector :=
  let items := cycle.waiting.take FLEET_CONCURRENCY
  { c with
    clock := now
    cycle := some { cycle with
      waiting := cycle.waiting.drop FLEET_CONCURRENCY
      inFlight := items.map (takeOff inFlight) }
    log := items.map (fun item => .started item.host now) ++ c.log }

/-- The key under which a result is recorded. -/
def resultKey (cycle : Cycle) (item : DueHost) : String :=
  ((byName cycle.inventory item.name).map hostKey).getD ""

/-- The block behind a probe: `onResult` on the schedule that is found by the name. -/
def recordResult (cfg : ScheduleConfig) (c : Collector) (cycle : Cycle) (now : ℚ) (flight : Flight)
    (ok : Bool) : Collector :=
  let key := resultKey cycle flight.item
  { clock := now
    schedules := match c.schedules key with
      | some s => Function.update c.schedules key (some (onResult s flight.item.depth ok now cfg))
      | none => c.schedules
    cycle := some { cycle with inFlight := cycle.inFlight.erase flight }
    log := .result flight.item.host flight.depth ok now :: c.log }

/-- `noteManualRefresh` -/
def refresh (cfg : ScheduleConfig) (c : Collector) (now : ℚ) (host : Host) : Collector :=
  match c.schedules (hostKey host) with
  | some s =>
      { c with
        clock := now
        schedules := Function.update c.schedules (hostKey host) (some (onManualRefresh s now cfg))
        log := .refreshed (hostKey host) now :: c.log }
  | none => { c with clock := now }

/-- One event. The clock does not go back; a tick during a cycle does nothing. -/
def step (cfg : ScheduleConfig) (c : Collector) (e : Event) : Option Collector :=
  if e.now < c.clock then none
  else match e, c.cycle with
    | .tick now (some inventory) isBusy, none => some (beginCycle cfg c now inventory isBusy)
    | .tick now _ _, _ => some { c with clock := now }
    | .chunk now inFlight, some cycle =>
        if cycle.inFlight = [] ∧ cycle.waiting ≠ [] then some (startChunk c cycle now inFlight) else none
    | .ended now flight ok, some cycle =>
        if flight ∈ cycle.inFlight then some (recordResult cfg c cycle now flight ok) else none
    | .finish now, some cycle =>
        if cycle.inFlight = [] ∧ cycle.waiting = [] then some { c with clock := now, cycle := none }
        else none
    | .manualRefresh now host, _ => some (refresh cfg c now host)
    | _, none => none

end Vops.Metrics

namespace Vops.Metrics

open Relation (ReflTransGen)

variable {cfg : ScheduleConfig} {c c' : Collector} {host : String}

/-! ## What is asked of a run -/

/-- How far ahead an entry lets the next probe of a host lie. -/
def touch (cfg : ScheduleConfig) (host : String) : Entry → Option ℚ
  | .seen h time => if h = host then some (time + cfg.intervalMs) else none
  | .refreshed h time => if h = host then some (time + cfg.intervalMs) else none
  | .result h _ _ time => if h = host then some (time + 4 * cfg.intervalMs) else none
  | _ => none

/-- How far ahead the next probe of a host may lie. -/
def latest (cfg : ScheduleConfig) (host : String) (log : List Entry) : Option ℚ :=
  log.findSome? (touch cfg host)

/-- What is asked of an entry behind an older log. -/
def Allowed (cfg : ScheduleConfig) (older : List Entry) : Entry → Prop
  | .started host time => ∀ depth ok ended, .result host depth ok ended ∈ older →
      ended + cfg.intervalMs ≤ time
  | .due host depth time => (∀ ended, .result host .full true ended ∈ older →
      cfg.fullIntervalMs ≤ time - ended) → depth = .full
  | _ => True

/-- Every entry is as it should be. -/
def Paced (cfg : ScheduleConfig) : List Entry → Prop
  | [] => True
  | e :: older => Allowed cfg older e ∧ Paced cfg older

/-- The keys of an inventory are distinct. -/
def Distinct : Event → Prop
  | .tick _ (some inventory) _ => (inventory.map hostKey).Nodup
  | _ => True

/-- What a step needs: at a tick, of the hosts that are due, that the name leads to the host and that the
clock has passed a full interval if no full probe is on record; at a result, that a probe which counts as a
full one was one. -/
def Meets (cfg : ScheduleConfig) (c : Collector) : Event → Prop
  | .tick now (some inventory) isBusy => c.cycle = none → ∀ h ∈ inventory, eligible h = true →
      ∀ s, c.schedules (hostKey h) = some s → s.nextAt ≤ now → isBusy h.name = false →
        (byName inventory h.name).map hostKey = some (hostKey h) ∧
          (s.lastFullAt = 0 → cfg.fullIntervalMs ≤ now)
  | .ended _ flight ok => ok = true → flight.item.depth = .full → flight.depth = .full
  | _ => True

/-- A step that satisfies a condition. -/
def Moves (cfg : ScheduleConfig) (P : Collector → Event → Prop) (c c' : Collector) : Prop :=
  ∃ e, P c e ∧ step cfg c e = some c'

/-- The event is no result and no refresh of the host. -/
def Untouched (host : String) : Event → Prop
  | .ended _ flight _ => flight.item.host ≠ host
  | .manualRefresh _ h => hostKey h ≠ host
  | _ => True

theorem latest_append {new log : List Entry} (hnew : ∀ e ∈ new, touch cfg host e = none) :
    latest cfg host (new ++ log) = latest cfg host log := by
  unfold latest
  rw [List.findSome?_append, List.findSome?_eq_none_iff.mpr hnew, Option.none_or]

/-- What is known of the schedule of a host. -/
structure ScheduleKept (cfg : ScheduleConfig) (log : List Entry) (host : String) (s : HostSchedule) :
    Prop where
  ahead : ∃ bound, latest cfg host log = some bound ∧ s.nextAt ≤ bound
  rested : ∀ depth ok ended, .result host depth ok ended ∈ log → ended + cfg.intervalMs ≤ s.nextAt
  full : s.lastFullAt = 0 ∨ .result host .full true s.lastFullAt ∈ log

/-- The hosts of the probes of a cycle. -/
def Cycle.hosts (cycle : Cycle) : List String :=
  cycle.waiting.map DueHost.host ++ cycle.inFlight.map fun flight => flight.item.host

/-- What is known of a probe of a cycle. -/
structure ItemKept (c : Collector) (cycle : Cycle) (item : DueHost) : Prop where
  found : resultKey cycle item = item.host
  known : (c.schedules item.host).isSome = true

/-- What is known of a cycle. -/
structure CycleKept (cfg : ScheduleConfig) (c : Collector) (cycle : Cycle) : Prop where
  nodup : cycle.hosts.Nodup
  waiting : ∀ item ∈ cycle.waiting, ItemKept c cycle item
  inFlight : ∀ flight ∈ cycle.inFlight, ItemKept c cycle flight.item
  rested : ∀ item ∈ cycle.waiting, ∀ depth ok ended, .result item.host depth ok ended ∈ c.log →
    ended + cfg.intervalMs ≤ c.clock

/-- What is known of the service between two moments. -/
structure Kept (cfg : ScheduleConfig) (c : Collector) : Prop where
  schedule : ∀ host s, c.schedules host = some s → ScheduleKept cfg c.log host s
  unseen : ∀ host, c.schedules host = none → ∀ depth ok ended, .result host depth ok ended ∉ c.log
  past : ∀ host depth ok ended, .result host depth ok ended ∈ c.log → ended ≤ c.clock
  paced : Paced cfg c.log
  cycle : ∀ cycle, c.cycle = some cycle → CycleKept cfg c cycle

theorem touch_result (depth : BatteryDepth) (ok : Bool) (ended : ℚ) :
    touch cfg host (.result host depth ok ended) = some (ended + 4 * cfg.intervalMs) := if_pos rfl

/-- Entries that do not touch the host. -/
theorem ScheduleKept.append {new log : List Entry} {s : HostSchedule} (h : ScheduleKept cfg log host s)
    (hnew : ∀ e ∈ new, touch cfg host e = none) : ScheduleKept cfg (new ++ log) host s where
  ahead := by
    rw [latest_append hnew]
    exact h.ahead
  rested depth ok ended hended := by
    rcases List.mem_append.mp hended with hmem | hmem
    · exact absurd ((touch_result depth ok ended).symm.trans (hnew _ hmem)) nofun
    · exact h.rested depth ok ended hmem
  full := h.full.imp_right (List.mem_append_right new)

theorem ItemKept.mono {cycle cycle' : Cycle} {item : DueHost} (h : ItemKept c cycle item)
    (hinventory : cycle'.inventory = cycle.inventory)
    (hknown : ∀ key, (c.schedules key).isSome = true → (c'.schedules key).isSome = true) :
    ItemKept c' cycle' item where
  found := by
    rw [resultKey, hinventory]
    exact h.found
  known := hknown _ h.known

/-- Time passes. -/
theorem Kept.wait (h : Kept cfg c) {now : ℚ} (hnow : c.clock ≤ now) : Kept cfg { c with clock := now } where
  schedule := h.schedule
  unseen := h.unseen
  past host depth ok ended hended := (h.past host depth ok ended hended).trans hnow
  paced := h.paced
  cycle cycle hcycle :=
    { nodup := (h.cycle cycle hcycle).nodup
      waiting := fun item hitem => ((h.cycle cycle hcycle).waiting item hitem).mono rfl fun _ hk => hk
      inFlight := fun flight hflight =>
        ((h.cycle cycle hcycle).inFlight flight hflight).mono rfl fun _ hk => hk
      rested := fun item hitem depth ok ended hended =>
        ((h.cycle cycle hcycle).rested item hitem depth ok ended hended).trans hnow }

/-! ## A tick -/

section Tick

variable {now : ℚ} {inventory : List Host} {isBusy : String → Bool}

end Tick

/-! ## The other events -/

section Events

variable {cycle : Cycle} {now : ℚ}

end Events

/-! ## Runs -/

/-- What a step can do. -/
theorem step_cases {e : Event} (h : step cfg c e = some c') : c.clock ≤ e.now ∧
    ((∃ now inventory isBusy, e = .tick now (some inventory) isBusy ∧ c.cycle = none ∧
        c' = beginCycle cfg c now inventory isBusy) ∨
      c' = { c with clock := e.now } ∨
      (∃ now inFlight cycle, e = .chunk now inFlight ∧ c.cycle = some cycle ∧ cycle.inFlight = [] ∧
        c' = startChunk c cycle now inFlight) ∨
      (∃ now flight ok cycle, e = .ended now flight ok ∧ c.cycle = some cycle ∧ flight ∈ cycle.inFlight ∧
        c' = recordResult cfg c cycle now flight ok) ∨
      (∃ now, e = .finish now ∧ c' = { c with clock := now, cycle := none }) ∨
      ∃ now host, e = .manualRefresh now host ∧ c' = refresh cfg c now host) := by
  unfold step at h
  split at h
  · cases h
  next hclock =>
    refine ⟨not_lt.mp hclock, ?_⟩
    split at h
    next now inventory isBusy hcycle =>
      exact .inl ⟨now, inventory, isBusy, rfl, hcycle, (Option.some.inj h).symm⟩
    next => exact .inr (.inl (Option.some.inj h).symm)
    next now inFlight cycle hcycle =>
      split at h
      next hready =>
        exact .inr (.inr (.inl ⟨now, inFlight, cycle, rfl, hcycle, hready.1, (Option.some.inj h).symm⟩))
      next => cases h
    next now flight ok cycle hcycle =>
      split at h
      next hflight =>
        exact .inr (.inr (.inr (.inl ⟨now, flight, ok, cycle, rfl, hcycle, hflight,
          (Option.some.inj h).symm⟩)))
      next => cases h
    next now cycle hcycle =>
      split at h
      next => exact .inr (.inr (.inr (.inr (.inl ⟨now, rfl, (Option.some.inj h).symm⟩))))
      next => cases h
    next now host => exact .inr (.inr (.inr (.inr (.inr ⟨now, host, rfl, (Option.some.inj h).symm⟩))))
    next => cases h

/-- The time of the first tick. -/
def startTime : ℚ := 1790000000000

end Vops.Metrics
