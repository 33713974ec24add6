import Vops.Remote.IntentRuns

/-!
# Do the versions of an intent lock it?

`update` computes the next version from the copy that a call has, and writes the whole record. Where the
copy is not the stored one any more, a stop is undone and a version is used twice. Where every update is
one of the stored record, the versions are a lock.

* `current` — a call has a copy of this version, and the intent was not written since; `UpdatesCurrent` is
  the condition on a step of a schedule.
* `Intents` — the invariant: every copy is behind the stored record, or is it.
* `stopped_for_ever` — an intent that a call has stopped stays stopped, and its plan is never executed.
* `versions_lock` — versions increase, a version is one record, a signed command acts on the record of
  its version, and the plan is executed at most once.
* `tick_resumes`, `version_twice` — the watcher has read the intent when it is paused.
-/

set_option linter.unusedSectionVars false

namespace Vops.IntentService

open Async

variable {ι : Type} [DecidableEq ι] {id : String}

/-! ## Pools of calls -/

/-- What the calls have done, in which state. -/
abbrev IntentLog (ι : Type) := List (Pool.Event RemoteOp ι RemoteWorld)

/-- Calls at work, and what they have done. -/
abbrev IntentPool (ι : Type) :=
  Pool RemoteOp RemoteRes RemoteFailure Unit ι (RemoteWorld × IntentLog ι)

/-- The calls, before their first operation. -/
def startIntents (calls : ι → IntentCall id) (w : RemoteWorld) : IntentPool ι :=
  ⟨(w, []), fun i => (calls i).prog⟩

/-- The copy of the intent that its call gets by an event: what is read, or what is written. -/
def copyOf (id : String) (e : Pool.Event RemoteOp ι RemoteWorld) : Option RemoteIntent :=
  match e.op with
  | .getIntent id' => if id' = id then e.before.intent id else none
  | .listIntents => e.before.intent id
  | .saveIntent intent => if intent.id = id then some intent else none
  | _ => none

/-- The event writes the intent. -/
def savesIntent (id : String) (e : Pool.Event RemoteOp ι RemoteWorld) : Bool :=
  match e.op with
  | .saveIntent intent => intent.id == id
  | _ => false

/-- The event is a call of `ActionBroker.executePlan` for the intent. -/
def dispatches (id : String) (e : Pool.Event RemoteOp ι RemoteWorld) : Bool :=
  match e.op with
  | .executePlan intentId _ _ => intentId == id
  | _ => false

/-- In a log, the newest event first: the call has a copy of this version, by its first reading or by a
write of its own, and nobody has written the intent since. -/
def current (i : ι) (id : String) (version : ℕ) : IntentLog ι → Bool
  | [] => false
  | e :: older =>
      if e.task = i ∧ (copyOf id e).any (fun copy => copy.version == version) = true ∧
          (savesIntent id e = true ∨ ∀ e' ∈ older, e'.task = i → (copyOf id e').isNone = true) then
        true
      else !savesIntent id e && current i id version older

/-- The record of the intent that the next operation of a program writes. -/
def saving (id : String) : RemoteProg Unit → Option RemoteIntent
  | .await (.saveIntent intent) _ => if intent.id = id then some intent else none
  | _ => none

/-- An update is one of a copy that the call has, since when nobody has written the intent. -/
def UpdatesCurrent (id : String) (p : IntentPool ι) (i : ι) : Prop :=
  ∀ intent ∈ saving id (p.task i), current i id (intent.version - 1) p.state.2.reverse = true

instance (p : IntentPool ι) (i : ι) : Decidable (UpdatesCurrent id p i) :=
  inferInstanceAs (Decidable (∀ intent ∈ saving id (p.task i), _ = true))

/-! ## The invariant -/

/-- The copy is the stored record, or an older one. -/
def Behind (w : RemoteWorld) (id : String) (copy : RemoteIntent) : Prop :=
  ∃ intent, w.intent id = some intent ∧ copy.version ≤ intent.version ∧
    (copy.version = intent.version → intent = copy)

/-- The intent is stopped. -/
def Stopped (w : RemoteWorld) (id : String) : Prop :=
  ∃ intent, w.intent id = some intent ∧ (intent.status = .paused ∨ intent.status = .revoked)

/-- The stages at which the record of the watcher is the stored one. -/
def WatchStage.running : WatchStage → Bool
  | executing | dispatched => true
  | _ => false

/-- The status that the watcher has written last. -/
def WatchStage.Wrote : WatchStage → IntentStatus → Prop
  | checked, status => status = .active
  | triggered, status => status = .triggered
  | executing, status | dispatched, status => status = .executing
  | concluded, status => status = .succeeded ∨ status = .failed

/-- A copy that a call has not come to yet. -/
structure Unvisited (c : IntentCall id) (w : RemoteWorld) (copy : RemoteIntent) : Prop where
  behind : Behind w id copy
  sameId : copy.id = id
  status : copy.status = .active ∨ c.stops = true ∧ copy.status = .paused

/-- The copy from the list, and the one that was written last. -/
structure AtWork (c : IntentCall id) (w : RemoteWorld) (stage : WatchStage)
    (base last : RemoteIntent) : Prop where
  ticks : c.ticks = true
  base : Unvisited c w base
  behind : Behind w id last
  sameId : last.id = id
  status : stage.Wrote last.status
  running : stage.running = true → w.intent id = some last

/-- A signed command has a copy of the version that it names only. -/
def SawVersion (c : IntentCall id) (i : ι) (log : IntentLog ι) : Prop :=
  ∀ device payload hid, c = .command device payload hid → ∀ version,
    current i id version log.reverse = true → payload.subject.version = .fin version

/-- What a call in a phase has. -/
def Has (c : IntentCall id) (i : ι) (s : RemoteWorld × IntentLog ι) : IntentPhase → Prop
  | .entered => ∀ e ∈ s.2, e.task = i → copyOf id e = none
  | .verified _ => c.stops = true ∧ SawVersion c i s.2 ∧ ∃ e ∈ s.2, e.task = i ∧ copyOf id e ≠ none
  | .pending copies => SawVersion c i s.2 ∧ ∀ copy ∈ copies, Unvisited c s.1 copy
  | .working stage base last copies =>
      AtWork c s.1 stage base last ∧ ∀ copy ∈ copies, Unvisited c s.1 copy
  | .stopped copies => c.stops = true ∧ Stopped s.1 id ∧ ∀ copy ∈ copies, Unvisited c s.1 copy
  | .nothing => ∀ deviceId revokes, c = .disableForDevice deviceId revokes → ∀ e ∈ s.2, e.task = i →
      e.op = .listIntents → ∀ intent, e.before.intent id = some intent → c.selects intent = false
  | .outside => True
  | .lost => False

/-- The record that the watcher wrote last. -/
def IntentPhase.last : IntentPhase → Option RemoteIntent
  | working _ _ last _ => some last
  | _ => none

/-- What holds at every moment. -/
structure Intents (bound : ℕ) (calls : ι → IntentCall id) (φ : ι → IntentPhase)
    (s : RemoteWorld × IntentLog ι) : Prop where
  keyed : Table.Keyed (fun i : RemoteIntent => i.id) s.1.intents
  stored : ∀ i version, current i id version s.2.reverse = true →
    ∃ intent, s.1.intent id = some intent ∧ intent.version = version
  has : ∀ i, Has (calls i) i s (φ i)
  apart : ∀ i j, i ≠ j → ∀ last last', (φ i).last = some last → (φ j).last = some last' →
    last.version ≠ last'.version
  dispatched : (∃ e ∈ s.2, dispatches id e = true) → ∃ intent, s.1.intent id = some intent ∧
    ((intent.status = .succeeded ∨ intent.status = .failed) ∨
      ∃ i base copies, φ i = .working .dispatched base intent copies)
  once : s.2.countP (dispatches id) ≤ 1
  bounded : ∀ intent, s.1.intent id = some intent → intent.executionCount ≤ bound
  increasing : ∀ e ∈ s.2, ∀ intent, e.op = .saveIntent intent → intent.id = id →
    ∀ before, e.before.intent id = some before → before.version < intent.version
  acted : ∀ e ∈ s.2, ∀ device payload hid, calls e.task = .command device payload hid →
    ∀ intent, e.op = .saveIntent intent → intent.id = id → ∃ before status now,
      e.before.intent id = some before ∧ payload.subject.version = .fin before.version ∧
        intent = patched before { status := some status } now

section Steps

variable {env : RemoteEnv} {calls : ι → IntentCall id} {c : IntentCall id} {φ : ι → IntentPhase}
  {s : RemoteWorld × IntentLog ι} {i : ι} {φ' : IntentPhase} {w w' : RemoteWorld} {o : RemoteOp}
  {bound : ℕ}

/-! ### Operations -/

/-- The intent is written by operations on it only. -/
theorem intent_of_not_changes (env : RemoteEnv) (w : RemoteWorld) (h : changes id o = false) :
    (remoteHandle env o w).2.intent id = w.intent id := by
  by_cases hq : o.quiet = true
  · unfold RemoteWorld.intent
    rw [(@untouched_of_quiet env _ w hq).intents]
  · cases o with
    | saveIntent intent =>
        exact (RemoteWorld.intent_saveIntent intent id).trans (if_neg (by simpa [changes] using h))
    | rememberCommand id deviceId nonce record =>
        simp only [remoteHandle]
        split <;> rfl
    | saveDevice device =>
        simp only [remoteHandle]
        split <;> rfl
    | _ => first | rfl | exact absurd rfl hq

/-- The key of the intents is kept. -/
theorem keyed_intents (env : RemoteEnv) (o : RemoteOp)
    (h : Table.Keyed (fun i : RemoteIntent => i.id) w.intents) :
    Table.Keyed (fun i : RemoteIntent => i.id) (remoteHandle env o w).2.intents := by
  by_cases hq : o.quiet = true
  · rw [(@untouched_of_quiet env _ w hq).intents]
    exact h
  · cases o with
    | saveIntent intent => exact h.upsert
    | rememberCommand id deviceId nonce record =>
        simp only [remoteHandle]
        split <;> exact h
    | saveDevice device =>
        simp only [remoteHandle]
        split <;> exact h
    | _ => first | exact h | exact absurd rfl hq

/-- The list holds the stored record of every intent. -/
theorem mem_intentsNewestFirst (hkeyed : Table.Keyed (fun i : RemoteIntent => i.id) w.intents)
    {intent : RemoteIntent} (hid : intent.id = id) :
    intent ∈ w.intentsNewestFirst ↔ w.intent id = some intent := by
  unfold RemoteWorld.intentsNewestFirst
  rw [List.mem_insertionSort]
  subst hid
  constructor
  · intro h
    exact hkeyed.get_eq h
  · exact fun h => Table.mem_of_get h

/-- What an event reads or writes is stored after it. -/
theorem stored_of_copyOf (env : RemoteEnv) {intent : RemoteIntent}
    (h : copyOf id (⟨i, o, w⟩ : Pool.Event RemoteOp ι RemoteWorld) = some intent) :
    (remoteHandle env o w).2.intent id = some intent := by
  cases o with
  | getIntent id' =>
      simp only [copyOf] at h
      split at h
      · exact h
      · cases h
  | listIntents => exact h
  | saveIntent intent' =>
      simp only [copyOf] at h
      split at h
      · next hid =>
          cases h
          exact (RemoteWorld.intent_saveIntent _ id).trans (if_pos hid)
      · cases h
  | _ => cases h

/-- An operation that does not concern the intent. -/
theorem not_concerns (h : concerns id o = false) : changes id o = false ∧
    copyOf id (⟨i, o, w⟩ : Pool.Event RemoteOp ι RemoteWorld) = none ∧ o ≠ .listIntents := by
  cases o with
  | getIntent id' => exact ⟨rfl, if_neg (beq_eq_false_iff_ne.mp h), nofun⟩
  | listIntents => cases h
  | saveIntent intent => exact ⟨h, if_neg (beq_eq_false_iff_ne.mp h), nofun⟩
  | _ => exact ⟨h, rfl, nofun⟩

theorem dispatches_of_not_changes (h : changes id o = false) :
    dispatches id (⟨i, o, w⟩ : Pool.Event RemoteOp ι RemoteWorld) = false := by
  cases o <;> first | exact h | rfl

/-! ### Copies -/

/-- A call without a copy. -/
theorem current_of_none {log : IntentLog ι} (h : ∀ e ∈ log, e.task = i → copyOf id e = none)
    (version : ℕ) : current i id version log = false := by
  induction log with
  | nil => rfl
  | cons e older ih =>
      obtain ⟨he, holder⟩ := List.forall_mem_cons.mp h
      rw [current, ih holder, if_neg, Bool.and_false]
      rintro ⟨htask, hcopy, -⟩
      rw [he htask] at hcopy
      cases hcopy

/-- An event that gives the call no copy. -/
theorem current_of_aside {log : IntentLog ι} {e : Pool.Event RemoteOp ι RemoteWorld} {version : ℕ}
    (he : e.task = i → copyOf id e = none) (h : current i id version (e :: log) = true) :
    current i id version log = true := by
  rw [current, if_neg, Bool.and_eq_true] at h
  · exact h.2
  · rintro ⟨htask, hcopy, -⟩
    rw [he htask] at hcopy
    cases hcopy

/-- The call's own event, when it has a copy already: a copy that it writes, or none. -/
theorem current_of_again {log : IntentLog ι} {e : Pool.Event RemoteOp ι RemoteWorld} {version : ℕ}
    (hcopy : ∃ e' ∈ log, e'.task = i ∧ copyOf id e' ≠ none) (he : savesIntent id e = false)
    (h : current i id version (e :: log) = true) : current i id version log = true := by
  rw [current, if_neg, he] at h
  · simpa using h
  · rintro ⟨-, -, hsaves | hnone⟩
    · rw [he] at hsaves
      cases hsaves
    · obtain ⟨e', he', htask, hsome⟩ := hcopy
      exact hsome (Option.isNone_iff_eq_none.mp (hnone e' he' htask))

theorem Behind.refl {intent : RemoteIntent} (h : w.intent id = some intent) : Behind w id intent :=
  ⟨intent, h, le_rfl, fun _ => rfl⟩

/-- A copy of the stored version is the stored record. -/
theorem Behind.eq {copy intent : RemoteIntent} (h : Behind w id copy)
    (hintent : w.intent id = some intent) (hversion : copy.version = intent.version) :
    copy = intent := by
  obtain ⟨intent', hintent', -, hsame⟩ := h
  obtain rfl := Option.some.inj (hintent.symm.trans hintent')
  exact (hsame hversion).symm

theorem Behind.le {copy intent : RemoteIntent} (h : Behind w id copy)
    (hintent : w.intent id = some intent) : copy.version ≤ intent.version := by
  obtain ⟨intent', hintent', hle, -⟩ := h
  exact Option.some.inj (hintent.symm.trans hintent') ▸ hle

/-- What is behind a record is behind the next version of it. -/
theorem Behind.next {copy intent intent' : RemoteIntent} (h : Behind w id copy)
    (hintent : w.intent id = some intent) (hintent' : w'.intent id = some intent')
    (hversion : intent'.version = intent.version + 1) : Behind w' id copy := by
  have hle := h.le hintent
  exact ⟨intent', hintent', by omega, fun heq => by omega⟩

theorem Behind.of_same {copy : RemoteIntent} (h : Behind w id copy)
    (hw : w'.intent id = w.intent id) : Behind w' id copy := by
  unfold Behind
  rw [hw]
  exact h

/-- What an event leaves that gives the call no copy. -/
theorem Has.aside {ψ : IntentPhase} {e : Pool.Event RemoteOp ι RemoteWorld} (h : Has c i s ψ)
    (he : e.task = i → copyOf id e = none ∧ e.op ≠ .listIntents)
    (hbehind : ∀ copy, Behind s.1 id copy → Behind w' id copy)
    (hstopped : Stopped s.1 id → Stopped w' id)
    (hrunning : ∀ stage base last copies, ψ = .working stage base last copies →
      stage.running = true → s.1.intent id = some last → w'.intent id = some last) :
    Has c i (w', s.2 ++ [e]) ψ := by
  have hsaw : SawVersion c i s.2 → SawVersion c i (s.2 ++ [e]) := by
    intro hsaw device payload hid hc version hcurrent
    rw [List.reverse_append] at hcurrent
    exact hsaw device payload hid hc version (current_of_aside (fun ht => (he ht).1) hcurrent)
  have hlast : ∀ {P : Pool.Event RemoteOp ι RemoteWorld → Prop},
      (∀ e' ∈ s.2, e'.task = i → P e') → (e.task = i → P e) →
      ∀ e' ∈ s.2 ++ [e], e'.task = i → P e' :=
    fun hall hnew => List.forall_mem_append.mpr ⟨hall, List.forall_mem_singleton.mpr hnew⟩
  have hunvisited : ∀ {copy : RemoteIntent}, Unvisited c s.1 copy → Unvisited c w' copy :=
    fun hcopy => ⟨hbehind _ hcopy.behind, hcopy.sameId, hcopy.status⟩
  cases ψ with
  | entered => exact hlast h fun ht => (he ht).1
  | verified seen =>
      obtain ⟨hstops, hversion, e', he', hfound⟩ := h
      exact ⟨hstops, hsaw hversion, e', List.mem_append_left _ he', hfound⟩
  | pending copies => exact ⟨hsaw h.1, fun copy hcopy => hunvisited (h.2 copy hcopy)⟩
  | working stage base last copies =>
      obtain ⟨hwork, hcopies⟩ := h
      refine ⟨⟨hwork.ticks, hunvisited hwork.base, hbehind _ hwork.behind, hwork.sameId,
        hwork.status, fun hrun => ?_⟩, fun copy hcopy => hunvisited (hcopies copy hcopy)⟩
      exact hrunning _ _ _ _ rfl hrun (hwork.running hrun)
  | stopped copies =>
      exact ⟨h.1, hstopped h.2.1, fun copy hcopy => hunvisited (h.2.2 copy hcopy)⟩
  | nothing =>
      exact fun deviceId revokes hc => hlast (h deviceId revokes hc) fun ht hlist =>
        absurd hlist (he ht).2
  | outside => trivial
  | lost => exact h

/-! ### Updates -/

theorem stops_of_ticks (h : c.ticks = true) : c.stops = false := by
  cases c <;> first | rfl | cases h

theorem not_command_of_ticks (h : c.ticks = true) (log : IntentLog ι) : SawVersion c i log := by
  rintro device payload hid rfl
  cases h

/-- The copies that a call has not come to yet. -/
theorem Has.rest {ψ : IntentPhase} (h : Has c i s ψ) : ∀ copy ∈ ψ.rest, Unvisited c s.1 copy := by
  cases ψ with
  | pending copies => exact h.2
  | working stage base last copies => exact h.2
  | stopped copies => exact h.2.2
  | _ => simp [IntentPhase.rest]

/-- A call that stops intents does not watch them. -/
theorem Has.last_of_stops {ψ : IntentPhase} (h : Has c i s ψ) (hc : c.stops = true) :
    ψ.last = none := by
  cases ψ with
  | working stage base last copies =>
      rw [stops_of_ticks h.1.ticks] at hc
      cases hc
  | _ => rfl

/-- The reading of a call that stops one intent. -/
theorem Has.reads {ψ : IntentPhase} (h : Has c i s ψ) (hψ : c.Reads ψ)
    {e : Pool.Event RemoteOp ι RemoteWorld} (he : savesIntent id e = false) :
    c.stops = true ∧ SawVersion c i (s.2 ++ [e]) := by
  cases ψ with
  | entered =>
      cases c with
      | pause deviceId => exact ⟨rfl, fun _ _ _ hc => nomatch hc⟩
      | revoke deviceId => exact ⟨rfl, fun _ _ _ hc => nomatch hc⟩
      | _ => exact hψ.elim
  | verified seen =>
      obtain ⟨hstops, hsaw, e', he', htask, hcopy⟩ := h
      refine ⟨hstops, fun device payload hid hc version hcurrent => ?_⟩
      rw [List.reverse_append] at hcurrent
      exact hsaw device payload hid hc version
        (current_of_again ⟨e', List.mem_reverse.mpr he', htask, hcopy⟩ he hcurrent)
  | _ => exact hψ.elim

/-- A call that selects intents from the list. -/
theorem selects_cases {copy : RemoteIntent} (h : c.selects copy = true) :
    copy.status = .active ∨ c.stops = true ∧ copy.status = .paused := by
  cases c with
  | tick now => exact .inl (beq_iff_eq.mp h)
  | disableForDevice deviceId revokes =>
      simp only [IntentCall.selects, Bool.and_eq_true, Bool.or_eq_true, beq_iff_eq] at h
      exact h.2.imp_right fun hs => ⟨rfl, hs⟩
  | _ => cases h

/-- The watcher's copies from the list are active. -/
theorem Unvisited.active {copy : RemoteIntent} (h : Unvisited c w copy) (hc : c.ticks = true) :
    copy.status = .active := by
  rcases h.status with hactive | ⟨hstops, -⟩
  · exact hactive
  · rw [stops_of_ticks hc] at hstops
    cases hstops

theorem Unvisited.next {copy intent intent' : RemoteIntent} (h : Unvisited c w copy)
    (hintent : w.intent id = some intent) (hintent' : w'.intent id = some intent')
    (hversion : intent'.version = intent.version + 1) : Unvisited c w' copy :=
  ⟨h.behind.next hintent hintent' hversion, h.sameId, h.status⟩

section Writes

variable {ψ : IntentPhase} {copy : RemoteIntent} {patch : IntentPatch}
  {next : RemoteIntent → IntentPhase}

/-- The copy from the list that the watcher is at. -/
theorem Has.base {copies : List RemoteIntent} (h : Has c i s ψ) (hψ : ψ.Evaluates copy copies) :
    Unvisited c s.1 copy ∧ ∀ other ∈ copies, Unvisited c s.1 other := by
  rcases hψ with hrest | ⟨stage, last, rfl⟩
  · have hall := h.rest
    rw [hrest] at hall
    exact ⟨hall copy List.mem_cons_self, fun other ho => hall other (List.mem_cons_of_mem _ ho)⟩
  · exact ⟨h.1.base, h.2⟩

/-- What is updated is a copy from the list or of one reading, or what was written last. -/
theorem Writes.updates (h : Writes c ψ copy patch next) (hhas : Has c i s ψ) :
    Behind s.1 id copy ∧ copy.id = id ∧ (Unvisited c s.1 copy ∨ ψ.last = some copy) := by
  cases h with
  | stop hc hφ =>
      have hu := (hhas.base (.inl hφ)).1
      exact ⟨hu.behind, hu.sameId, .inl hu⟩
  | expire hc hφ =>
      have hu := (hhas.base (.inl hφ)).1
      exact ⟨hu.behind, hu.sameId, .inl hu⟩
  | check now hc hφ =>
      have hu := (hhas.base (.inl hφ)).1
      exact ⟨hu.behind, hu.sameId, .inl hu⟩
  | fail hc hφ =>
      have hu := (hhas.base hφ).1
      exact ⟨hu.behind, hu.sameId, .inl hu⟩
  | trigger now hc => exact ⟨hhas.1.behind, hhas.1.sameId, .inr rfl⟩
  | start hc => exact ⟨hhas.1.behind, hhas.1.sameId, .inr rfl⟩
  | conclude hc hstage hs hcount => exact ⟨hhas.1.behind, hhas.1.sameId, .inr rfl⟩

/-- A stopped record is updated to a stopped one. -/
theorem Writes.keeps_stopped (h : Writes c ψ copy patch next) (hhas : Has c i s ψ) (now : ℤ)
    (hs : copy.status = .paused ∨ copy.status = .revoked) :
    (patched copy patch now).status = .paused ∨ (patched copy patch now).status = .revoked := by
  have hactive : copy.status ≠ .active := by
    rintro hactive
    rcases hs with hs | hs <;> cases hs.symm.trans hactive
  have hticks : c.ticks = true → Unvisited c s.1 copy → False :=
    fun hc hu => hactive (hu.active hc)
  cases h with
  | stop hc hφ hone hstatus => exact hstatus
  | expire hc hφ => exact (hticks hc (hhas.base (.inl hφ)).1).elim
  | check now hc hφ => exact (hticks hc (hhas.base (.inl hφ)).1).elim
  | fail hc hφ => exact (hticks hc (hhas.base hφ).1).elim
  | trigger now hc => exact absurd hhas.1.status hactive
  | start hc =>
      have hstatus : copy.status = .triggered := hhas.1.status
      rw [hstatus] at hs
      rcases hs with hs | hs <;> cases hs
  | conclude hc hstage hpatch hcount =>
      have hstatus := hhas.1.status
      rcases hstage with rfl | rfl
      · rw [show copy.status = .executing from hstatus] at hs
        rcases hs with hs | hs <;> cases hs
      · rcases hstatus with hstatus | hstatus <;> rw [hstatus] at hs <;> rcases hs with hs | hs <;>
          cases hs

/-- A record whose plan was executed is updated to its outcome. -/
theorem Writes.keeps_dispatched (h : Writes c ψ copy patch next) (hhas : Has c i s ψ) (now : ℤ)
    (hs : copy.status = .executing ∨ copy.status = .succeeded ∨ copy.status = .failed) :
    (patched copy patch now).status = .succeeded ∨ (patched copy patch now).status = .failed := by
  have hunvisited : Unvisited c s.1 copy → False := by
    intro hu
    rcases hu.status with hactive | ⟨-, hpaused⟩
    · rcases hs with hs | hs | hs <;> cases hs.symm.trans hactive
    · rcases hs with hs | hs | hs <;> cases hs.symm.trans hpaused
  cases h with
  | stop hc hφ => exact (hunvisited (hhas.base (.inl hφ)).1).elim
  | expire hc hφ => exact (hunvisited (hhas.base (.inl hφ)).1).elim
  | check now hc hφ => exact (hunvisited (hhas.base (.inl hφ)).1).elim
  | fail hc hφ => exact (hunvisited (hhas.base hφ).1).elim
  | trigger now hc =>
      have hstatus : copy.status = .active := hhas.1.status
      rcases hs with hs | hs | hs <;> cases hs.symm.trans hstatus
  | start hc =>
      have hstatus : copy.status = .triggered := hhas.1.status
      rcases hs with hs | hs | hs <;> cases hs.symm.trans hstatus
  | conclude hc hstage hpatch hcount =>
      unfold patched
      rcases hpatch with hpatch | hpatch <;> rw [hpatch]
      · exact .inl rfl
      · exact .inr rfl

/-- An update leaves the count of executions, or sets it to one. -/
theorem Writes.count (h : Writes c ψ copy patch next) (now : ℤ) :
    (patched copy patch now).executionCount = copy.executionCount ∨
      (patched copy patch now).executionCount = 1 := by
  unfold patched
  cases h with
  | conclude hc hstage hs hcount =>
      rw [hcount]
      exact .inr rfl
  | fail hc hφ hs hcount =>
      rw [hcount]
      exact .inl rfl
  | _ => exact .inl rfl

/-- The phase that an update leads to. -/
theorem Writes.has_next (h : Writes c ψ copy patch next) (hhas : Has c i s ψ) {now : ℤ}
    (hcopy : s.1.intent id = some copy) (hw : w'.intent id = some (patched copy patch now))
    (e : Pool.Event RemoteOp ι RemoteWorld) :
    Has c i (w', s.2 ++ [e]) (next (patched copy patch now)) := by
  have hnext : ∀ {other : RemoteIntent}, Unvisited c s.1 other → Unvisited c w' other :=
    fun hu => hu.next hcopy hw rfl
  have hbehind : Behind w' id (patched copy patch now) := .refl hw
  obtain ⟨-, hid, -⟩ := h.updates hhas
  cases h with
  | stop hc hφ hone hs =>
      exact ⟨hc, ⟨_, hw, hs⟩, fun other ho => hnext ((hhas.base (.inl hφ)).2 other ho)⟩
  | expire hc hφ =>
      exact ⟨not_command_of_ticks hc _, fun other ho => hnext ((hhas.base (.inl hφ)).2 other ho)⟩
  | fail hc hφ =>
      exact ⟨not_command_of_ticks hc _, fun other ho => hnext ((hhas.base hφ).2 other ho)⟩
  | check now hc hφ =>
      obtain ⟨hbase, hrest⟩ := hhas.base (.inl hφ)
      exact ⟨⟨hc, hnext hbase, hbehind, hid, hbase.active hc, nofun⟩,
        fun other ho => hnext (hrest other ho)⟩
  | trigger now hc =>
      exact ⟨⟨hc, hnext hhas.1.base, hbehind, hid, rfl, nofun⟩,
        fun other ho => hnext (hhas.2 other ho)⟩
  | start hc =>
      exact ⟨⟨hc, hnext hhas.1.base, hbehind, hid, rfl, fun _ => hw⟩,
        fun other ho => hnext (hhas.2 other ho)⟩
  | conclude hc hstage hs hcount =>
      refine ⟨⟨hc, hnext hhas.1.base, hbehind, hid, ?_, nofun⟩,
        fun other ho => hnext (hhas.2 other ho)⟩
      unfold patched
      rcases hs with hs | hs <;> rw [hs]
      · exact .inl rfl
      · exact .inr rfl

/-- A signed command updates the copy that it has read. -/
theorem Writes.of_command (h : Writes c ψ copy patch next) {device : RemoteDevice}
    {payload : SignedRemoteCommandPayload} {hid : payload.subject.id = id}
    (hc : c = .command device payload hid) :
    ∃ status copies, patch = { status := some status } ∧ ψ = .pending (copy :: copies) := by
  subst hc
  cases h with
  | @stop _ _ copies status hc hφ hone hs =>
      rcases hone with hne | hpending
      · exact absurd rfl (hne device payload hid)
      · exact ⟨status, copies, rfl, hpending⟩
  | expire hc => cases hc
  | check now hc => cases hc
  | trigger now hc => cases hc
  | start hc => cases hc
  | conclude hc => cases hc
  | fail hc => cases hc

theorem Writes.last_next (h : Writes c ψ copy patch next) {intent last : RemoteIntent}
    (hlast : (next intent).last = some last) : last = intent := by
  cases h <;> cases hlast <;> rfl

end Writes

/-! ### Steps -/

/-- A copy that is the call's and current is the stored record. -/
theorem current_concat {log : IntentLog ι} (h : ∀ i version, current i id version log.reverse = true →
      ∃ intent, w.intent id = some intent ∧ intent.version = version)
    (hcopy : ∀ intent, copyOf id (⟨i, o, w⟩ : Pool.Event RemoteOp ι RemoteWorld) = some intent →
      w'.intent id = some intent)
    (hsame : savesIntent id (⟨i, o, w⟩ : Pool.Event RemoteOp ι RemoteWorld) = false →
      w'.intent id = w.intent id) (j : ι) (version : ℕ)
    (hcurrent : current j id version
      (log ++ [(⟨i, o, w⟩ : Pool.Event RemoteOp ι RemoteWorld)]).reverse = true) :
    ∃ intent, w'.intent id = some intent ∧ intent.version = version := by
  rw [List.reverse_append, List.reverse_singleton, List.singleton_append, current] at hcurrent
  split at hcurrent
  next hown =>
    obtain ⟨intent, hintent, hversion⟩ := (Option.any_eq_true _ _).mp hown.2.1
    exact ⟨intent, hcopy intent hintent, beq_iff_eq.mp hversion⟩
  · rw [Bool.and_eq_true, Bool.not_eq_true'] at hcurrent
    rw [hsame hcurrent.1]
    exact h j version hcurrent.2

/-- A step that does not write the intent. -/
theorem Intents.unsaved (h : Intents bound calls φ s)
    (hkeyed : Table.Keyed (fun i : RemoteIntent => i.id) w'.intents)
    (hsame : w'.intent id = s.1.intent id)
    (hcopy : ∀ intent, copyOf id (⟨i, o, s.1⟩ : Pool.Event RemoteOp ι RemoteWorld) = some intent →
      w'.intent id = some intent)
    (hsaves : ∀ intent, o = .saveIntent intent → intent.id ≠ id)
    (hhas : Has (calls i) i (w', s.2 ++ [⟨i, o, s.1⟩]) φ')
    (hlast : ∀ last, φ'.last = some last → (φ i).last = some last)
    (hdispatch : dispatches id (⟨i, o, s.1⟩ : Pool.Event RemoteOp ι RemoteWorld) = false ∧
        (∀ base last copies, φ i = .working .dispatched base last copies →
          φ' = .working .dispatched base last copies) ∨
      s.2.countP (dispatches id) = 0 ∧ ∃ base last copies,
        φ' = .working .dispatched base last copies ∧ s.1.intent id = some last) :
    Intents bound calls (Function.update φ i φ') (w', s.2 ++ [⟨i, o, s.1⟩]) := by
  have hapart : ∀ j, j ≠ i → ∀ last last', φ'.last = some last → (φ j).last = some last' →
      last.version ≠ last'.version :=
    fun j hj last last' hl hl' => h.apart i j hj.symm last last' (hlast last hl) hl'
  refine ⟨hkeyed, current_concat h.stored hcopy fun _ => hsame, ?_, ?_, ?_, ?_, ?_, ?_, ?_⟩
  · refine (Function.forall_update_iff φ fun j ψ =>
      Has (calls j) j (w', s.2 ++ [⟨i, o, s.1⟩]) ψ).mpr ⟨hhas, fun j hj => ?_⟩
    refine (h.has j).aside (fun ht => absurd ht.symm hj) (fun copy hb => hb.of_same hsame) (fun hstopped => ?_)
      fun stage base last copies _ _ hstored => hsame.trans hstored
    unfold Stopped
    rw [hsame]
    exact hstopped
  · intro j j' hne last last' hl hl'
    by_cases hj : j = i
    · subst hj
      rw [Function.update_self] at hl
      rw [Function.update_of_ne hne.symm] at hl'
      exact hapart j' hne.symm last last' hl hl'
    · rw [Function.update_of_ne hj] at hl
      by_cases hj' : j' = i
      · subst hj'
        rw [Function.update_self] at hl'
        exact (hapart j hj last' last hl' hl).symm
      · rw [Function.update_of_ne hj'] at hl'
        exact h.apart j j' hne last last' hl hl'
  · rintro ⟨e, he, hdispatches⟩
    rcases hdispatch with ⟨hno, hkeep⟩ | ⟨-, base, last, copies, hφ, hstored⟩
    · have hold : e ∈ s.2 := by
        rcases List.mem_append.mp he with he | he
        · exact he
        · rw [List.mem_singleton.mp he, hno] at hdispatches
          cases hdispatches
      obtain ⟨intent, hintent, hstatus⟩ := h.dispatched ⟨e, hold, hdispatches⟩
      refine ⟨intent, hsame.trans hintent, hstatus.imp_right ?_⟩
      rintro ⟨j, base, copies, hj⟩
      refine ⟨j, base, copies, ?_⟩
      by_cases hji : j = i
      · subst hji
        rw [Function.update_self]
        exact hkeep base intent copies hj
      · rw [Function.update_of_ne hji]
        exact hj
    · exact ⟨last, hsame.trans hstored, .inr ⟨i, base, copies, by rw [Function.update_self, hφ]⟩⟩
  · rw [List.countP_append, List.countP_singleton]
    have honce := h.once
    rcases hdispatch with ⟨hno, -⟩ | ⟨hzero, -⟩
    · rw [hno]
      simpa using honce
    · rw [hzero]
      split <;> omega
  · rw [hsame]
    exact h.bounded
  · refine List.forall_mem_append.mpr ⟨h.increasing, List.forall_mem_singleton.mpr ?_⟩
    exact fun intent ho hid => absurd hid (hsaves intent ho)
  · refine List.forall_mem_append.mpr ⟨h.acted, List.forall_mem_singleton.mpr ?_⟩
    exact fun _ _ _ _ intent ho hid => absurd hid (hsaves intent ho)

/-- A step that writes the intent updates the stored record. -/
theorem Intents.saved (h : Intents bound calls φ s) (hbound : 1 ≤ bound) {copy : RemoteIntent}
    {patch : IntentPatch} {next : RemoteIntent → IntentPhase} (now : ℤ)
    (hW : Writes (calls i) (φ i) copy patch next)
    (hcurrent : current i id copy.version s.2.reverse = true) :
    s.1.intent id = some copy ∧ copy.id = id ∧
      Intents bound calls (Function.update φ i (next (patched copy patch now)))
        (s.1.saveIntent (patched copy patch now),
          s.2 ++ [⟨i, .saveIntent (patched copy patch now), s.1⟩]) := by
  have hhas := h.has i
  obtain ⟨hbehind, hid, hcopy⟩ := hW.updates hhas
  have hstored : s.1.intent id = some copy := by
    obtain ⟨stored, hstored, hversion⟩ := h.stored i _ hcurrent
    rw [hbehind.eq hstored hversion.symm]
    exact hstored
  have hw : (s.1.saveIntent (patched copy patch now)).intent id = some (patched copy patch now) :=
    (RemoteWorld.intent_saveIntent _ id).trans (if_pos hid)
  have hbefore : ∀ intent, s.1.intent id = some intent → intent = copy :=
    fun intent hintent => Option.some.inj (hintent.symm.trans hstored)
  -- No other call has written this record last, and none reads one that is being executed.
  -- No other call has written this record last, and none reads one that is being executed.
  have halone : ∀ j ≠ i, ∀ stage base copies, φ j = .working stage base copy copies →
      stage.running = true → False := by
    intro j hj stage base copies hφ hrunning
    have hwork := h.has j
    rw [hφ] at hwork
    have hexecuting : copy.status = .executing := by
      have hwrote := hwork.1.status
      cases stage <;> first | exact hwrote | cases hrunning
    rcases hcopy with hu | hl
    · rcases hu.status with hs | ⟨-, hs⟩ <;> cases hexecuting.symm.trans hs
    · exact h.apart i j hj.symm copy copy hl (by rw [hφ]; rfl) rfl
  have hnew : ∀ j, j ≠ i → ∀ last, (next (patched copy patch now)).last = some last →
      ∀ last', (φ j).last = some last' → last'.version < last.version := by
    intro j hj last hl last' hl'
    rw [hW.last_next hl]
    have hwork := h.has j
    cases hφ : φ j with
    | working stage base last'' copies =>
        rw [hφ] at hl' hwork
        cases hl'
        exact Nat.lt_succ_of_le (hwork.1.behind.le hstored)
    | _ => rw [hφ] at hl'; cases hl'
  refine ⟨hstored, hid, ?_, ?_, ?_, ?_, ?_, ?_, ?_, ?_, ?_⟩
  · exact h.keyed.upsert
  · refine current_concat h.stored (fun intent hintent => ?_) (fun hno => ?_)
    · exact stored_of_copyOf .sample (i := i) hintent
    · have hsaves : ((patched copy patch now).id == id) = true := beq_iff_eq.mpr hid
      cases hsaves.symm.trans hno
  · refine (Function.forall_update_iff φ fun j ψ => Has (calls j) j (s.1.saveIntent _,
      s.2 ++ [⟨i, .saveIntent (patched copy patch now), s.1⟩]) ψ).mpr
      ⟨hW.has_next hhas hstored hw _, fun j hj => ?_⟩
    refine (h.has j).aside (fun ht => absurd ht.symm hj) (fun b hb => hb.next hstored hw rfl) ?_ ?_
    · rintro ⟨intent, hintent, hs⟩
      exact ⟨_, hw, hW.keeps_stopped hhas now (hbefore intent hintent ▸ hs)⟩
    · intro stage base last copies hφ hrunning hlast
      obtain rfl := hbefore last hlast
      exact (halone j hj stage base copies hφ hrunning).elim
  · intro j j' hne last last' hl hl'
    by_cases hj : j = i
    · subst hj
      rw [Function.update_self] at hl
      rw [Function.update_of_ne hne.symm] at hl'
      exact (hnew j' hne.symm last hl last' hl').ne'
    · rw [Function.update_of_ne hj] at hl
      by_cases hj' : j' = i
      · subst hj'
        rw [Function.update_self] at hl'
        exact (hnew j hj last' hl' last hl).ne
      · rw [Function.update_of_ne hj'] at hl'
        exact h.apart j j' hne last last' hl hl'
  · rintro ⟨e, he, hdispatches⟩
    have hold : e ∈ s.2 := by
      rcases List.mem_append.mp he with he | he
      · exact he
      · rw [List.mem_singleton.mp he] at hdispatches
        cases hdispatches
    refine ⟨_, hw, .inl (hW.keeps_dispatched hhas now ?_)⟩
    obtain ⟨intent, hintent, hstatus | ⟨j, base, copies, hφ⟩⟩ := h.dispatched ⟨e, hold, hdispatches⟩
    · exact .inr (hbefore intent hintent ▸ hstatus)
    · obtain rfl := hbefore intent hintent
      have hwork := h.has j
      rw [hφ] at hwork
      exact .inl hwork.1.status
  · rw [List.countP_append]
    simpa [dispatches] using h.once
  · intro intent hintent
    rw [hw] at hintent
    obtain rfl := Option.some.inj hintent
    rcases hW.count now with hcount | hcount <;> rw [hcount]
    · exact h.bounded copy hstored
    · exact hbound
  · refine List.forall_mem_append.mpr ⟨h.increasing, List.forall_mem_singleton.mpr ?_⟩
    rintro intent ⟨⟩ - before hb
    rw [hbefore before hb]
    exact Nat.lt_succ_self _
  · refine List.forall_mem_append.mpr ⟨h.acted, List.forall_mem_singleton.mpr ?_⟩
    rintro device payload hpayload hc intent ⟨⟩ -
    obtain ⟨status, copies, rfl, hφ⟩ := hW.of_command hc
    rw [hφ] at hhas
    exact ⟨copy, status, now, hstored, hhas.1 device payload hpayload hc _ hcurrent, rfl⟩

/-- Of what a call has and the stored record, every step keeps that the copy is behind it. -/
structure Keeps (id : String) (w w' : RemoteWorld) : Prop where
  behind : ∀ copy, Behind w id copy → Behind w' id copy
  stopped : Stopped w id → Stopped w' id

theorem Keeps.of_same (h : w'.intent id = w.intent id) : Keeps id w w' where
  behind := fun _ hb => hb.of_same h
  stopped := fun hs => by
    unfold Stopped
    rw [h]
    exact hs

theorem Keeps.refl (w : RemoteWorld) : Keeps id w w := .of_same rfl

theorem Keeps.trans {w'' : RemoteWorld} (h : Keeps id w w') (h' : Keeps id w' w'') :
    Keeps id w w'' :=
  ⟨fun copy hb => h'.behind copy (h.behind copy hb), fun hs => h'.stopped (h.stopped hs)⟩

/-- Every step that meets the condition keeps what holds at every moment. -/
theorem intents_step {p : IntentPool ι} {k : RemoteRes o → RemoteProg Unit}
    (ht : p.task i = .await o k) (hbound : 1 ≤ bound) (hC : UpdatesCurrent id p i)
    (hT : IntentStep (calls i) (φ i) o (Pool.recorded (remoteHandle env) i o p.state).1 φ')
    (h : Intents bound calls φ p.state) :
    Intents bound calls (Function.update φ i φ')
        (p.step (Pool.recorded (remoteHandle env)) i).state ∧
      Keeps id p.state.1 (p.step (Pool.recorded (remoteHandle env)) i).state.1 := by
  rw [Pool.step_of_await ht]
  show Intents bound calls _ ((remoteHandle env o p.state.1).2, p.state.2 ++ [⟨i, o, p.state.1⟩]) ∧
    Keeps id p.state.1 (remoteHandle env o p.state.1).2
  have hkeyed := keyed_intents env o h.keyed
  have hhas := h.has i
  generalize hφ : φ i = φi at hT hhas
  generalize hx : (Pool.recorded (remoteHandle env) i o p.state).1 = x at hT
  have hx' : (remoteHandle env o p.state.1).1 = x := hx
  -- A step that only reads, or does not concern the intent.
  have hread : changes id o = false → Has (calls i) i
      ((remoteHandle env o p.state.1).2, p.state.2 ++ [⟨i, o, p.state.1⟩]) φ' →
      (φ' = φi ∨ φ'.last = none ∧ φi.last = none) →
      Intents bound calls (Function.update φ i φ')
          ((remoteHandle env o p.state.1).2, p.state.2 ++ [⟨i, o, p.state.1⟩]) ∧
        Keeps id p.state.1 (remoteHandle env o p.state.1).2 := by
    intro ho hnext hlast
    have hsame := intent_of_not_changes env p.state.1 ho
    refine ⟨h.unsaved hkeyed hsame (fun _ => stored_of_copyOf env) ?_ hnext ?_ (.inl
      ⟨dispatches_of_not_changes ho, ?_⟩), .of_same hsame⟩
    · rintro intent rfl hid
      rw [changes, beq_eq_false_iff_ne] at ho
      exact ho hid
    · intro last hl
      rcases hlast with rfl | ⟨hnone, -⟩
      · rw [hφ]
        exact hl
      · cases hnone.symm.trans hl
    · intro base last copies hworking
      rcases hlast with rfl | ⟨-, hnone⟩
      · exact hφ.symm.trans hworking
      · rw [← hφ, hworking] at hnone
        cases hnone
  cases hT with
  | aside ψ o x ho =>
      obtain ⟨hchanges, hcopy, hlist⟩ := not_concerns (i := i) (w := p.state.1) ho
      have hsame := intent_of_not_changes env p.state.1 hchanges
      exact hread hchanges (hhas.aside (fun _ => ⟨hcopy, hlist⟩) (fun _ hb => hb.of_same hsame)
        (Keeps.of_same hsame).stopped fun _ _ _ _ _ _ hl => hsame.trans hl) (.inl rfl)
  | outside o x ho => exact hread ho trivial (.inl rfl)
  | lost o x => exact hhas.elim
  | amiss ψ found hid => exact absurd (RemoteWorld.intent_id hx') hid
  | verify device payload hid hc seen hv =>
      have hcopy : copyOf id (⟨i, .getIntent id, p.state.1⟩ : Pool.Event RemoteOp ι RemoteWorld) =
          some seen := (if_pos rfl).trans hx'
      refine hread rfl ⟨by rw [hc]; rfl, ?_, _, List.mem_append_right _ (List.mem_singleton_self _),
        rfl, by rw [hcopy]; nofun⟩ (.inr ⟨rfl, rfl⟩)
      intro device' payload' hid' hc' version hcurrent
      obtain ⟨rfl, rfl⟩ : device = device' ∧ payload = payload' := by
        cases hc.symm.trans hc'
        exact ⟨rfl, rfl⟩
      rw [List.reverse_append, List.reverse_singleton, List.singleton_append, current,
        current_of_none fun e he => hhas e (List.mem_reverse.mp he)] at hcurrent
      split at hcurrent
      next hown =>
        rw [hcopy] at hown
        rw [hv, beq_iff_eq.mp hown.2.1]
      · simp at hcurrent
  | refuse ψ x hs hc =>
      exact hread rfl (fun deviceId revokes hd => absurd hd (hc deviceId revokes))
        (.inr ⟨rfl, hhas.last_of_stops hs⟩)
  | find ψ hreads copy hid hs =>
      obtain ⟨hstops, hsaw⟩ := hhas.reads (e := ⟨i, .getIntent id, p.state.1⟩) hreads rfl
      refine hread rfl ⟨hsaw, ?_⟩ (.inr ⟨rfl, hhas.last_of_stops hstops⟩)
      refine List.forall_mem_singleton.mpr ⟨.refl hx', hid, ?_⟩
      exact hs.imp_right fun hpaused => ⟨hstops, hpaused⟩
  | found ψ hreads copy hs =>
      obtain ⟨hstops, -⟩ := hhas.reads (e := ⟨i, .getIntent id, p.state.1⟩) hreads rfl
      exact hread rfl ⟨hstops, ⟨copy, hx', hs⟩, List.forall_mem_nil _⟩ (.inr ⟨rfl, hhas.last_of_stops hstops⟩)
  | list x hsel =>
      obtain rfl : p.state.1.intentsNewestFirst = x := hx'
      refine hread rfl ⟨?_, fun copy hcopy => ?_⟩ (.inr ⟨rfl, rfl⟩)
      · rintro device payload hid hc
        rw [hc] at hsel
        rcases hsel with hticks | hne
        · cases hticks
        · simp [IntentCall.selects] at hne
      · obtain ⟨hmem, hsel⟩ := List.mem_filter.mp hcopy
        rw [Bool.and_eq_true, beq_iff_eq] at hsel
        have hstored := (mem_intentsNewestFirst h.keyed hsel.1).mp hmem
        exact ⟨.refl hstored, hsel.1, selects_cases hsel.2⟩
  | listNone x hsel =>
      obtain rfl : p.state.1.intentsNewestFirst = x := hx'
      refine hread rfl (fun deviceId revokes hc => ?_) (.inr ⟨rfl, rfl⟩)
      refine List.forall_mem_append.mpr ⟨fun e he htask hlist intent hintent => ?_,
        List.forall_mem_singleton.mpr fun _ _ intent hintent => ?_⟩
      · have hcopy := hhas e he htask
        rw [copyOf, hlist] at hcopy
        cases hcopy.symm.trans hintent
      · have hid := RemoteWorld.intent_id hintent
        have hmem := (mem_intentsNewestFirst h.keyed hid).mpr hintent
        have hnot := List.filter_eq_nil_iff.mp hsel intent hmem
        simpa [hid] using hnot
  | @write ψ copy patch next now hW =>
      subst hφ
      have hid : (patched copy patch now).id = id := (hW.updates hhas).2.1
      have hsaving : patched copy patch now ∈ saving id (p.task i) := by
        rw [ht]
        exact if_pos hid
      have hcurrent : current i id copy.version p.state.2.reverse = true := hC _ hsaving
      obtain ⟨hstored, -, hnext⟩ := h.saved hbound now hW hcurrent
      have hw : (p.state.1.saveIntent (patched copy patch now)).intent id =
          some (patched copy patch now) := (RemoteWorld.intent_saveIntent _ id).trans (if_pos hid)
      refine ⟨hnext, fun other hb => hb.next hstored hw rfl, ?_⟩
      rintro ⟨intent, hintent, hs⟩
      obtain rfl := Option.some.inj (hintent.symm.trans hstored)
      exact ⟨_, hw, hW.keeps_stopped hhas now hs⟩
  | dispatch base last copies token planId hc =>
      have hstored : p.state.1.intent id = some last := hhas.1.running rfl
      have hstatus : last.status = .executing := hhas.1.status
      -- The plan was not executed before: its execution would have left another record.
      have hzero : p.state.2.countP (dispatches id) = 0 := by
        refine List.countP_eq_zero.mpr fun e he hdispatches => ?_
        obtain ⟨intent, hintent, hran⟩ := h.dispatched ⟨e, he, hdispatches⟩
        obtain rfl := Option.some.inj (hintent.symm.trans hstored)
        rcases hran with (hs | hs) | ⟨j, base', copies', hj⟩
        · cases hs.symm.trans hstatus
        · cases hs.symm.trans hstatus
        · by_cases hji : j = i
          · subst hji
            cases hφ.symm.trans hj
          · exact h.apart j i hji intent intent (by rw [hj]; rfl) (by rw [hφ]; rfl) rfl
      refine ⟨h.unsaved hkeyed rfl (by rintro _ ⟨⟩) (by rintro _ ⟨⟩) ?_ (fun l hl => by rw [hφ]; exact hl)
        (.inr ⟨hzero, base, last, copies, rfl, hstored⟩), .of_same rfl⟩
      exact ⟨⟨hc, hhas.1.base, hhas.1.behind, hhas.1.sameId, hstatus, fun _ => hstored⟩, hhas.2⟩

end Steps

/-! ## Every schedule -/

/-- The call has ended without an error, and stops the intent: `disableForDevice` where it has found it
active or paused, and of its device. -/
def StopCompleted (calls : ι → IntentCall id) (p : IntentPool ι) (i : ι) : Prop :=
  p.task i = .done (.ok ()) ∧
    match calls i with
    | .pause _ | .revoke _ | .command _ _ _ => True
    | .disableForDevice _ _ => ∃ e ∈ p.state.2, e.task = i ∧ e.op = .listIntents ∧
        ∃ intent, e.before.intent id = some intent ∧ (calls i).selects intent = true
    | _ => False

/-- The intent is paused or revoked, and its plan was not executed. -/
structure StaysStopped (id : String) (p : IntentPool ι) : Prop where
  stopped : Stopped p.state.1 id
  unexecuted : ∀ e ∈ p.state.2, dispatches id e = false

/-- The versions of an intent are a lock: `w` is the world at an earlier moment. -/
structure VersionsLock (calls : ι → IntentCall id) (w : RemoteWorld) (p : IntentPool ι) : Prop where
  increasing : ∀ e ∈ p.state.2, ∀ intent, e.op = .saveIntent intent → intent.id = id →
    ∀ before, e.before.intent id = some before → before.version < intent.version
  unique : ∀ before after, w.intent id = some before → p.state.1.intent id = some after →
    before.version ≤ after.version ∧ (before.version = after.version → after = before)
  commands : ∀ e ∈ p.state.2, ∀ device payload hid, calls e.task = .command device payload hid →
    ∀ intent, e.op = .saveIntent intent → intent.id = id → ∃ before status now,
      e.before.intent id = some before ∧ payload.subject.version = .fin before.version ∧
        intent = patched before { status := some status } now
  bounded : ∀ intent, p.state.1.intent id = some intent → intent.executionCount ≤ 1
  once : p.state.2.countP (dispatches id) ≤ 1

section Schedules

variable {env : RemoteEnv} {calls : ι → IntentCall id} {φ : ι → IntentPhase} {bound : ℕ}
  {w : RemoteWorld}

/-- The calls follow their phases, and the invariant holds. -/
structure Underway (bound : ℕ) (calls : ι → IntentCall id) (φ : ι → IntentPhase)
    (p : IntentPool ι) : Prop where
  following : Pool.Following (fun i => IntentStep (calls i)) (fun i => IntentEnd (calls i)) p φ
  intents : Intents bound calls φ p.state

/-- A schedule that meets the condition keeps the order of the versions, and a stop. -/
theorem Underway.runs {p : IntentPool ι} {sched : List ι} (h : Underway bound calls φ p)
    (hbound : 1 ≤ bound)
    (hC : Pool.Along (Pool.recorded (remoteHandle env)) (UpdatesCurrent id) sched p) :
    (∃ φ', Underway bound calls φ' (p.runs (Pool.recorded (remoteHandle env)) sched)) ∧
      Keeps id p.state.1 (p.runs (Pool.recorded (remoteHandle env)) sched).state.1 := by
  obtain ⟨φ', hf, hintents, hkeeps⟩ := h.following.along
    (fun φ q => Intents bound calls φ q.state ∧ Keeps id p.state.1 q.state.1)
    (fun φ q i o k φ' ht hC hT _ ⟨hintents, hkeeps⟩ => by
      obtain ⟨hnext, hstep⟩ := intents_step ht hbound hC hT hintents
      exact ⟨hnext, hkeeps.trans hstep⟩)
    hC ⟨h.intents, .refl _⟩
  exact ⟨⟨φ', hf, hintents⟩, hkeeps⟩

theorem startIntents_underway (hkeyed : Table.Keyed (fun i : RemoteIntent => i.id) w.intents)
    (hbounded : ∀ intent, w.intent id = some intent → intent.executionCount ≤ bound) :
    Underway bound calls (fun i => (calls i).start) (startIntents calls w) where
  following := fun i => follows_call (calls i)
  intents :=
    { keyed := hkeyed
      stored := nofun
      has := fun i => by
        cases calls i <;> first | trivial | exact List.forall_mem_nil _
      apart := fun i j _ last last' hl => by
        cases hc : calls i <;> rw [hc] at hl <;> cases hl
      dispatched := by simp [startIntents]
      once := Nat.zero_le _
      bounded := hbounded
      increasing := List.forall_mem_nil _
      acted := List.forall_mem_nil _ }

/-- A call that has stopped the intent, has. -/
theorem Underway.stopped {p : IntentPool ι} (h : Underway bound calls φ p) {i : ι}
    (hi : StopCompleted calls p i) : Stopped p.state.1 id := by
  obtain ⟨hdone, hstops⟩ := hi
  have hend := h.following i
  rw [hdone] at hend
  have hends : (calls i).Ends (φ i) := hend () rfl
  have hhas := h.intents.has i
  have hcase : (∃ copies, φ i = .stopped copies) ∨ φ i = .lost ∨ φ i = .nothing ∧
      ∃ deviceId revokes, calls i = .disableForDevice deviceId revokes := by
    cases hc : calls i with
    | disableForDevice deviceId revokes =>
        rw [hc] at hends
        exact hends.imp_right fun hn => .inr ⟨hn, deviceId, revokes, rfl⟩
    | pause deviceId =>
        rw [hc] at hends
        exact hends.imp_right .inl
    | revoke deviceId =>
        rw [hc] at hends
        exact hends.imp_right .inl
    | command device payload hid =>
        rw [hc] at hends
        exact hends.imp_right .inl
    | tick now =>
        rw [hc] at hstops
        exact hstops.elim
    | other q hq =>
        rw [hc] at hstops
        exact hstops.elim
  rcases hcase with ⟨copies, hφ⟩ | hφ | ⟨hφ, deviceId, revokes, hc⟩ <;> rw [hφ] at hhas
  · exact hhas.2.1
  · exact hhas.elim
  · rw [hc] at hstops
    obtain ⟨e, he, htask, hlist, intent, hintent, hsel⟩ := hstops
    have hnot := hhas deviceId revokes hc e he htask hlist intent hintent
    rw [hc] at hnot
    cases hnot.symm.trans hsel

end Schedules

/-- Along every schedule in which every update is one of the stored record: once a call has stopped the
intent, it is paused or revoked at every later moment, and its plan is never executed. -/
theorem stopped_for_ever (env : RemoteEnv) (w : RemoteWorld) (calls : ι → IntentCall id)
    (hkeyed : Table.Keyed (fun i : RemoteIntent => i.id) w.intents) (sched sched' : List ι)
    (hC : Pool.Along (Pool.recorded (remoteHandle env)) (UpdatesCurrent id) (sched ++ sched')
      (startIntents calls w)) (i : ι)
    (hi : StopCompleted calls
      ((startIntents calls w).runs (Pool.recorded (remoteHandle env)) sched) i) :
    StaysStopped id
      ((startIntents calls w).runs (Pool.recorded (remoteHandle env)) (sched ++ sched')) := by
  -- No bound on the count of executions is needed here: that of the stored record will do.
  have hbounded : ∀ intent, w.intent id = some intent →
      intent.executionCount ≤ max 1 (((w.intent id).map fun i => i.executionCount).getD 0) := by
    intro intent hintent
    rw [hintent]
    exact le_max_right _ _
  obtain ⟨⟨φ, hmiddle⟩, -⟩ := (startIntents_underway hkeyed hbounded).runs (le_max_left _ _)
    hC.append_left
  obtain ⟨⟨φ', hlast⟩, hkeeps⟩ := hmiddle.runs (le_max_left _ _) hC.append_right
  rw [Pool.runs_append]
  have hstopped := hkeeps.stopped (hmiddle.stopped hi)
  refine ⟨hstopped, fun e he => Bool.eq_false_iff.mpr fun hdispatches => ?_⟩
  obtain ⟨intent, hintent, hs⟩ := hstopped
  obtain ⟨intent', hintent', hran⟩ := hlast.intents.dispatched ⟨e, he, hdispatches⟩
  obtain rfl := Option.some.inj (hintent.symm.trans hintent')
  have hran' : intent.status = .executing ∨ intent.status = .succeeded ∨ intent.status = .failed := by
    rcases hran with hran | ⟨j, base, copies, hφ⟩
    · exact .inr hran
    · have hwork := hlast.intents.has j
      rw [hφ] at hwork
      exact .inl hwork.1.status
  rcases hs with hs | hs <;> rcases hran' with h | h | h <;> cases hs.symm.trans h

/-- Along every schedule in which every update is one of the stored record, the versions of an intent are a
lock, and its plan is executed at most once. -/
theorem versions_lock (env : RemoteEnv) (w : RemoteWorld) (calls : ι → IntentCall id)
    (hkeyed : Table.Keyed (fun i : RemoteIntent => i.id) w.intents)
    (hbounded : ∀ intent, w.intent id = some intent → intent.executionCount ≤ 1)
    (sched sched' : List ι)
    (hC : Pool.Along (Pool.recorded (remoteHandle env)) (UpdatesCurrent id) (sched ++ sched')
      (startIntents calls w)) :
    VersionsLock calls
      ((startIntents calls w).runs (Pool.recorded (remoteHandle env)) sched).state.1
      ((startIntents calls w).runs (Pool.recorded (remoteHandle env)) (sched ++ sched')) := by
  obtain ⟨⟨φ, hmiddle⟩, -⟩ := (startIntents_underway hkeyed hbounded).runs le_rfl hC.append_left
  obtain ⟨⟨φ', hlast⟩, hkeeps⟩ := hmiddle.runs le_rfl hC.append_right
  rw [Pool.runs_append]
  refine ⟨hlast.intents.increasing, fun before after hbefore hafter => ?_, hlast.intents.acted,
    hlast.intents.bounded, hlast.intents.once⟩
  have hbehind := hkeeps.behind before (.refl hbefore)
  exact ⟨hbehind.le hafter, fun heq => (hbehind.eq hafter heq).symm⟩

/-! ## A schedule that meets the condition, and one that does not -/

/-- An intent that waits for a server type to be available. -/
def sampleIntent : RemoteIntent where
  id := "intent_0123456789abcdef"
  objective := "Provision a server."
  trigger := ⟨"catalog.availability", "demo", "small", none⟩
  action := ⟨"server.provision", .obj [], .development, none⟩
  constraints := ⟨.at 1000000, 1, 0, "stop"⟩
  deviceId := sampleDevice.id
  version := 1
  status := .active
  agentSessionId := 0
  planId := 1
  planHash := ""
  approvalId := 2
  executionCount := 0
  createdAt := 0
  updatedAt := 0
  lastCheckedAt := none
  matchedAt := none
  operationId := none
  lastError := none

/-- That intent is stored, and active. -/
def watchedWorld : RemoteWorld := { RemoteWorld.empty with intents := [sampleIntent] }

/-- A request to pause the intent, and the watcher. -/
def pauseOrTick (pauses : Bool) : IntentCall sampleIntent.id :=
  if pauses then .pause sampleDevice.id else .tick 0

theorem watchedWorld_keyed : Table.Keyed (fun i : RemoteIntent => i.id) watchedWorld.intents := by
  simp [Table.Keyed, watchedWorld]

theorem watchedWorld_bounded (intent : RemoteIntent)
    (h : watchedWorld.intent sampleIntent.id = some intent) : intent.executionCount ≤ 1 := by
  cases (show some sampleIntent = some intent from h)
  exact Nat.zero_le _

/-- The theorem at a pause after a round of the watcher. -/
theorem stopped_for_ever_pause : StaysStopped sampleIntent.id
    ((startIntents pauseOrTick watchedWorld).runs (Pool.recorded (remoteHandle .sample))
      ((List.replicate 8 false ++ List.replicate 12 true) ++ [false, false])) :=
  stopped_for_ever .sample watchedWorld pauseOrTick watchedWorld_keyed _ _ (by decide +kernel) true
    ⟨rfl, trivial⟩

/-- The theorem at the same schedule. -/
theorem versions_lock_pause : VersionsLock pauseOrTick
    ((startIntents pauseOrTick watchedWorld).runs (Pool.recorded (remoteHandle .sample))
      (List.replicate 8 false)).state.1
    ((startIntents pauseOrTick watchedWorld).runs (Pool.recorded (remoteHandle .sample))
      (List.replicate 8 false ++ List.replicate 12 true)) :=
  versions_lock .sample watchedWorld pauseOrTick watchedWorld_keyed watchedWorld_bounded _ _
    (by decide +kernel)

/-- The version and the status that are stored. -/
def versionAndStatus (w : RemoteWorld) (id : String) : Option (ℕ × IntentStatus) :=
  (w.intent id).map fun intent => (intent.version, intent.status)

/-- The intent is paused while the watcher asks for the availability, and the watcher writes it back as it
was. -/
theorem paused_then_active :
    versionAndStatus ((startIntents pauseOrTick watchedWorld).runs
        (Pool.recorded (remoteHandle .sample))
        ([false, false, false] ++ List.replicate 12 true)).state.1 sampleIntent.id =
      some (2, .paused) ∧
    versionAndStatus ((startIntents pauseOrTick watchedWorld).runs
        (Pool.recorded (remoteHandle .sample))
        (([false, false, false] ++ List.replicate 12 true) ++ [false, false])).state.1
        sampleIntent.id = some (2, .active) := by
  decide

/-- A pause that has completed does not last. -/
theorem tick_resumes : ¬ ∀ (env : RemoteEnv) (w : RemoteWorld) (id : String)
    (calls : Bool → IntentCall id), Table.Keyed (fun i : RemoteIntent => i.id) w.intents →
    ∀ (sched sched' : List Bool) (i : Bool),
    StopCompleted calls ((startIntents calls w).runs (Pool.recorded (remoteHandle env)) sched) i →
    StaysStopped id
      ((startIntents calls w).runs (Pool.recorded (remoteHandle env)) (sched ++ sched')) := by
  intro h
  obtain ⟨⟨intent, hintent, hs⟩, -⟩ := h .sample watchedWorld sampleIntent.id pauseOrTick
    watchedWorld_keyed ([false, false, false] ++ List.replicate 12 true) [false, false] true
    ⟨rfl, trivial⟩
  have hactive := paused_then_active.2
  rw [versionAndStatus, hintent, Option.map_some, Option.some.injEq, Prod.mk.injEq] at hactive
  rcases hs with hs | hs <;> cases hs.symm.trans hactive.2

/-- The same version is stored as paused, and as active. -/
theorem version_twice : ¬ ∀ (env : RemoteEnv) (w : RemoteWorld) (id : String)
    (calls : Bool → IntentCall id), Table.Keyed (fun i : RemoteIntent => i.id) w.intents →
    (∀ intent, w.intent id = some intent → intent.executionCount ≤ 1) →
    ∀ sched sched' : List Bool, VersionsLock calls
      ((startIntents calls w).runs (Pool.recorded (remoteHandle env)) sched).state.1
      ((startIntents calls w).runs (Pool.recorded (remoteHandle env)) (sched ++ sched')) := by
  intro h
  have hlock := h .sample watchedWorld sampleIntent.id pauseOrTick watchedWorld_keyed
    watchedWorld_bounded ([false, false, false] ++ List.replicate 12 true) [false, false]
  obtain ⟨hpaused, hactive⟩ := paused_then_active
  obtain ⟨before, hbefore, hb⟩ := Option.map_eq_some_iff.mp hpaused
  obtain ⟨after, hafter, ha⟩ := Option.map_eq_some_iff.mp hactive
  obtain ⟨hbv, hbs⟩ := Prod.mk.inj hb
  obtain ⟨hav, has⟩ := Prod.mk.inj ha
  have hsame := (hlock.unique before after hbefore hafter).2 (hbv.trans hav.symm)
  rw [hsame] at has
  cases hbs.symm.trans has

end Vops.IntentService
