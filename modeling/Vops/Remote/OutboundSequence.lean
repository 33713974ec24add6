import Mathlib.Data.Fintype.Card
import Mathlib.Order.Interval.Finset.Nat
import Vops.Lib.Interleave
import Vops.Lib.Table

/-!
# Outbound sequence numbers (`remote/remote-store.ts`)

* `CounterRow` — a row of `remote_device_counters`.
* `nextOutboundSequence` — the upsert that counts the message, then the `SELECT` that reads the
  number.
* `Phase` — where a call stands; `step_ready`, `step_counted`, `step_ended` say what its next step
  does.
* `Numbered` — what holds of the phases and the counter after any steps.
* `Alone` — the call does not count its message while another call has counted one and not read its
  number.
* `outbound_numbers_iff` — the numbers of the calls are exactly the next ones, in some order, if and
  only if every upsert is alone.
-/

set_option linter.unusedSectionVars false

namespace Vops.RemoteStore

open Function

/-! ## The counters -/

/-- A row of `remote_device_counters`. -/
structure CounterRow where
  device_id : String
  outbound_sequence : ℕ
  inbound_sequence : ℕ
deriving DecidableEq

/-- The two statements of `nextOutboundSequence`. -/
inductive CounterOp
  | increment (deviceId : String)
  | select (deviceId : String)
deriving DecidableEq

/-- The answer of a statement; of the `SELECT` it is `rows[0]`. -/
abbrev CounterRes : CounterOp → Type
  | .increment _ => Unit
  | .select _ => Option CounterRow

/-- A call that executes statements on the counters. -/
abbrev CounterProg (α : Type) := Async CounterOp CounterRes Empty α

/-- The row that the upsert leaves. -/
def incremented (deviceId : String) (rows : List CounterRow) : CounterRow :=
  match Table.get CounterRow.device_id deviceId rows with
  | some row => { row with outbound_sequence := row.outbound_sequence + 1 }
  | none => ⟨deviceId, 1, 0⟩

/-- What a statement answers, and the rows it leaves. -/
def handleCounter : Async.Handler CounterOp CounterRes (List CounterRow)
  | .increment deviceId, rows =>
      ((), Table.upsert CounterRow.device_id (incremented deviceId rows) rows)
  | .select deviceId, rows => (Table.get CounterRow.device_id deviceId rows, rows)

/-- `Number(result.rows[0]?.outbound_sequence ?? 1)` -/
def numberOf (row : Option CounterRow) : ℕ := (row.map CounterRow.outbound_sequence).getD 1

/-- `nextOutboundSequence` -/
def nextOutboundSequence (deviceId : String) : CounterProg ℕ := do
  Async.perform (CounterOp.increment deviceId)
  let row ← Async.perform (CounterOp.select deviceId)
  return numberOf row

/-- The number that a device's messages have reached. -/
def outbound (deviceId : String) (rows : List CounterRow) : ℕ :=
  ((Table.get CounterRow.device_id deviceId rows).map CounterRow.outbound_sequence).getD 0

variable {d : String} {rows : List CounterRow}

theorem device_id_incremented : (incremented d rows).device_id = d := by
  unfold incremented
  split
  · rename_i row h
    have hid : row.device_id = d := Table.key_of_get h
    exact hid
  · rfl

/-- The upsert counts one message. -/
theorem outbound_increment :
    outbound d (handleCounter (.increment d) rows).2 = outbound d rows + 1 := by
  have hget : Table.get CounterRow.device_id d (handleCounter (.increment d) rows).2 =
      some (incremented d rows) := by
    simp [handleCounter, Table.get_upsert, device_id_incremented]
  rw [outbound, hget, outbound, incremented]
  cases Table.get CounterRow.device_id d rows <;> rfl

/-- Once a message is counted, the number that is read is the counter. -/
theorem numberOf_get (h : 0 < outbound d rows) :
    numberOf (Table.get CounterRow.device_id d rows) = outbound d rows := by
  unfold outbound at h ⊢
  cases hrow : Table.get CounterRow.device_id d rows with
  | none => simp [hrow] at h
  | some row => rfl

/-! ## Calls -/

/-- Calls of `nextOutboundSequence`, with the counters. -/
abbrev Calls (ι : Type) := Pool CounterOp CounterRes Empty ℕ ι (List CounterRow)

/-- Where a call stands. -/
inductive Phase
  | ready | counted | ended (number : ℕ)
deriving DecidableEq

/-- What is left of a call. -/
def Phase.task (d : String) : Phase → CounterProg ℕ
  | ready => nextOutboundSequence d
  | counted => .await (.select d) fun row => .done (.ok (numberOf row))
  | ended n => .done (.ok n)

/-- Calls in their phases. -/
def callsIn {ι : Type} (d : String) (φ : ι → Phase) (rows : List CounterRow) : Calls ι :=
  ⟨rows, fun i => (φ i).task d⟩

/-- Calls for one device that have not begun. -/
def calls {ι : Type} (d : String) (rows : List CounterRow) : Calls ι :=
  callsIn d (fun _ => .ready) rows

/-- The call does not count its message while another call has counted one and not read its number.
-/
def Alone {ι : Type} (d : String) (p : Calls ι) (i : ι) : Prop :=
  (p.task i).next = some (.increment d) → ∀ j, (p.task j).next ≠ some (.select d)

instance {ι : Type} [Fintype ι] (d : String) (p : Calls ι) (i : ι) : Decidable (Alone d p i) :=
  inferInstanceAs (Decidable ((p.task i).next = some (.increment d) →
    ∀ j, (p.task j).next ≠ some (.select d)))

/-- What is executed when a call is scheduled. -/
abbrev scheduled {ι : Type} : ι → Async.Handler CounterOp CounterRes (List CounterRow) :=
  fun _ => handleCounter

variable {ι : Type} [DecidableEq ι] {φ : ι → Phase} {i : ι} {sched : List ι} {r : ι → ℕ} {c : ℕ}

theorem callsIn_update (φ' : Phase) (rows' : List CounterRow) :
    (⟨rows', update (callsIn d φ rows).task i (φ'.task d)⟩ : Calls ι) =
      callsIn d (update φ i φ') rows' := by
  have htask (j : ι) : update (callsIn d φ rows).task i (φ'.task d) j =
      (update φ i φ' j).task d := by
    by_cases hj : j = i
    · subst hj
      simp
    · simp [hj, callsIn]
  exact congrArg (Pool.mk rows') (funext htask)

theorem step_ready (h : φ i = .ready) : (callsIn d φ rows).step scheduled i =
    callsIn d (update φ i .counted) (handleCounter (.increment d) rows).2 := by
  have htask : (callsIn d φ rows).task i = .await (.increment d) fun _ => Phase.counted.task d := by
    simp only [callsIn, h]
    rfl
  rw [Pool.step_of_await htask]
  exact callsIn_update _ _

theorem step_counted (h : φ i = .counted) (hn : 0 < outbound d rows) :
    (callsIn d φ rows).step scheduled i =
      callsIn d (update φ i (.ended (outbound d rows))) rows := by
  have htask : (callsIn d φ rows).task i =
      .await (.select d) fun row => (Phase.ended (numberOf row)).task d := by
    simp only [callsIn, h]
    rfl
  rw [Pool.step_of_await htask, ← numberOf_get hn]
  exact callsIn_update _ _

theorem step_ended {n : ℕ} (h : φ i = .ended n) :
    (callsIn d φ rows).step scheduled i = callsIn d φ rows :=
  Pool.step_of_done (r := .ok n) (by simp [callsIn, h, Phase.task])

@[simp] theorem next_ready : ((Phase.ready).task d).next = some (.increment d) := rfl

@[simp] theorem next_counted : ((Phase.counted).task d).next = some (.select d) := rfl

@[simp] theorem next_ended (n : ℕ) : ((Phase.ended n).task d).next = none := rfl

/-- In phases: a call that is ready is alone when no call is between its two statements. -/
theorem alone_callsIn : Alone d (callsIn d φ rows) i ↔ (φ i = .ready → ∀ j, φ j ≠ .counted) := by
  have hready (j : ι) : ((φ j).task d).next = some (.increment d) ↔ φ j = .ready := by
    cases φ j <;> simp
  have hcounted (j : ι) : ((φ j).task d).next = some (.select d) ↔ φ j = .counted := by
    cases φ j <;> simp
  simp only [Alone, callsIn, ne_eq, hready, hcounted]

/-! ## What holds after any steps -/

variable [Fintype ι]

/-- The calls that have counted their message. -/
def started (φ : ι → Phase) : Finset ι := Finset.univ.filter fun i => φ i ≠ .ready

/-- The counter stood at `c`, and went up once for each call that has begun. -/
structure Numbered (c : ℕ) (φ : ι → Phase) (n : ℕ) : Prop where
  total : n = c + (started φ).card
  range : ∀ i v, φ i = .ended v → c < v ∧ v ≤ n

theorem Numbered.pos (h : Numbered c φ (outbound d rows)) (hi : φ i = .counted) :
    0 < outbound d rows := by
  have hmem : i ∈ started φ := by simp [started, hi]
  have hcard := Finset.card_pos.mpr ⟨i, hmem⟩
  have htotal := h.total
  omega

theorem started_update_ready {φ' : Phase} (hi : φ i = .ready) (hφ : φ' ≠ .ready) :
    (started (update φ i φ')).card = (started φ).card + 1 := by
  have hins : started (update φ i φ') = insert i (started φ) := by
    ext j
    by_cases hj : j = i
    · subst hj
      simp [started, hφ]
    · simp [started, hj]
  rw [hins, Finset.card_insert_of_notMem (by simp [started, hi])]

theorem started_update {φ' : Phase} (hi : φ i ≠ .ready) (hφ : φ' ≠ .ready) :
    started (update φ i φ') = started φ := by
  ext j
  by_cases hj : j = i
  · subst hj
    simp [started, hi, hφ]
  · simp [started, hj]

/-- A call that counts its message. -/
theorem Numbered.increment {n : ℕ} (h : Numbered c φ n) (hi : φ i = .ready) :
    Numbered c (update φ i .counted) (n + 1) := by
  refine ⟨?_, fun j v hj => ?_⟩
  · rw [started_update_ready hi (by simp), h.total, Nat.add_assoc]
  · by_cases hji : j = i
    · subst hji
      simp at hj
    · rw [update_of_ne hji] at hj
      obtain ⟨hc, hv⟩ := h.range j v hj
      exact ⟨hc, by omega⟩

/-- A call that reads its number. -/
theorem Numbered.read {n : ℕ} (h : Numbered c φ n) (hi : φ i = .counted) :
    Numbered c (update φ i (.ended n)) n := by
  have hmem : i ∈ started φ := by simp [started, hi]
  have hcard := Finset.card_pos.mpr ⟨i, hmem⟩
  refine ⟨?_, fun j v hj => ?_⟩
  · rw [started_update (by simp [hi]) (by simp)]
    exact h.total
  · by_cases hji : j = i
    · subst hji
      obtain rfl : n = v := by simpa using hj
      have htotal := h.total
      exact ⟨by omega, le_rfl⟩
    · rw [update_of_ne hji] at hj
      exact h.range j v hj

/-- What one step does: it counts a message, it reads a number, or its call has ended. -/
theorem step_cases (h : Numbered c φ (outbound d rows)) (i : ι) :
    (φ i = .ready ∧ ∃ rows', (callsIn d φ rows).step scheduled i =
        callsIn d (update φ i .counted) rows' ∧ outbound d rows' = outbound d rows + 1) ∨
      (φ i = .counted ∧ (callsIn d φ rows).step scheduled i =
        callsIn d (update φ i (.ended (outbound d rows))) rows) ∨
      ((∃ n, φ i = .ended n) ∧ (callsIn d φ rows).step scheduled i = callsIn d φ rows) := by
  cases hi : φ i with
  | ready => exact .inl ⟨rfl, _, step_ready hi, outbound_increment⟩
  | counted => exact .inr (.inl ⟨rfl, step_counted hi (h.pos hi)⟩)
  | ended n => exact .inr (.inr ⟨⟨n, rfl⟩, step_ended hi⟩)

/-- What steps leave of the phases: a call that has ended keeps its number, and one that ends later
reads a number that is not below the counter. -/
structure Later (φ : ι → Phase) (n : ℕ) (φ' : ι → Phase) (n' : ℕ) : Prop where
  mono : n ≤ n'
  kept : ∀ k v, φ k = .ended v → φ' k = .ended v
  late : ∀ k v, φ' k = .ended v → φ k = .ended v ∨ n ≤ v

theorem Later.refl (n : ℕ) : Later φ n φ n := ⟨le_rfl, fun _ _ h => h, fun _ _ h => .inl h⟩

theorem Later.trans {φ' φ'' : ι → Phase} {n n' n'' : ℕ} (h : Later φ n φ' n')
    (h' : Later φ' n' φ'' n'') : Later φ n φ'' n'' where
  mono := h.mono.trans h'.mono
  kept k v hk := h'.kept k v (h.kept k v hk)
  late k v hk := by
    rcases h'.late k v hk with hk | hv
    · exact h.late k v hk
    · exact .inr (h.mono.trans hv)

theorem Later.update {φ' : Phase} {n n' : ℕ} (hn : n ≤ n') (hi : ∀ v, φ i ≠ .ended v)
    (hφ : ∀ v, φ' = .ended v → n ≤ v) : Later φ n (update φ i φ') n' where
  mono := hn
  kept k v hk := by
    have hki : k ≠ i := fun h => hi v (h ▸ hk)
    rw [update_of_ne hki, hk]
  late k v hk := by
    by_cases hki : k = i
    · subst hki
      exact .inr (hφ v (by simpa using hk))
    · exact .inl (by rwa [update_of_ne hki] at hk)

/-- After any steps the calls are numbered, and later than before. -/
theorem runs_later (h : Numbered c φ (outbound d rows)) (sched : List ι) : ∃ φ' rows',
    (callsIn d φ rows).runs scheduled sched = callsIn d φ' rows' ∧
      Numbered c φ' (outbound d rows') ∧ Later φ (outbound d rows) φ' (outbound d rows') := by
  refine Pool.induction_along (C := fun _ _ => True)
    (fun p => ∃ φ' rows', p = callsIn d φ' rows' ∧ Numbered c φ' (outbound d rows') ∧
      Later φ (outbound d rows) φ' (outbound d rows')) ?_ (.of_forall fun _ _ => trivial)
    ⟨φ, rows, rfl, h, .refl _⟩
  rintro _ i - ⟨φ', rows', rfl, h', hlater⟩
  rcases step_cases h' i with ⟨hi, rows'', hstep, hn⟩ | ⟨hi, hstep⟩ | ⟨-, hstep⟩
  · refine ⟨_, rows'', hstep, hn ▸ h'.increment hi, hlater.trans (.update ?_ ?_ ?_)⟩
    · exact hn ▸ Nat.le_succ _
    · simp [hi]
    · simp
  · refine ⟨_, rows', hstep, h'.read hi, hlater.trans (.update le_rfl ?_ ?_)⟩
    · simp [hi]
    · simp
  · exact ⟨φ', rows', hstep, h', hlater⟩

/-! ## The numbers of the calls -/

/-- No call has counted a message, or one has and every number that was read is below its own. -/
structure Sole (φ : ι → Phase) (n : ℕ) : Prop where
  counted : ∀ i j, φ i = .counted → φ j = .counted → i = j
  below : ∀ i j v, φ i = .counted → φ j = .ended v → v < n
  distinct : ∀ i j v, φ i = .ended v → φ j = .ended v → i = j

theorem Sole.increment {n : ℕ} (h : Sole φ n) (hn : Numbered c φ n) (hi : φ i = .ready)
    (halone : ∀ j, φ j ≠ .counted) : Sole (update φ i .counted) (n + 1) where
  counted j k hj hk := by
    have hself (j : ι) (hj : update φ i .counted j = .counted) : j = i := by
      by_contra hji
      rw [update_of_ne hji] at hj
      exact halone j hj
    rw [hself j hj, hself k hk]
  below j k v _ hk := by
    by_cases hki : k = i
    · subst hki
      simp at hk
    · rw [update_of_ne hki] at hk
      exact Nat.lt_succ_of_le (hn.range k v hk).2
  distinct j k v hj hk := by
    have hne (j : ι) (hj : update φ i .counted j = .ended v) : φ j = .ended v := by
      by_cases hji : j = i
      · subst hji
        simp at hj
      · rwa [update_of_ne hji] at hj
    exact h.distinct j k v (hne j hj) (hne k hk)

theorem Sole.read {n : ℕ} (h : Sole φ n) (hi : φ i = .counted) :
    Sole (update φ i (.ended n)) n where
  counted j k hj hk := by
    by_cases hji : j = i
    · subst hji
      simp at hj
    · by_cases hki : k = i
      · subst hki
        simp at hk
      · rw [update_of_ne hji] at hj
        rw [update_of_ne hki] at hk
        exact h.counted j k hj hk
  below j k v hj hk := by
    by_cases hji : j = i
    · subst hji
      simp at hj
    · rw [update_of_ne hji] at hj
      exact absurd (h.counted j i hj hi) hji
  distinct j k v hj hk := by
    by_cases hji : j = i
    · by_cases hki : k = i
      · rw [hji, hki]
      · subst hji
        obtain rfl : n = v := by simpa using hj
        rw [update_of_ne hki] at hk
        exact absurd (h.below j k n hi hk) (lt_irrefl n)
    · rw [update_of_ne hji] at hj
      by_cases hki : k = i
      · subst hki
        obtain rfl : n = v := by simpa using hk
        exact absurd (h.below k j n hi hj) (lt_irrefl n)
      · rw [update_of_ne hki] at hk
        exact h.distinct j k v hj hk

/-- Where every upsert is alone, no two calls read one number. -/
theorem sole_runs (h : Numbered c φ (outbound d rows)) (hs : Sole φ (outbound d rows))
    (halone : Pool.Along scheduled (Alone d) sched (callsIn d φ rows)) : ∃ φ' rows',
    (callsIn d φ rows).runs scheduled sched = callsIn d φ' rows' ∧
      Numbered c φ' (outbound d rows') ∧ Sole φ' (outbound d rows') := by
  refine Pool.induction_along (C := Alone d)
    (fun p => ∃ φ' rows', p = callsIn d φ' rows' ∧ Numbered c φ' (outbound d rows') ∧
      Sole φ' (outbound d rows')) ?_ halone ⟨φ, rows, rfl, h, hs⟩
  rintro _ i hi ⟨φ', rows', rfl, h', hs'⟩
  rw [alone_callsIn] at hi
  rcases step_cases h' i with ⟨hready, rows'', hstep, hn⟩ | ⟨hcounted, hstep⟩ | ⟨-, hstep⟩
  · exact ⟨_, rows'', hstep, hn ▸ h'.increment hready, hn ▸ hs'.increment h' hready (hi hready)⟩
  · exact ⟨_, rows', hstep, h'.read hcounted, hs'.read hcounted⟩
  · exact ⟨φ', rows', hstep, h', hs'⟩

/-- The calls have ended with these numbers. -/
def Ended (p : Calls ι) (r : ι → ℕ) : Prop := ∀ i, p.task i = .done (.ok (r i))

theorem ended_callsIn : Ended (callsIn d φ rows) r ↔ ∀ i, φ i = .ended (r i) := by
  have htask (i : ι) : (φ i).task d = .done (.ok (r i)) ↔ φ i = .ended (r i) := by
    cases φ i <;> simp [Phase.task, nextOutboundSequence]
  exact forall_congr' htask

/-- When every call has ended, the counter went up once for each. -/
theorem Numbered.all_ended {n : ℕ} (h : Numbered c φ n) (hr : ∀ i, φ i = .ended (r i)) :
    n = c + Fintype.card ι := by
  have hall : started φ = Finset.univ := by
    ext i
    simp [started, hr i]
  rw [h.total, hall, Finset.card_univ]

/-- Distinct numbers are exactly the next ones. -/
theorem Numbered.image_eq {n : ℕ} (h : Numbered c φ n) (hr : ∀ i, φ i = .ended (r i))
    (hinj : Injective r) : Finset.univ.image r = Finset.Icc (c + 1) (c + Fintype.card ι) := by
  apply Finset.eq_of_subset_of_card_le
  · intro v hv
    obtain ⟨i, -, rfl⟩ := Finset.mem_image.mp hv
    obtain ⟨hc, hn⟩ := h.range i (r i) (hr i)
    rw [h.all_ended hr] at hn
    exact Finset.mem_Icc.mpr ⟨hc, hn⟩
  · rw [Finset.card_image_of_injective _ hinj, Nat.card_Icc, Finset.card_univ]
    omega

/-- A call that counts its message while another has not read its number: one number is read by
nobody. -/
theorem Later.not_image_eq {φ' : ι → Phase} {n' : ℕ} {j : ι} (h : Numbered c φ (n : ℕ))
    (hj : φ j = .counted) (hlater : Later φ (n + 1) φ' n') (hr : ∀ i, φ' i = .ended (r i)) :
    Finset.univ.image r ≠ Finset.Icc (c + 1) (c + Fintype.card ι) := by
  intro himage
  -- the numbers up to the counter were read by calls that have ended, and `j` has not
  have hsub : Finset.Icc (c + 1) n ⊆ ((started φ).erase j).image r := by
    intro v hv
    obtain ⟨hc, hvn⟩ := Finset.mem_Icc.mp hv
    have hcard := Finset.card_le_univ (started φ)
    have htotal := h.total
    have hmem : v ∈ Finset.univ.image r := by
      rw [himage]
      exact Finset.mem_Icc.mpr ⟨hc, by omega⟩
    obtain ⟨k, -, rfl⟩ := Finset.mem_image.mp hmem
    rcases hlater.late k (r k) (hr k) with hk | hk
    · have hkj : k ≠ j := by
        rintro rfl
        simp [hj] at hk
      exact Finset.mem_image_of_mem r (by simp [started, hkj, hk])
    · omega
  have hmem : j ∈ started φ := by simp [started, hj]
  have hle := (Finset.card_le_card hsub).trans Finset.card_image_le
  rw [Nat.card_Icc, Finset.card_erase_of_mem hmem] at hle
  have hpos := Finset.card_pos.mpr ⟨j, hmem⟩
  have htotal := h.total
  omega

/-- Where the numbers are exactly the next ones, every upsert was alone. -/
theorem alone_of_image_eq (h : Numbered c φ (outbound d rows))
    (hr : Ended ((callsIn d φ rows).runs scheduled sched) r)
    (himage : Finset.univ.image r = Finset.Icc (c + 1) (c + Fintype.card ι)) :
    Pool.Along scheduled (Alone d) sched (callsIn d φ rows) := by
  induction sched generalizing φ rows with
  | nil => trivial
  | cons i sched ih =>
      rw [Pool.runs_cons] at hr
      rcases step_cases h i with ⟨hi, rows', hstep, hn⟩ | ⟨hi, hstep⟩ | ⟨⟨n, hi⟩, hstep⟩
      · have h' : Numbered c (update φ i .counted) (outbound d rows') := hn ▸ h.increment hi
        refine ⟨alone_callsIn.mpr fun _ j hj => ?_, ?_⟩
        · obtain ⟨φ', rows'', hruns, -, hlater⟩ := runs_later h' sched
          rw [hstep, hruns, ended_callsIn] at hr
          have hlater' : Later φ (outbound d rows + 1) φ' (outbound d rows'') :=
            ⟨hn ▸ hlater.mono, fun k v hk => hlater.kept k v ?_, fun k v hk => ?_⟩
          · exact hlater'.not_image_eq h hj hr himage
          · rw [update_of_ne (fun hki => by simp [hki, hi] at hk), hk]
          · rcases hlater.late k v hk with hk | hv
            · by_cases hki : k = i
              · simp [hki] at hk
              · exact .inl (by rwa [update_of_ne hki] at hk)
            · exact .inr (hn ▸ hv)
        · rw [hstep] at hr ⊢
          exact ih h' hr
      · refine ⟨alone_callsIn.mpr fun hready => by simp [hi] at hready, ?_⟩
        rw [hstep] at hr ⊢
        exact ih (h.read hi) hr
      · refine ⟨alone_callsIn.mpr fun hready => by simp [hi] at hready, ?_⟩
        rw [hstep] at hr ⊢
        exact ih h hr

theorem numbered_ready (n : ℕ) : Numbered n (fun _ : ι => Phase.ready) n :=
  ⟨by simp [started], by simp⟩

theorem sole_ready (n : ℕ) : Sole (fun _ : ι => Phase.ready) n :=
  ⟨by simp, by simp, by simp⟩

/-- The numbers of any calls for one device are pairwise distinct, and exactly the next ones in some
order, if and only if no call counts its message between the two statements of another. -/
theorem outbound_numbers_iff {ι : Type} [DecidableEq ι] [Fintype ι] (d : String)
    (rows : List CounterRow) (sched : List ι) (r : ι → ℕ)
    (hr : Ended ((calls d rows).runs scheduled sched) r) :
    (Injective r ∧ Finset.univ.image r =
        Finset.Icc (outbound d rows + 1) (outbound d rows + Fintype.card ι)) ↔
      Pool.Along scheduled (Alone d) sched (calls d rows) := by
  constructor
  · rintro ⟨-, himage⟩
    exact alone_of_image_eq (numbered_ready _) hr himage
  · intro halone
    obtain ⟨φ', rows', hruns, h', hs'⟩ := sole_runs (numbered_ready _) (sole_ready _) halone
    have hended : ∀ i, φ' i = .ended (r i) := by
      have hr' : Ended (callsIn d φ' rows') r := hruns ▸ hr
      exact ended_callsIn.mp hr'
    have hinj : Injective r := fun i j hij => hs'.distinct i j (r i) (hended i) (hij ▸ hended j)
    exact ⟨hinj, h'.image_eq hended hinj⟩

/-- Two calls, one after the other. -/
theorem outbound_numbers_in_turn :
    Injective (fun second : Bool => if second then 2 else 1) ∧
      Finset.univ.image (fun second : Bool => if second then 2 else 1) = Finset.Icc 1 2 := by
  have hended : Ended ((calls "device" []).runs scheduled [false, false, true, true])
      (fun second => if second then 2 else 1) := by
    intro second
    cases second <;> rfl
  exact (outbound_numbers_iff "device" [] _ _ hended).mpr (by decide)

/-- Both upserts come before both `SELECT`s: two messages are given the number 2. -/
theorem outbound_number_twice : ∃ sched : List Bool, ∃ r,
    Ended ((calls "device" []).runs scheduled sched) r ∧ ¬ Injective r := by
  refine ⟨[false, true, false, true], fun _ => 2, fun second => ?_, fun hinj => ?_⟩
  · cases second <;> rfl
  · exact absurd (@hinj false true rfl) (by decide)

end Vops.RemoteStore
