import Vops.Keyring.Unlock
import Mathlib.Algebra.BigOperators.Group.Finset.Basic

/-!
# The throttle over whole runs (`lib/keyring/unlock-throttle.ts`)

* `Call`, `Event` — what the callers do with the throttle, and when; `Attempts` — the throttle, with
  the attempts that are in flight.
* `Fair` — the clock does not go back, and only an attempt in flight ends, once.
* `Sound` — what holds in every state: a busy throttle has one attempt in flight, which began when
  it was allowed to.
* `waited` — the penalties of some failures in a row, one after the other; `Paced` — so much time
  has passed.
* `guessing_bounded` — one attempt at a time, no attempt before its penalty is over, and a bound on
  the failures of any interval.
-/

namespace Vops.Keyring.UnlockThrottle

/-! ## Runs -/

/-- A call of the throttle. -/
inductive Call
  | begin
  | record (ok : Bool)
  | release
deriving DecidableEq

/-- The call ends an attempt. -/
def Call.ends : Call → Bool
  | .begin => false
  | _ => true

variable {α : Type}

/-- A call, by an attempt, at a time of the clock. -/
structure Event (α : Type) where
  attempt : α
  time : ℕ
  call : Call

/-- The throttle, and the attempts in flight. -/
structure Attempts (α : Type) where
  throttle : UnlockThrottle := {}
  inFlight : List α := []

section Runs

variable [DecidableEq α]

/-- One call. -/
def Attempts.step (s : Attempts α) (e : Event α) : Attempts α :=
  match e.call with
  | .begin =>
      if (s.throttle.begin e.time).1 then
        ⟨(s.throttle.begin e.time).2, e.attempt :: s.inFlight⟩
      else ⟨(s.throttle.begin e.time).2, s.inFlight⟩
  | .record ok => ⟨s.throttle.record ok e.time, s.inFlight.erase e.attempt⟩
  | .release => ⟨s.throttle.release, s.inFlight.erase e.attempt⟩

/-- The state after some calls. -/
def Attempts.run (s : Attempts α) (es : List (Event α)) : Attempts α := es.foldl Attempts.step s

/-- The clock does not go back, and only an attempt in flight ends. -/
def Fair : Attempts α → ℕ → List (Event α) → Prop
  | _, _, [] => True
  | s, now, e :: es =>
      now ≤ e.time ∧ (e.call.ends = true → e.attempt ∈ s.inFlight) ∧ Fair (s.step e) e.time es

end Runs

/-- The failures since the last success. -/
def failuresInARow (es : List (Event α)) : ℕ :=
  es.foldl (fun n e => match e.call with
    | .record true => 0
    | .record false => n + 1
    | _ => n) 0

/-- The time of the last failure. -/
def lastFailure (es : List (Event α)) : Option ℕ :=
  (es.reverse.find? fun e => e.call == .record false).map Event.time

/-! ## What one call does -/

theorem allowed_iff (t : UnlockThrottle) (now : ℕ) :
    t.allowed now = true ↔ t.busy = false ∧ t.nextAllowedAt ≤ now := by
  simp [allowed, state, Nat.sub_eq_zero_iff_le]

variable [DecidableEq α]

/-- What one call does. -/
inductive Does (s : Attempts α) (e : Event α) : Attempts α → Prop
  | begun (h : e.call = .begin) (hbusy : s.throttle.busy = false)
      (hnext : s.throttle.nextAllowedAt ≤ e.time) :
      Does s e ⟨{ s.throttle with busy := true }, e.attempt :: s.inFlight⟩
  | turnedAway (h : e.call = .begin) : Does s e s
  | succeeded (h : e.call = .record true) : Does s e ⟨{}, s.inFlight.erase e.attempt⟩
  | failed (h : e.call = .record false) :
      Does s e ⟨⟨s.throttle.failures + 1, e.time + penaltyMs (s.throttle.failures + 1), false⟩,
        s.inFlight.erase e.attempt⟩
  | released (h : e.call = .release) :
      Does s e ⟨{ s.throttle with busy := false }, s.inFlight.erase e.attempt⟩

theorem does_step (s : Attempts α) (e : Event α) : Does s e (s.step e) := by
  unfold Attempts.step
  cases h : e.call with
  | begin =>
      by_cases hallowed : s.throttle.allowed e.time = true
      · obtain ⟨hbusy, hnext⟩ := (allowed_iff _ _).mp hallowed
        simp only [begin, hallowed, if_true]
        exact .begun h hbusy hnext
      · simp only [begin, hallowed, if_false, Bool.false_eq_true]
        exact .turnedAway h
  | record ok =>
      cases ok with
      | false => exact .failed h
      | true => exact .succeeded h
  | release => exact .released h

/-! ## One attempt at a time -/

/-- The attempts in flight are the one that keeps the throttle busy, and it was allowed to begin. -/
structure Sound {α : Type} (s : Attempts α) (now : ℕ) : Prop where
  length : s.inFlight.length = if s.throttle.busy then 1 else 0
  next : s.throttle.busy = true → s.throttle.nextAllowedAt ≤ now

omit [DecidableEq α] in
theorem sound_initial (now : ℕ) : Sound ({} : Attempts α) now :=
  ⟨rfl, fun h => by cases h⟩

omit [DecidableEq α] in
/-- An attempt that ends was the only one. -/
theorem Sound.alone {s : Attempts α} {now : ℕ} (hs : Sound s now) {a : α} (ha : a ∈ s.inFlight) :
    s.throttle.busy = true ∧ s.inFlight = [a] := by
  have hlength := hs.length
  cases hbusy : s.throttle.busy with
  | false =>
      rw [hbusy, if_neg (by simp)] at hlength
      rw [List.length_eq_zero_iff.mp hlength] at ha
      cases ha
  | true =>
      rw [hbusy, if_pos rfl] at hlength
      obtain ⟨b, hb⟩ := List.length_eq_one_iff.mp hlength
      rw [hb, List.mem_singleton] at ha
      subst ha
      exact ⟨rfl, hb⟩

theorem Sound.step {s : Attempts α} {now : ℕ} (hs : Sound s now) {e : Event α} (hnow : now ≤ e.time)
    (hends : e.call.ends = true → e.attempt ∈ s.inFlight) : Sound (s.step e) e.time := by
  have hempty (h : e.call.ends = true) : s.inFlight.erase e.attempt = [] := by
    obtain ⟨-, hone⟩ := hs.alone (hends h)
    rw [hone, List.erase_cons_head]
  have hdoes := does_step s e
  generalize s.step e = t at hdoes ⊢
  cases hdoes with
  | begun h hbusy hnext =>
      have hlength := hs.length
      rw [hbusy, if_neg (by simp)] at hlength
      exact ⟨by simp [hlength], fun _ => hnext⟩
  | turnedAway h => exact ⟨hs.length, fun hbusy => (hs.next hbusy).trans hnow⟩
  | succeeded h => exact ⟨by simp [hempty (by rw [h]; rfl)], fun h => by cases h⟩
  | failed h => exact ⟨by simp [hempty (by rw [h]; rfl)], fun h => by cases h⟩
  | released h => exact ⟨by simp [hempty (by rw [h]; rfl)], fun h => by cases h⟩

/-- Every state of a run is sound. -/
theorem Sound.run {s : Attempts α} {now : ℕ} (hs : Sound s now) {es more : List (Event α)}
    (hfair : Fair s now (es ++ more)) : ∃ later, Sound (s.run es) later := by
  induction es generalizing s now with
  | nil => exact ⟨now, hs⟩
  | cons e es ih =>
      obtain ⟨hnow, hends, hrest⟩ := hfair
      exact ih (hs.step hnow hends) hrest

/-! ## The wait after a failure -/

theorem penaltyMs_mono {n m : ℕ} (h : n ≤ m) : penaltyMs n ≤ penaltyMs m := by
  have hsmall : ∀ m < 10, ∀ n ≤ m, penaltyMs n ≤ penaltyMs m := by decide
  have hmax : ∀ n < 10, penaltyMs n ≤ LOCKOUT_MS := by decide
  have hlocked {k : ℕ} (hk : 10 ≤ k) : penaltyMs k = LOCKOUT_MS := if_pos hk
  rcases Nat.lt_or_ge m 10 with hm | hm
  · exact hsmall m hm n h
  · rw [hlocked hm]
    rcases Nat.lt_or_ge n 10 with hn | hn
    · exact hmax n hn
    · exact (hlocked hn).le

/-- The counter of the throttle, and the end of the wait. -/
theorem counted (es : List (Event α)) :
    (({} : Attempts α).run es).throttle.failures = failuresInARow es ∧
    (0 < failuresInARow es → ∃ f, lastFailure es = some f ∧
      (({} : Attempts α).run es).throttle.nextAllowedAt = f + penaltyMs (failuresInARow es)) := by
  induction es using List.reverseRecOn with
  | nil => exact ⟨rfl, fun h => by cases h⟩
  | append_singleton es e ih =>
      obtain ⟨hcount, hnext⟩ := ih
      have hrun : ({} : Attempts α).run (es ++ [e]) = (({} : Attempts α).run es).step e := by
        rw [Attempts.run, List.foldl_append]
        rfl
      have hdoes := does_step (({} : Attempts α).run es) e
      rw [hrun]
      generalize (({} : Attempts α).run es).step e = t at hdoes ⊢
      have hother (h1 : e.call ≠ .record true) (h2 : e.call ≠ .record false) :
          failuresInARow (es ++ [e]) = failuresInARow es ∧
            lastFailure (es ++ [e]) = lastFailure es := by
        constructor
        · rw [failuresInARow, List.foldl_append]
          cases hcall : e.call with
          | begin => simp [failuresInARow, hcall]
          | record ok => cases ok <;> simp [hcall] at h1 h2
          | release => simp [failuresInARow, hcall]
        · simp [lastFailure, h2]
      cases hdoes with
      | begun h =>
          obtain ⟨hrow, hlast⟩ := hother (by simp [h]) (by simp [h])
          rw [hrow, hlast]
          exact ⟨hcount, hnext⟩
      | turnedAway h =>
          obtain ⟨hrow, hlast⟩ := hother (by simp [h]) (by simp [h])
          rw [hrow, hlast]
          exact ⟨hcount, hnext⟩
      | released h =>
          obtain ⟨hrow, hlast⟩ := hother (by simp [h]) (by simp [h])
          rw [hrow, hlast]
          exact ⟨hcount, hnext⟩
      | succeeded h =>
          have hrow : failuresInARow (es ++ [e]) = 0 := by
            simp [failuresInARow, List.foldl_append, h]
          rw [hrow]
          exact ⟨rfl, fun h => by cases h⟩
      | failed h =>
          have hrow : failuresInARow (es ++ [e]) = failuresInARow es + 1 := by
            simp [failuresInARow, List.foldl_append, h]
          have hlast : lastFailure (es ++ [e]) = some e.time := by simp [lastFailure, h]
          rw [hrow, hlast]
          exact ⟨by rw [hcount], fun _ => ⟨e.time, rfl, by rw [hcount]⟩⟩

/-- An attempt that begins waited for the penalty of the failures before it. -/
theorem waits {es : List (Event α)} {now : ℕ}
    (hallowed : (({} : Attempts α).run es).throttle.allowed now = true) {n f : ℕ} (hpos : 0 < n)
    (hn : n ≤ failuresInARow es) (hf : lastFailure es = some f) : f + penaltyMs n ≤ now := by
  obtain ⟨-, hnext⟩ := (allowed_iff _ _).mp hallowed
  obtain ⟨f', hf', hend⟩ := (counted es).2 (hpos.trans_le hn)
  obtain rfl := Option.some.inj (hf.symm.trans hf')
  have hmono := penaltyMs_mono hn
  omega

/-! ## The failures of an interval -/

/-- The failures that are recorded from `a` to `b`. -/
def failuresIn {α : Type} (a b : ℕ) (es : List (Event α)) : ℕ :=
  es.countP fun e => decide (a ≤ e.time) && decide (e.time ≤ b) && (e.call == .record false)

/-- The penalties of so many failures in a row. -/
def waited (m : ℕ) : ℕ := ((List.range m).map fun i => penaltyMs (i + 1)).sum

theorem waited_succ (m : ℕ) : waited (m + 1) = waited m + penaltyMs (m + 1) := by
  simp [waited, List.range_succ]

/-- From the tenth failure on each of them costs a lockout. -/
theorem lockouts_le_waited (m : ℕ) : m * LOCKOUT_MS ≤ waited m + 9 * LOCKOUT_MS := by
  induction m with
  | zero => exact Nat.zero_le _
  | succ m ih =>
      rw [waited_succ]
      by_cases hm : m < 9
      · have hle : (m + 1) * LOCKOUT_MS ≤ 9 * LOCKOUT_MS := Nat.mul_le_mul_right _ (by omega)
        omega
      · have hpenalty : penaltyMs (m + 1) = LOCKOUT_MS := if_pos (by unfold LOCKOUT_AFTER; omega)
        rw [hpenalty, Nat.add_mul]
        omega

/-- After `m` failures from `a` on, so much time has passed before the next attempt. -/
structure Paced (a m : ℕ) (t : UnlockThrottle) : Prop where
  failures : m ≤ t.failures
  next : 0 < m → a + waited m ≤ t.nextAllowedAt

theorem failuresIn_of_late {s : Attempts α} {now a b : ℕ} {es : List (Event α)}
    (hfair : Fair s now es) (hlate : b < now) : failuresIn a b es = 0 := by
  induction es generalizing s now with
  | nil => rfl
  | cons e es ih =>
      obtain ⟨hnow, -, hrest⟩ := hfair
      have htime : b < e.time := hlate.trans_le hnow
      have htail := ih hrest htime
      rw [failuresIn] at htail ⊢
      rw [List.countP_cons_of_neg (by simp [Nat.not_le.mpr htime]), htail]

/-- The failures of an interval are paced: the last of them comes behind the penalties of the
others. -/
theorem paced_run {s : Attempts α} {now a b m : ℕ} {es : List (Event α)} (hs : Sound s now)
    (hpaced : Paced a m s.throttle) (hlate : 0 < m → a ≤ now)
    (hlast : 0 < m → a + waited (m - 1) ≤ b) (hfair : Fair s now es)
    (hnone : ∀ e ∈ es, a ≤ e.time → e.time ≤ b → e.call ≠ .record true) :
    0 < failuresIn a b es + m → a + waited (failuresIn a b es + m - 1) ≤ b := by
  induction es generalizing s now m with
  | nil => simpa [failuresIn] using hlast
  | cons e es ih =>
      obtain ⟨hnow, hends, hrest⟩ := hfair
      obtain ⟨hfirst, hmore⟩ := List.forall_mem_cons.mp hnone
      have hsound := hs.step hnow hends
      have hskip (h : ¬(a ≤ e.time ∧ e.time ≤ b ∧ e.call = .record false)) :
          failuresIn a b (e :: es) = failuresIn a b es := by
        rw [failuresIn, failuresIn, List.countP_cons_of_neg (by simpa [and_assoc] using h)]
      rcases Nat.lt_or_ge b e.time with hafter | hbefore
      · rw [hskip (by omega), failuresIn_of_late hrest hafter, Nat.zero_add]
        exact hlast
      rcases Nat.lt_or_ge e.time a with hearly | hin
      · -- Before the interval nothing is counted.
        have hm : m = 0 := by
          by_contra hm
          have hle := hlate (Nat.pos_of_ne_zero hm)
          omega
        subst hm
        rw [hskip (by omega)]
        exact ih hsound ⟨Nat.zero_le _, fun h => by cases h⟩ (fun h => by cases h)
          (fun h => by cases h) hrest hmore
      have hdoes := does_step s e
      generalize hstep : s.step e = t at hdoes hsound hrest
      cases hdoes with
      | begun h =>
          rw [hskip (by simp [h])]
          exact ih hsound ⟨hpaced.failures, hpaced.next⟩ (fun _ => hin) hlast hrest hmore
      | turnedAway h =>
          rw [hskip (by simp [h])]
          exact ih hsound hpaced (fun _ => hin) hlast hrest hmore
      | released h =>
          rw [hskip (by simp [h])]
          exact ih hsound ⟨hpaced.failures, hpaced.next⟩ (fun _ => hin) hlast hrest hmore
      | succeeded h => exact absurd h (hfirst hin hbefore)
      | failed h =>
          have hwait : a + waited m ≤ e.time := by
            by_cases hm : m = 0
            · subst hm
              exact hin
            · have hnext := hpaced.next (Nat.pos_of_ne_zero hm)
              obtain ⟨hbusy, -⟩ := hs.alone (hends (by rw [h]; rfl))
              have hallowed := hs.next hbusy
              omega
          have hpenalty := penaltyMs_mono (Nat.add_le_add_right hpaced.failures 1)
          have hcount : failuresIn a b (e :: es) + m = failuresIn a b es + (m + 1) := by
            rw [failuresIn, failuresIn, List.countP_cons_of_pos (by simp [hin, hbefore, h])]
            omega
          rw [hcount]
          refine ih hsound ⟨Nat.succ_le_succ hpaced.failures, fun _ => ?_⟩ (fun _ => hin)
            (fun _ => hwait.trans hbefore) hrest hmore
          rw [waited_succ]
          dsimp only
          omega

/-- At most one attempt is in flight; no attempt begins before the penalty of the failures in a row
before it is over; and an interval without a success has few failures. -/
theorem guessing_bounded (es : List (Event α)) (start : ℕ) (hfair : Fair {} start es) :
    (∀ before, before <+: es → (({} : Attempts α).run before).inFlight.length ≤ 1) ∧
    (∀ before e after, es = before ++ e :: after → e.call = .begin →
      ((({} : Attempts α).run before).throttle.begin e.time).1 = true →
      ∀ n f, 0 < n → n ≤ failuresInARow before → lastFailure before = some f →
        f + penaltyMs n ≤ e.time) ∧
    ∀ a T, (∀ e ∈ es, a ≤ e.time → e.time ≤ a + T → e.call ≠ .record true) →
      failuresIn a (a + T) es ≤ 11 + T / LOCKOUT_MS := by
  refine ⟨?_, ?_, ?_⟩
  · rintro before ⟨after, rfl⟩
    obtain ⟨later, hsound⟩ := (sound_initial start).run hfair
    rw [hsound.length]
    split <;> simp
  · rintro before e after rfl - hbegin n f hpos hn hf
    refine waits ?_ hpos hn hf
    rw [begin] at hbegin
    by_contra hnot
    rw [if_neg hnot] at hbegin
    cases hbegin
  · intro a T hnone
    have hpaced := paced_run (m := 0) (sound_initial start) ⟨Nat.zero_le _, fun h => by cases h⟩
      (fun h => by cases h) (fun h => by cases h) hfair hnone
    rw [Nat.add_zero] at hpaced
    have hlocked : (failuresIn a (a + T) es - 10) * LOCKOUT_MS ≤ T := by
      by_cases hzero : failuresIn a (a + T) es = 0
      · rw [hzero]
        exact Nat.zero_le T
      · have hwaited := hpaced (Nat.pos_of_ne_zero hzero)
        have hlockouts := lockouts_le_waited (failuresIn a (a + T) es - 1)
        have hsub : failuresIn a (a + T) es - 10 = failuresIn a (a + T) es - 1 - 9 := by omega
        rw [hsub, Nat.sub_mul]
        omega
    have hdiv := (Nat.le_div_iff_mul_le (by decide)).mpr hlocked
    omega

/-- A wrong guess, and a second one that comes too soon before it comes again. -/
def twoGuesses : List (Event ℕ) :=
  [⟨0, 0, .begin⟩, ⟨0, 10, .record false⟩, ⟨1, 500, .begin⟩, ⟨1, 1010, .begin⟩,
    ⟨1, 1020, .record false⟩]

theorem fair_twoGuesses : Fair ({} : Attempts ℕ) 0 twoGuesses := by
  refine ⟨?_, ?_, ?_, ?_, ?_, ?_, ?_, ?_, ?_, ?_, True.intro⟩ <;> decide

theorem guessing_bounded_twoGuesses : failuresIn 0 (0 + 2000) twoGuesses = 2 ∧
    (({} : Attempts ℕ).run twoGuesses).inFlight.length ≤ 1 ∧
    failuresIn 0 (0 + 2000) twoGuesses ≤ 11 + 2000 / LOCKOUT_MS :=
  ⟨by decide, (guessing_bounded twoGuesses 0 fair_twoGuesses).1 twoGuesses (List.prefix_refl _),
    (guessing_bounded twoGuesses 0 fair_twoGuesses).2.2 0 2000 (by decide)⟩

end Vops.Keyring.UnlockThrottle
