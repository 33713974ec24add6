import Vops.Lib.AsyncSafe

/-!
# What holds of every run of a program

What is asked of a call is often a relation between what the surroundings answered and what the call ended
in.

* `Ends P p` — `P` holds of the trace and of the end of every run of `p`; `ends_iff` says so with `Steps`.
* `Ends.mono`, `Ends.bind` — the rule of consequence and the sequencing rule.
* `Propagates` — a run ends in the first failure that an operation answers; `SucceedsIff A` — a run
  succeeds exactly when no operation fails and `A` holds, with one rule for each way to compose programs.
-/

namespace Async

variable {Op : Type} {Res : Op → Type} {ε α β : Type}

/-- Every answer is possible. -/
def anyAnswer : Surroundings Op Res Unit := fun _ _ _ _ => True

/-- `P` holds of what every run of the program performed and of what it ended in. -/
def Ends (P : Trace Op Res → Except ε α → Prop) : Async Op Res ε α → Prop
  | done r => P [] r
  | await o k => ∀ x, Ends (fun t r => P (⟨o, x⟩ :: t) r) (k x)

theorem ends_iff {P : Trace Op Res → Except ε α → Prop} {p : Async Op Res ε α} :
    Ends P p ↔ ∀ t r, Steps anyAnswer p () t (.done r) () → P t r := by
  induction p generalizing P with
  | done r =>
      constructor
      · intro hP t r' h
        obtain ⟨rfl, hr, -⟩ := Steps.of_done h
        cases hr
        exact hP
      · exact fun h => h [] r (.refl _ _)
  | await o k ih =>
      constructor
      · intro hP t r h
        obtain ⟨x, s, t', rfl, -, hk⟩ := Steps.of_await h
        exact (ih x).mp (hP x) t' r hk
      · exact fun h x => (ih x).mpr fun t r hk => h _ r (.head trivial hk)

theorem Ends.mono {P P' : Trace Op Res → Except ε α → Prop} {p : Async Op Res ε α} (hp : Ends P p)
    (h : ∀ t r, P t r → P' t r) : Ends P' p := by
  induction p generalizing P P' with
  | done r => exact h [] r hp
  | await o k ih => exact fun x => ih x (hp x) fun t r => h _ r

/-- What a program performed decides what it ended in. -/
theorem Steps.unique {p : Async Op Res ε α} {t : Trace Op Res} {r r' : Except ε α}
    (h : Steps anyAnswer p () t (.done r) ()) (h' : Steps anyAnswer p () t (.done r') ()) : r = r' := by
  have hp : Ends (fun t r => ∀ r', Steps anyAnswer p () t (.done r') () → r = r') p := by
    clear h h'
    induction p with
    | done r =>
        intro r' h'
        obtain ⟨-, hr, -⟩ := Steps.of_done h'
        cases hr
        rfl
    | await o k ih =>
        refine fun x => (ih x).mono fun t r h r' h' => ?_
        cases h' with
        | head _ hk => exact h r' hk
  exact ends_iff.mp hp t r h r' h'

namespace Ends

variable {P P' : Trace Op Res → Except ε α → Prop} {p : Async Op Res ε α}

/-- The sequencing rule. -/
theorem bind {f : α → Async Op Res ε β} {P : Trace Op Res → Except ε β → Prop}
    (hp : Ends (fun t r =>
      match r with
      | .ok a => Ends (fun t' r' => P (t ++ t') r') (f a)
      | .error e => P t (.error e)) p) : Ends P (p >>= f) := by
  induction p generalizing P with
  | done r => cases r <;> exact hp
  | await o k ih => exact fun x => ih x (hp x)

theorem of_forall (h : ∀ t r, P t r) (p : Async Op Res ε α) : Ends P p := by
  induction p generalizing P with
  | done r => exact h [] r
  | await o k ih => exact fun x => ih x fun t r => h _ r

end Ends

/-! ## Operations that have to be performed -/

/-- No run that succeeds goes without an operation with `B`. -/
def Performs (B : Op → Prop) : Async Op Res ε α → Prop :=
  Ends fun t r => (∃ a, r = .ok a) → ∃ e ∈ t, B e.1

namespace Performs

variable {B : Op → Prop}

theorem of_throw (e : ε) : Performs B (done (.error e) : Async Op Res ε α) :=
  fun ⟨_, h⟩ => absurd h nofun

/-- The operation at the head is one. -/
theorem here {o : Op} {f : Res o → Async Op Res ε α} (ho : B o) : Performs B (perform o >>= f) :=
  fun _ => Ends.of_forall (fun _ _ _ => ⟨_, List.mem_cons_self, ho⟩) _

theorem later {o : Op} {f : Res o → Async Op Res ε α} (hf : ∀ x, Performs B (f x)) :
    Performs B (perform o >>= f) := fun x => (hf x).mono fun _ _ h hr =>
  let ⟨e, he, hB⟩ := h hr
  ⟨e, List.mem_cons_of_mem _ he, hB⟩

theorem check {c : Except ε β} {f : β → Async Op Res ε α} (hf : ∀ b, Performs B (f b)) :
    Performs B ((done c : Async Op Res ε β) >>= f) := by
  cases c with
  | error e => exact of_throw e
  | ok b => exact hf b

end Performs

/-! ## Failing operations -/

section Failing

variable {rejection : (o : Op) → Res o → Option ε} {A A' : Prop}

/-- The failure of a step. -/
def failureOf : Except ε β → Option ε
  | .ok _ => none
  | .error e => some e

theorem bind_of_failure {c : Except ε β} {m : ε} (h : failureOf c = some m) (f : β → Async Op Res ε α) :
    ((done c : Async Op Res ε β) >>= f) = done (.error m) := by
  cases c with
  | ok b => cases h
  | error e =>
      obtain rfl := Option.some.inj h
      rfl

theorem ok_of_failure {c : Except ε β} (h : failureOf c = none) : ∃ b, c = .ok b := by
  cases c with
  | ok b => exact ⟨b, rfl⟩
  | error e => cases h

/-- No operation of the trace fails. -/
def Undisturbed (rejection : (o : Op) → Res o → Option ε) (t : Trace Op Res) : Prop :=
  ∀ e ∈ t, rejection e.1 e.2 = none

theorem undisturbed_cons {e : Σ o : Op, Res o} {t : Trace Op Res} : Undisturbed rejection (e :: t) ↔
    rejection e.1 e.2 = none ∧ Undisturbed rejection t := List.forall_mem_cons

/-- A run ends in the failure of an operation, if one fails. -/
def Propagates (rejection : (o : Op) → Res o → Option ε) : Async Op Res ε α → Prop :=
  Ends fun t r => ∀ e ∈ t, ∀ m, rejection e.1 e.2 = some m → r = .error m

/-- A run succeeds exactly when `A` holds and no operation fails. -/
def SucceedsIff (rejection : (o : Op) → Res o → Option ε) (A : Prop) : Async Op Res ε α → Prop :=
  Ends fun t r => (∃ a, r = .ok a) ↔ A ∧ Undisturbed rejection t

theorem Propagates.of_done (r : Except ε α) : Propagates rejection (done r : Async Op Res ε α) :=
  List.forall_mem_nil _

theorem Propagates.await {o : Op} {k : Res o → Async Op Res ε α}
    (hbad : ∀ x m, rejection o x = some m → k x = done (.error m))
    (hgood : ∀ x, rejection o x = none → Propagates rejection (k x)) :
    Propagates rejection (await o k) := by
  intro x
  cases hx : rejection o x with
  | some m =>
      rw [hbad x m hx]
      intro e he m' hm
      obtain rfl := List.mem_singleton.mp he
      exact congrArg Except.error (Option.some.inj (hx.symm.trans hm))
  | none =>
      refine (hgood x hx).mono fun t r h => List.forall_mem_cons.mpr ⟨?_, h⟩
      intro m hm
      exact absurd (hx.symm.trans hm) nofun

theorem Propagates.settle {o : Op} (get : Res o → Except ε β) (hget : ∀ x, rejection o x = failureOf (get x))
    {f : β → Async Op Res ε α} (hf : ∀ b, Propagates rejection (f b)) :
    Propagates rejection (perform o >>= fun x => (done (get x) : Async Op Res ε β) >>= f) := by
  refine await (fun x m hx => bind_of_failure ((hget x).symm.trans hx) f) fun x hx => ?_
  change Propagates rejection (done (get x) >>= f)
  obtain ⟨b, hb⟩ := ok_of_failure ((hget x).symm.trans hx)
  rw [hb]
  exact hf b

theorem Propagates.bind {p : Async Op Res ε α} {f : α → Async Op Res ε β}
    (hp : Propagates rejection p) (hf : ∀ a, Propagates rejection (f a)) :
    Propagates rejection (p >>= f) := by
  refine Ends.bind (hp.mono fun t r h => ?_)
  cases r with
  | error e => exact fun entry he m hm => congrArg Except.error (Except.error.inj (h entry he m hm))
  | ok a =>
      refine (hf a).mono fun t' r' h' => List.forall_mem_append.mpr ⟨?_, h'⟩
      intro entry he m hm
      exact absurd (h entry he m hm) nofun

theorem SucceedsIff.of_done (a : α) : SucceedsIff rejection True (done (.ok a) : Async Op Res ε α) :=
  ⟨fun _ => ⟨trivial, List.forall_mem_nil _⟩, fun _ => ⟨a, rfl⟩⟩

theorem SucceedsIff.of_throw (e : ε) :
    SucceedsIff rejection False (done (.error e) : Async Op Res ε α) :=
  ⟨fun ⟨_, h⟩ => absurd h nofun, fun h => h.1.elim⟩

theorem SucceedsIff.congr {p : Async Op Res ε α} (hp : SucceedsIff rejection A p) (h : A ↔ A') :
    SucceedsIff rejection A' p :=
  Ends.mono hp fun _ _ hr => hr.trans (and_congr_left' h)

theorem SucceedsIff.await {o : Op} {k : Res o → Async Op Res ε α}
    (hbad : ∀ x m, rejection o x = some m → k x = done (.error m))
    (hgood : ∀ x, rejection o x = none → SucceedsIff rejection A (k x)) :
    SucceedsIff rejection A (await o k) := by
  intro x
  cases hx : rejection o x with
  | some m =>
      rw [hbad x m hx]
      constructor
      · exact fun ⟨_, h⟩ => absurd h nofun
      · intro h
        have hnone := (undisturbed_cons.mp h.2).1
        exact absurd (hx.symm.trans hnone) nofun
  | none =>
      refine (hgood x hx).mono fun t r h => h.trans ?_
      rw [undisturbed_cons]
      exact ⟨fun h => ⟨h.1, hx, h.2⟩, fun h => ⟨h.1, h.2.2⟩⟩

/-- The rule for an operation whose failure is thrown on. -/
theorem SucceedsIff.settle {o : Op} (get : Res o → Except ε β) (hget : ∀ x, rejection o x = failureOf (get x))
    {f : β → Async Op Res ε α} (hf : ∀ b, SucceedsIff rejection A (f b)) :
    SucceedsIff rejection A (perform o >>= fun x => (done (get x) : Async Op Res ε β) >>= f) := by
  refine await (fun x m hx => bind_of_failure ((hget x).symm.trans hx) f) fun x hx => ?_
  change SucceedsIff rejection A (done (get x) >>= f)
  obtain ⟨b, hb⟩ := ok_of_failure ((hget x).symm.trans hx)
  rw [hb]
  exact hf b

/-- The rule for a check at the head of a sequence. -/
theorem SucceedsIff.check {A : β → Prop} {c : Except ε β} {f : β → Async Op Res ε α}
    (hf : ∀ b, SucceedsIff rejection (A b) (f b)) :
    SucceedsIff rejection (∃ b, c = .ok b ∧ A b) ((done c : Async Op Res ε β) >>= f) := by
  cases c with
  | error e => exact (of_throw e).congr ⟨False.elim, fun ⟨_, h, _⟩ => absurd h nofun⟩
  | ok b =>
      refine (hf b).congr ⟨fun h => ⟨b, rfl, h⟩, ?_⟩
      rintro ⟨_, ⟨⟩, h⟩
      exact h

end Failing

end Async
