import Mathlib.Data.List.Forall2
import Mathlib.Order.Defs.PartialOrder

/-!
# Asynchronous programs and their protocols

An asynchronous program is a tree: it either has ended, in a value or in a thrown error, or it
waits for one operation and goes on with the operation's answer. Between two operations it runs
without interruption; at every operation another program may be scheduled.

* `Async Op Res ε α` — the programs, over operations `o : Op` answered in `Res o`, with `bind`,
  `throw` and `try`/`catch`.
* `Handler Op Res S` — what an operation answers and does to the shared state.
* `run` — a program executed alone, to its end.
* `AllOps` — every operation of the program satisfies a predicate.
* `Protocol`, `Follows` — an automaton of phases, and that a program follows it, with the rules that
  go along the program's structure (`Follows.bind`, `Follows.tryCatch`, `Follows.of_allOps`).

Nothing here mentions a particular operation or state.
-/

/-- A program that awaits operations `o : Op`, answered in `Res o`, and ends in an `α` or an `ε`. -/
inductive Async (Op : Type) (Res : Op → Type) (ε α : Type) : Type
  | done (r : Except ε α)
  | await (o : Op) (k : Res o → Async Op Res ε α)

namespace Async

variable {Op : Type} {Res : Op → Type} {ε α β S : Type}

/-! ## Sequencing and errors -/

/-- Sequencing: an error ends the whole program. -/
protected def bind : Async Op Res ε α → (α → Async Op Res ε β) → Async Op Res ε β
  | done (.ok a), f => f a
  | done (.error e), _ => done (.error e)
  | await o k, f => await o fun x => Async.bind (k x) f

/-- `try … catch`: the handler takes over where the program ended in an error. -/
protected def tryCatch : Async Op Res ε α → (ε → Async Op Res ε α) → Async Op Res ε α
  | done (.ok a), _ => done (.ok a)
  | done (.error e), f => f e
  | await o k, f => await o fun x => Async.tryCatch (k x) f

instance : Monad (Async Op Res ε) where
  pure a := done (.ok a)
  bind := Async.bind

instance : MonadExceptOf ε (Async Op Res ε) where
  throw e := done (.error e)
  tryCatch := Async.tryCatch

/-- One operation, awaited. -/
def perform (o : Op) : Async Op Res ε (Res o) := await o fun x => done (.ok x)

/-- The program has ended. -/
def isDone : Async Op Res ε α → Bool
  | done _ => true
  | await _ _ => false

/-- The operation that the program waits for, if it has not ended. -/
def next : Async Op Res ε α → Option Op
  | done _ => none
  | await o _ => some o

@[simp] theorem pure_eq (a : α) : (pure a : Async Op Res ε α) = done (.ok a) := rfl

@[simp] theorem throw_eq (e : ε) : (throw e : Async Op Res ε α) = done (.error e) := rfl

@[simp] theorem ok_bind (a : α) (f : α → Async Op Res ε β) : (done (.ok a) >>= f) = f a := rfl

@[simp] theorem error_bind (e : ε) (f : α → Async Op Res ε β) :
    (done (.error e) >>= f) = done (.error e) := rfl

@[simp] theorem await_bind (o : Op) (k : Res o → Async Op Res ε α) (f : α → Async Op Res ε β) :
    (await o k >>= f) = await o fun x => k x >>= f := rfl

@[simp] theorem perform_bind (o : Op) (f : Res o → Async Op Res ε β) :
    (perform o >>= f) = await o f := rfl

/-! ## A program executed alone -/

/-- What an operation answers, and the state it leaves. -/
abbrev Handler (Op : Type) (Res : Op → Type) (S : Type) := (o : Op) → S → Res o × S

variable (h : Handler Op Res S)

/-- Execute a program to its end, with no other program scheduled in between. -/
def run : Async Op Res ε α → S → Except ε α × S
  | done r, s => (r, s)
  | await o k, s => run (k (h o s).1) (h o s).2

@[simp] theorem run_done (r : Except ε α) (s : S) : run h (done r) s = (r, s) := rfl

@[simp] theorem run_await (o : Op) (k : Res o → Async Op Res ε α) (s : S) :
    run h (await o k) s = run h (k (h o s).1) (h o s).2 := rfl

@[simp] theorem run_perform (o : Op) (s : S) :
    run h (perform o : Async Op Res ε (Res o)) s = (.ok (h o s).1, (h o s).2) := rfl

/-- A sequence runs its first part, then the rest from where that part ended. -/
theorem run_bind (p : Async Op Res ε α) (f : α → Async Op Res ε β) (s : S) :
    run h (p >>= f) s =
      match run h p s with
      | (.ok a, s') => run h (f a) s'
      | (.error e, s') => (.error e, s') := by
  induction p generalizing s with
  | done r => cases r <;> rfl
  | await o k ih => exact ih _ _

/-- A sequence ends in a value when both parts do. -/
theorem run_bind_eq_ok {h : Handler Op Res S} {p : Async Op Res ε α} {f : α → Async Op Res ε β}
    {b : β} {s s'' : S} : run h (p >>= f) s = (.ok b, s'') ↔
      ∃ a s', run h p s = (.ok a, s') ∧ run h (f a) s' = (.ok b, s'') := by
  rw [run_bind]
  cases hr : run h p s with
  | mk r s' =>
      cases r with
      | ok a =>
          constructor
          · exact fun hf => ⟨a, s', rfl, hf⟩
          · rintro ⟨_, _, ⟨⟩, hf⟩
            exact hf
      | error e =>
          constructor
          · rintro ⟨⟩
          · rintro ⟨_, _, ⟨⟩, -⟩

/-- A sequence of fallible steps succeeds when both steps do. -/
theorem except_bind_eq_ok {x : Except ε α} {f : α → Except ε β} {b : β} :
    x >>= f = .ok b ↔ ∃ a, x = .ok a ∧ f a = .ok b := by
  cases x with
  | ok a =>
      constructor
      · exact fun hf => ⟨a, rfl, hf⟩
      · rintro ⟨_, ⟨⟩, hf⟩
        exact hf
  | error e =>
      constructor
      · rintro ⟨⟩
      · rintro ⟨_, ⟨⟩, -⟩

/-- What is computed from an answer, if there is one. -/
theorem exists_of_map {x : Except ε α} {f : α → β} {b : β} (h : x.toOption.map f = some b) :
    ∃ a, x = .ok a ∧ f a = b := by
  cases x with
  | ok a => exact ⟨a, rfl, by simpa [Except.toOption] using h⟩
  | error e => cases h

/-- A fallible map succeeds when it does at every element. -/
theorem except_mapM_eq_ok {f : α → Except ε β} {as : List α} {bs : List β} :
    as.mapM f = .ok bs ↔ List.Forall₂ (fun a b => f a = .ok b) as bs := by
  induction as generalizing bs with
  | nil =>
      constructor
      · rintro ⟨⟩
        exact .nil
      · rintro ⟨⟩
        rfl
  | cons a as ih =>
      rw [List.mapM_cons]
      constructor
      · intro h
        obtain ⟨b, hb, h⟩ := except_bind_eq_ok.mp h
        obtain ⟨rest, hrest, h⟩ := except_bind_eq_ok.mp h
        cases h
        exact .cons hb (ih.mp hrest)
      · rintro (_ | ⟨hb, hrest⟩)
        exact except_bind_eq_ok.mpr ⟨_, hb, except_bind_eq_ok.mpr ⟨_, ih.mpr hrest, rfl⟩⟩

/-- What both parts of a sequence keep, the sequence keeps. -/
theorem run_bind_keeps {h : Handler Op Res S} {I : S → Prop} {p : Async Op Res ε α}
    {f : α → Async Op Res ε β} {s : S} (hp : I (run h p s).2)
    (hf : ∀ a s', I s' → I (run h (f a) s').2) : I (run h (p >>= f) s).2 := by
  rw [run_bind]
  cases hr : run h p s with
  | mk r s' =>
      rw [hr] at hp
      cases r with
      | ok a => exact hf a s' hp
      | error e => exact hp

/-! ## The operations a program can perform -/

/-- Every operation of the program, whatever the answers, satisfies `P`. -/
def AllOps (P : Op → Prop) : Async Op Res ε α → Prop
  | done _ => True
  | await o k => P o ∧ ∀ x, AllOps P (k x)

namespace AllOps

variable {P P' : Op → Prop}

theorem of_done (r : Except ε α) : AllOps P (done r : Async Op Res ε α) := trivial

theorem of_forall (hP : ∀ o, P o) (p : Async Op Res ε α) : AllOps P p := by
  induction p with
  | done r => trivial
  | await o k ih => exact ⟨hP o, ih⟩

theorem of_perform {o : Op} (ho : P o) : AllOps P (perform o : Async Op Res ε (Res o)) :=
  ⟨ho, fun _ => trivial⟩

theorem perform_bind {o : Op} {f : Res o → Async Op Res ε β} (ho : P o)
    (hf : ∀ x, AllOps P (f x)) : AllOps P (perform o >>= f) :=
  ⟨ho, hf⟩

theorem bind {p : Async Op Res ε α} {f : α → Async Op Res ε β} (hp : AllOps P p)
    (hf : ∀ a, AllOps P (f a)) : AllOps P (p >>= f) := by
  induction p with
  | done r =>
      cases r with
      | ok a => exact hf a
      | error e => trivial
  | await o k ih => exact ⟨hp.1, fun x => ih x (hp.2 x)⟩

theorem tryCatch {p : Async Op Res ε α} {f : ε → Async Op Res ε α} (hp : AllOps P p)
    (hf : ∀ e, AllOps P (f e)) : AllOps P (MonadExcept.tryCatch p f) := by
  induction p with
  | done r =>
      cases r with
      | ok a => trivial
      | error e => exact hf e
  | await o k ih => exact ⟨hp.1, fun x => ih x (hp.2 x)⟩

theorem mono {p : Async Op Res ε α} (hP : ∀ o, P o → P' o) (hp : AllOps P p) : AllOps P' p := by
  induction p with
  | done r => trivial
  | await o k ih => exact ⟨hP o hp.1, fun x => ih x (hp.2 x)⟩

/-- What every operation of the program keeps, the whole program keeps. -/
theorem run_keeps {h : Handler Op Res S} {I : S → Prop} {p : Async Op Res ε α} {s : S}
    (hp : AllOps P p) (hI : ∀ o s, P o → I s → I (h o s).2) (hs : I s) : I (run h p s).2 := by
  induction p generalizing s with
  | done r => exact hs
  | await o k ih => exact ih _ (hp.2 _) (hI o s hp.1 hs)

end AllOps

/-! ## Protocols -/

/-- A protocol: from which phase an operation, with its answer, leads to which phase. -/
abbrev Protocol (Op : Type) (Res : Op → Type) (Φ : Type) := Φ → (o : Op) → Res o → Φ → Prop

variable {Φ : Type}

/-- From phase `φ` on the program follows the protocol, whatever the answers, and ends in a phase that
`Q` relates to its result. -/
def Follows (T : Protocol Op Res Φ) (Q : Except ε α → Φ → Prop) : Async Op Res ε α → Φ → Prop
  | done r, φ => Q r φ
  | await o k, φ => ∀ x, ∃ φ', T φ o x φ' ∧ Follows T Q (k x) φ'

namespace Follows

variable {T : Protocol Op Res Φ} {Q Q' : Except ε α → Φ → Prop} {φ : Φ}

theorem of_done {r : Except ε α} (hr : Q r φ) : Follows T Q (done r) φ := hr

theorem of_await {o : Op} {k : Res o → Async Op Res ε α}
    (hk : ∀ x, ∃ φ', T φ o x φ' ∧ Follows T Q (k x) φ') : Follows T Q (await o k) φ := hk

theorem mono {p : Async Op Res ε α} (hp : Follows T Q p φ) (hQ : ∀ r φ, Q r φ → Q' r φ) :
    Follows T Q' p φ := by
  induction p generalizing φ with
  | done r => exact hQ r φ hp
  | await o k ih =>
      intro x
      obtain ⟨φ', hT, hk⟩ := hp x
      exact ⟨φ', hT, ih x hk⟩

/-- The sequencing rule. -/
theorem bind {p : Async Op Res ε α} {f : α → Async Op Res ε β} {Q : Except ε β → Φ → Prop}
    (hp : Follows T (fun r φ =>
      match r with
      | .ok a => Follows T Q (f a) φ
      | .error e => Q (.error e) φ) p φ) :
    Follows T Q (p >>= f) φ := by
  induction p generalizing φ with
  | done r => cases r <;> exact hp
  | await o k ih =>
      intro x
      obtain ⟨φ', hT, hk⟩ := hp x
      exact ⟨φ', hT, ih x hk⟩

/-- The rule for `try … catch`. -/
theorem tryCatch {p : Async Op Res ε α} {f : ε → Async Op Res ε α}
    (hp : Follows T (fun r φ =>
      match r with
      | .ok a => Q (.ok a) φ
      | .error e => Follows T Q (f e) φ) p φ) :
    Follows T Q (MonadExcept.tryCatch p f) φ := by
  induction p generalizing φ with
  | done r => cases r <;> exact hp
  | await o k ih =>
      intro x
      obtain ⟨φ', hT, hk⟩ := hp x
      exact ⟨φ', hT, ih x hk⟩

/-- A program all of whose operations leave the phase as it is. -/
theorem of_allOps {P : Op → Prop} {p : Async Op Res ε α} (hp : AllOps P p)
    (hT : ∀ o x, P o → T φ o x φ) (hQ : ∀ r, Q r φ) : Follows T Q p φ := by
  induction p with
  | done r => exact hQ r
  | await o k ih => exact fun x => ⟨φ, hT o x hp.1, ih x (hp.2 x)⟩

/-- A first part whose operations leave the phase as it is. -/
theorem of_allOps_bind {P : Op → Prop} {p : Async Op Res ε α} {f : α → Async Op Res ε β}
    {Q : Except ε β → Φ → Prop} (hp : AllOps P p) (hT : ∀ o x, P o → T φ o x φ)
    (hok : ∀ a, Follows T Q (f a) φ) (herr : ∀ e, Q (.error e) φ) : Follows T Q (p >>= f) φ :=
  bind (of_allOps hp hT fun r =>
    match r with
    | .ok a => hok a
    | .error e => herr e)

/-- Executed alone: what every step of the protocol keeps holds at the end. -/
theorem run_keeps {h : Handler Op Res S} {J : Φ → S → Prop} {p : Async Op Res ε α} {s : S}
    (hp : Follows T Q p φ)
    (hJ : ∀ φ o φ' s, T φ o (h o s).1 φ' → J φ s → J φ' (h o s).2) (hs : J φ s) :
    ∃ φ', Q (run h p s).1 φ' ∧ J φ' (run h p s).2 := by
  induction p generalizing φ s with
  | done r => exact ⟨φ, hp, hs⟩
  | await o k ih =>
      obtain ⟨φ', hT, hk⟩ := hp (h o s).1
      exact ih _ hk (hJ φ o φ' s hT hs)

end Follows

end Async
