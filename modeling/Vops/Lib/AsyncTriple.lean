import Vops.Lib.AsyncInterp

/-!
# Triples of asynchronous programs

What is asked of a program is often only what holds where it ends: one assertion where it ends in a
value, another where it throws.

* `Triple R P p Q E` — from every state with `P`, whatever the surroundings answer, `p` ends in a
  value with `Q`, or throws with `E`.
* `Triple.perform`, `Triple.bind`, `Triple.tryCatch`, `Triple.attempted` — one rule for each way to
  compose programs; `Triple.conseq` — the rule of consequence; `Triple.of_allOps` — operations that
  keep an assertion.
* `Triple.steps` — the assertions hold at the end of a run.
-/

namespace Async

variable {Op : Type} {Res : Op → Type} {ε α β S : Type}

/-- The assertion about an end, by whether it is a value or an error. -/
def After (Q : α → S → Prop) (E : S → Prop) : Except ε α → S → Prop
  | .ok a, s => Q a s
  | .error _, s => E s

/-- Where the program ends in a value `Q` holds, and where it throws `E`. -/
def Triple (R : Surroundings Op Res S) (P : S → Prop) (p : Async Op Res ε α) (Q : α → S → Prop)
    (E : S → Prop) : Prop :=
  ∀ s, P s → Safe R (fun _ => True) (After Q E) p s

namespace Triple

variable {R : Surroundings Op Res S} {P P' E E' : S → Prop} {Q Q' : α → S → Prop}
  {p : Async Op Res ε α}

theorem ok {a : α} (h : ∀ s, P s → Q a s) : Triple R P (done (.ok a) : Async Op Res ε α) Q E :=
  fun s hs => Safe.of_done trivial (h s hs)

theorem error {e : ε} (h : ∀ s, P s → E s) :
    Triple R P (done (.error e) : Async Op Res ε α) Q E :=
  fun s hs => Safe.of_done trivial (h s hs)

/-- The rule for one operation. -/
theorem perform {o : Op} {Q : Res o → S → Prop} (h : ∀ s x s', P s → R o s x s' → Q x s') :
    Triple R P (perform o : Async Op Res ε (Res o)) Q E :=
  fun s hs => ⟨trivial, fun x s' hx => Safe.of_done trivial (h s x s' hs hx)⟩

/-- The sequencing rule. -/
theorem bind {M : α → S → Prop} {f : α → Async Op Res ε β} {Q : β → S → Prop}
    (hp : Triple R P p M E) (hf : ∀ a, Triple R (M a) (f a) Q E) : Triple R P (p >>= f) Q E := by
  refine fun s hs => Safe.bind ((hp s hs).mono fun r s' _ h => ?_)
  cases r with
  | ok a => exact hf a s' h
  | error e => exact h

/-- The rule for `try … catch`. -/
theorem tryCatch {f : ε → Async Op Res ε α} (hp : Triple R P p Q E')
    (hf : ∀ e, Triple R E' (f e) Q E) : Triple R P (MonadExcept.tryCatch p f) Q E := by
  refine fun s hs => Safe.tryCatch ((hp s hs).mono fun r s' _ h => ?_)
  cases r with
  | ok a => exact h
  | error e => exact hf e s' h

/-- The rule for an attempt: it does not throw. -/
theorem attempted (hp : Triple R P p Q E') : Triple R P (attempted p) (After Q E') E :=
  tryCatch (hp.bind fun _ => ok fun _ h => h) fun _ => ok fun _ h => h

/-- The rule of consequence. -/
theorem conseq (hp : Triple R P p Q E) (hP : ∀ s, P' s → P s) (hQ : ∀ a s, Q a s → Q' a s)
    (hE : ∀ s, E s → E' s) : Triple R P' p Q' E' := by
  refine fun s hs => (hp s (hP s hs)).mono fun r s' _ h => ?_
  cases r with
  | ok a => exact hQ a s' h
  | error e => exact hE s' h

/-- Operations that keep an assertion. -/
theorem of_allOps {K : Op → Prop} (hp : AllOps K p)
    (hkeep : ∀ o x s s', K o → R o s x s' → P s → P s') : Triple R P p (fun _ => P) P := by
  refine fun s hs => (Safe.of_allOps hp hkeep (fun _ _ => trivial) hs).mono fun r s' _ h => ?_
  cases r with
  | ok a => exact h
  | error e => exact h

/-- The end of a run. -/
theorem steps {r : Except ε α} {s s' : S} {t : Trace Op Res} (hp : Triple R P p Q E) (hs : P s)
    (h : Steps R p s t (done r) s') : After Q E r s' :=
  (Safe.steps (hp s hs) h).2 r rfl

end Triple

end Async
