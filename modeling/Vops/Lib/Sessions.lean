import Vops.Lib.AsyncSafe

/-!
# Commands one after the other, and what happened before

* `Session R prog B P E s ts s'` — commands, each run as its program by `Steps`: `B` is what may change
  between two of them, `P` is what holds where one starts, `E` how far it runs. Where `E` admits every
  program, a command may be stopped at any moment, and the moments of a session are the ends of sessions.
* `Session.keeps` — an invariant of every command is one of every session.
* `traced R` — the surroundings with the history of what was answered; `Steps.traced`.
* `marked R G` — the surroundings with a mark that is set once `G` has held; `Steps.marked_of_moment`.
-/

namespace Async

variable {Op : Type} {Res : Op → Type} {ε α β S C : Type}

/-! ## Sessions -/

/-- Commands, one after the other, with the traces of their programs. -/
inductive Session (R : Surroundings Op Res S) (prog : C → Async Op Res ε α) (B : S → S → Prop)
    (P : C → S → Prop) (E : Async Op Res ε α → Prop) : S → List (C × Trace Op Res) → S → Prop
  | nil (s : S) : Session R prog B P E s [] s
  | cons {c : C} {s s₁ s₂ s₃ : S} {t : Trace Op Res} {p : Async Op Res ε α}
      {ts : List (C × Trace Op Res)} (hbetween : B s s₁) (hstart : P c s₁)
      (hsteps : Steps R (prog c) s₁ t p s₂) (hend : E p)
      (hrest : Session R prog B P E s₂ ts s₃) : Session R prog B P E s ((c, t) :: ts) s₃

namespace Session

variable {R : Surroundings Op Res S} {prog : C → Async Op Res ε α} {B : S → S → Prop}
  {P : C → S → Prop} {E : Async Op Res ε α → Prop} {I : S → Prop} {s s' : S}
  {ts : List (C × Trace Op Res)}

/-- What every command keeps, and what happens between two of them, a session keeps. -/
theorem keeps (h : Session R prog B P E s ts s') (hbetween : ∀ s s', B s s' → I s → I s')
    (hstep : ∀ c s t p s', P c s → I s → Steps R (prog c) s t p s' → E p → I s') (hs : I s) :
    I s' := by
  induction h with
  | nil s => exact hs
  | cons hb hstart hsteps hend _ ih =>
      exact ih (hstep _ _ _ _ _ hstart (hbetween _ _ hb hs) hsteps hend)

end Session

/-! ## History -/

/-- The surroundings, with what was performed and answered so far. -/
def traced (R : Surroundings Op Res S) : Surroundings Op Res (S × Trace Op Res) :=
  fun o s x s' => R o s.1 x s'.1 ∧ s'.2 = s.2 ++ [⟨o, x⟩]

/-- A run, with its history. -/
theorem Steps.traced {R : Surroundings Op Res S} {p q : Async Op Res ε α} {s s' : S}
    {t : Trace Op Res} (h : Steps R p s t q s') (before : Trace Op Res) :
    Steps (Async.traced R) p (s, before) t q (s', before ++ t) := by
  induction h generalizing before with
  | refl p s =>
      rw [List.append_nil]
      exact .refl p _
  | @head o _ _ _ _ x _ _ hx _ ih =>
      have hrest := ih (before ++ [⟨o, x⟩])
      rw [List.append_assoc] at hrest
      exact .head ⟨hx, rfl⟩ hrest

/-! ## From a moment on -/

/-- The surroundings, with a mark once `G` has held. -/
def marked (R : Surroundings Op Res S) (G : S → Prop) : Surroundings Op Res (S × Prop) :=
  fun o s x s' => R o s.1 x s'.1 ∧ s'.2 = (s.2 ∨ G s'.1)

/-- A run, with its mark. -/
theorem Steps.marked {R : Surroundings Op Res S} {p q : Async Op Res ε α} {s s' : S}
    {t : Trace Op Res} (h : Steps R p s t q s') (G : S → Prop) (before : Prop) :
    ∃ after, Steps (Async.marked R G) p (s, before) t q (s', after) ∧ (before → after) := by
  induction h generalizing before with
  | refl p s => exact ⟨before, .refl p _, id⟩
  | @head o k s s₁ s₂ x t q hx _ ih =>
      obtain ⟨after, hrest, hafter⟩ := ih (before ∨ G s₁)
      exact ⟨after, .head ⟨hx, rfl⟩ hrest, fun h => hafter (.inl h)⟩

/-- A moment at which `G` holds leaves its mark. -/
theorem Steps.marked_of_moment {R : Surroundings Op Res S} {G : S → Prop}
    {p p₁ p₂ : Async Op Res ε α} {s s₁ s₂ : S} {t t' : Trace Op Res} (h : Steps R p s t p₁ s₁)
    (hG : G s₁) (h' : Steps R p₁ s₁ t' p₂ s₂) (before : Prop) :
    ∃ after, Steps (Async.marked R G) p (s, before ∨ G s) (t ++ t') p₂ (s₂, after) ∧ after := by
  induction h generalizing before with
  | refl p s =>
      obtain ⟨after, hsteps, hafter⟩ := h'.marked G (before ∨ G s)
      exact ⟨after, hsteps, hafter (.inr hG)⟩
  | @head o k s s₁ s₂ x t q hx _ ih =>
      obtain ⟨after, hsteps, hafter⟩ := ih hG h' (before ∨ G s)
      exact ⟨after, .head ⟨hx, rfl⟩ hsteps, hafter⟩

end Async
