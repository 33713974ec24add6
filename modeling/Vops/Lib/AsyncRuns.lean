import Vops.Lib.Async

/-!
# Runs of asynchronous programs in their surroundings

Where operations go to other processes and other machines, the surroundings decide what is answered:
an operation can succeed, fail, or be answered in more than one way, and the program can be stopped
between any two operations.

* `Surroundings Op Res S` — which answers an operation can have, and the states it can leave; `given`
  restricts them to the answers that satisfy a condition.
* `Steps R p s t p' s'` — some operations of a program, with the trace of their answers; a run that
  ended is one to `done r`, every other one is a moment at which the program may be stopped.
* `Steps.bind_ok`, `Steps.bind_cases` — the runs of a sequence.
* `Follows.steps` — what every step of a protocol keeps holds at every moment of a run.
* `Steps.of_checked`, `Steps.of_run` — a handler that the surroundings allow gives a run.
-/

namespace Async

variable {Op : Type} {Res : Op → Type} {ε α β S : Type}

/-- Operations with their answers, in the order in which they were performed. -/
abbrev Trace (Op : Type) (Res : Op → Type) := List (Σ o : Op, Res o)

/-- Which answers an operation can have in a state, and which states it can leave. -/
abbrev Surroundings (Op : Type) (Res : Op → Type) (S : Type) := (o : Op) → S → Res o → S → Prop

/-- The answers that also satisfy a condition. -/
def given (R : Surroundings Op Res S) (C : (o : Op) → S → Res o → Prop) : Surroundings Op Res S :=
  fun o s x s' => R o s x s' ∧ C o s x

/-- The program performs the operations of the trace, one after the other. -/
inductive Steps (R : Surroundings Op Res S) :
    Async Op Res ε α → S → Trace Op Res → Async Op Res ε α → S → Prop
  | refl (p : Async Op Res ε α) (s : S) : Steps R p s [] p s
  | head {o : Op} {k : Res o → Async Op Res ε α} {s s' s'' : S} {x : Res o} {t : Trace Op Res}
      {p : Async Op Res ε α} (hx : R o s x s') (hk : Steps R (k x) s' t p s'') :
      Steps R (.await o k) s (⟨o, x⟩ :: t) p s''

namespace Steps

variable {R : Surroundings Op Res S} {s s' s'' : S} {t t' : Trace Op Res}

/-- A run in narrower surroundings. -/
theorem mono {R' : Surroundings Op Res S} (hR : ∀ o s x s', R o s x s' → R' o s x s')
    {p p' : Async Op Res ε α} (h : Steps R p s t p' s') : Steps R' p s t p' s' := by
  induction h with
  | refl p s => exact .refl p s
  | head hx _ ih => exact .head (hR _ _ _ _ hx) ih

/-- A program that has ended performs nothing. -/
theorem of_done {r : Except ε α} {p : Async Op Res ε α} (h : Steps R (.done r) s t p s') :
    t = [] ∧ p = .done r ∧ s' = s := by
  cases h
  exact ⟨rfl, rfl, rfl⟩

/-- A run that went on from an operation. -/
theorem of_await {o : Op} {k : Res o → Async Op Res ε α} {r : Except ε α}
    (h : Steps R (.await o k) s t (.done r) s'') :
    ∃ x s' t', t = ⟨o, x⟩ :: t' ∧ R o s x s' ∧ Steps R (k x) s' t' (.done r) s'' := by
  cases h with
  | head hx hk => exact ⟨_, _, _, rfl, hx, hk⟩

/-- A run that went on from an operation at the head of a sequence. -/
theorem of_perform {o : Op} {f : Res o → Async Op Res ε α} {r : Except ε α}
    (h : Steps R (perform o >>= f) s t (.done r) s'') :
    ∃ x s' t', t = ⟨o, x⟩ :: t' ∧ R o s x s' ∧ Steps R (f x) s' t' (.done r) s'' :=
  of_await h

/-- A moment of a sequence with an operation at its head. -/
theorem perform_cases {o : Op} {f : Res o → Async Op Res ε α} {q : Async Op Res ε α}
    (h : Steps R (perform o >>= f) s t q s'') :
    t = [] ∨ ∃ x s' t', t = ⟨o, x⟩ :: t' ∧ R o s x s' ∧ Steps R (f x) s' t' q s'' := by
  rw [perform_bind] at h
  cases h with
  | refl => exact .inl rfl
  | head hx hk => exact .inr ⟨_, _, _, rfl, hx, hk⟩

/-- A moment of a sequence is one of its first part or, that part having ended, one of the rest. -/
theorem bind_cases {p : Async Op Res ε α} {f : α → Async Op Res ε β} {q : Async Op Res ε β}
    (h : Steps R (p >>= f) s t q s'') :
    (∃ p', Steps R p s t p' s'' ∧ q = p' >>= f) ∨
      ∃ a s' t₁ t₂, Steps R p s t₁ (.done (.ok a)) s' ∧ Steps R (f a) s' t₂ q s'' ∧
        t = t₁ ++ t₂ := by
  induction p generalizing s t with
  | done r =>
      cases r with
      | ok a => exact .inr ⟨a, s, [], t, .refl _ _, h, rfl⟩
      | error e =>
          obtain ⟨rfl, rfl, rfl⟩ := of_done h
          exact .inl ⟨_, .refl _ _, rfl⟩
  | await o k ih =>
      rw [await_bind] at h
      cases h with
      | refl => exact .inl ⟨_, .refl _ _, rfl⟩
      | head hx hk =>
          rcases ih _ hk with ⟨p', hp', rfl⟩ | ⟨a, s', t₁, t₂, hp', hf, rfl⟩
          · exact .inl ⟨p', .head hx hp', rfl⟩
          · exact .inr ⟨a, s', _ :: t₁, t₂, .head hx hp', hf, rfl⟩

/-- A sequence ends in a value when both parts do. -/
theorem bind_ok {p : Async Op Res ε α} {f : α → Async Op Res ε β} {b : β}
    (h : Steps R (p >>= f) s t (.done (.ok b)) s'') :
    ∃ a s' t₁ t₂, Steps R p s t₁ (.done (.ok a)) s' ∧
      Steps R (f a) s' t₂ (.done (.ok b)) s'' ∧ t = t₁ ++ t₂ := by
  rcases bind_cases h with ⟨p', hp', hq⟩ | h
  · cases p' with
    | done r =>
        cases r with
        | ok a => exact ⟨a, s'', t, [], hp', by rw [hq]; exact .refl _ _, by simp⟩
        | error e => exact absurd hq (by simp)
    | await o k => exact absurd hq (by simp)
  · exact h

/-- A moment of the first part of a sequence. -/
theorem bind_left {p p' : Async Op Res ε α} (h : Steps R p s t p' s') (f : α → Async Op Res ε β) :
    Steps R (p >>= f) s t (p' >>= f) s' := by
  induction h with
  | refl => exact .refl _ _
  | head hx _ ih => exact .head hx ih

/-- Both parts of a sequence, one after the other. -/
theorem bind {p : Async Op Res ε α} {f : α → Async Op Res ε β} {a : α} {q : Async Op Res ε β}
    (h : Steps R p s t (.done (.ok a)) s') (h' : Steps R (f a) s' t' q s'') :
    Steps R (p >>= f) s (t ++ t') q s'' := by
  generalize hp : (done (.ok a) : Async Op Res ε α) = p' at h
  induction h with
  | refl =>
      subst hp
      exact h'
  | head hx _ ih => exact .head hx (ih h' hp)

/-- A moment of `try … catch` is one of the block or, that having thrown, one of the handler. -/
theorem tryCatch_cases {p : Async Op Res ε α} {f : ε → Async Op Res ε α} {q : Async Op Res ε α}
    (h : Steps R (tryCatch p f) s t q s'') :
    (∃ p', Steps R p s t p' s'') ∨
      ∃ e s' t₁ t₂, Steps R p s t₁ (.done (.error e)) s' ∧ Steps R (f e) s' t₂ q s'' ∧
        t = t₁ ++ t₂ := by
  induction p generalizing s t with
  | done r =>
      cases r with
      | ok a =>
          obtain ⟨rfl, -, rfl⟩ := of_done h
          exact .inl ⟨_, .refl _ _⟩
      | error e => exact .inr ⟨e, s, [], t, .refl _ _, h, rfl⟩
  | await o k ih =>
      change Steps R (await o fun x => tryCatch (k x) f) s t q s'' at h
      cases h with
      | refl => exact .inl ⟨_, .refl _ _⟩
      | head hx hk =>
          rcases ih _ hk with ⟨p', hp'⟩ | ⟨e, s', t₁, t₂, hp', hf, rfl⟩
          · exact .inl ⟨p', .head hx hp'⟩
          · exact .inr ⟨e, s', _ :: t₁, t₂, .head hx hp', hf, rfl⟩

end Steps

/-- Executed with a handler, every operation meets the condition. -/
def Checked (h : Handler Op Res S) (C : (o : Op) → S → Res o → Prop) : Async Op Res ε α → S → Prop
  | done _, _ => True
  | await o k, s => C o s (h o s).1 ∧ Checked h C (k (h o s).1) (h o s).2

instance decidableChecked (h : Handler Op Res S) (C : (o : Op) → S → Res o → Prop)
    [∀ o s x, Decidable (C o s x)] : (p : Async Op Res ε α) → (s : S) → Decidable (Checked h C p s)
  | done _, _ => inferInstanceAs (Decidable True)
  | await o k, s =>
      have := decidableChecked h C (k (h o s).1) (h o s).2
      inferInstanceAs (Decidable (C o s (h o s).1 ∧ Checked h C (k (h o s).1) (h o s).2))

theorem checked_true (h : Handler Op Res S) (p : Async Op Res ε α) :
    ∀ s, Checked h (fun _ _ _ => True) p s := by
  induction p with
  | done r => exact fun _ => trivial
  | await o k ih => exact fun s => ⟨trivial, ih _ _⟩

/-- Where every operation of the program meets the condition. -/
theorem Checked.of_allOps {h : Handler Op Res S} {C : (o : Op) → S → Res o → Prop} {P : Op → Prop}
    {p : Async Op Res ε α} (hp : AllOps P p) (hC : ∀ o s, P o → C o s (h o s).1) (s : S) :
    Checked h C p s := by
  induction p generalizing s with
  | done r => trivial
  | await o k ih => exact ⟨hC o s hp.1, ih _ (hp.2 _) _⟩

/-- Two conditions that every operation meets. -/
theorem Checked.and {h : Handler Op Res S} {C C' : (o : Op) → S → Res o → Prop}
    {p : Async Op Res ε α} {s : S} (hp : Checked h C p s) (hp' : Checked h C' p s) :
    Checked h (fun o s x => C o s x ∧ C' o s x) p s := by
  induction p generalizing s with
  | done r => trivial
  | await o k ih => exact ⟨⟨hp.1, hp'.1⟩, ih _ hp.2 hp'.2⟩

/-- A weaker condition. -/
theorem Checked.mono {h : Handler Op Res S} {C C' : (o : Op) → S → Res o → Prop}
    {p : Async Op Res ε α} {s : S} (hp : Checked h C p s) (hC : ∀ o s x, C o s x → C' o s x) :
    Checked h C' p s := by
  induction p generalizing s with
  | done r => trivial
  | await o k ih => exact ⟨hC _ _ _ hp.1, ih _ hp.2⟩

/-- The operations of a sequence are those of its parts. -/
theorem Checked.bind {h : Handler Op Res S} {C : (o : Op) → S → Res o → Prop}
    {p : Async Op Res ε α} {f : α → Async Op Res ε β} {s : S} (hp : Checked h C p s)
    (hf : ∀ a s', run h p s = (.ok a, s') → Checked h C (f a) s') : Checked h C (p >>= f) s := by
  induction p generalizing s with
  | done r =>
      cases r with
      | ok a => exact hf a s rfl
      | error e => trivial
  | await o k ih => exact ⟨hp.1, ih _ hp.2 hf⟩

/-- The operations of `try … catch` are those of the block and, if it throws, of the handler. -/
theorem Checked.tryCatch {h : Handler Op Res S} {C : (o : Op) → S → Res o → Prop}
    {p : Async Op Res ε α} {f : ε → Async Op Res ε α} {s : S} (hp : Checked h C p s)
    (hf : ∀ e s', run h p s = (.error e, s') → Checked h C (f e) s') :
    Checked h C (MonadExcept.tryCatch p f) s := by
  induction p generalizing s with
  | done r =>
      cases r with
      | ok a => trivial
      | error e => exact hf e s rfl
  | await o k ih => exact ⟨hp.1, ih _ hp.2 hf⟩

/-- Along a protocol: what its steps meet, the program meets. -/
theorem Follows.checked {Φ : Type} {T : Protocol Op Res Φ} {Q : Except ε α → Φ → Prop}
    {h : Handler Op Res S} {C : (o : Op) → S → Res o → Prop} {p : Async Op Res ε α} {φ : Φ}
    (hp : Follows T Q p φ) (hC : ∀ φ o φ' s, T φ o (h o s).1 φ' → C o s (h o s).1) (s : S) :
    Checked h C p s := by
  induction p generalizing φ s with
  | done r => trivial
  | await o k ih =>
      obtain ⟨φ', hT, hk⟩ := hp (h o s).1
      exact ⟨hC φ o φ' s hT, ih _ hk _⟩

/-- What the surroundings let a handler answer is a run. -/
theorem Steps.of_checked {R : Surroundings Op Res S} {C : (o : Op) → S → Res o → Prop}
    {h : Handler Op Res S} (hR : ∀ o s, R o s (h o s).1 (h o s).2) {p : Async Op Res ε α} {s : S}
    (hp : Checked h C p s) : ∃ t, Steps (given R C) p s t (.done (run h p s).1) (run h p s).2 := by
  induction p generalizing s with
  | done r => exact ⟨[], .refl _ _⟩
  | await o k ih =>
      obtain ⟨t, ht⟩ := ih _ hp.2
      exact ⟨_, .head ⟨hR o s, hp.1⟩ ht⟩

/-- Every operation of a run satisfies what every operation of the program satisfies. -/
theorem AllOps.steps {R : Surroundings Op Res S} {P : Op → Prop} {p p' : Async Op Res ε α}
    {s s' : S} {t : Trace Op Res} (hp : AllOps P p) (h : Steps R p s t p' s') :
    ∀ e ∈ t, P e.1 := by
  induction h with
  | refl => simp
  | head _ _ ih =>
      intro e he
      rcases List.mem_cons.mp he with rfl | he
      · exact hp.1
      · exact ih (hp.2 _) e he

/-- What the condition says of an answer in every state, it says of the answers of a run. -/
theorem Steps.answers {R : Surroundings Op Res S} {C : (o : Op) → S → Res o → Prop}
    {D : (Σ o : Op, Res o) → Prop} (hD : ∀ o s x, C o s x → D ⟨o, x⟩) {p p' : Async Op Res ε α}
    {s s' : S} {t : Trace Op Res} (h : Steps (given R C) p s t p' s') : ∀ e ∈ t, D e := by
  induction h with
  | refl => simp
  | head hx _ ih => exact List.forall_mem_cons.mpr ⟨hD _ _ _ hx.2, ih⟩

/-- The answers of a program that is executed with a handler. -/
def trace (h : Handler Op Res S) : Async Op Res ε α → S → Trace Op Res
  | done _, _ => []
  | await o k, s => ⟨o, (h o s).1⟩ :: trace h (k (h o s).1) (h o s).2

/-- Executed with a handler that the surroundings allow, a program makes a run. -/
theorem Steps.of_run {R : Surroundings Op Res S} {h : Handler Op Res S}
    (hR : ∀ o s, R o s (h o s).1 (h o s).2) (p : Async Op Res ε α) (s : S) :
    Steps R p s (trace h p s) (.done (run h p s).1) (run h p s).2 := by
  induction p generalizing s with
  | done r => exact .refl _ _
  | await o k ih => exact .head (hR o s) (ih _ _)

/-- The invariant rule: what relates the phase of a program to its answers so far and to the state, and
is kept by every step of the protocol that the surroundings allow, holds at every moment. -/
theorem Follows.steps {Φ : Type} {T : Protocol Op Res Φ} {Q : Except ε α → Φ → Prop}
    {R : Surroundings Op Res S} {J : Φ → Trace Op Res → S → Prop} {p p' : Async Op Res ε α} {φ : Φ}
    {s s' : S} {t₀ t : Trace Op Res} (hp : Follows T Q p φ) (hs : J φ t₀ s)
    (hJ : ∀ φ o x φ' t s s', T φ o x φ' → R o s x s' → J φ t s → J φ' (t ++ [⟨o, x⟩]) s')
    (h : Steps R p s t p' s') : ∃ φ', Follows T Q p' φ' ∧ J φ' (t₀ ++ t) s' := by
  induction h generalizing φ t₀ with
  | refl =>
      rw [List.append_nil]
      exact ⟨φ, hp, hs⟩
  | head hx _ ih =>
      obtain ⟨φ', hT, hk⟩ := hp _
      have hrest := ih hk (hJ _ _ _ _ _ _ _ hT hx hs)
      rwa [List.append_assoc, List.singleton_append] at hrest

end Async
