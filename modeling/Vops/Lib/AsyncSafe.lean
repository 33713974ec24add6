import Vops.Lib.AsyncRuns

/-!
# What holds at every moment of a run, and at its end

A program may be stopped between any two operations, so what is asked of it is an invariant of every
moment, besides what holds when it ends.

* `Safe R I Q p s` — from state `s`, whatever the surroundings answer, `I` holds at every moment of the
  program and `Q` where it ends.
* `Safe.perform`, `Safe.bind`, `Safe.tryCatch`, `Safe.tryFinally`, `Safe.mapM` — one rule for each way
  to compose programs.
* `Returns p` — the program does not throw; `Yields Q p` — its values satisfy `Q`; `Safe.returns_bind`,
  `Safe.yields_bind`, `Safe.allOps_bind`.
* `Keeps R I p s` — only the invariant is asked for.
* `Safe.steps`, `Keeps.steps` — the invariant rule.
-/

namespace Async

variable {Op : Type} {Res : Op → Type} {ε α β S : Type}

instance : LawfulMonad (Async Op Res ε) := by
  refine LawfulMonad.mk' _ ?_ ?_ ?_
  · intro α p
    change p >>= pure = p
    induction p with
    | done r => cases r <;> rfl
    | await o k ih => exact congrArg (await o) (funext ih)
  · exact fun a f => rfl
  · intro α β γ p f g
    induction p with
    | done r => cases r <;> rfl
    | await o k ih => exact congrArg (await o) (funext ih)

/-- `try … finally`: the last part runs where the block ended, in a value or in an error. -/
def tryFinally (p : Async Op Res ε α) (last : Async Op Res ε Unit) : Async Op Res ε α := do
  let r ← tryCatch (p >>= fun a => pure (.ok a)) fun e => pure (.error e : Except ε α)
  last
  match r with
  | .ok a => pure a
  | .error e => throw e

/-- The program does not throw. -/
def Returns : Async Op Res ε α → Prop
  | done (.ok _) => True
  | done (.error _) => False
  | await _ k => ∀ x, Returns (k x)

/-- Every value that the program can end in satisfies `Q`. -/
def Yields (Q : α → Prop) : Async Op Res ε α → Prop
  | done (.ok a) => Q a
  | done (.error _) => True
  | await _ k => ∀ x, Yields Q (k x)

theorem Yields.bind {Q : α → Prop} {Q' : β → Prop} {p : Async Op Res ε α}
    {f : α → Async Op Res ε β} (hp : Yields Q p) (hf : ∀ a, Q a → Yields Q' (f a)) :
    Yields Q' (p >>= f) := by
  induction p with
  | done r =>
      cases r with
      | ok a => exact hf a hp
      | error e => trivial
  | await o k ih => exact fun x => ih x (hp x)

theorem Yields.mono {Q Q' : α → Prop} {p : Async Op Res ε α} (hp : Yields Q p)
    (hQ : ∀ a, Q a → Q' a) : Yields Q' p := by
  induction p with
  | done r =>
      cases r with
      | ok a => exact hQ a hp
      | error e => trivial
  | await o k ih => exact fun x => ih x (hp x)

theorem Yields.any (p : Async Op Res ε α) : Yields (fun _ => True) p := by
  induction p with
  | done r => cases r <;> trivial
  | await o k ih => exact ih

/-- `I` holds at every moment of the program, and `Q` where it ends. -/
def Safe (R : Surroundings Op Res S) (I : S → Prop) (Q : Except ε α → S → Prop) :
    Async Op Res ε α → S → Prop
  | done r, s => I s ∧ Q r s
  | await o k, s => I s ∧ ∀ x s', R o s x s' → Safe R I Q (k x) s'

namespace Safe

variable {R : Surroundings Op Res S} {I : S → Prop} {Q Q' : Except ε α → S → Prop} {s : S}

theorem now {p : Async Op Res ε α} (hp : Safe R I Q p s) : I s := by
  cases p with
  | done r => exact hp.1
  | await o k => exact hp.1

theorem of_done {r : Except ε α} (hI : I s) (hQ : Q r s) : Safe R I Q (done r) s := ⟨hI, hQ⟩

/-- The rule for an operation at the head of a sequence. -/
theorem perform {o : Op} {f : Res o → Async Op Res ε α} (hI : I s)
    (hf : ∀ x s', R o s x s' → Safe R I Q (f x) s') : Safe R I Q (perform o >>= f) s := ⟨hI, hf⟩

theorem mono {p : Async Op Res ε α} (hp : Safe R I Q p s) (hQ : ∀ r s, I s → Q r s → Q' r s) :
    Safe R I Q' p s := by
  induction p generalizing s with
  | done r => exact ⟨hp.1, hQ r s hp.1 hp.2⟩
  | await o k ih => exact ⟨hp.1, fun x s' hx => ih x (hp.2 x s' hx)⟩

/-- A weaker invariant. -/
theorem weaken {I' : S → Prop} {p : Async Op Res ε α} (hp : Safe R I Q p s)
    (hI : ∀ s, I s → I' s) : Safe R I' Q p s := by
  induction p generalizing s with
  | done r => exact ⟨hI s hp.1, hp.2⟩
  | await o k ih => exact ⟨hI s hp.1, fun x s' hx => ih x (hp.2 x s' hx)⟩

/-- The sequencing rule. -/
theorem bind {p : Async Op Res ε α} {f : α → Async Op Res ε β} {Q : Except ε β → S → Prop}
    (hp : Safe R I (fun r s =>
      match r with
      | .ok a => Safe R I Q (f a) s
      | .error e => Q (.error e) s) p s) : Safe R I Q (p >>= f) s := by
  induction p generalizing s with
  | done r =>
      cases r with
      | ok a => exact hp.2
      | error e => exact hp
  | await o k ih => exact ⟨hp.1, fun x s' hx => ih x (hp.2 x s' hx)⟩

/-- The sequencing rule for a first part whose errors need no care. -/
theorem seq {M : α → S → Prop} {p : Async Op Res ε α} {f : α → Async Op Res ε β}
    {Q : Except ε β → S → Prop} (hp : Safe R I (fun r s => ∀ a, r = .ok a → M a s) p s)
    (hf : ∀ a s', I s' → M a s' → Safe R I Q (f a) s') (hQ : ∀ e s', I s' → Q (.error e) s') :
    Safe R I Q (p >>= f) s := by
  refine bind (hp.mono fun r s' hI hM => ?_)
  cases r with
  | ok a => exact hf a s' hI (hM a rfl)
  | error e => exact hQ e s' hI

/-- The rule for `try … catch`. -/
theorem tryCatch {p : Async Op Res ε α} {f : ε → Async Op Res ε α}
    (hp : Safe R I (fun r s =>
      match r with
      | .ok a => Q (.ok a) s
      | .error e => Safe R I Q (f e) s) p s) : Safe R I Q (MonadExcept.tryCatch p f) s := by
  induction p generalizing s with
  | done r =>
      cases r with
      | ok a => exact hp
      | error e => exact hp.2
  | await o k ih => exact ⟨hp.1, fun x s' hx => ih x (hp.2 x s' hx)⟩

/-- The rule for `try … finally`. -/
theorem tryFinally {p : Async Op Res ε α} {last : Async Op Res ε Unit}
    (hp : Safe R I (fun r s => Safe R I (fun r' s' =>
      match r' with
      | .ok () => Q r s'
      | .error e => Q (.error e) s') last s) p s) : Safe R I Q (Async.tryFinally p last) s := by
  refine bind (tryCatch (bind (hp.mono fun r s hI hlast => ?_)))
  have hrest : Safe R I Q (last >>= fun _ =>
      match r with
      | .ok a => (pure a : Async Op Res ε α)
      | .error e => throw e) s := by
    refine bind (hlast.mono fun r' s' hI' hQ => ?_)
    cases r' with
    | ok u => cases r <;> exact ⟨hI', hQ⟩
    | error e => exact hQ
  cases r with
  | ok a => exact ⟨hI, hrest⟩
  | error e => exact ⟨hI, hrest⟩

/-- The rule for a loop over a list. -/
theorem mapM {J : S → Prop} {f : α → Async Op Res ε β} {l : List α}
    (hf : ∀ a ∈ l, ∀ s, J s → Safe R I (fun _ s => J s) (f a) s) (hJ : ∀ s, J s → I s) (hs : J s) :
    Safe R I (fun _ s => J s) (l.mapM f) s := by
  induction l generalizing s with
  | nil => exact of_done (hJ s hs) hs
  | cons a l ih =>
      obtain ⟨ha, hl⟩ := List.forall_mem_cons.mp hf
      rw [List.mapM_cons]
      refine bind ((ha s hs).mono fun r s' _ hs' => ?_)
      cases r with
      | ok b =>
          refine bind ((ih hl hs').mono fun r s'' hI hs'' => ?_)
          cases r with
          | ok bs => exact of_done hI hs''
          | error e => exact hs''
      | error e => exact hs'

/-- Operations that keep the invariant. -/
theorem of_allOps {P : Op → Prop} {J : S → Prop} {p : Async Op Res ε α} (hp : AllOps P p)
    (hkeep : ∀ o x s s', P o → R o s x s' → J s → J s') (hJ : ∀ s, J s → I s) (hs : J s) :
    Safe R I (fun _ s => J s) p s := by
  induction p generalizing s with
  | done r => exact ⟨hJ s hs, hs⟩
  | await o k ih =>
      exact ⟨hJ s hs, fun x s' hx => ih x (hp.2 x) (hkeep o x s s' hp.1 hx hs)⟩

/-- A first part whose operations keep `J`. -/
theorem allOps_bind {P : Op → Prop} {J : S → Prop} {p : Async Op Res ε α} {f : α → Async Op Res ε β}
    {Q : Except ε β → S → Prop} (hp : AllOps P p)
    (hkeep : ∀ o x s s', P o → R o s x s' → J s → J s') (hJ : ∀ s, J s → I s) (hs : J s)
    (hf : ∀ a s', J s' → Safe R I Q (f a) s') (hQ : ∀ e s', J s' → Q (.error e) s') :
    Safe R I Q (p >>= f) s := by
  refine bind ((of_allOps hp hkeep hJ hs).mono fun r s' _ hs' => ?_)
  cases r with
  | ok a => exact hf a s' hs'
  | error e => exact hQ e s' hs'

/-- A first part whose operations keep `J`, and whose value satisfies `M`. -/
theorem yields_bind {P : Op → Prop} {J : S → Prop} {M : α → Prop} {p : Async Op Res ε α}
    {f : α → Async Op Res ε β} {Q : Except ε β → S → Prop} (hp : AllOps P p) (hyields : Yields M p)
    (hkeep : ∀ o x s s', P o → R o s x s' → J s → J s') (hJ : ∀ s, J s → I s) (hs : J s)
    (hf : ∀ a s', M a → J s' → Safe R I Q (f a) s') (hQ : ∀ e s', J s' → Q (.error e) s') :
    Safe R I Q (p >>= f) s := by
  induction p generalizing s with
  | done r =>
      cases r with
      | ok a => exact hf a s hyields hs
      | error e => exact of_done (hJ s hs) (hQ e s hs)
  | await o k ih =>
      exact ⟨hJ s hs, fun x s' hx => ih x (hp.2 x) (hyields x) (hkeep o x s s' hp.1 hx hs)⟩

/-- A first part whose operations keep `J`, and that does not throw. -/
theorem returns_bind {P : Op → Prop} {J : S → Prop} {p : Async Op Res ε α} {f : α → Async Op Res ε β}
    {Q : Except ε β → S → Prop} (hp : AllOps P p) (hreturns : Returns p)
    (hkeep : ∀ o x s s', P o → R o s x s' → J s → J s') (hJ : ∀ s, J s → I s) (hs : J s)
    (hf : ∀ a s', J s' → Safe R I Q (f a) s') : Safe R I Q (p >>= f) s := by
  induction p generalizing s with
  | done r =>
      cases r with
      | ok a => exact hf a s hs
      | error e => exact hreturns.elim
  | await o k ih =>
      exact ⟨hJ s hs, fun x s' hx => ih x (hp.2 x) (hreturns x) (hkeep o x s s' hp.1 hx hs)⟩

/-- The invariant rule: what holds at a moment of a run, and at its end. -/
theorem steps {p p' : Async Op Res ε α} {s' : S} {t : Trace Op Res} (hp : Safe R I Q p s)
    (h : Steps R p s t p' s') : I s' ∧ ∀ r, p' = done r → Q r s' := by
  induction h with
  | refl p s =>
      refine ⟨hp.now, ?_⟩
      rintro r rfl
      exact hp.2
  | head hx _ ih => exact ih (hp.2 _ _ hx)

end Safe

/-- `I` holds at every moment of the program. -/
def Keeps (R : Surroundings Op Res S) (I : S → Prop) (p : Async Op Res ε α) (s : S) : Prop :=
  Safe R I (fun _ _ => True) p s

namespace Keeps

variable {R : Surroundings Op Res S} {I : S → Prop} {s : S}

theorem of_safe {Q : Except ε α → S → Prop} {p : Async Op Res ε α} (hp : Safe R I Q p s) :
    Keeps R I p s :=
  hp.mono fun _ _ _ _ => trivial

theorem of_done {r : Except ε α} (hI : I s) : Keeps R I (done r) s := ⟨hI, trivial⟩

theorem perform {o : Op} {f : Res o → Async Op Res ε α} (hI : I s)
    (hf : ∀ x s', R o s x s' → Keeps R I (f x) s') : Keeps R I (Async.perform o >>= f) s := ⟨hI, hf⟩

theorem seq {M : α → S → Prop} {p : Async Op Res ε α} {f : α → Async Op Res ε β}
    (hp : Safe R I (fun r s => ∀ a, r = .ok a → M a s) p s)
    (hf : ∀ a s', I s' → M a s' → Keeps R I (f a) s') : Keeps R I (p >>= f) s :=
  Safe.seq hp hf fun _ _ _ => trivial

/-- What is kept also holds where the program ends. -/
theorem safe {p : Async Op Res ε α} (hp : Keeps R I p s) : Safe R I (fun _ s => I s) p s :=
  hp.mono fun _ _ hI _ => hI

theorem steps {p p' : Async Op Res ε α} {s' : S} {t : Trace Op Res} (hp : Keeps R I p s)
    (h : Steps R p s t p' s') : I s' :=
  (Safe.steps hp h).1

end Keeps

end Async
