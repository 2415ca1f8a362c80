import Mathlib.Tactic

/-!
Programs of statements: what a client of a shared store runs.

A program asks the store one statement at a time and goes on with the answer; between two
statements anything may happen to the store.  The statements and the types of their answers
form a `Signature`, and a program is a finite tree over it: it has returned, it has raised, or
it asks a statement and continues with the answer.

* `Prog.bind`, `Prog.tryCatch`, `Prog.tally`: sequencing, exception handlers and counting loops
  over a list, with the monad instances that make do-notation available;
* `Prog.Issues`: every statement a program can ever ask satisfies a predicate, whatever the
  answers it receives; `issues_bind`, `issues_tryCatch` and `issues_tally` compute it for a
  composed program;
* `Prog.Returns`, `Prog.Throws`: every result a program can return, and every exception it can
  raise, satisfies a predicate.
-/

namespace Txn

/-- The statements a client may put to the store, each with the type of its answer. -/
structure Signature where
  Stmt : Type
  Resp : Stmt → Type

/-- A program over `S` that returns an `α` or raises an `ε`. -/
inductive Prog (S : Signature) (ε α : Type) : Type where
  | ret (a : α)
  | raise (e : ε)
  | call (q : S.Stmt) (k : S.Resp q → Prog S ε α)

namespace Prog

variable {S : Signature} {ε α β γ : Type}

/-- One statement, its answer returned. -/
def ask (q : S.Stmt) : Prog S ε (S.Resp q) := call q ret

/-- Sequencing: the second program starts from the answer of the first, and an exception of
the first skips it. -/
def bind : Prog S ε α → (α → Prog S ε β) → Prog S ε β
  | ret a, f => f a
  | raise e, _ => raise e
  | call q k, f => call q fun r => (k r).bind f

/-- An exception handler around a program. -/
def tryCatch : Prog S ε α → (ε → Prog S ε α) → Prog S ε α
  | ret a, _ => ret a
  | raise e, h => h e
  | call q k, h => call q fun r => (k r).tryCatch h

instance : Monad (Prog S ε) where
  pure := ret
  bind := bind

instance : MonadExceptOf ε (Prog S ε) where
  throw := raise
  tryCatch := tryCatch

/-- The loop `for x in xs: n += f x`, from `n = 0`. -/
def tally : List β → (β → Prog S ε ℕ) → Prog S ε ℕ
  | [], _ => ret 0
  | x :: xs, f => (f x).bind fun n => (tally xs f).bind fun m => ret (n + m)

/-- The result of a program that has finished. -/
def result? : Prog S ε α → Option (Except ε α)
  | ret a => some (.ok a)
  | raise e => some (.error e)
  | call _ _ => none

@[simp] lemma result?_ret (a : α) : (ret a : Prog S ε α).result? = some (.ok a) := rfl

@[simp] lemma result?_raise (e : ε) : (raise e : Prog S ε α).result? = some (.error e) := rfl

@[simp] lemma result?_call (q : S.Stmt) (k : S.Resp q → Prog S ε α) :
    (call q k).result? = none := rfl

@[simp] lemma pure_eq (a : α) : (pure a : Prog S ε α) = ret a := rfl

@[simp] lemma bind_eq (p : Prog S ε α) (f : α → Prog S ε β) : p >>= f = p.bind f := rfl

@[simp] lemma throw_eq (e : ε) : (throw e : Prog S ε α) = raise e := rfl

@[simp] lemma ret_bind (a : α) (f : α → Prog S ε β) : (ret a).bind f = f a := rfl

@[simp] lemma raise_bind (e : ε) (f : α → Prog S ε β) : (raise e).bind f = raise e := rfl

@[simp] lemma call_bind (q : S.Stmt) (k : S.Resp q → Prog S ε α) (f : α → Prog S ε β) :
    (call q k).bind f = call q fun r => (k r).bind f := rfl

@[simp] lemma ask_bind (q : S.Stmt) (f : S.Resp q → Prog S ε β) : (ask q).bind f = call q f := rfl

@[simp] lemma ret_tryCatch (a : α) (h : ε → Prog S ε α) : (ret a).tryCatch h = ret a := rfl

@[simp] lemma raise_tryCatch (e : ε) (h : ε → Prog S ε α) : (raise e).tryCatch h = h e := rfl

@[simp] lemma call_tryCatch (q : S.Stmt) (k : S.Resp q → Prog S ε α) (h : ε → Prog S ε α) :
    (call q k).tryCatch h = call q fun r => (k r).tryCatch h := rfl

@[simp] lemma tally_nil (f : β → Prog S ε ℕ) : tally [] f = ret 0 := rfl

@[simp] lemma tally_cons (x : β) (xs : List β) (f : β → Prog S ε ℕ) :
    tally (x :: xs) f = (f x).bind fun n => (tally xs f).bind fun m => ret (n + m) := rfl

/-- Sequencing is associative. -/
lemma bind_assoc (p : Prog S ε α) (f : α → Prog S ε β) (g : β → Prog S ε γ) :
    (p.bind f).bind g = p.bind fun a => (f a).bind g := by
  induction p with
  | ret a => rfl
  | raise e => rfl
  | call q k ih =>
      simp only [call_bind, call.injEq, heq_eq_eq, true_and]
      exact funext ih

/-! ### The statements a program can ask -/

/-- Every statement the program can ask, whatever it is answered, satisfies `φ`. -/
def Issues (φ : S.Stmt → Prop) : Prog S ε α → Prop
  | ret _ => True
  | raise _ => True
  | call q k => φ q ∧ ∀ r, (k r).Issues φ

variable {φ : S.Stmt → Prop}

@[simp] lemma issues_ret (a : α) : (ret a : Prog S ε α).Issues φ := trivial

@[simp] lemma issues_raise (e : ε) : (raise e : Prog S ε α).Issues φ := trivial

@[simp] lemma issues_call (q : S.Stmt) (k : S.Resp q → Prog S ε α) :
    (call q k).Issues φ ↔ φ q ∧ ∀ r, (k r).Issues φ := Iff.rfl

@[simp] lemma issues_ask (q : S.Stmt) : (ask q : Prog S ε _).Issues φ ↔ φ q :=
  ⟨fun h => h.1, fun h => ⟨h, fun _ => trivial⟩⟩

/-- Every program issues statements. -/
lemma issues_true (p : Prog S ε α) : p.Issues fun _ => True := by
  induction p with
  | ret a => trivial
  | raise e => trivial
  | call q k ih => exact ⟨trivial, ih⟩

/-- The statements a program issues satisfy every weaker predicate. -/
lemma issues_mono {ψ : S.Stmt → Prop} {p : Prog S ε α} (hp : p.Issues φ)
    (hφ : ∀ q, φ q → ψ q) : p.Issues ψ := by
  induction p with
  | ret a => trivial
  | raise e => trivial
  | call q k ih => exact ⟨hφ q hp.1, fun r => ih r (hp.2 r)⟩

/-- A composed program issues what its parts issue. -/
lemma issues_bind {p : Prog S ε α} {f : α → Prog S ε β} (hp : p.Issues φ)
    (hf : ∀ a, (f a).Issues φ) : (p.bind f).Issues φ := by
  induction p with
  | ret a => exact hf a
  | raise e => trivial
  | call q k ih => exact ⟨hp.1, fun r => ih r (hp.2 r)⟩

/-- A handled program issues what its body and its handler issue. -/
lemma issues_tryCatch {p : Prog S ε α} {h : ε → Prog S ε α} (hp : p.Issues φ)
    (hh : ∀ e, (h e).Issues φ) : (p.tryCatch h).Issues φ := by
  induction p with
  | ret a => trivial
  | raise e => exact hh e
  | call q k ih => exact ⟨hp.1, fun r => ih r (hp.2 r)⟩

/-- A loop issues what its body issues. -/
lemma issues_tally {f : β → Prog S ε ℕ} (hf : ∀ x, (f x).Issues φ) :
    ∀ xs : List β, (tally xs f).Issues φ
  | [] => trivial
  | x :: xs => issues_bind (hf x) fun _ => issues_bind (issues_tally hf xs) fun _ => trivial

/-! ### The results a program can return -/

/-- Every result the program can return, whatever it is answered, satisfies `ψ`. -/
def Returns (ψ : α → Prop) : Prog S ε α → Prop
  | ret a => ψ a
  | raise _ => True
  | call _ k => ∀ r, (k r).Returns ψ

/-- Every program returns results. -/
lemma returns_true (p : Prog S ε α) : p.Returns fun _ => True := by
  induction p with
  | ret a => trivial
  | raise e => trivial
  | call q k ih => exact ih

/-- A composed program returns what its second part returns on the results of the first. -/
lemma returns_bind {ψ : α → Prop} {χ : β → Prop} {p : Prog S ε α} {f : α → Prog S ε β}
    (hp : p.Returns ψ) (hf : ∀ a, ψ a → (f a).Returns χ) : (p.bind f).Returns χ := by
  induction p with
  | ret a => exact hf a hp
  | raise e => trivial
  | call q k ih => exact fun r => ih r (hp r)

/-! ### The exceptions a program can raise -/

/-- Every exception the program can raise, whatever it is answered, satisfies `F`. -/
def Throws (F : ε → Prop) : Prog S ε α → Prop
  | ret _ => True
  | raise e => F e
  | call _ k => ∀ r, (k r).Throws F

variable {F : ε → Prop}

lemma throws_bind {p : Prog S ε α} {f : α → Prog S ε β} (hp : p.Throws F)
    (hf : ∀ a, (f a).Throws F) : (p.bind f).Throws F := by
  induction p with
  | ret a => exact hf a
  | raise e => exact hp
  | call q k ih => exact fun r => ih r (hp r)

lemma throws_tally {f : β → Prog S ε ℕ} (hf : ∀ x, (f x).Throws F) :
    ∀ xs : List β, (tally xs f).Throws F
  | [] => trivial
  | x :: xs => throws_bind (hf x) fun _ => throws_bind (throws_tally hf xs) fun _ => trivial

end Prog

end Txn
