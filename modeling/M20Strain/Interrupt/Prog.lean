import Mathlib.Logic.Unique

/-!
# Programs as trees of calls

A program over an interface `Resp : Op → Type` either returns or makes one call
and goes on with the answer it gets. Every call is one indivisible step, so the
tree says exactly where something else may happen between two steps. A program
has finite depth: it returns after finitely many calls, whatever the answers.
-/

namespace Interrupt

variable {Op : Type} {Resp : Op → Type} {α β γ : Type}

/-- A program: return a value, or call `o` and continue with its answer. -/
inductive Prog {Op : Type} (Resp : Op → Type) (α : Type) : Type where
  | ret (a : α)
  | call (o : Op) (k : Resp o → Prog Resp α)

namespace Prog

/-- Run `p`, then `f` on its result. -/
def bind : Prog Resp α → (α → Prog Resp β) → Prog Resp β
  | ret a, f => f a
  | call o k, f => call o fun r => (k r).bind f

instance : Monad (Prog Resp) where
  pure := ret
  bind := bind

@[simp] theorem pure_eq (a : α) : (pure a : Prog Resp α) = ret a := rfl

@[simp] theorem ret_bind (a : α) (f : α → Prog Resp β) : (ret a >>= f) = f a := rfl

@[simp] theorem call_bind (o : Op) (k : Resp o → Prog Resp α) (f : α → Prog Resp β) :
    (call o k >>= f) = call o fun r => k r >>= f := rfl

theorem bind_ret (p : Prog Resp α) : (p >>= ret) = p := by
  induction p with
  | ret a => rfl
  | call o k ih => rw [call_bind]; exact congrArg _ (funext ih)

theorem bind_bind (p : Prog Resp α) (f : α → Prog Resp β) (g : β → Prog Resp γ) :
    (p >>= f >>= g) = p >>= fun a => f a >>= g := by
  induction p with
  | ret a => rfl
  | call o k ih => simp only [call_bind]; exact congrArg _ (funext ih)

instance : LawfulMonad (Prog Resp) :=
  LawfulMonad.mk' _ (fun p => bind_ret p) (fun _ _ => rfl) bind_bind

/-- The program that makes one call and returns its answer. -/
def op (o : Op) : Prog Resp (Resp o) := call o ret

/-- A program over an interface, read as one over a larger interface. -/
def embed {Op' : Type} {Resp' : Op' → Type} (inj : Op → Op') (back : ∀ o, Resp' (inj o) → Resp o) :
    Prog Resp α → Prog Resp' α
  | ret a => ret a
  | call o k => call (inj o) fun r => (k (back o r)).embed inj back

variable {S : Type}

/-- `Ends step p s a s'`: the program alone, started in `s`, can return `a` in `s'`.
A call succeeds with answer `r` when `step` gives a next state for that answer. -/
inductive Ends (step : (o : Op) → Resp o → S → Option S) : Prog Resp α → S → α → S → Prop where
  | ret {a s} : Ends step (ret a) s a s
  | call {o k r s s₁ a s'} : step o r s = some s₁ → Ends step (k r) s₁ a s' → Ends step (call o k) s a s'

variable {step : (o : Op) → Resp o → S → Option S}

theorem Ends.ret_iff {a b : α} {s s' : S} :
    Ends step (Prog.ret a) s b s' ↔ b = a ∧ s' = s := by
  constructor
  · intro h
    cases h
    exact ⟨rfl, rfl⟩
  · rintro ⟨rfl, rfl⟩
    exact .ret

theorem Ends.call_iff {o : Op} {k : Resp o → Prog Resp α} {a : α} {s s' : S} :
    Ends step (Prog.call o k) s a s' ↔ ∃ r s₁, step o r s = some s₁ ∧ Ends step (k r) s₁ a s' := by
  constructor
  · intro h
    cases h with
    | call h1 h2 => exact ⟨_, _, h1, h2⟩
  · rintro ⟨r, s₁, h1, h2⟩
    exact .call h1 h2

/-- A call that answers `v` and changes nothing. -/
theorem Ends.read_iff {o : Op} [DecidableEq (Resp o)] {v : Resp o} {k : Resp o → Prog Resp α} {a : α} {s s' : S}
    (ho : ∀ r, step o r s = if r = v then some s else none) :
    Ends step (Prog.call o k) s a s' ↔ Ends step (k v) s a s' := by
  rw [Ends.call_iff]
  simp only [ho, Option.ite_none_right_eq_some, Option.some.injEq]
  constructor
  · rintro ⟨r, s₁, ⟨rfl, rfl⟩, H⟩
    exact H
  · intro H
    exact ⟨v, s, ⟨rfl, rfl⟩, H⟩

/-- A call that has one answer and one next state. -/
theorem Ends.write_iff {o : Op} [Unique (Resp o)] {k : Resp o → Prog Resp α} {a : α} {s s₁ s' : S}
    (ho : ∀ r, step o r s = some s₁) : Ends step (Prog.call o k) s a s' ↔ Ends step (k default) s₁ a s' := by
  rw [Ends.call_iff]
  simp only [ho, Option.some.injEq, Unique.exists_iff]
  constructor
  · rintro ⟨_, rfl, H⟩
    exact H
  · intro H
    exact ⟨s₁, rfl, H⟩

theorem Ends.bind_iff {p : Prog Resp α} {f : α → Prog Resp β} {b : β} {s s' : S} :
    Ends step (p >>= f) s b s' ↔ ∃ a s₁, Ends step p s a s₁ ∧ Ends step (f a) s₁ b s' := by
  induction p generalizing s with
  | ret a =>
    constructor
    · exact fun h => ⟨a, s, .ret, h⟩
    · rintro ⟨a', s₁, h1, h2⟩
      obtain ⟨rfl, rfl⟩ := Ends.ret_iff.1 h1
      exact h2
  | call o k ih =>
    simp only [call_bind, Ends.call_iff, ih]
    constructor
    · rintro ⟨r, s₁, h, a, s₂, h1, h2⟩; exact ⟨a, s₂, ⟨r, s₁, h, h1⟩, h2⟩
    · rintro ⟨a, s₂, ⟨r, s₁, h, h1⟩, h2⟩; exact ⟨r, s₁, h, a, s₂, h1, h2⟩

/-- Where every call has an answer in every state, a program can return. -/
theorem Ends.exists (htot : ∀ o s, ∃ r s', step o r s = some s') (p : Prog Resp α) (s : S) :
    ∃ a s', Ends step p s a s' := by
  induction p generalizing s with
  | ret a => exact ⟨a, s, .ret⟩
  | call o k ih =>
    obtain ⟨r, s₁, h⟩ := htot o s
    obtain ⟨a, s', h'⟩ := ih r s₁
    exact ⟨a, s', .call h h'⟩

end Prog

end Interrupt
