import M20Strain.Interrupt.Run

/-!
# Replaying a run

A run is determined by what every call is answered and when interrupts occur
(`Env`), and by the order of handlers and tasks between (`Step`). `replay` computes
it, so concrete executions and runs can be evaluated (`exists_exec`, `exists_run`).
-/

namespace Interrupt

open Prog

variable {Op : Type} {Resp : Op → Type} {Irq L H G T α : Type}

/-- The environment of a program: its answer to each call, and the interrupts right
before the call, in the state the call finds. -/
structure Env {Op : Type} (Resp : Op → Type) (Irq L H : Type) where
  answer (o : Op) : L → H → Resp o
  before (o : Op) : L → H → List Irq

/-- What the outside does next: an interrupt between tasks, or nothing until task `t` is done. -/
inductive Step (Irq T : Type) where
  | irq (i : Irq)
  | task (t : T)

variable (M : Machine Resp Irq L H) (body : T → Prog Resp Unit) (env : Env Resp Irq L H)

/-- The handlers `is`, in order. -/
def handlers : List Irq → H → Option (List (Entry Resp Irq L H) × H)
  | [], h => some ([], h)
  | i :: is, h => (M.handle i h).bind fun h₁ => (handlers is h₁).map fun r => (.irq i h :: r.1, r.2)

/-- The execution of a program in `env`, unless an answer or interrupt is impossible. -/
def execute : Prog Resp α → L → H → Option (List (Entry Resp Irq L H) × α × L × H)
  | ret a, l, h => some ([], a, l, h)
  | call o k, l, h =>
    (handlers M (env.before o l h) h).bind fun (is, h₁) =>
      (M.step o (env.answer o l h₁) l h₁).bind fun (l₂, h₂) =>
        (execute (k (env.answer o l h₁)) l₂ h₂).map fun (tr, r) =>
          (is ++ .call o (env.answer o l h₁) l h₁ :: tr, r)

/-- The run of a script. -/
def replay : List (Step Irq T) → L → H → Option (List (Entry Resp Irq L H) × L × H)
  | [], l, h => some ([], l, h)
  | .irq i :: st, l, h => (M.handle i h).bind fun h₁ =>
      (replay st l h₁).map fun (tr, r) => (.irq i h :: tr, r)
  | .task t :: st, l, h => (execute M env (body t) l h).bind fun (tr, _, l₁, h₁) =>
      (replay st l₁ h₁).map fun (tr', r) => (tr ++ tr', r)

variable {M body env} {l l' : L} {h h' : H} {tr : List (Entry Resp Irq L H)}

theorem Exec.of_handlers {is : List Irq} {tr' : List (Entry Resp Irq L H)} {h₁ : H} {p : Prog Resp α}
    {a : α} (hi : handlers M is h = some (tr', h₁)) (he : Exec M p l h₁ tr a l' h') :
    Exec M p l h (tr' ++ tr) a l' h' := by
  induction is generalizing h tr' with
  | nil =>
    cases hi
    exact he
  | cons i is ih =>
    obtain ⟨h₂, hs, hi⟩ := Option.bind_eq_some_iff.1 hi
    obtain ⟨r, hr, heq⟩ := Option.map_eq_some_iff.1 hi
    obtain ⟨rfl, rfl⟩ := Prod.mk.inj heq
    exact .irq hs (ih hr)

theorem execute_exec {p : Prog Resp α} {a : α} (he : execute M env p l h = some (tr, a, l', h')) :
    Exec M p l h tr a l' h' := by
  induction p generalizing l h tr with
  | ret a =>
    cases he
    exact .ret
  | call o k ih =>
    obtain ⟨⟨is, h₁⟩, hi, he⟩ := Option.bind_eq_some_iff.1 he
    obtain ⟨⟨l₂, h₂⟩, hs, he⟩ := Option.bind_eq_some_iff.1 he
    obtain ⟨⟨tr₁, r⟩, he, heq⟩ := Option.map_eq_some_iff.1 he
    obtain ⟨rfl, rfl⟩ := Prod.mk.inj heq
    exact .of_handlers hi (.call hs (ih _ he))

theorem replay_run {st : List (Step Irq T)} (hr : replay M body env st l h = some (tr, l', h')) :
    Run M body l h tr l' h' := by
  induction st generalizing l h tr with
  | nil =>
    cases hr
    exact .nil
  | cons s st ih =>
    cases s with
    | irq i =>
      obtain ⟨h₁, hi, hr⟩ := Option.bind_eq_some_iff.1 hr
      obtain ⟨⟨tr₁, r⟩, hr, heq⟩ := Option.map_eq_some_iff.1 hr
      obtain ⟨rfl, rfl⟩ := Prod.mk.inj heq
      have h1 : Run M body l h [.irq i h] l h₁ := .irq i .nil hi
      exact h1.append (ih hr)
    | task t =>
      obtain ⟨⟨tr₁, ⟨⟩, l₁, h₁⟩, he, hr⟩ := Option.bind_eq_some_iff.1 hr
      obtain ⟨⟨tr₂, r⟩, hr, heq⟩ := Option.map_eq_some_iff.1 hr
      obtain ⟨rfl, rfl⟩ := Prod.mk.inj heq
      have h1 : Run M body l h tr₁ l₁ h₁ := .task t .nil (execute_exec he)
      exact h1.append (ih hr)

/-- An execution that can be computed and ends in `P`. -/
theorem exists_exec (env : Env Resp Irq L H) {p : Prog Resp α}
    {P : List (Entry Resp Irq L H) → α → L → H → Prop}
    [∀ tr a l h, Decidable (P tr a l h)]
    (he : (execute M env p l h).any (fun r => decide (P r.1 r.2.1 r.2.2.1 r.2.2.2)) = true) :
    ∃ tr a l' h', Exec M p l h tr a l' h' ∧ P tr a l' h' := by
  obtain ⟨⟨tr, a, l', h'⟩, he, hP⟩ := (Option.any_eq_true _ _).1 he
  exact ⟨tr, a, l', h', execute_exec he, of_decide_eq_true hP⟩

/-- **A script whose run ends in `P`** gives a run. -/
theorem exists_run {st : List (Step Irq T)} {P : List (Entry Resp Irq L H) → L → H → Prop}
    [∀ tr l h, Decidable (P tr l h)]
    (hr : (replay M body env st l h).any (fun r => decide (P r.1 r.2.1 r.2.2)) = true) :
    ∃ tr l' h', Run M body l h tr l' h' ∧ P tr l' h' := by
  obtain ⟨⟨tr, l', h'⟩, hr, hP⟩ := (Option.any_eq_true _ _).1 hr
  exact ⟨tr, l', h', replay_run hr, of_decide_eq_true hP⟩

end Interrupt
