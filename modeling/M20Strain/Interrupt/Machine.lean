import M20Strain.Interrupt.Prog

/-!
# Programs under interrupts

A machine runs programs over a state `L × H`: `L` is owned by the main loop, `H`
is shared with interrupt handlers. A handler may run between any two calls of a
program and changes `H` only; it runs to completion, so it is one step.

* `Exec`: complete executions, with the trace of calls and handlers in order,
  each entry with the state it was made in.
* `wp`: what holds after every execution, for the state together with a *monitor*
  (a fold over the trace).
* `wp_owned`: a call that leaves `H` alone and that the monitor sees the same
  before and after a handler needs no case for the handlers.
* `may`: what an execution without interrupts can reach.
-/

namespace Interrupt

open Prog

variable {Op : Type} {Resp : Op → Type} {Irq L H G α β : Type}

/-- A machine. `step o r l h` is the state after call `o` is answered with `r`, if
that answer is possible; `handle i h` the shared state after handler `i`, if the
interrupt can occur. -/
structure Machine {Op : Type} (Resp : Op → Type) (Irq L H : Type) where
  step (o : Op) : Resp o → L → H → Option (L × H)
  handle : Irq → H → Option H

/-- An entry of a trace: a call with its answer, or a handler, with the state before it. -/
inductive Entry {Op : Type} (Resp : Op → Type) (Irq L H : Type) where
  | call (o : Op) (r : Resp o) (l : L) (h : H)
  | irq (i : Irq) (h : H)

/-- No handler ran during the trace. -/
def Uninterrupted (tr : List (Entry Resp Irq L H)) : Prop := ∀ i h, .irq i h ∉ tr

variable (M : Machine Resp Irq L H) (μ : G → Entry Resp Irq L H → G)

/-- `Exec M p l h tr a l' h'`: started in `(l, h)`, `p` returns `a` in `(l', h')` with
trace `tr` (oldest entry first). -/
inductive Exec : Prog Resp α → L → H → List (Entry Resp Irq L H) → α → L → H → Prop where
  | ret {a l h} : Exec (ret a) l h [] a l h
  | call {o k r l h l₁ h₁ tr a l' h'} : M.step o r l h = some (l₁, h₁) →
      Exec (k r) l₁ h₁ tr a l' h' → Exec (call o k) l h (.call o r l h :: tr) a l' h'
  | irq {p i l h h₁ tr a l' h'} : M.handle i h = some h₁ →
      Exec p l h₁ tr a l' h' → Exec p l h (.irq i h :: tr) a l' h'

/-- Any number of handlers, followed by the monitor. -/
inductive Irqs : G → H → G → H → Prop where
  | refl {g h} : Irqs g h g h
  | step {i g h h₁ g' h'} : M.handle i h = some h₁ → Irqs (μ g (.irq i h)) h₁ g' h' → Irqs g h g' h'

/-- **Weakest precondition under interrupts.** -/
def wp : Prog Resp α → (α → G → L → H → Prop) → G → L → H → Prop
  | ret a, Q, g, l, h => ∀ g' h', Irqs M μ g h g' h' → Q a g' l h'
  | call o k, Q, g, l, h => ∀ g' h', Irqs M μ g h g' h' →
      ∀ r l₁ h₁, M.step o r l h' = some (l₁, h₁) → wp (k r) Q (μ g' (.call o r l h')) l₁ h₁

/-- **What an uninterrupted execution can reach.** -/
def may : Prog Resp α → (α → G → L → H → Prop) → G → L → H → Prop
  | ret a, Q, g, l, h => Q a g l h
  | call o k, Q, g, l, h =>
      ∃ r l₁ h₁, M.step o r l h = some (l₁, h₁) ∧ may (k r) Q (μ g (.call o r l h)) l₁ h₁

variable {M μ} {p : Prog Resp α} {Q : α → G → L → H → Prop} {g g' g'' : G} {l l' : L} {h h' h'' : H}

namespace Irqs

theorem trans (h1 : Irqs M μ g h g' h') (h2 : Irqs M μ g' h' g'' h'') : Irqs M μ g h g'' h'' := by
  induction h1 with
  | refl => exact h2
  | step hi _ ih => exact .step hi (ih h2)

theorem single {i : Irq} (hi : M.handle i h = some h') : Irqs M μ g h (μ g (.irq i h)) h' :=
  .step hi .refl

/-- The handlers themselves do not depend on the monitor. -/
theorem erase {G' : Type} (ν : G' → Entry Resp Irq L H → G') (h1 : Irqs M μ g h g' h') (k : G') :
    ∃ k', Irqs M ν k h k' h' := by
  induction h1 generalizing k with
  | refl => exact ⟨k, .refl⟩
  | @step i g h h₁ _ _ hi _ ih =>
    obtain ⟨k', hk⟩ := ih (ν k (.irq i h))
    exact ⟨k', .step hi hk⟩

/-- A property of monitor and shared state that every handler preserves is stable. -/
theorem stable {P : G → H → Prop}
    (hP : ∀ i g h h', M.handle i h = some h' → P g h → P (μ g (.irq i h)) h')
    (h1 : Irqs M μ g h g' h') : P g h → P g' h' := by
  intro hp
  induction h1 with
  | refl => exact hp
  | step hi _ ih => exact ih (hP _ _ _ _ hi hp)

/-- A monitor that ignores handlers does not move. -/
theorem ghost_eq (hμ : ∀ g i h, μ g (.irq i h) = g) (h1 : Irqs M μ g h g' h') : g' = g := by
  induction h1 with
  | refl => rfl
  | step _ _ ih => rw [ih, hμ]

end Irqs

/-- The precondition is stable under handlers. -/
theorem wp_irqs (hw : wp M μ p Q g l h) (hi : Irqs M μ g h g' h') : wp M μ p Q g' l h' := by
  cases p with
  | ret a =>
    intro g₁ h₁ h1
    exact hw g₁ h₁ (hi.trans h1)
  | call o k =>
    intro g₁ h₁ h1
    exact hw g₁ h₁ (hi.trans h1)

theorem wp_mono {Q' : α → G → L → H → Prop} (hQ : ∀ a g l h, Q a g l h → Q' a g l h)
    (hw : wp M μ p Q g l h) : wp M μ p Q' g l h := by
  induction p generalizing g l h with
  | ret a =>
    intro g₁ h₁ h1
    exact hQ a g₁ l h₁ (hw g₁ h₁ h1)
  | call o k ih =>
    intro g₁ h₁ h1 r l₁ h₂ h2
    exact ih r (hw g₁ h₁ h1 r l₁ h₂ h2)

/-- **The precondition covers every execution**, with the monitor run over its trace. -/
theorem wp_iff : wp M μ p Q g l h ↔
    ∀ tr a l' h', Exec M p l h tr a l' h' → Q a (tr.foldl μ g) l' h' := by
  constructor
  · intro hw tr a l' h' he
    induction he generalizing g with
    | ret => exact hw _ _ .refl
    | call hs _ ih => exact ih (hw _ _ .refl _ _ _ hs)
    | irq hi _ ih => exact ih (wp_irqs hw (.single hi))
  · -- the handlers before the next call become a prefix of the trace
    have lift : ∀ {g h g' h'}, Irqs M μ g h g' h' → ∀ {α : Type} {p : Prog Resp α} {l tr a l' h₁},
        Exec M p l h' tr a l' h₁ → ∃ tr', Exec M p l h tr' a l' h₁ ∧ tr'.foldl μ g = tr.foldl μ g' := by
      intro g h g' h' hi
      induction hi with
      | refl =>
        intro α p l tr a l' h₁ he
        exact ⟨tr, he, rfl⟩
      | step hs _ ih =>
        intro α p l tr a l' h₁ he
        obtain ⟨tr', h1, h2⟩ := ih he
        exact ⟨_, .irq hs h1, h2⟩
    intro hall
    induction p generalizing g l h with
    | ret a =>
      intro g₁ h₁ hi
      obtain ⟨tr, h1, h2⟩ := lift hi (.ret (M := M) (a := a) (l := l))
      have hq := hall tr a l h₁ h1
      rw [h2] at hq
      exact hq
    | call o k ih =>
      intro g₁ h₁ hi r l₁ h₂ hs
      apply ih r
      intro tr a l' h' he
      obtain ⟨tr', h1, h2⟩ := lift hi (.call hs he)
      have hq := hall tr' a l' h' h1
      rw [h2] at hq
      exact hq

/-- A property of the monitor that no entry ends holds after any program. -/
theorem wp_of_forall {P : G → Prop} (hP : ∀ g e, P g → P (μ g e)) (hg : P g) :
    wp M μ p (fun _ g' _ _ => P g') g l h := by
  rw [wp_iff]
  intro tr a l' h' _
  exact List.foldlRecOn tr μ hg fun g hg e _ => hP g e hg

theorem wp_ret {a : α} : wp M μ (ret a) Q g l h ↔ ∀ g' h', Irqs M μ g h g' h' → Q a g' l h' := Iff.rfl

theorem wp_call {o : Op} {k : Resp o → Prog Resp α} : wp M μ (call o k) Q g l h ↔
    ∀ g' h', Irqs M μ g h g' h' → ∀ r l₁ h₁, M.step o r l h' = some (l₁, h₁) →
      wp M μ (k r) Q (μ g' (.call o r l h')) l₁ h₁ := Iff.rfl

/-- A call that touches only the main loop's state, as `f` says. -/
def Machine.Owned (M : Machine Resp Irq L H) (o : Op) (f : Resp o → L → Option L) : Prop :=
  ∀ r l h, M.step o r l h = (f r l).map (·, h)

/-- The monitor ends up the same whether a handler runs before or after call `o`. -/
def Commutes (M : Machine Resp Irq L H) (μ : G → Entry Resp Irq L H → G) (o : Op) : Prop :=
  ∀ g r l i h h', M.handle i h = some h' →
    μ (μ g (.irq i h)) (.call o r l h') = μ (μ g (.call o r l h)) (.irq i h)

/-- Handlers before an owned call can be taken after it. -/
theorem Irqs.past_call {o : Op} {r : Resp o} (hc : Commutes M μ o) (h1 : Irqs M μ g h g' h') :
    Irqs M μ (μ g (.call o r l h)) h (μ g' (.call o r l h')) h' := by
  induction h1 with
  | refl => exact .refl
  | step hi _ ih =>
    rw [hc _ r l _ _ _ hi] at ih
    exact .step hi ih

/-- **Owned calls need no interrupts**: handlers that run before the call act as if
they ran after it. -/
theorem wp_owned {o : Op} {f : Resp o → L → Option L} (ho : M.Owned o f) (hc : Commutes M μ o)
    {k : Resp o → Prog Resp α} : wp M μ (call o k) Q g l h ↔
      ∀ r l₁, f r l = some l₁ → wp M μ (k r) Q (μ g (.call o r l h)) l₁ h := by
  constructor
  · intro hw r l₁ hf
    have hs : M.step o r l h = some (l₁, h) := by rw [ho, hf]; rfl
    exact hw g h .refl r l₁ h hs
  · intro hw g₁ h₁ hi r l₁ h₂ hs
    rw [ho] at hs
    obtain ⟨l₂, hf, heq⟩ := Option.map_eq_some_iff.1 hs
    obtain ⟨rfl, rfl⟩ := Prod.mk.inj heq
    -- what the handlers did is moved behind the call
    exact wp_irqs (hw r l₂ hf) (hi.past_call hc)

theorem uninterrupted_nil : Uninterrupted ([] : List (Entry Resp Irq L H)) := fun _ _ h => by simp at h

theorem uninterrupted_call {o : Op} {r : Resp o} {l : L} {h : H} {tr : List (Entry Resp Irq L H)} :
    Uninterrupted (.call o r l h :: tr) ↔ Uninterrupted tr := by simp [Uninterrupted]

/-- **`may` describes the uninterrupted executions.** -/
theorem may_iff : may M μ p Q g l h ↔
    ∃ tr a l' h', Exec M p l h tr a l' h' ∧ Uninterrupted tr ∧ Q a (tr.foldl μ g) l' h' := by
  constructor
  · intro hm
    induction p generalizing g l h with
    | ret a => exact ⟨[], a, l, h, .ret, uninterrupted_nil, hm⟩
    | call o k ih =>
      obtain ⟨r, l₁, h₁, hs, hm⟩ := hm
      obtain ⟨tr, a, l', h', he, hu, hq⟩ := ih r hm
      exact ⟨_, a, l', h', .call hs he, uninterrupted_call.2 hu, hq⟩
  · rintro ⟨tr, a, l', h', he, hu, hq⟩
    induction he generalizing g with
    | ret => exact hq
    | call hs _ ih => exact ⟨_, _, _, hs, ih (uninterrupted_call.1 hu) hq⟩
    | irq hi _ _ => exact absurd List.mem_cons_self (hu _ _)

theorem may_bind {f : α → Prog Resp β} {Q : β → G → L → H → Prop} :
    may M μ (p >>= f) Q g l h ↔ may M μ p (fun a g l h => may M μ (f a) Q g l h) g l h := by
  induction p generalizing g l h with
  | ret a => exact Iff.rfl
  | call o k ih => simp only [call_bind, may, ih]

theorem may_mono {Q' : α → G → L → H → Prop} (hQ : ∀ a g l h, Q a g l h → Q' a g l h)
    (hm : may M μ p Q g l h) : may M μ p Q' g l h := by
  induction p generalizing g l h with
  | ret a => exact hQ _ _ _ _ hm
  | call o k ih =>
    obtain ⟨r, l₁, h₁, hs, hm⟩ := hm
    exact ⟨r, l₁, h₁, hs, ih r hm⟩

theorem may_ret {a : α} : may M μ (ret a) Q g l h ↔ Q a g l h := Iff.rfl

theorem may_owned {o : Op} {f : Resp o → L → Option L} (ho : M.Owned o f)
    {k : Resp o → Prog Resp α} : may M μ (call o k) Q g l h ↔
      ∃ r l₁, f r l = some l₁ ∧ may M μ (k r) Q (μ g (.call o r l h)) l₁ h := by
  constructor
  · rintro ⟨r, l₁, h₁, hs, hm⟩
    rw [ho] at hs
    obtain ⟨l₂, hf, heq⟩ := Option.map_eq_some_iff.1 hs
    obtain ⟨rfl, rfl⟩ := Prod.mk.inj heq
    exact ⟨r, l₂, hf, hm⟩
  · rintro ⟨r, l₁, hf, hm⟩
    exact ⟨r, l₁, h, by rw [ho, hf]; rfl, hm⟩

-- from here on by its rules only: unfolding it runs the program
attribute [irreducible] wp

end Interrupt
