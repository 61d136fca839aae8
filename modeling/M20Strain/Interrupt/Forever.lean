import M20Strain.Interrupt.Every
import M20Strain.Interrupt.Replay
import Mathlib.Order.Filter.AtTopBot.Basic

/-!
# Infinite runs

What happens again and again along an infinite sequence of steps.

* `frequently_moved`: if a step that helps comes again and again, and moves once the system is
  armed, then the system moves again and again.
* `frequently_goal`: if it does, and every move reaches the goal or lowers a rank that nothing
  else raises, then the goal is reached again and again.
* `Endless`: an infinite run in pieces; its prefixes are runs (`Endless.upTo`).
* `execute_isSome`, `execute_entries`: an environment that always answers can be replayed, and
  the trace has its answers and interrupts only.
-/

namespace Interrupt

open Filter

section Response

variable {Armed Helps Moves Goal : ℕ → Prop}

/-- **Waiting ends**: the system becomes armed unless it moves, stays so until it moves, and then
moves with the next step that helps. -/
theorem frequently_moved (harm : ∀ n, (∀ m, n ≤ m → ¬ Moves m) → ∃ m, n ≤ m ∧ Armed m)
    (hkeep : ∀ n, Armed n → ¬ Moves n → Armed (n + 1)) (hmove : ∀ n, Armed n → Helps n → Moves n)
    (hhelp : ∃ᶠ n in atTop, Helps n) : ∃ᶠ n in atTop, Moves n := by
  rw [frequently_atTop] at hhelp ⊢
  intro n
  by_contra hnone
  have hstays : ∀ m, n ≤ m → ¬ Moves m := fun m hm hmoves => hnone ⟨m, hm, hmoves⟩
  obtain ⟨a, hna, ha⟩ := harm n hstays
  have harmed : ∀ m, a ≤ m → Armed m := by
    intro m hm
    induction m, hm using Nat.le_induction with
    | base => exact ha
    | succ m hm ih => exact hkeep m ih (hstays m (hna.trans hm))
  obtain ⟨m, hm, hhelps⟩ := hhelp a
  exact hstays m (hna.trans hm) (hmove m (harmed m hm) hhelps)

/-- **The goal recurs**, by a rank. -/
theorem frequently_goal (rank : ℕ → ℕ) (hrank : ∀ n, ¬ Goal n → rank (n + 1) ≤ rank n)
    (hmove : ∀ n, Moves n → Goal n ∨ rank (n + 1) < rank n) (hmoves : ∃ᶠ n in atTop, Moves n) :
    ∃ᶠ n in atTop, Goal n := by
  rw [frequently_atTop] at hmoves ⊢
  intro n
  by_contra hnone
  have hno : ∀ m, n ≤ m → ¬ Goal m := fun m hm hgoal => hnone ⟨m, hm, hgoal⟩
  have hle : ∀ a b, n ≤ a → a ≤ b → rank b ≤ rank a := by
    intro a b ha hab
    induction b, hab using Nat.le_induction with
    | base => exact le_rfl
    | succ b hab ih => exact (hrank b (hno b (ha.trans hab))).trans ih
  -- the rank cannot be lowered for ever
  have hlow : ∀ k a, n ≤ a → rank a ≤ k → False := by
    intro k
    induction k with
    | zero =>
      intro a ha hk
      obtain ⟨b, hb, hmb⟩ := hmoves a
      have hab := hle a b ha hb
      rcases hmove b hmb with hgoal | hlt
      · exact hno b (ha.trans hb) hgoal
      · omega
    | succ k ih =>
      intro a ha hk
      obtain ⟨b, hb, hmb⟩ := hmoves a
      have hab := hle a b ha hb
      rcases hmove b hmb with hgoal | hlt
      · exact hno b (ha.trans hb) hgoal
      · exact ih (b + 1) (by omega) (by omega)
  exact hlow (rank n) n le_rfl le_rfl

end Response

variable {Op : Type} {Resp : Op → Type} {Irq L H T α : Type} {M : Machine Resp Irq L H} {body : T → Prog Resp Unit}

/-- An infinite run, in pieces that are runs. -/
structure Endless (M : Machine Resp Irq L H) (body : T → Prog Resp Unit) where
  loc : ℕ → L
  shared : ℕ → H
  trace : ℕ → List (Entry Resp Irq L H)
  run : ∀ n, Run M body (loc n) (shared n) (trace n) (loc (n + 1)) (shared (n + 1))

/-- **The first pieces of an infinite run are a run.** -/
theorem Endless.upTo (r : Endless M body) (n : ℕ) :
    Run M body (r.loc 0) (r.shared 0) ((List.range n).flatMap r.trace) (r.loc n) (r.shared n) := by
  induction n with
  | zero => exact .nil
  | succ n ih =>
    rw [List.range_succ, List.flatMap_append, List.flatMap_singleton]
    exact ih.append (r.run n)

variable {env : Env Resp Irq L H} {P : Op → Prop} {p : Prog Resp α} {l l' : L} {h h' : H}
  {tr : List (Entry Resp Irq L H)} {a : α}

/-- An environment that answers every call a program can make can be replayed. -/
theorem execute_isSome (hans : ∀ o l h, P o → (M.step o (env.answer o l h) l h).isSome)
    (hirq : ∀ o l h, (handlers M (env.before o l h) h).isSome) (hp : AllCalls P p) :
    (execute M env p l h).isSome := by
  induction p generalizing l h with
  | ret a => rfl
  | call o k ih =>
    obtain ⟨⟨is, h₁⟩, hi⟩ := Option.isSome_iff_exists.1 (hirq o l h)
    obtain ⟨⟨l₂, h₂⟩, hs⟩ := Option.isSome_iff_exists.1 (hans o l h₁ hp.1)
    unfold execute
    simp only [hi, hs, Option.bind_some, Option.isSome_map]
    exact ih _ (hp.2 _)

/-- An entry that the environment made. -/
def Env.Made (env : Env Resp Irq L H) : Entry Resp Irq L H → Prop
  | .call o r l h => r = env.answer o l h
  | .irq i _ => ∃ o l h, i ∈ env.before o l h

theorem handlers_entries {is : List Irq} (hi : handlers M is h = some (tr, h')) :
    ∀ e ∈ tr, ∃ i h, i ∈ is ∧ e = .irq i h := by
  induction is generalizing h tr with
  | nil =>
    cases hi
    exact List.forall_mem_nil _
  | cons i is ih =>
    obtain ⟨h₁, hs, hi⟩ := Option.bind_eq_some_iff.1 hi
    obtain ⟨⟨tr₁, h₂⟩, hr, heq⟩ := Option.map_eq_some_iff.1 hi
    obtain ⟨rfl, rfl⟩ := Prod.mk.inj heq
    intro e he
    rcases List.mem_cons.1 he with rfl | he
    · exact ⟨i, h, List.mem_cons_self, rfl⟩
    · obtain ⟨j, h₃, hj, rfl⟩ := ih hr e he
      exact ⟨j, h₃, List.mem_cons_of_mem _ hj, rfl⟩

/-- The interrupts that the first call of a program finds. -/
theorem execute_first {o : Op} {k : Resp o → Prog Resp α} (he : execute M env (.call o k) l h = some (tr, a, l', h')) :
    ∀ i ∈ env.before o l h, ∃ h₁, .irq i h₁ ∈ tr := by
  have first {is : List Irq} {h h' : H} {tr : List (Entry Resp Irq L H)} (hi : handlers M is h = some (tr, h')) :
      ∀ i ∈ is, ∃ h₁, .irq i h₁ ∈ tr := by
    induction is generalizing h tr with
    | nil => exact List.forall_mem_nil _
    | cons j is ih =>
      obtain ⟨h₁, hs, hi⟩ := Option.bind_eq_some_iff.1 hi
      obtain ⟨⟨tr₁, h₂⟩, hr, heq⟩ := Option.map_eq_some_iff.1 hi
      obtain ⟨rfl, rfl⟩ := Prod.mk.inj heq
      intro i hmem
      rcases List.mem_cons.1 hmem with rfl | hmem
      · exact ⟨h, List.mem_cons_self⟩
      · obtain ⟨h₃, h3⟩ := ih hr i hmem
        exact ⟨h₃, List.mem_cons_of_mem _ h3⟩
  obtain ⟨⟨is, h₁⟩, hi, he⟩ := Option.bind_eq_some_iff.1 he
  obtain ⟨⟨l₂, h₂⟩, hs, he⟩ := Option.bind_eq_some_iff.1 he
  obtain ⟨⟨tr₁, r⟩, he, heq⟩ := Option.map_eq_some_iff.1 he
  obtain ⟨rfl, rfl⟩ := Prod.mk.inj heq
  intro i hmem
  obtain ⟨h₃, h3⟩ := first hi i hmem
  exact ⟨h₃, List.mem_append_left _ h3⟩

theorem execute_entries (he : execute M env p l h = some (tr, a, l', h')) : ∀ e ∈ tr, env.Made e := by
  induction p generalizing l h tr with
  | ret b =>
    cases he
    exact List.forall_mem_nil _
  | call o k ih =>
    obtain ⟨⟨is, h₁⟩, hi, he⟩ := Option.bind_eq_some_iff.1 he
    obtain ⟨⟨l₂, h₂⟩, hs, he⟩ := Option.bind_eq_some_iff.1 he
    obtain ⟨⟨tr₁, r⟩, he, heq⟩ := Option.map_eq_some_iff.1 he
    obtain ⟨rfl, rfl⟩ := Prod.mk.inj heq
    intro e hmem
    rcases List.mem_append.1 hmem with hmem | hmem
    · obtain ⟨i, h₃, hin, rfl⟩ := handlers_entries hi e hmem
      exact ⟨o, l, h, hin⟩
    · rcases List.mem_cons.1 hmem with rfl | hmem
      · rfl
      · exact ih _ he e hmem

end Interrupt
