import M20Strain.Interrupt.Every

/-!
# A machine without some of its calls

`M.without bad` is the machine on which the calls in `bad` have no answer, as where they fault.

* `exec_without`, `run_without`: what it does is what `M` does without making such a call.
* `Exec.stops`: where `M` makes such a call, a program gets stuck.
* `Stops.goes_on`: where a program that never gets stuck on `M` does, `M` makes such a call.
-/

namespace Interrupt

open Prog

variable {Op : Type} {Resp : Op → Type} {Irq L H T α : Type}

/-- The machine on which the calls in `bad` have no answer. -/
def Machine.without (M : Machine Resp Irq L H) (bad : Op → Bool) : Machine Resp Irq L H where
  step o r l h := if bad o then none else M.step o r l h
  handle := M.handle

variable {M : Machine Resp Irq L H} {bad : Op → Bool} {p : Prog Resp α} {a : α} {o : Op} {r : Resp o} {l l' : L}
  {h h' : H} {tr : List (Entry Resp Irq L H)}

theorem without_step : (M.without bad).step o r l h = some (l', h') ↔
    bad o = false ∧ M.step o r l h = some (l', h') := by
  cases hb : bad o with
  | false => simp [Machine.without, hb]
  | true => simp [Machine.without, hb]

/-- A call that gets stuck only there is one of `bad`. -/
theorem without_stuck (hans : ∃ r l' h', M.step o r l h = some (l', h'))
    (hn : ∀ r, (M.without bad).step o r l h = none) : bad o = true := by
  obtain ⟨r, l', h', hs⟩ := hans
  by_contra hb
  have hs' := without_step.2 ⟨Bool.eq_false_iff.2 hb, hs⟩
  rw [hn r] at hs'
  cases hs'

/-- No call of the trace is in `bad`. -/
def Avoids (bad : Op → Bool) (tr : List (Entry Resp Irq L H)) : Prop := ∀ e ∈ tr, e.OfCall fun o => bad o = false

theorem avoids_append {tr' : List (Entry Resp Irq L H)} :
    Avoids bad (tr ++ tr') ↔ Avoids bad tr ∧ Avoids bad tr' := List.forall_mem_append

theorem exec_without : Exec (M.without bad) p l h tr a l' h' ↔ Exec M p l h tr a l' h' ∧ Avoids bad tr := by
  constructor
  · intro he
    induction he with
    | ret => exact ⟨.ret, List.forall_mem_nil _⟩
    | call hs _ ih =>
      obtain ⟨hb, hs⟩ := without_step.1 hs
      exact ⟨.call hs ih.1, List.forall_mem_cons.2 ⟨hb, ih.2⟩⟩
    | irq hi _ ih => exact ⟨.irq hi ih.1, List.forall_mem_cons.2 ⟨trivial, ih.2⟩⟩
  · rintro ⟨he, hb⟩
    induction he with
    | ret => exact .ret
    | call hs _ ih =>
      obtain ⟨hb, hrest⟩ := List.forall_mem_cons.1 hb
      exact .call (without_step.2 ⟨hb, hs⟩) (ih hrest)
    | irq hi _ ih => exact .irq hi (ih (List.forall_mem_cons.1 hb).2)

/-- **The runs without such a call.** -/
theorem run_without {body : T → Prog Resp Unit} :
    Run (M.without bad) body l h tr l' h' ↔ Run M body l h tr l' h' ∧ Avoids bad tr := by
  constructor
  · intro hr
    induction hr with
    | nil => exact ⟨.nil, List.forall_mem_nil _⟩
    | irq i _ hi ih => exact ⟨.irq i ih.1 hi, avoids_append.2 ⟨ih.2, List.forall_mem_singleton.2 trivial⟩⟩
    | task t _ he ih =>
      obtain ⟨he, hb⟩ := exec_without.1 he
      exact ⟨.task t ih.1 he, avoids_append.2 ⟨ih.2, hb⟩⟩
  · rintro ⟨hr, hb⟩
    induction hr with
    | nil => exact .nil
    | irq i _ hi ih => exact .irq i (ih (avoids_append.1 hb).1) hi
    | task t _ he ih =>
      obtain ⟨hb, hlast⟩ := avoids_append.1 hb
      exact .task t (ih hb) (exec_without.2 ⟨he, hlast⟩)

/-- The first such call stops the program. -/
theorem Exec.stops (he : Exec M p l h tr a l' h') (hb : ¬ Avoids bad tr) :
    ∃ o l₁ h₁, Stops (M.without bad) p l h o l₁ h₁ := by
  induction he with
  | ret => exact absurd (List.forall_mem_nil _) hb
  | @call o k r l h l₁ h₁ tr a l' h' hs _ ih =>
    cases ho : bad o with
    | true => exact ⟨o, l, h, .now fun r => by simp [Machine.without, ho]⟩
    | false =>
      have hrest : ¬ Avoids bad tr := fun hrest => hb (List.forall_mem_cons.2 ⟨ho, hrest⟩)
      obtain ⟨o', l₂, h₂, hstop⟩ := ih hrest
      exact ⟨o', l₂, h₂, .call (without_step.2 ⟨ho, hs⟩) hstop⟩
  | irq hi _ ih =>
    have hrest := fun hrest => hb (List.forall_mem_cons.2 ⟨trivial, hrest⟩)
    obtain ⟨o, l₁, h₁, hstop⟩ := ih hrest
    exact ⟨o, l₁, h₁, .irq hi hstop⟩

/-- **Where the program gets stuck `M` goes on**, with such a call. -/
theorem Stops.goes_on (hp : AllCalls (fun o => ∀ l h, ∃ r l' h', M.step o r l h = some (l', h')) p)
    (hs : Stops (M.without bad) p l h o l' h') :
    bad o = true ∧ ∃ r tr a l₁ h₁, Exec M p l h tr a l₁ h₁ ∧ .call o r l' h' ∈ tr := by
  induction hs with
  | @now o k l h hn =>
    obtain ⟨ho, hk⟩ := hp
    obtain ⟨r, l₁, h₁, hstep⟩ := ho l h
    obtain ⟨tr, a, l₂, h₂, he⟩ := (hk r).returns (l := l₁) (h := h₁)
    exact ⟨without_stuck (ho l h) hn, r, _, a, l₂, h₂, .call hstep he, List.mem_cons_self⟩
  | call hstep _ ih =>
    obtain ⟨hb, r, tr, a, l₂, h₂, he, hmem⟩ := ih (hp.2 _)
    exact ⟨hb, r, _, a, l₂, h₂, .call (without_step.1 hstep).2 he, List.mem_cons_of_mem _ hmem⟩
  | irq hi _ ih =>
    obtain ⟨hb, r, tr, a, l₂, h₂, he, hmem⟩ := ih hp
    exact ⟨hb, r, _, a, l₂, h₂, .irq hi he, List.mem_cons_of_mem _ hmem⟩

end Interrupt
