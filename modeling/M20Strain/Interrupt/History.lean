import M20Strain.Interrupt.Run

/-!
# History variables

A *history* is a part of the main loop's state that records the calls made and
decides nothing. A property of what a run has been answered so far can be proved
as one of the history in the state, on a machine that keeps one.

* `Run.lift`: every run of `M` is a run of the machine with history, without it.
* `Run.records`: along a run the history is the record of the calls in the trace.
* `checked_history`: a check that reads the record of the trace, as a check that
  reads the history in the state of each call.
-/

namespace Interrupt

variable {Op : Type} {Resp : Op → Type} {Irq L L' H G N T α : Type}

/-- `M'` is `M` with a history in its state, which `forget` drops. -/
structure Lifts (M : Machine Resp Irq L H) (M' : Machine Resp Irq L' H) (forget : L' → L) : Prop where
  step : ∀ o r l h l₁ h₁, M.step o r (forget l) h = some (l₁, h₁) →
    ∃ l₂, M'.step o r l h = some (l₂, h₁) ∧ forget l₂ = l₁
  handle : ∀ i h, M'.handle i h = M.handle i h

/-- The same entry, with the state seen through `f`. -/
def Entry.map (f : L' → L) : Entry Resp Irq L' H → Entry Resp Irq L H
  | .call o r l h => .call o r (f l) h
  | .irq i h => .irq i h

section Lift

variable {M : Machine Resp Irq L H} {M' : Machine Resp Irq L' H} {forget : L' → L} {h h' : H} {l' : L}
  {tr : List (Entry Resp Irq L H)}

theorem Exec.lift (hM : Lifts M M' forget) {p : Prog Resp α} {a : α} {l₀ : L'}
    (he : Exec M p (forget l₀) h tr a l' h') :
    ∃ tr₁ l₁, Exec M' p l₀ h tr₁ a l₁ h' ∧ forget l₁ = l' ∧ tr₁.map (Entry.map forget) = tr := by
  generalize hl : forget l₀ = l at he
  induction he generalizing l₀ with
  | ret =>
    subst hl
    exact ⟨[], l₀, .ret, rfl, rfl⟩
  | @call o k r l h l₁ h₁ tr a l' h' hs _ ih =>
    subst hl
    obtain ⟨l₂, hs, hl⟩ := hM.step o r l₀ h l₁ h₁ hs
    obtain ⟨tr₁, l₃, he, hf, rfl⟩ := ih hl
    exact ⟨.call o r l₀ h :: tr₁, l₃, .call hs he, hf, rfl⟩
  | @irq p i l h h₁ tr a l' h' hi _ ih =>
    obtain ⟨tr₁, l₃, he, hf, rfl⟩ := ih hl
    rw [← hM.handle] at hi
    exact ⟨.irq i h :: tr₁, l₃, .irq hi he, hf, rfl⟩

/-- **Every run can keep a history.** -/
theorem Run.lift (hM : Lifts M M' forget) {body : T → Prog Resp Unit} {l₀ : L'}
    (hr : Run M body (forget l₀) h tr l' h') :
    ∃ tr₁ l₁, Run M' body l₀ h tr₁ l₁ h' ∧ forget l₁ = l' ∧ tr₁.map (Entry.map forget) = tr := by
  induction hr with
  | nil => exact ⟨[], l₀, .nil, rfl, rfl⟩
  | irq i _ hi ih =>
    obtain ⟨tr₁, l₁, hr, hf, rfl⟩ := ih
    rw [← hM.handle] at hi
    exact ⟨_, l₁, .irq i hr hi, hf, by rw [List.map_append]; rfl⟩
  | task t _ he ih =>
    obtain ⟨tr₁, l₁, hr, rfl, rfl⟩ := ih
    obtain ⟨tr₂, l₂, he₂, hf, rfl⟩ := he.lift hM
    exact ⟨_, l₂, .task t hr he₂, hf, by rw [List.map_append]⟩

end Lift

/-- The monitor that records the calls by `ν`. -/
def record (ν : N → (o : Op) → Resp o → N) : N → Entry Resp Irq L H → N
  | n, .call o r _ _ => ν n o r
  | n, .irq _ _ => n

/-- Each call records itself in the history. -/
def Keeps (M : Machine Resp Irq L H) (hist : L → N) (ν : N → (o : Op) → Resp o → N) : Prop :=
  ∀ o r l h l₁ h₁, M.step o r l h = some (l₁, h₁) → hist l₁ = ν (hist l) o r

/-- The history in the state of a call is `n`. -/
def Shows (hist : L → N) : N → Entry Resp Irq L H → Prop
  | n, .call _ _ l _ => hist l = n
  | _, .irq _ _ => True

/-- The record does not depend on the states in the trace. -/
theorem foldl_record_map {f : L' → L} {ν : N → (o : Op) → Resp o → N} {n : N} {tr : List (Entry Resp Irq L' H)} :
    (tr.map (Entry.map f)).foldl (record ν) n = tr.foldl (record ν) n := by
  induction tr generalizing n with
  | nil => rfl
  | cons e tr ih => cases e <;> exact ih

section Record

variable {M : Machine Resp Irq L H} {hist : L → N} {ν : N → (o : Op) → Resp o → N} {l l' : L} {h h' : H}
  {tr : List (Entry Resp Irq L H)}

theorem Exec.records (hM : Keeps M hist ν) {p : Prog Resp α} {a : α} (he : Exec M p l h tr a l' h') :
    hist l' = tr.foldl (record ν) (hist l) ∧ Checked (record ν) (Shows hist) (hist l) tr := by
  induction he with
  | ret => exact ⟨rfl, trivial⟩
  | @call o k r l h l₁ h₁ tr a l' h' hs _ ih =>
    rw [hM o r l h l₁ h₁ hs] at ih
    exact ⟨ih.1, rfl, ih.2⟩
  | irq _ _ ih => exact ⟨ih.1, trivial, ih.2⟩

/-- **Along a run, the history is the record of the trace.** -/
theorem Run.records (hM : Keeps M hist ν) {body : T → Prog Resp Unit} (hr : Run M body l h tr l' h') :
    hist l' = tr.foldl (record ν) (hist l) ∧ Checked (record ν) (Shows hist) (hist l) tr := by
  induction hr with
  | nil => exact ⟨rfl, trivial⟩
  | irq i _ _ ih =>
    rw [List.foldl_append, checked_append]
    exact ⟨ih.1, ih.2, trivial, trivial⟩
  | task t _ he ih =>
    have H := he.records hM
    rw [ih.1] at H
    rw [List.foldl_append, checked_append]
    exact ⟨H.1, ih.2, H.2⟩

end Record

/-- A function of the record and an entry, as one of an entry of the machine with history.
Interrupts have no history to read, and get `n₀`. -/
def reading {β : Type*} (hist : L' → N) (forget : L' → L) (n₀ : N) (f : N → Entry Resp Irq L H → β) :
    Entry Resp Irq L' H → β
  | .call o r l h => f (hist l) (.call o r (forget l) h)
  | .irq i h => f n₀ (.irq i h)

/-- **Reading the record of the trace is reading the history in the state.** The monitor
`γ` and the check `c` are given the record. -/
theorem checked_history {hist : L' → N} {forget : L' → L} {ν : N → (o : Op) → Resp o → N} {n₀ : N}
    {γ : N → G → Entry Resp Irq L H → G} {c : N → G → Entry Resp Irq L H → Prop}
    (hγ : ∀ n g i h, γ n g (.irq i h) = γ n₀ g (.irq i h)) (hc : ∀ n g i h, c n g (.irq i h) ↔ c n₀ g (.irq i h))
    {tr : List (Entry Resp Irq L' H)} {n : N} {g : G} (hl : Checked (record ν) (Shows hist) n tr) :
    Checked (fun k e => (record ν k.1 e, γ k.1 k.2 e)) (fun k e => c k.1 k.2 e) (n, g)
        (tr.map (Entry.map forget)) ↔
      Checked (fun g e => reading hist forget n₀ (fun n => γ n g) e)
        (fun g e => reading hist forget n₀ (fun n => c n g) e) g tr := by
  induction tr generalizing n g with
  | nil => exact Iff.rfl
  | cons e tr ih =>
    obtain ⟨hs, hl⟩ := hl
    cases e with
    | call o r l h =>
      obtain rfl : hist l = n := hs
      exact and_congr_right fun _ => ih hl
    | irq i h =>
      refine and_congr (hc n g i h) ?_
      change Checked _ _ (n, γ n g (.irq i h)) _ ↔ _
      rw [hγ]
      exact ih hl

end Interrupt
