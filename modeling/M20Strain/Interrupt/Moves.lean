import M20Strain.Interrupt.Run

/-!
# Runs as paths of an abstract system

An abstract system goes from state to state, and each of its moves shows a word. A main loop
whose traces are seen through `see`, and its states through `abs`,

* refines the system when each of its tasks is a move or cannot be seen (`Refines`): its runs
  are paths (`Refines.path`);
* realises the system when each move can be made by a run (`Realises`): all paths are runs
  (`Realises.run`).
-/

namespace Interrupt

variable {Op : Type} {Resp : Op → Type} {Irq L H T S A : Type}

/-- The paths from `s`, with the word they show. -/
inductive Path (Move : S → List A → S → Prop) (s : S) : List A → S → Prop where
  | nil : Path Move s [] s
  | snoc {w s₁ w₁ s₂} : Path Move s w s₁ → Move s₁ w₁ s₂ → Path Move s (w ++ w₁) s₂

variable {Move : S → List A → S → Prop} {s s' : S} {w w' : List A}

/-- The system moves, or stays and shows nothing. -/
def Steps (Move : S → List A → S → Prop) (s : S) (w : List A) (s' : S) : Prop := w = [] ∧ s' = s ∨ Move s w s'

theorem Path.steps {s₁ : S} (hp : Path Move s w s₁) (hs : Steps Move s₁ w' s') : Path Move s (w ++ w') s' := by
  rcases hs with ⟨rfl, rfl⟩ | hs
  · rw [List.append_nil]
    exact hp
  · exact hp.snoc hs

variable {M : Machine Resp Irq L H} {body : T → Prog Resp Unit} {I : L → H → Prop} {abs : L → S}
  {see : Entry Resp Irq L H → Option A} {l l' : L} {h h' : H} {tr : List (Entry Resp Irq L H)}

/-- From states in `I`, tasks are steps of the system and handlers cannot be seen. -/
structure Refines (M : Machine Resp Irq L H) (body : T → Prog Resp Unit) (I : L → H → Prop) (abs : L → S)
    (see : Entry Resp Irq L H → Option A) (Move : S → List A → S → Prop) : Prop where
  irq : ∀ i l h h', I l h → M.handle i h = some h' → I l h' ∧ see (.irq i h) = none
  task : ∀ t l h tr l' h', I l h → Exec M (body t) l h tr () l' h' →
    I l' h' ∧ Steps Move (abs l) (tr.filterMap see) (abs l')

theorem Refines.run (hM : Refines M body I abs see Move) (hr : Run M body l h tr l' h') (hI : I l h) :
    I l' h' ∧ Path Move (abs l) (tr.filterMap see) (abs l') := by
  induction hr with
  | nil => exact ⟨hI, .nil⟩
  | irq i _ hi ih =>
    obtain ⟨hI', hsee⟩ := hM.irq _ _ _ _ ih.1 hi
    rw [List.filterMap_append, List.filterMap_cons_none hsee, List.filterMap_nil, List.append_nil]
    exact ⟨hI', ih.2⟩
  | task t _ he ih =>
    obtain ⟨hI', hs⟩ := hM.task _ _ _ _ _ _ ih.1 he
    rw [List.filterMap_append]
    exact ⟨hI', ih.2.steps hs⟩

/-- **Runs are paths.** -/
theorem Refines.path (hM : Refines M body I abs see Move) (hr : Run M body l h tr l' h') (hI : I l h) :
    Path Move (abs l) (tr.filterMap see) (abs l') := (hM.run hr hI).2

/-- From states in `I`, each move is what some run shows. -/
def Realises (M : Machine Resp Irq L H) (body : T → Prog Resp Unit) (I : L → H → Prop) (abs : L → S)
    (see : Entry Resp Irq L H → Option A) (Move : S → List A → S → Prop) : Prop :=
  ∀ l h w s', I l h → Move (abs l) w s' →
    ∃ tr l' h', Run M body l h tr l' h' ∧ tr.filterMap see = w ∧ abs l' = s'

/-- **Paths are runs.** -/
theorem Realises.run (hR : Realises M body I abs see Move) (hM : Refines M body I abs see Move)
    (hp : Path Move (abs l) w s') (hI : I l h) :
    ∃ tr l' h', Run M body l h tr l' h' ∧ tr.filterMap see = w ∧ abs l' = s' := by
  induction hp with
  | nil => exact ⟨[], l, h, .nil, rfl, rfl⟩
  | snoc _ hm ih =>
    obtain ⟨tr₁, l₁, h₁, hr₁, rfl, rfl⟩ := ih
    obtain ⟨tr₂, l₂, h₂, hr₂, rfl, rfl⟩ := hR l₁ h₁ _ _ (hM.run hr₁ hI).1 hm
    exact ⟨_, l₂, h₂, hr₁.append hr₂, List.filterMap_append, rfl⟩

/-- **What can be seen is exactly what the system can show.** -/
theorem Realises.path_iff (hR : Realises M body I abs see Move) (hM : Refines M body I abs see Move) (hI : I l h) :
    (∃ tr l' h', Run M body l h tr l' h' ∧ tr.filterMap see = w ∧ abs l' = s') ↔ Path Move (abs l) w s' := by
  constructor
  · rintro ⟨tr, l', h', hr, rfl, rfl⟩
    exact hM.path hr hI
  · intro hp
    exact hR.run hM hp hI

/-- A task that ends where a move leads shows the word of the move, if that is the only one
between the two states. -/
theorem Refines.shows (hM : Refines M body I abs see Move) (hI : I l h)
    (hne : ∀ w s, ¬ Move s w s) (huniq : ∀ s w w' s', Move s w s' → Move s w' s' → w = w') {t : T}
    (he : Exec M (body t) l h tr () l' h') (hm : Move (abs l) w (abs l')) : tr.filterMap see = w := by
  rcases (hM.task _ _ _ _ _ _ hI he).2 with ⟨-, heq⟩ | hm'
  · rw [heq] at hm
    exact absurd hm (hne _ _)
  · exact huniq _ _ _ _ hm' hm

end Interrupt
