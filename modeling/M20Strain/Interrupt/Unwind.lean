import M20Strain.Interrupt.Every

/-!
# Tasks without influence

`see` says what is seen of a call and its answer. That some tasks have no influence on what is
seen is proved call by call.

* `Mimics`: whatever one program does, another one can do from related states, and what is seen
  is the same; the two may be answered differently.
* `Hides`: a call that is not seen, and leaves the main loop in a related state.
* `Run.unwind`: what a main loop shows, it can show without the tasks that hide.
-/

namespace Interrupt

open Prog

variable {Op : Type} {Resp : Op → Type} {Irq L H T T' X α β : Type}

/-- What is seen of an entry: of a call what `see` says, and every handler. -/
def Entry.shown (see : (o : Op) → Resp o → Option X) : Entry Resp Irq L H → Option (X ⊕ Irq)
  | .call o r _ _ => (see o r).map .inl
  | .irq i _ => some (.inr i)

variable (M : Machine Resp Irq L H) (R : L → L → Prop) (see : (o : Op) → Resp o → Option X)

/-- Whatever the first program does, the second one can do from every related state. -/
def Mimics : Prog Resp α → Prog Resp α → Prop
  | ret a, q => q = ret a
  | call o k, q => ∃ o' k', q = call o' k' ∧ ∀ r l h l₁ h₁ m, M.step o r l h = some (l₁, h₁) → R l m →
      ∃ r' m₁, M.step o' r' m h = some (m₁, h₁) ∧ R l₁ m₁ ∧ see o' r' = see o r ∧ Mimics (k r) (k' r')

/-- The call cannot tell related states apart. -/
def Unaffected (o : Op) : Prop :=
  ∀ r l h l₁ h₁ m, M.step o r l h = some (l₁, h₁) → R l m → ∃ m₁, M.step o r m h = some (m₁, h₁) ∧ R l₁ m₁

/-- Nothing is seen of the call but that it leads to a related state. -/
def Hides (o : Op) : Prop := ∀ r l h l₁ h₁, M.step o r l h = some (l₁, h₁) → h₁ = h ∧ R l l₁ ∧ see o r = none

variable {M R see} {p q : Prog Resp α} {f g : α → Prog Resp β} {a : α} {l l' m : L} {h h' : H}
  {tr : List (Entry Resp Irq L H)}

namespace Mimics

theorem refl (hp : AllCalls (Unaffected M R) p) : Mimics M R see p p := by
  induction p with
  | ret a => rfl
  | call o k ih =>
    refine ⟨o, k, rfl, ?_⟩
    intro r l h l₁ h₁ m hs hm
    obtain ⟨m₁, hs', hm'⟩ := hp.1 r l h l₁ h₁ m hs hm
    exact ⟨r, m₁, hs', hm', rfl, ih r (hp.2 r)⟩

theorem bind (hp : Mimics M R see p q) (hf : ∀ a, Mimics M R see (f a) (g a)) :
    Mimics M R see (p >>= f) (q >>= g) := by
  induction p generalizing q with
  | ret a =>
    rw [show q = ret a from hp]
    exact hf a
  | call o k ih =>
    obtain ⟨o', k', rfl, H⟩ := hp
    refine ⟨o', fun r => k' r >>= g, rfl, ?_⟩
    intro r l h l₁ h₁ m hs hm
    obtain ⟨r', m₁, hs', hm', hsee, hk⟩ := H r l h l₁ h₁ m hs hm
    exact ⟨r', m₁, hs', hm', hsee, ih r hk⟩

/-- **What is seen of a program is seen of one that mimics it**, with the same handlers. -/
theorem exec (hp : Mimics M R see p q) (hm : R l m) (he : Exec M p l h tr a l' h') :
    ∃ tr' m', Exec M q m h tr' a m' h' ∧ R l' m' ∧
      tr'.filterMap (Entry.shown see) = tr.filterMap (Entry.shown see) := by
  induction he generalizing q m with
  | ret =>
    rw [show q = ret _ from hp]
    exact ⟨[], m, .ret, hm, rfl⟩
  | @call o k r l h l₁ h₁ tr a l' h' hs _ ih =>
    obtain ⟨o', k', rfl, H⟩ := hp
    obtain ⟨r', m₁, hs', hm', hsee, hk⟩ := H r l h l₁ h₁ m hs hm
    obtain ⟨tr', m', he', hm', heq⟩ := ih hk hm'
    refine ⟨_, m', .call hs' he', hm', ?_⟩
    simp only [List.filterMap_cons, Entry.shown, hsee, heq]
  | irq hi _ ih =>
    obtain ⟨tr', m', he', hm', heq⟩ := ih hp hm
    refine ⟨_, m', .irq hi he', hm', ?_⟩
    simp only [List.filterMap_cons, Entry.shown, heq]

end Mimics

/-- Of a program that hides, the handlers are seen. -/
theorem Exec.hidden (body' : T' → Prog Resp Unit) (m : L) (hR : Equivalence R) (hp : AllCalls (Hides M R see) p)
    (he : Exec M p l h tr a l' h') : R l l' ∧
      ∃ tr', Run M body' m h tr' m h' ∧ tr'.filterMap (Entry.shown see) = tr.filterMap (Entry.shown see) := by
  induction he with
  | @ret _ l h => exact ⟨hR.refl l, [], .nil, rfl⟩
  | @call o k r l h l₁ h₁ tr a l' h' hs _ ih =>
    obtain ⟨rfl, hl, hsee⟩ := hp.1 r l h l₁ h₁ hs
    obtain ⟨hl', tr', hr, heq⟩ := ih (hp.2 r)
    refine ⟨hR.trans hl hl', tr', hr, ?_⟩
    simp only [List.filterMap_cons, Entry.shown, hsee, heq, Option.map_none]
  | @irq _ i _ h h₁ _ _ _ _ hi _ ih =>
    obtain ⟨hl, tr', hr, heq⟩ := ih hp
    have h1 : Run M body' m h ([] ++ [.irq i h]) m h₁ := .irq i .nil hi
    refine ⟨hl, _, h1.append hr, ?_⟩
    simp only [List.nil_append, List.cons_append, List.filterMap_cons, Entry.shown, heq]

/-- **What a main loop shows, it can show without the tasks that hide**, from related states to
related states. -/
theorem Run.unwind {body : T → Prog Resp Unit} {body' : T' → Prog Resp Unit} (hR : Equivalence R)
    (ht : ∀ t, AllCalls (Hides M R see) (body t) ∨ ∃ t', Mimics M R see (body t) (body' t'))
    (hr : Run M body l h tr l' h') (hm : R l m) :
    ∃ tr' m', Run M body' m h tr' m' h' ∧ R l' m' ∧
      tr'.filterMap (Entry.shown see) = tr.filterMap (Entry.shown see) := by
  induction hr with
  | nil => exact ⟨[], m, .nil, hm, rfl⟩
  | irq i _ hi ih =>
    obtain ⟨tr', m', hr', hm', heq⟩ := ih
    refine ⟨_, m', .irq i hr' hi, hm', ?_⟩
    simp only [List.filterMap_append, heq, List.filterMap_cons, Entry.shown]
  | task t _ he ih =>
    obtain ⟨tr', m', hr', hm', heq⟩ := ih
    rcases ht t with hp | ⟨t', hp⟩
    · -- the handlers that ran during the task run between two tasks
      obtain ⟨hl, tr₁, hr₁, heq₁⟩ := he.hidden body' m' hR hp
      refine ⟨_, m', hr'.append hr₁, hR.trans (hR.symm hl) hm', ?_⟩
      rw [List.filterMap_append, List.filterMap_append, heq, heq₁]
    · obtain ⟨tr₁, m₁, he', hm₁, heq₁⟩ := hp.exec hm' he
      refine ⟨_, m₁, .task t' hr' he', hm₁, ?_⟩
      rw [List.filterMap_append, List.filterMap_append, heq, heq₁]

end Interrupt
