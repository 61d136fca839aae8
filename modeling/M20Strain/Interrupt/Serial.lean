import M20Strain.Interrupt.Calls
import M20Strain.Interrupt.Run

/-!
# Interrupt granularity

A run is *serial* when handlers run between tasks only.

* `Serial`: the effect of a task is that of some handlers, then the task alone or
  nothing, then some more handlers.
* `Run.serial`: when every task is serializable, every run ends where some serial run ends.
* `AllCalls.serial`: a program that touches no shared state is serializable.
* `Irqs.map`: handlers commute with a change of the shared state they do not look at.
-/

namespace Interrupt

open Prog

variable {Op : Type} {Resp : Op → Type} {Irq L H G T α β : Type}

variable (M : Machine Resp Irq L H) (body : T → Prog Resp Unit)

/-- The runs in which handlers run between tasks only. -/
inductive SerialRun (l : L) (h : H) : L → H → Prop where
  | nil : SerialRun l h l h
  | irq {l₁ h₁ h₂} (i : Irq) : SerialRun l h l₁ h₁ → M.handle i h₁ = some h₂ → SerialRun l h l₁ h₂
  | task {l₁ h₁ tr l₂ h₂} (t : T) : SerialRun l h l₁ h₁ → Exec M (body t) l₁ h₁ tr () l₂ h₂ →
      Uninterrupted tr → SerialRun l h l₂ h₂

variable {M body} {μ : G → Entry Resp Irq L H → G} {l l' : L} {h h' : H}
  {tr : List (Entry Resp Irq L H)}

/-- The unit monitor, for properties of the state alone. -/
def blind : Unit → Entry Resp Irq L H → Unit := fun _ _ => ()

/-- Some handlers take the shared state `h` to `h'`. -/
abbrev Handled (M : Machine Resp Irq L H) (h h' : H) : Prop := Irqs M blind () h () h'

theorem Irqs.handled {g g' : G} (hi : Irqs M μ g h g' h') : Handled M h h' := by
  obtain ⟨⟨⟩, h1⟩ := hi.erase blind ()
  exact h1

theorem Calls.handled {es : List (Made Resp L)} {g g' : G} (hc : Calls M μ es g h g' h') :
    Handled M h h' := by
  induction es generalizing g h with
  | nil => exact Irqs.handled hc
  | cons e es ih =>
    obtain ⟨g₁, h₁, hi, hc⟩ := hc
    exact hi.handled.trans (ih hc)

/-- From `(l, h)`, some handlers, then `p` alone or nothing, then some handlers, end in `(l', h')`. -/
def Serial (M : Machine Resp Irq L H) (p : Prog Resp Unit) (l : L) (h : H) (l' : L) (h' : H) : Prop :=
  ∃ h₁, Handled M h h₁ ∧ (l' = l ∧ Handled M h₁ h' ∨
    may M blind p (fun _ _ l₂ h₂ => l' = l₂ ∧ Handled M h₂ h') () l h₁)

theorem SerialRun.handled {l₁ : L} {h₁ : H} (h1 : SerialRun M body l h l₁ h₁) (hi : Handled M h₁ h') :
    SerialRun M body l h l₁ h' := by
  suffices ∀ {g g' : Unit} {h₁ h'}, Irqs M blind g h₁ g' h' →
      SerialRun M body l h l₁ h₁ → SerialRun M body l h l₁ h' from this hi h1
  intro g g' h₁ h' hi h1
  induction hi with
  | refl => exact h1
  | step hs _ ih => exact ih (.irq _ h1 hs)

/-- **Interrupt granularity.** If every task is serializable from every reachable
state, every run ends where some serial run ends. -/
theorem Run.serial
    (hser : ∀ t l₁ h₁, Reaches M body l h l₁ h₁ →
      wp M blind (body t) (fun _ _ l₂ h₂ => Serial M (body t) l₁ h₁ l₂ h₂) () l₁ h₁)
    (hr : Run M body l h tr l' h') : SerialRun M body l h l' h' := by
  induction hr with
  | nil => exact .nil
  | irq i _ hi ih => exact .irq i ih hi
  | task t hr he ih =>
    obtain ⟨h₁, h1, h2⟩ := wp_iff.1 (hser t _ _ ⟨_, hr⟩) _ _ _ _ he
    have ih := ih.handled h1
    rcases h2 with ⟨rfl, h2⟩ | h2
    · exact ih.handled h2
    · obtain ⟨tr₂, ⟨⟩, l₂, h₂, he₂, hu, rfl, h3⟩ := may_iff.1 h2
      exact (ih.task t he₂ hu).handled h3

/-- A change `f` of the shared state that every handler, from a state in `P`, either
respects or undoes: handlers before it can be taken after it. -/
theorem Irqs.map {P : H → Prop} {f : H → H} (hP : ∀ i h h', M.handle i h = some h' → P h → P h')
    (hf : ∀ i h h', P h → M.handle i h = some h' → f h' = f h ∨ M.handle i (f h) = some (f h'))
    (hh : Handled M h h') (hp : P h) : Handled M (f h) (f h') := by
  suffices ∀ {g g' : Unit} {h h'}, Irqs M blind g h g' h' → P h → Handled M (f h) (f h') from this hh hp
  intro g g' h h' hi hp
  induction hi with
  | refl => exact .refl
  | step hs _ ih =>
    have ih := ih (hP _ _ _ hs hp)
    rcases hf _ _ _ hp hs with heq | hs'
    · rw [heq] at ih
      exact ih
    · exact .step hs' ih

/-- Every call that `p` can make is in `P`. -/
def AllCalls (P : Op → Prop) : Prog Resp α → Prop
  | ret _ => True
  | call o k => P o ∧ ∀ r, AllCalls P (k r)

theorem AllCalls.bind {P : Op → Prop} {p : Prog Resp α} {f : α → Prog Resp β} (hp : AllCalls P p)
    (hf : ∀ a, AllCalls P (f a)) : AllCalls P (p >>= f) := by
  induction p with
  | ret a => exact hf a
  | call o k ih => exact ⟨hp.1, fun r => ih r (hp.2 r)⟩

/-- A program whose calls have an answer in every state can return, and what no entry ends then holds. -/
theorem AllCalls.may_of_forall {p : Prog Resp α} {P : G → Prop} {g : G} (hP : ∀ g e, P g → P (μ g e)) (hg : P g)
    (hp : AllCalls (fun o => ∀ l h, ∃ r l' h', M.step o r l h = some (l', h')) p) :
    may M μ p (fun _ g' _ _ => P g') g l h := by
  induction p generalizing g l h with
  | ret a => exact hg
  | call o k ih =>
    obtain ⟨ho, hk⟩ := hp
    obtain ⟨r, l₁, h₁, hs⟩ := ho l h
    exact ⟨r, l₁, h₁, hs, ih r (hP _ _ hg) (hk r)⟩

theorem AllCalls.returns {p : Prog Resp α}
    (hp : AllCalls (fun o => ∀ l h, ∃ r l' h', M.step o r l h = some (l', h')) p) :
    ∃ tr a l' h', Exec M p l h tr a l' h' := by
  have hm : may M blind p (fun _ _ _ _ => True) () l h := hp.may_of_forall (fun _ _ _ => trivial) trivial
  obtain ⟨tr, a, l', h', he, -, -⟩ := may_iff.1 hm
  exact ⟨tr, a, l', h', he⟩

/-- The calls of an execution are calls of the program. -/
theorem AllCalls.exec {P : Op → Prop} {p : Prog Resp α} {a : α} (hp : AllCalls P p) (he : Exec M p l h tr a l' h')
    {o : Op} {r : Resp o} {l₁ : L} {h₁ : H} (ho : .call o r l₁ h₁ ∈ tr) : P o := by
  induction he with
  | ret => cases ho
  | call _ _ ih =>
    rcases List.mem_cons.1 ho with heq | ho
    · cases heq
      exact hp.1
    · exact ih (hp.2 _) ho
  | irq _ _ ih =>
    rcases List.mem_cons.1 ho with heq | ho
    · cases heq
    · exact ih hp ho

/-- Handlers can be taken after a program that makes owned calls only. -/
theorem AllCalls.wp_may {p : Prog Resp α} (hp : AllCalls (fun o => ∃ f, M.Owned o f) p) :
    wp M blind p (fun a _ l' h' => Handled M h h' ∧
      may M blind p (fun a' _ l₂ h₂ => a' = a ∧ l₂ = l' ∧ h₂ = h) () l h) () l h := by
  induction p generalizing l with
  | ret a =>
    rw [wp_ret]
    intro g' h' hi
    exact ⟨hi, rfl, rfl, rfl⟩
  | call o k ih =>
    obtain ⟨⟨f, ho⟩, hk⟩ := hp
    rw [wp_owned ho fun _ _ _ _ _ _ _ => rfl]
    intro r l₁ hf
    refine wp_mono ?_ (ih r (hk r))
    rintro a _ l' h' ⟨hh, hm⟩
    exact ⟨hh, (may_owned ho).2 ⟨r, l₁, hf, hm⟩⟩

/-- **A program that touches no shared state is serializable.** -/
theorem AllCalls.serial {p : Prog Resp Unit} (hp : AllCalls (fun o => ∃ f, M.Owned o f) p) :
    wp M blind p (fun _ _ l' h' => Serial M p l h l' h') () l h := by
  refine wp_mono ?_ hp.wp_may
  rintro a _ l' h' ⟨hh, hm⟩
  refine ⟨h, .refl, .inr (may_mono ?_ hm)⟩
  rintro a' _ l₂ h₂ ⟨-, rfl, rfl⟩
  exact ⟨rfl, hh⟩

end Interrupt
