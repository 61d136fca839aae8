import M20Strain.Interrupt.Component

/-!
# Sequences of calls with handlers in between

`Calls es`: what happens to monitor and shared state while a program makes the
owned calls `es`, with any handlers before, between and after them.

* `wpAfter`: the weakest precondition of the rest of a program, when the calls
  `es` were made since `(g, h)`. Its rules collect a program's calls one by one.
* `Calls.stable`: what handlers and each of the calls preserve, all of it preserves.
* `Calls.eq_foldl`: a monitor that does not see the handlers just folds the calls.
-/

namespace Interrupt

open Prog

variable {Op : Type} {Resp : Op → Type} {Irq L H G α : Type}

/-- A call that was made, with its answer and the main loop's state before it. -/
structure Made {Op : Type} (Resp : Op → Type) (L : Type) where
  op : Op
  resp : Resp op
  loc : L

/-- The entry of the trace, when the shared state was `h`. -/
def Made.entry (e : Made Resp L) (h : H) : Entry Resp Irq L H := .call e.op e.resp e.loc h

variable (M : Machine Resp Irq L H) (μ : G → Entry Resp Irq L H → G)

/-- The calls `es` in order, with handlers before, between and after them. -/
def Calls : List (Made Resp L) → G → H → G → H → Prop
  | [], g, h, g', h' => Irqs M μ g h g' h'
  | e :: es, g, h, g', h' => ∃ g₁ h₁, Irqs M μ g h g₁ h₁ ∧ Calls es (μ g₁ (e.entry h₁)) h₁ g' h'

/-- `p` establishes `Q`, once the calls `es` were made since `(g, h)`. -/
def wpAfter (es : List (Made Resp L)) (g : G) (h : H) (p : Prog Resp α) (Q : α → G → L → H → Prop)
    (l : L) : Prop :=
  ∀ g' h', Calls M μ es g h g' h' → wp M μ p Q g' l h'

variable {M μ} {es : List (Made Resp L)} {e : Made Resp L} {g g' g₁ : G} {h h' h₁ : H} {l : L}
  {Q : α → G → L → H → Prop}

/-- Handlers alone. -/
theorem Irqs.calls (hi : Irqs M μ g h g' h') : Calls M μ [] g h g' h' := hi

namespace Calls

theorem then_irqs (hc : Calls M μ es g h g₁ h₁) (hi : Irqs M μ g₁ h₁ g' h') :
    Calls M μ es g h g' h' := by
  induction es generalizing g h with
  | nil => exact hc.trans hi
  | cons e es ih =>
    obtain ⟨g₂, h₂, h2, hc⟩ := hc
    exact ⟨g₂, h₂, h2, ih hc⟩

theorem snoc_iff : Calls M μ (es ++ [e]) g h g' h' ↔
    ∃ g₁ h₁, Calls M μ es g h g₁ h₁ ∧ Irqs M μ (μ g₁ (e.entry h₁)) h₁ g' h' := by
  induction es generalizing g h with
  | nil => exact Iff.rfl
  | cons a es ih =>
    simp only [List.cons_append, Calls, ih]
    constructor
    · rintro ⟨g₂, h₂, h2, g₃, h₃, h3, hi⟩
      exact ⟨g₃, h₃, ⟨g₂, h₂, h2, h3⟩, hi⟩
    · rintro ⟨g₃, h₃, ⟨g₂, h₂, h2, h3⟩, hi⟩
      exact ⟨g₂, h₂, h2, g₃, h₃, h3, hi⟩

/-- What handlers and each of the calls preserve. -/
theorem stable {P : G → H → Prop}
    (hirq : ∀ i g h h', M.handle i h = some h' → P g h → P (μ g (.irq i h)) h')
    (hcall : ∀ e ∈ es, ∀ g h, P g h → P (μ g (e.entry h)) h)
    (hc : Calls M μ es g h g' h') : P g h → P g' h' := by
  induction es generalizing g h with
  | nil => exact Irqs.stable hirq hc
  | cons e es ih =>
    obtain ⟨g₁, h₁, h1, hc⟩ := hc
    intro hp
    have hp := hcall e List.mem_cons_self g₁ h₁ (h1.stable hirq hp)
    exact ih (fun e he => hcall e (List.mem_cons_of_mem _ he)) hc hp

/-- What handlers do to the shared state, whatever the monitor. -/
theorem stable_shared {P : H → Prop} (hirq : ∀ i h h', M.handle i h = some h' → P h → P h')
    (hc : Calls M μ es g h g' h') : P h → P h' :=
  hc.stable (P := fun _ => P) (fun i _ => hirq i) (fun _ _ _ _ => id)

/-- A monitor that ignores handlers and the shared state folds over the calls. -/
theorem eq_foldl (hi : ∀ g i h, μ g (.irq i h) = g)
    (hs : ∀ e ∈ es, ∀ g h h', μ g (e.entry h) = μ g (e.entry h'))
    (hc : Calls M μ es g h g' h') (h₀ : H) :
    g' = es.foldl (fun g e => μ g (e.entry h₀)) g := by
  induction es generalizing g h with
  | nil => exact Irqs.ghost_eq hi hc
  | cons e es ih =>
    obtain ⟨g₁, h₁, h1, hc⟩ := hc
    rw [h1.ghost_eq hi, hs e List.mem_cons_self _ h₁ h₀] at hc
    exact ih (fun e he => hs e (List.mem_cons_of_mem _ he)) hc

end Calls

theorem wp_iff_wpAfter {p : Prog Resp α} : wp M μ p Q g l h ↔ wpAfter M μ [] g h p Q l := by
  constructor
  · intro hw g' h' hi
    exact wp_irqs hw hi
  · intro hw
    exact hw g h .refl

theorem wpAfter_ret {a : α} : wpAfter M μ es g h (ret a) Q l ↔
    ∀ g' h', Calls M μ es g h g' h' → Q a g' l h' := by
  simp only [wpAfter, wp_ret]
  constructor
  · intro hw g' h' hc
    exact hw g' h' hc g' h' .refl
  · intro hw g₁ h₁ hc g' h' hi
    exact hw g' h' (hc.then_irqs hi)

/-- An owned call is added to the calls made. -/
theorem wpAfter_owned {o : Op} {f : Resp o → L → Option L} (ho : M.Owned o f)
    {k : Resp o → Prog Resp α} : wpAfter M μ es g h (call o k) Q l ↔
      ∀ r l₁, f r l = some l₁ → wpAfter M μ (es ++ [⟨o, r, l⟩]) g h (k r) Q l₁ := by
  simp only [wpAfter, wp_call]
  constructor
  · intro hw r l₁ hf g' h' hc
    obtain ⟨g₁, h₁, h1, hi⟩ := Calls.snoc_iff.1 hc
    have hs : M.step o r l h₁ = some (l₁, h₁) := by rw [ho, hf]; rfl
    exact wp_irqs (hw g₁ h₁ h1 g₁ h₁ .refl r l₁ h₁ hs) hi
  · intro hw g₁ h₁ h1 g₂ h₂ h2 r l₁ h₃ hs
    rw [ho] at hs
    obtain ⟨l₂, hf, heq⟩ := Option.map_eq_some_iff.1 hs
    obtain ⟨rfl, rfl⟩ := Prod.mk.inj heq
    exact hw r l₂ hf _ _ (Calls.snoc_iff.2 ⟨g₂, h₂, h1.then_irqs h2, .refl⟩)

/-- An owned call that the monitor ignores is not. -/
theorem wpAfter_ignored {o : Op} {f : Resp o → L → Option L} (ho : M.Owned o f) (hμ : Ignores μ o)
    {k : Resp o → Prog Resp α} : wpAfter M μ es g h (call o k) Q l ↔
      ∀ r l₁, f r l = some l₁ → wpAfter M μ es g h (k r) Q l₁ := by
  simp only [wpAfter, wp_owned ho hμ.commutes, hμ _ _ _ _]
  constructor
  · intro hw r l₁ hf g' h' hc
    exact hw g' h' hc r l₁ hf
  · intro hw g' h' hc r l₁ hf
    exact hw r l₁ hf g' h' hc

/-- A call on shared state starts a new sequence. -/
theorem wpAfter_call {o : Op} {k : Resp o → Prog Resp α} : wpAfter M μ es g h (call o k) Q l ↔
    ∀ g₁ h₁, Calls M μ es g h g₁ h₁ → ∀ r l₁ h₂, M.step o r l h₁ = some (l₁, h₂) →
      wpAfter M μ [] (μ g₁ (.call o r l h₁)) h₂ (k r) Q l₁ := by
  simp only [← wp_iff_wpAfter]
  simp only [wpAfter, wp_call]
  constructor
  · intro hw g₁ h₁ hc r l₁ h₂ hs
    exact hw g₁ h₁ hc g₁ h₁ .refl r l₁ h₂ hs
  · intro hw g₁ h₁ hc g₂ h₂ hi r l₁ h₃ hs
    exact hw g₂ h₂ (hc.then_irqs hi) r l₁ h₃ hs

theorem wpAfter_embed {Op₁ S β : Type} {Resp₁ : Op₁ → Type}
    {step : (o : Op₁) → Resp₁ o → S → Option S} {inj : Op₁ → Op}
    {back : ∀ o, Resp (inj o) → Resp₁ o} (C : Component M step inj back)
    (hμ : ∀ o, Ignores μ (inj o)) {p : Prog Resp₁ β} {k : β → Prog Resp α} :
    wpAfter M μ es g h (p.embed inj back >>= k) Q l ↔
      ∀ b s, Ends step p (C.get l) b s → wpAfter M μ es g h (k b) Q (C.put s l) := by
  simp only [wpAfter, wp_embed C hμ]
  constructor
  · intro hw b s he g' h' hc
    exact hw g' h' hc b s he
  · intro hw g' h' hc b s he
    exact hw b s he g' h' hc

attribute [irreducible] wpAfter

end Interrupt
