import M20Strain.Interrupt.Machine

/-!
# Components of a machine

A `Component` is a part of the main loop's state with calls of its own: a driver,
say, that nothing else touches. A program over the component's calls, embedded
in the machine's, runs as it does alone (`wp_embed`, `may_embed`), for every
monitor that ignores the component's calls.
-/

namespace Interrupt

open Prog

variable {Op Op₁ : Type} {Resp : Op → Type} {Resp₁ : Op₁ → Type} {Irq L H G S α β : Type}

/-- Part `S` of the main loop's state, on which the calls `inj o` act as `step`. -/
structure Component (M : Machine Resp Irq L H) (step : (o : Op₁) → Resp₁ o → S → Option S)
    (inj : Op₁ → Op) (back : ∀ o, Resp (inj o) → Resp₁ o) where
  get : L → S
  put : S → L → L
  put_get : ∀ l, put (get l) l = l
  get_put : ∀ s l, get (put s l) = s
  put_put : ∀ s s' l, put s' (put s l) = put s' l
  surj : ∀ o, Function.Surjective (back o)
  owned : ∀ o, M.Owned (inj o) fun r l => (step o (back o r) (get l)).map (put · l)

/-- The monitor ignores call `o`. -/
def Ignores (μ : G → Entry Resp Irq L H → G) (o : Op) : Prop := ∀ g r l h, μ g (.call o r l h) = g

theorem Ignores.commutes {M : Machine Resp Irq L H} {μ : G → Entry Resp Irq L H → G} {o : Op}
    (hμ : Ignores μ o) : Commutes M μ o := by
  intro g r l i h h' _
  rw [hμ, hμ]

/-- A monitor that ignores handlers, and sees the same in a call whatever the shared state. -/
theorem commutes_of_blind {M : Machine Resp Irq L H} {μ : G → Entry Resp Irq L H → G} {o : Op}
    (hi : ∀ g i h, μ g (.irq i h) = g) (hc : ∀ g r l h h', μ g (.call o r l h) = μ g (.call o r l h')) :
    Commutes M μ o := by
  intro g r l i h h' _
  rw [hi, hi, hc]

variable {M : Machine Resp Irq L H} {step : (o : Op₁) → Resp₁ o → S → Option S} {inj : Op₁ → Op}
  {back : ∀ o, Resp (inj o) → Resp₁ o} {μ : G → Entry Resp Irq L H → G}
  {Q : β → G → L → H → Prop} {g : G} {l : L} {h : H}

/-- **An embedded component program is atomic.** -/
theorem wp_embed (C : Component M step inj back) (hμ : ∀ o, Ignores μ (inj o)) {p : Prog Resp₁ α}
    {f : α → Prog Resp β} : wp M μ (p.embed inj back >>= f) Q g l h ↔
      ∀ a s, Ends step p (C.get l) a s → wp M μ (f a) Q g (C.put s l) h := by
  induction p generalizing l with
  | ret a =>
    constructor
    · intro hw b s he
      obtain ⟨rfl, rfl⟩ := Ends.ret_iff.1 he
      rw [C.put_get]
      exact hw
    · intro hw
      have h1 := hw a (C.get l) .ret
      rwa [C.put_get] at h1
  | call o k ih =>
    simp only [embed, call_bind]
    rw [wp_owned (C.owned o) (hμ o).commutes]
    constructor
    · intro hw a s he
      obtain ⟨r₁, s₁, hs, he⟩ := Ends.call_iff.1 he
      -- the component's answer is one of the machine's
      obtain ⟨r, rfl⟩ := C.surj o r₁
      have h1 := hw r (C.put s₁ l) (by rw [hs]; rfl)
      rw [hμ] at h1
      have h2 := (ih _).1 h1 a s (by rw [C.get_put]; exact he)
      rwa [C.put_put] at h2
    · intro hw r l₁ hl
      obtain ⟨s₁, hs, rfl⟩ := Option.map_eq_some_iff.1 hl
      rw [hμ, ih]
      intro a s he
      rw [C.get_put] at he
      rw [C.put_put]
      exact hw a s (.call hs he)

/-- What an embedded component program can do uninterrupted. -/
theorem may_embed (C : Component M step inj back) (hμ : ∀ o, Ignores μ (inj o)) {p : Prog Resp₁ α}
    {f : α → Prog Resp β} : may M μ (p.embed inj back >>= f) Q g l h ↔
      ∃ a s, Ends step p (C.get l) a s ∧ may M μ (f a) Q g (C.put s l) h := by
  induction p generalizing l with
  | ret a =>
    constructor
    · intro hm
      refine ⟨a, C.get l, .ret, ?_⟩
      rw [C.put_get]
      exact hm
    · rintro ⟨b, s, he, hm⟩
      obtain ⟨rfl, rfl⟩ := Ends.ret_iff.1 he
      rwa [C.put_get] at hm
  | call o k ih =>
    simp only [embed, call_bind]
    rw [may_owned (C.owned o)]
    constructor
    · rintro ⟨r, l₁, hl, hm⟩
      obtain ⟨s₁, hs, rfl⟩ := Option.map_eq_some_iff.1 hl
      rw [hμ, ih] at hm
      obtain ⟨a, s, he, hm⟩ := hm
      rw [C.get_put] at he
      rw [C.put_put] at hm
      exact ⟨a, s, .call hs he, hm⟩
    · rintro ⟨a, s, he, hm⟩
      obtain ⟨r₁, s₁, hs, he⟩ := Ends.call_iff.1 he
      obtain ⟨r, rfl⟩ := C.surj o r₁
      refine ⟨r, C.put s₁ l, by rw [hs]; rfl, ?_⟩
      rw [hμ, ih]
      exact ⟨a, s, by rw [C.get_put]; exact he, by rw [C.put_put]; exact hm⟩

end Interrupt
