import M20Strain.Interrupt.Component

/-!
# Programs that only look

`look` computes the one answer and the one next state of some calls, those on memory
for instance. A program of such calls is evaluated by `looked`, and for a monitor that
ignores them its uninterrupted execution is that evaluation (`may_looked`).
-/

namespace Interrupt

open Prog

variable {Op : Type} {Resp : Op → Type} {Irq L H G α β : Type}

/-- Where `look` is defined, the call has that answer and that next state only. -/
def Looks (M : Machine Resp Irq L H) (look : (o : Op) → L → H → Option (Resp o × L × H)) : Prop :=
  ∀ o l h r l₁ h₁, look o l h = some (r, l₁, h₁) →
    ∀ r' l' h', M.step o r' l h = some (l', h') ↔ r' = r ∧ l' = l₁ ∧ h' = h₁

/-- The value of a program and the state it leaves, if `look` is defined on all its calls. -/
def looked (look : (o : Op) → L → H → Option (Resp o × L × H)) : Prog Resp α → L → H → Option (α × L × H)
  | ret a, l, h => some (a, l, h)
  | call o k, l, h => (look o l h).bind fun x => looked look (k x.1) x.2.1 x.2.2

variable {M : Machine Resp Irq L H} {look : (o : Op) → L → H → Option (Resp o × L × H)}
  {μ : G → Entry Resp Irq L H → G} {Q : β → G → L → H → Prop} {g : G} {l l₁ : L} {h h₁ : H}

/-- **An evaluated program is its value.** -/
theorem may_looked (hM : Looks M look) (hμ : ∀ o l h, (look o l h).isSome → Ignores μ o) {p : Prog Resp α} {a : α}
    (hp : looked look p l h = some (a, l₁, h₁)) {k : α → Prog Resp β} :
    may M μ (p >>= k) Q g l h ↔ may M μ (k a) Q g l₁ h₁ := by
  induction p generalizing l h with
  | ret b =>
    obtain ⟨rfl, rfl, rfl⟩ := by simpa [looked] using hp
    exact Iff.rfl
  | call o k' ih =>
    obtain ⟨⟨r, l₂, h₂⟩, hlook, hp⟩ := Option.bind_eq_some_iff.1 hp
    have hg := hμ o l h (by rw [hlook]; rfl)
    rw [← ih r hp, call_bind]
    constructor
    · rintro ⟨r', l', h', hs, hm⟩
      obtain ⟨rfl, rfl, rfl⟩ := (hM o l h r l₂ h₂ hlook r' l' h').1 hs
      rwa [hg] at hm
    · intro hm
      refine ⟨r, l₂, h₂, (hM o l h r l₂ h₂ hlook r l₂ h₂).2 ⟨rfl, rfl, rfl⟩, ?_⟩
      rwa [hg]

/-- **The order of a table does not matter** if all rows that match agree. -/
theorem findSome?_perm {ρ γ : Type*} {f : ρ → Option γ} {rows rows' : List ρ} (hp : rows'.Perm rows)
    (hf : ∃ x, ∀ t ∈ rows, ∀ y, f t = some y → y = x) : rows'.findSome? f = rows.findSome? f := by
  obtain ⟨x, hx⟩ := hf
  cases hr : rows.findSome? f with
  | none =>
    rw [List.findSome?_eq_none_iff] at hr ⊢
    intro t ht
    exact hr t (hp.mem_iff.1 ht)
  | some y =>
    obtain ⟨t, ht, hy⟩ := List.exists_of_findSome?_eq_some hr
    cases hr' : rows'.findSome? f with
    | none =>
      rw [List.findSome?_eq_none_iff] at hr'
      rw [hr' t (hp.mem_iff.2 ht)] at hy
      cases hy
    | some z =>
      obtain ⟨t', ht', hz⟩ := List.exists_of_findSome?_eq_some hr'
      rw [hx t ht y hy, hx t' (hp.mem_iff.1 ht') z hz]

end Interrupt
