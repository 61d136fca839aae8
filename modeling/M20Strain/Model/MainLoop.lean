import M20Strain.Model.App

/-!
# The main loop (`main.c`, `sl_bluetooth.c`)

`main` calls `sl_bt_step` and `app_process_action` for ever.
-/

namespace M20Strain

open Interrupt

/-- `sl_bt_step`, with the event that the stack has for it, if any. -/
def sl_bt_step : Option sl_bt_evt → AppM Unit
  | none => pure ()
  | some evt => sl_bt_on_event evt

/-- One pass of the loop: the event, what its handler did, the state in which
`app_process_action` starts, and what that did. -/
structure Pass (D : Type) where
  evt : Option sl_bt_evt
  handling : List (Entry Op.Resp Irq (Local D) Shared)
  loc : Local D
  shared : Shared
  firing : List (Entry Op.Resp Irq (Local D) Shared)

/-- All that happens in the pass. -/
def Pass.trace {D : Type} (p : Pass D) : List (Entry Op.Resp Irq (Local D) Shared) := p.handling ++ p.firing

/-- The runs of the loop from `(l₀, h₀)`, with their passes. -/
inductive MainLoop {D : Type} (bus : SpiBus D) (l₀ : Local D) (h₀ : Shared) :
    List (Pass D) → Local D → Shared → Prop where
  | start : MainLoop bus l₀ h₀ [] l₀ h₀
  | irq {ps l h h'} (i : Irq) : MainLoop bus l₀ h₀ ps l h → handle i h = some h' → MainLoop bus l₀ h₀ ps l h'
  | pass {ps l h tr₁ l₁ h₁ tr₂ l₂ h₂} (evt : Option sl_bt_evt) : MainLoop bus l₀ h₀ ps l h →
      Exec (firmware bus) (sl_bt_step evt) l h tr₁ () l₁ h₁ →
      Exec (firmware bus) app_process_action l₁ h₁ tr₂ () l₂ h₂ →
      MainLoop bus l₀ h₀ (ps ++ [⟨evt, tr₁, l₁, h₁, tr₂⟩]) l₂ h₂

/-- The loop for ever, from `(l₀, h₀)`: pass `n` goes from state `n` to state `n + 1`. Interrupts
between two passes are at the beginning of the second. -/
structure Forever {D : Type} (bus : SpiBus D) (l₀ : Local D) (h₀ : Shared) where
  loc : ℕ → Local D
  shared : ℕ → Shared
  pass : ℕ → Pass D
  loc_zero : loc 0 = l₀
  shared_zero : shared 0 = h₀
  handles : ∀ n, Exec (firmware bus) (sl_bt_step (pass n).evt) (loc n) (shared n) (pass n).handling ()
    (pass n).loc (pass n).shared
  fires : ∀ n, Exec (firmware bus) app_process_action (pass n).loc (pass n).shared (pass n).firing ()
    (loc (n + 1)) (shared (n + 1))

end M20Strain
