import Mathlib.Logic.Function.Basic

/-!
# The table-driven state machine (`fsm.c`)

`fsm_fire` scans the transition table for the first row of the current state
whose guard returns non-zero, stores the row's target and runs its action. It is
generic in the monad `m` that guards and actions run in: the application's
programs, or a plain state transformer.
-/

namespace M20Strain

/-- `fsm_trans_t`: `input` is the field `in`; `none` is a null function pointer. -/
structure fsm_trans_t (m : Type → Type) where
  orig_state : Int
  input : Option (m Int)
  dest_state : Int
  out : Option (m Unit)

/-- How the loop of `fsm_fire` ends. The last two are undefined behaviour: a row
past the end of the table is read, or a null guard is called. -/
inductive FireEnd where
  | sentinel
  | took
  | overrun
  | nullGuard
  deriving DecidableEq, Repr

/-- The body of `fsm_fire` once a guard has returned non-zero. -/
def take {m : Type → Type} [Monad m] (set_current_state : Int → m Unit) (t : fsm_trans_t m) : m FireEnd := do
  set_current_state t.dest_state
  match t.out with
  | some out => do
    out
    pure .took
  | none => pure .took

/-- `fsm_fire`, from the row the loop variable points to. -/
def fsm_fire {m : Type → Type} [Monad m] (current_state : m Int) (set_current_state : Int → m Unit) :
    List (fsm_trans_t m) → m FireEnd
  | [] => pure .overrun
  | t :: tt =>
    if t.orig_state < 0 then pure .sentinel
    else do
      let s ← current_state
      if s = t.orig_state then
        match t.input with
        | none => pure .nullGuard
        | some guard => do
          let b ← guard
          if b ≠ 0 then take set_current_state t else fsm_fire current_state set_current_state tt
      else fsm_fire current_state set_current_state tt

end M20Strain
