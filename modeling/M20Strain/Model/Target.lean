import M20Strain.Interrupt.Without
import M20Strain.Model.App

/-!
# The target's memory

The machine `firmware` answers a load past the end of `connections` wherever it goes, and goes on
after a store outside `sensor_data`, so that its traces show every index. On the target the RAM
ends, and these accesses have no next state. What holds in every run of `firmware` holds in
every run of `target`; where the firmware stops and what it does for ever is stated of `target`.
-/

namespace M20Strain

open Interrupt

/-- The end of the RAM (`linkerfile.ld`: 32 KiB from `0x20000000`). -/
def RAM_END : ℕ := 0x20008000

/-- Accesses that the target does not make: loads from the array `connections`, at the given
address, that leave the RAM, and stores outside the array `sensor_data`. -/
def Op.faults (connections : RamAddr) : Op → Bool
  | .main (.rd_connections i) => 10 ≤ i ∧ RAM_END ≤ connections.val + i
  | .main (.wr_sensor_data k _) => k < 0 ∨ 4 ≤ k
  | _ => false

/-- The firmware on the target: what faults has no next state. -/
def target {D : Type} (bus : SpiBus D) (connections : RamAddr) : Machine Op.Resp Irq (Local D) Shared :=
  (firmware bus).without (Op.faults connections)

end M20Strain
