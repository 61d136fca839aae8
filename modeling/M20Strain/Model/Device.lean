import M20Strain.Model.Ads1220

/-!
# The ADS1220 on the bus

The part of the converter that the driver configures: four registers, and the commands
WREG (`0100 rrnn`, followed by `nn + 1` bytes), RREG (`0010 rrnn`, answered by `nn + 1`
bytes) and RESET (`0000 011x`). A transfer starts with a command byte; bytes that are
no such command change no register.
-/

namespace M20Strain

/-- Register `r`. There are four. -/
def ads1220_settings_t.reg (s : ads1220_settings_t) : ℕ → UInt8
  | 0 => s.reg0
  | 1 => s.reg1
  | 2 => s.reg2
  | 3 => s.reg3
  | _ => SPI_MASTER_DUMMY

def ads1220_settings_t.setReg (s : ads1220_settings_t) (v : UInt8) : ℕ → ads1220_settings_t
  | 0 => { s with reg0 := v }
  | 1 => { s with reg1 := v }
  | 2 => { s with reg2 := v }
  | 3 => { s with reg3 := v }
  | _ => s

/-- The registers after a reset. -/
def defaults : ads1220_settings_t := ⟨0, 0, 0, 0⟩

/-- What the next byte of a transfer is: a command, or data for register `r`, or from it,
and `n` more after that. -/
inductive Phase where
  | command
  | writing (r n : ℕ)
  | reading (r n : ℕ)
  deriving DecidableEq, Repr

/-- The phase after a data byte with `n` more to come. -/
def Phase.next (phase : ℕ → ℕ → Phase) (r : ℕ) : ℕ → Phase
  | 0 => .command
  | n + 1 => phase (r + 1) n

/-- The byte `b` from the driver, in a transfer: the registers and the phase after it, and
the byte sent back, if that is a register. -/
def clock (regs : ads1220_settings_t) (b : UInt8) : Phase → ads1220_settings_t × Phase × Option UInt8
  | .command =>
    let rr := ((b >>> 2) &&& 0x03).toNat
    let nn := (b &&& 0x03).toNat
    if b &&& 0xF0 = WREG then (regs, .writing rr nn, none)
    else if b &&& 0xF0 = RREG then (regs, .reading rr nn, none)
    else if b &&& 0xFE = RESET then (defaults, .command, none)
    else (regs, .command, none)
  | .writing r n => (regs.setReg b r, .next .writing r n, none)
  | .reading r n => (regs, .next .reading r n, some (regs.reg r))

/-- A transfer from `phase` on: the registers after it, and the bytes sent back. -/
def exchange (regs : ads1220_settings_t) : Phase → List UInt8 → ads1220_settings_t × List (Option UInt8)
  | _, [] => (regs, [])
  | phase, b :: tx =>
    let (regs, phase, out) := clock regs b phase
    let (regs, rx) := exchange regs phase tx
    (regs, out :: rx)

variable {D : Type}

/-- The device on the bus implements the commands: a transfer that succeeds acts on its
registers `regs` as they say, and a received byte is a sample and changes none. -/
structure Implements (bus : SpiBus D) (regs : D → ads1220_settings_t) : Prop where
  transmit : ∀ tx d d', bus.transmit tx ECODE_OK d = some d' → regs d' = (exchange (regs d) .command tx).1
  transfer : ∀ tx rx d d', bus.transfer tx ECODE_OK rx d = some d' →
    regs d' = (exchange (regs d) .command tx).1 ∧
    ∀ i v, (exchange (regs d) .command tx).2[i.val]? = some (some v) → rx i = v
  receive : ∀ b d d', bus.receive ECODE_OK b d = some d' → regs d' = regs d

/-- Every transfer succeeds. -/
structure Reliable (bus : SpiBus D) : Prop where
  transmit : ∀ tx ec d d', bus.transmit tx ec d = some d' → ec = ECODE_OK
  transfer : ∀ tx ec rx d d', bus.transfer tx ec rx d = some d' → ec = ECODE_OK
  receive : ∀ ec b d d', bus.receive ec b d = some d' → ec = ECODE_OK

end M20Strain
