import M20Strain.Interrupt.Every
import M20Strain.Proof.Shadow

/-!
# Commands and their frames

The transfers of the driver, as commands of the ADS1220. A frame is one whole command
(`exchange_frame`, `frame_phase`), so the device reads frames one after the other as the
commands that were meant (`exchange_frames`), and no two commands have the same frame
(`frame_injective`).
-/

namespace M20Strain

open Interrupt Prog

variable {α : Type}

/-- What the driver asks of the device. -/
inductive Command where
  | reset
  | start
  | write (r : Fin 4) (v : UInt8)
  | read (r : Fin 4)
  | writeAll (s : ads1220_settings_t)
  | readAll
  deriving DecidableEq, Repr

namespace Command

/-- The bytes of the transfer. A read goes on while the device answers, and a single one for two
bytes more. -/
def frame : Command → List UInt8
  | reset => [0x00, RESET]
  | start => [0x00, START]
  | write r v => [WREG ||| (reg_address r <<< 2), v]
  | read r => readFrame (reg_address r)
  | writeAll s => [WREG ||| 0b11, s.reg0, s.reg1, s.reg2, s.reg3]
  | readAll => [RREG ||| 0b11, SPI_MASTER_DUMMY, SPI_MASTER_DUMMY, SPI_MASTER_DUMMY, SPI_MASTER_DUMMY]

/-- What the command does to the registers. -/
def act (s : ads1220_settings_t) : Command → ads1220_settings_t
  | reset => defaults
  | start | read _ | readAll => s
  | write r v => s.setReg v r
  | writeAll s' => s'

/-- What comes back, byte by byte. -/
def answer (s : ads1220_settings_t) : Command → List (Option UInt8)
  | reset | start | write _ _ => [none, none]
  | read r => [none, some (s.reg r), none, none]
  | writeAll _ => [none, none, none, none, none]
  | readAll => [none, some s.reg0, some s.reg1, some s.reg2, some s.reg3]

end Command

/-- The phase after the bytes `tx`. It does not depend on the registers. -/
def Phase.after (phase : Phase) (tx : List UInt8) : Phase :=
  tx.foldl (fun phase b => (clock defaults b phase).2.1) phase

theorem clock_phase (s s' : ads1220_settings_t) (b : UInt8) (phase : Phase) :
    (clock s b phase).2.1 = (clock s' b phase).2.1 := by
  cases phase with
  | command =>
    simp only [clock]
    split_ifs <;> rfl
  | writing r n | reading r n => rfl

/-- A transfer can be cut anywhere. -/
theorem exchange_append {s : ads1220_settings_t} {phase : Phase} {tx tx' : List UInt8} :
    exchange s phase (tx ++ tx') =
      ((exchange (exchange s phase tx).1 (phase.after tx) tx').1,
        (exchange s phase tx).2 ++ (exchange (exchange s phase tx).1 (phase.after tx) tx').2) := by
  induction tx generalizing s phase with
  | nil => rfl
  | cons b tx ih =>
    rw [List.cons_append]
    simp only [exchange, ih, Phase.after, List.foldl_cons]
    rw [clock_phase s defaults]
    rfl

theorem exchange_frame (s : ads1220_settings_t) (c : Command) :
    exchange s .command c.frame = (c.act s, c.answer s) := by
  cases c with
  | reset | start | writeAll s' | readAll => rfl
  | write r v | read r => fin_cases r <;> rfl

/-- **A frame is a whole command**: the next byte is a command again. -/
theorem frame_phase (c : Command) : Phase.command.after c.frame = .command := by
  cases c with
  | reset | start | writeAll s' | readAll => rfl
  | write r v | read r => fin_cases r <;> rfl

/-- The commands `cs` in order: the registers after them, and all that came back. -/
def Command.run (cs : List Command) (s : ads1220_settings_t) : ads1220_settings_t := cs.foldl Command.act s

def Command.answers : List Command → ads1220_settings_t → List (Option UInt8)
  | [], _ => []
  | c :: cs, s => c.answer s ++ answers cs (c.act s)

/-- **Frames are read as the commands that were meant**, also when nothing but the bytes
separates them. -/
theorem exchange_frames (cs : List Command) (s : ads1220_settings_t) :
    exchange s .command (cs.map Command.frame).flatten = (Command.run cs s, Command.answers cs s) := by
  induction cs generalizing s with
  | nil => rfl
  | cons c cs ih =>
    rw [List.map_cons, List.flatten_cons, exchange_append, exchange_frame, frame_phase, ih]
    rfl

/-- **No two commands have the same frame.** -/
theorem frame_injective : Function.Injective Command.frame := by
  have wreg (r r' : Fin 4) : WREG ||| (reg_address r <<< 2) = WREG ||| (reg_address r' <<< 2) → r = r' := by
    decide +revert
  have rreg (r r' : Fin 4) : RREG ||| (reg_address r <<< 2) = RREG ||| (reg_address r' <<< 2) → r = r' := by
    decide +revert
  have hne (r : Fin 4) : WREG ||| (reg_address r <<< 2) ≠ 0x00 := by decide +revert
  have hcmd : RESET ≠ START ∧ WREG ||| 0b11 ≠ RREG ||| 0b11 := by decide
  intro c c' hc
  cases c <;> cases c' <;>
    simp only [Command.frame, readFrame, List.cons.injEq, reduceCtorEq, and_false, and_true, true_and] at hc ⊢
  case write.write r v r' v' => rw [wreg r r' hc.1, hc.2]
  case read.read r r' => rw [rreg r r' hc]
  case writeAll.writeAll s s' =>
    cases s
    cases s'
    simpa using hc
  case reset.start => exact hcmd.1 hc
  case start.reset => exact hcmd.1 hc.symm
  case reset.write | start.write => exact hne _ hc.1.symm
  case write.reset | write.start => exact hne _ hc.1
  case writeAll.readAll => exact hcmd.2 hc.1
  case readAll.writeAll => exact hcmd.2 hc.1.symm

/-- A transfer is the frame of a command. -/
def DrvOp.Framed : DrvOp → Prop
  | .SPIDRV_MTransmitB tx | .SPIDRV_MTransferB tx => tx ∈ Set.range Command.frame
  | _ => True

theorem framed_drv {o : DrvOp} {k : o.Resp → DrvM α} :
    AllCalls DrvOp.Framed (drv o >>= k) ↔ o.Framed ∧ ∀ r, AllCalls DrvOp.Framed (k r) := Iff.rfl

theorem framed_writeRegister (r : Fin 4) (v : UInt8) : AllCalls DrvOp.Framed (writeRegister (reg_address r) v) :=
  framed_drv.2 ⟨⟨.write r v, rfl⟩, fun _ => trivial⟩

theorem framed_readRegister (r : Fin 4) : AllCalls DrvOp.Framed (readRegister (reg_address r)) :=
  framed_drv.2 ⟨⟨.read r, rfl⟩, fun _ => trivial⟩

theorem framed_update (f : ads1220_settings_t → ads1220_settings_t) : AllCalls DrvOp.Framed (update_settingsR f) :=
  ⟨trivial, fun _ => ⟨trivial, fun _ => trivial⟩⟩

theorem framed_read_settingsR : AllCalls DrvOp.Framed read_settingsR := by
  refine (framed_readRegister 0).bind fun _ => (framed_update _).bind fun _ => ?_
  refine (framed_readRegister 1).bind fun _ => (framed_update _).bind fun _ => ?_
  refine (framed_readRegister 2).bind fun _ => (framed_update _).bind fun _ => ?_
  exact (framed_readRegister 3).bind fun _ => framed_update _

theorem framed_set_config_reg (s : ads1220_settings_t) : AllCalls DrvOp.Framed (set_config_reg s) := by
  refine (framed_writeRegister 0 _).bind fun _ => (framed_writeRegister 1 _).bind fun _ => ?_
  exact (framed_writeRegister 2 _).bind fun _ => framed_writeRegister 3 _

theorem framed_begin : AllCalls DrvOp.Framed begin := by
  refine framed_drv.2 ⟨trivial, fun _ => framed_drv.2 ⟨⟨.reset, rfl⟩, fun _ => framed_drv.2 ⟨trivial, fun _ => ?_⟩⟩⟩
  refine framed_drv.2 ⟨trivial, fun _ => framed_drv.2 ⟨trivial, fun s => ?_⟩⟩
  refine (framed_writeRegister 0 _).bind fun _ => (framed_writeRegister 1 _).bind fun _ => ?_
  refine (framed_writeRegister 2 _).bind fun _ => (framed_writeRegister 3 _).bind fun _ => ?_
  refine framed_drv.2 ⟨trivial, fun _ => framed_read_settingsR.bind fun _ => ?_⟩
  exact framed_drv.2 ⟨trivial, fun _ => trivial⟩

theorem framed_write_reg0 : AllCalls DrvOp.Framed write_reg0 :=
  framed_drv.2 ⟨trivial, fun _ => framed_writeRegister 0 _⟩

theorem framed_write_reg1 : AllCalls DrvOp.Framed write_reg1 :=
  framed_drv.2 ⟨trivial, fun _ => framed_writeRegister 1 _⟩

theorem framed_set_field0 (mask value : UInt8) : AllCalls DrvOp.Framed (set_field0 mask value) :=
  (framed_update _).bind fun _ => (framed_update _).bind fun _ => framed_write_reg0

theorem framed_set_field1 (mask value : UInt8) : AllCalls DrvOp.Framed (set_field1 mask value) :=
  (framed_update _).bind fun _ => (framed_update _).bind fun _ => framed_write_reg1

theorem framed_receive_byte (i : Fin 3) : AllCalls DrvOp.Framed (receive_byte i) :=
  framed_drv.2 ⟨trivial, fun _ => .ite ⟨trivial, fun _ => trivial⟩ trivial⟩

theorem framed_read_data_samples : AllCalls DrvOp.Framed read_data_samples := by
  refine (framed_receive_byte 0).bind fun _ => (framed_receive_byte 1).bind fun _ => ?_
  refine (framed_receive_byte 2).bind fun _ => ?_
  exact ⟨trivial, fun _ => ⟨trivial, fun _ => ⟨trivial, fun _ => trivial⟩⟩⟩

theorem framed_get_config_reg (s : ads1220_settings_t) : AllCalls DrvOp.Framed (get_config_reg s) :=
  framed_read_settingsR.bind fun _ => ⟨trivial, fun _ => trivial⟩

/-- **Every operation of the driver sends frames only.** -/
theorem Operation.framed (op : Operation) : AllCalls DrvOp.Framed op.body := by
  cases op with
  | ads1220_reset => exact framed_drv.2 ⟨⟨.reset, rfl⟩, fun _ => trivial⟩
  | start_conv => exact framed_drv.2 ⟨⟨.start, rfl⟩, fun _ => trivial⟩
  | pga_on | pga_off => exact (framed_update _).bind fun _ => framed_write_reg0
  | set_conv_mode_continuous | set_conv_mode_single_shot => exact (framed_update _).bind fun _ => framed_write_reg1
  | set_data_rate v => exact framed_set_field1 _ _
  | select_mux_channels v | set_pga_gain v => exact framed_set_field0 _ _
  | temp_sense_on | temp_sense_off => exact framed_set_field1 _ _
  | get_config_reg s => exact (framed_get_config_reg s).bind fun _ => trivial
  | set_config_reg s => exact framed_set_config_reg s
  | read_data_samples => exact framed_read_data_samples.bind fun _ => trivial

end M20Strain
