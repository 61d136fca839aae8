import M20Strain.Model.Device
import M20Strain.Proof.Driver

/-!
# The driver on an ADS1220

What the driver's functions do to the shadow `settingsR` and to the registers of a
device that implements the commands, when every transfer succeeds: `begin` leaves both
with the initial settings (`begin_registers`), and the temperature switches
(`temp_sense_registers`) write the shadow they have changed.
-/

namespace M20Strain

open Interrupt Prog

variable {D : Type} {bus : SpiBus D} {regs : D → ads1220_settings_t} {α : Type} {a : α} {d d' : Driver D}

/-- The address of register `r`. -/
def reg_address : Fin 4 → UInt8 :=
  ![CONFIG_REG0_ADDRESS, CONFIG_REG1_ADDRESS, CONFIG_REG2_ADDRESS, CONFIG_REG3_ADDRESS]

theorem exchange_write (s : ads1220_settings_t) (r : Fin 4) (v : UInt8) :
    (exchange s .command [WREG ||| (reg_address r <<< 2), v]).1 = s.setReg v r := by
  fin_cases r <;> rfl

theorem exchange_read (s : ads1220_settings_t) (r : Fin 4) :
    (exchange s .command (readFrame (reg_address r))).1 = s ∧
      (exchange s .command (readFrame (reg_address r))).2[1]? = some (some (s.reg r)) := by
  fin_cases r <;> exact ⟨rfl, rfl⟩

theorem exchange_reset (s : ads1220_settings_t) : (exchange s .command [0x00, RESET]).1 = defaults := rfl

theorem exchange_start (s : ads1220_settings_t) : (exchange s .command [0x00, START]).1 = s := rfl

section Reliable

variable (hi : Implements bus regs) (hr : Reliable bus)

include hi hr

/-- Writing a register. -/
theorem returns_write_register (r : Fin 4) {v : UInt8} {p : DrvM α}
    (he : Returns bus (do writeRegister (reg_address r) v; p) d a d') :
    ∃ dev, regs dev = (regs d.dev).setReg v r ∧ Returns bus p { d with dev } a d' := by
  obtain ⟨ec, dev, ht, he⟩ := returns_writeRegister.1 he
  obtain rfl := hr.transmit _ _ _ _ ht
  exact ⟨dev, (hi.transmit _ _ _ ht).trans (exchange_write _ r v), he⟩

/-- Reading a register. -/
theorem returns_read_register (r : Fin 4) {k : UInt8 → DrvM α}
    (he : Returns bus (readRegister (reg_address r) >>= k) d a d') :
    ∃ dev, regs dev = regs d.dev ∧ Returns bus (k ((regs d.dev).reg r)) { d with dev } a d' := by
  obtain ⟨ec, rx, dev, ht, he⟩ := returns_readRegister.1 he
  obtain rfl := hr.transfer _ _ _ _ _ ht
  obtain ⟨h1, h2⟩ := hi.transfer _ _ _ _ ht
  obtain ⟨h3, h4⟩ := exchange_read (regs d.dev) r
  refine ⟨dev, h1.trans h3, ?_⟩
  rw [← h2 ⟨1, readFrame_length⟩ _ h4]
  exact he

theorem returns_reset {p : DrvM α} (he : Returns bus (do ads1220_reset; p) d a d') :
    ∃ dev, regs dev = defaults ∧ Returns bus p { d with dev } a d' := by
  obtain ⟨ec, dev, ht, he⟩ := returns_spi_command.1 he
  obtain rfl := hr.transmit _ _ _ _ ht
  exact ⟨dev, (hi.transmit _ _ _ ht).trans (exchange_reset _), he⟩

theorem returns_start {p : DrvM α} (he : Returns bus (do start_conv; p) d a d') :
    ∃ dev, regs dev = regs d.dev ∧ Returns bus p { d with dev } a d' := by
  obtain ⟨ec, dev, ht, he⟩ := returns_spi_command.1 he
  obtain rfl := hr.transmit _ _ _ _ ht
  exact ⟨dev, (hi.transmit _ _ _ ht).trans (exchange_start _), he⟩

/-- The registers are written one after the other. -/
theorem returns_write_settings {s : ads1220_settings_t} {p : DrvM α} (he : Returns bus (do
      writeRegister CONFIG_REG0_ADDRESS s.reg0
      writeRegister CONFIG_REG1_ADDRESS s.reg1
      writeRegister CONFIG_REG2_ADDRESS s.reg2
      writeRegister CONFIG_REG3_ADDRESS s.reg3
      p) d a d') : ∃ dev, regs dev = s ∧ Returns bus p { d with dev } a d' := by
  obtain ⟨dev₀, h0, he⟩ := returns_write_register hi hr 0 he
  obtain ⟨dev₁, h1, he⟩ := returns_write_register hi hr 1 he
  obtain ⟨dev₂, h2, he⟩ := returns_write_register hi hr 2 he
  obtain ⟨dev₃, h3, he⟩ := returns_write_register hi hr 3 he
  refine ⟨dev₃, ?_, he⟩
  rw [h3, h2, h1, h0]
  rfl

theorem set_config_reg_registers {s : ads1220_settings_t} {u : Unit} (he : Returns bus (set_config_reg s) d u d') :
    regs d'.dev = s ∧ d'.ads = d.ads := by
  rw [← bind_pure (set_config_reg s)] at he
  simp only [set_config_reg, bind_assoc] at he
  obtain ⟨dev, h, he⟩ := returns_write_settings hi hr he
  obtain ⟨-, rfl⟩ := returns_pure.1 he
  exact ⟨h, rfl⟩

/-- The shadow becomes a copy of the registers. -/
theorem returns_read_settingsR {p : DrvM α} (he : Returns bus (do read_settingsR; p) d a d') :
    ∃ dev, regs dev = regs d.dev ∧
      Returns bus p { d with ads := { d.ads with settingsR := regs d.dev }, dev } a d' := by
  simp only [read_settingsR, bind_assoc] at he
  obtain ⟨dev₀, h0, he⟩ := returns_read_register hi hr 0 he
  have he := returns_update.1 he
  obtain ⟨dev₁, h1, he⟩ := returns_read_register hi hr 1 he
  have he := returns_update.1 he
  obtain ⟨dev₂, h2, he⟩ := returns_read_register hi hr 2 he
  have he := returns_update.1 he
  obtain ⟨dev₃, h3, he⟩ := returns_read_register hi hr 3 he
  have he := returns_update.1 he
  refine ⟨dev₃, ?_, ?_⟩
  · rw [h3, h2, h1, h0]
  · simp only [h2, h1, h0] at he
    exact he

/-- The setters end by writing their register of the shadow. -/
theorem returns_write_reg0 {u : Unit} (he : Returns bus write_reg0 d u d') :
    ∃ dev, regs dev = { regs d.dev with reg0 := d.ads.settingsR.reg0 } ∧ d' = { d with dev } := by
  rw [← bind_pure write_reg0] at he
  simp only [write_reg0, bind_assoc] at he
  obtain ⟨dev, h0, he⟩ := returns_write_register hi hr 0 (returns_rd_settingsR.1 he)
  exact ⟨dev, h0, (returns_pure.1 he).2⟩

theorem returns_write_reg1 {u : Unit} (he : Returns bus write_reg1 d u d') :
    ∃ dev, regs dev = { regs d.dev with reg1 := d.ads.settingsR.reg1 } ∧ d' = { d with dev } := by
  rw [← bind_pure write_reg1] at he
  simp only [write_reg1, bind_assoc] at he
  obtain ⟨dev, h1, he⟩ := returns_write_register hi hr 1 (returns_rd_settingsR.1 he)
  exact ⟨dev, h1, (returns_pure.1 he).2⟩

/-- **`begin` leaves the initial settings in the device and in the shadow.** -/
theorem begin_registers {r : Int} (he : Returns bus begin d r d') :
    r = 0 ∧ regs d'.dev = initial_settings ∧ d'.ads = ⟨initial_settings, initial_settings⟩ := by
  rw [begin] at he
  obtain ⟨dev₀, -, he⟩ := returns_reset hi hr (returns_delay.1 he)
  have he := returns_rd_settings.1 (returns_wr_settings.1 (returns_delay.1 he))
  obtain ⟨dev₁, h1, he⟩ := returns_write_settings hi hr he
  obtain ⟨dev₂, h2, he⟩ := returns_read_settingsR hi hr (returns_delay.1 he)
  obtain ⟨rfl, rfl⟩ := returns_pure.1 (returns_delay.1 he)
  refine ⟨rfl, h2.trans h1, ?_⟩
  simp only [h1]

/-- The value a temperature switch writes. -/
def ts_value (reg1 ts : UInt8) : UInt8 := (reg1 &&& ~~~REG_CONFIG1_TS_MASK) ||| ts

/-- **The temperature switches write the bit into register 1**, from the shadow. -/
theorem temp_sense_registers {ts : UInt8} {u : Unit} (he : Returns bus (temp_sense ts) d u d') :
    regs d'.dev = { regs d.dev with reg1 := ts_value d.ads.settingsR.reg1 ts } ∧
    d'.ads = { d.ads with settingsR := { d.ads.settingsR with reg1 := ts_value d.ads.settingsR.reg1 ts } } := by
  obtain ⟨dev, h1, rfl⟩ := returns_write_reg1 hi hr (returns_update.1 (returns_update.1 he))
  exact ⟨h1, rfl⟩

theorem start_conv_registers {u : Unit} (he : Returns bus start_conv d u d') :
    regs d'.dev = regs d.dev ∧ d'.ads = d.ads := by
  rw [← bind_pure start_conv] at he
  obtain ⟨dev, h, he⟩ := returns_start hi hr he
  obtain ⟨-, rfl⟩ := returns_pure.1 he
  exact ⟨h, rfl⟩

theorem receives_registers {ts : List Transfer} {dev dev' : D} (hts : bus.Receives ts dev dev') :
    regs dev' = regs dev := by
  induction ts generalizing dev with
  | nil => exact congrArg regs hts
  | cons t ts ih =>
    obtain ⟨dev₁, h1, h2⟩ := hts
    obtain ⟨ec, b⟩ := t
    obtain rfl := hr.receive _ _ _ _ h1
    exact (ih h2).trans (hi.receive _ _ _ h1)

theorem read_data_samples_registers {v : BitVec 32} (he : Returns bus read_data_samples d v d') :
    regs d'.dev = regs d.dev ∧ d'.ads = d.ads := by
  obtain ⟨t, dev, hts, rfl, -⟩ := returns_read_data_samples.1 he
  exact ⟨receives_registers hi hr hts, rfl⟩

end Reliable

/-- A bus with nothing but the registers: every transfer succeeds, and every byte can be
received as a sample. -/
def chipBus : SpiBus ads1220_settings_t where
  transmit tx ec s := if ec = ECODE_OK then some (exchange s .command tx).1 else none
  transfer tx ec rx s :=
    if ec = ECODE_OK ∧ ∀ i, ((exchange s .command tx).2[i.val]?.join).all (· == rx i) then
      some (exchange s .command tx).1
    else none
  receive ec _ s := if ec = ECODE_OK then some s else none
  transmit_answers tx s := ⟨ECODE_OK, _, if_pos rfl⟩
  transfer_answers tx s := by
    refine ⟨ECODE_OK, fun i => ((exchange s .command tx).2[i.val]?.join).getD 0, _, if_pos ⟨rfl, ?_⟩⟩
    intro i
    cases hx : (exchange s .command tx).2[i.val]?.join with
    | none => rfl
    | some v => simp [hx]
  receive_answers s := ⟨ECODE_OK, 0, s, if_pos rfl⟩

theorem chipBus_implements : Implements chipBus id where
  transmit tx s s' hs := by
    dsimp only [chipBus] at hs
    obtain ⟨-, hs⟩ := Option.ite_none_right_eq_some.1 hs
    exact (Option.some.inj hs).symm
  transfer tx rx s s' hs := by
    dsimp only [chipBus] at hs
    obtain ⟨⟨-, hrx⟩, hs⟩ := Option.ite_none_right_eq_some.1 hs
    refine ⟨(Option.some.inj hs).symm, ?_⟩
    intro i v hv
    have hall := hrx i
    rw [id] at hv
    rw [hv] at hall
    exact (beq_iff_eq.1 hall).symm
  receive b s s' hs := by
    dsimp only [chipBus] at hs
    obtain ⟨-, hs⟩ := Option.ite_none_right_eq_some.1 hs
    exact (Option.some.inj hs).symm

theorem chipBus_reliable : Reliable chipBus where
  transmit tx ec s s' hs := by
    dsimp only [chipBus] at hs
    exact (Option.ite_none_right_eq_some.1 hs).1
  transfer tx ec rx s s' hs := by
    dsimp only [chipBus] at hs
    exact (Option.ite_none_right_eq_some.1 hs).1.1
  receive ec b s s' hs := by
    dsimp only [chipBus] at hs
    exact (Option.ite_none_right_eq_some.1 hs).1

end M20Strain
