import M20Strain.Model.Ads1220
import Mathlib.Data.Fin.VecNotation
import Mathlib.Data.Fintype.Basic
import Mathlib.Logic.Unique
import Mathlib.Tactic.FinCases

/-!
# Rules for the programs of the driver

What the elementary calls of the driver do to its memory and the device, and from
them what one register access does (`returns_writeRegister`, `returns_readRegister`)
and what a sample is (`returns_read_data_samples`), for any bus.
-/

namespace M20Strain

open Interrupt Prog

variable {D : Type} {bus : SpiBus D} {α : Type} {a : α} {d d' : Driver D}

/-- **`p` returns `a`**, from driver `d` to driver `d'`. -/
abbrev Returns (bus : SpiBus D) (p : DrvM α) (d : Driver D) (a : α) (d' : Driver D) : Prop :=
  Ends (DrvOp.step bus) p d a d'

theorem returns_pure {b : α} : Returns bus (pure b) d a d' ↔ a = b ∧ d' = d := Ends.ret_iff

theorem returns_drv {o : DrvOp} {k : o.Resp → DrvM α} : Returns bus (drv o >>= k) d a d' ↔
    ∃ r d₁, o.step bus r d = some d₁ ∧ Returns bus (k r) d₁ a d' := Ends.call_iff

/-- Every call of the driver has an answer. -/
theorem drv_answers (bus : SpiBus D) (o : DrvOp) (d : Driver D) : ∃ r d', o.step bus r d = some d' := by
  cases o with
  | SPIDRV_MTransmitB tx =>
    obtain ⟨ec, dev, h⟩ := bus.transmit_answers tx d.dev
    exact ⟨ec, _, by rw [DrvOp.step, h]; rfl⟩
  | SPIDRV_MTransferB tx =>
    obtain ⟨ec, rx, dev, h⟩ := bus.transfer_answers tx d.dev
    exact ⟨(ec, rx), _, by rw [DrvOp.step, h]; rfl⟩
  | SPIDRV_MReceiveB =>
    obtain ⟨ec, b, dev, h⟩ := bus.receive_answers d.dev
    exact ⟨(ec, b), _, by rw [DrvOp.step, h]; rfl⟩
  | rd_settings | rd_settingsR | rd_rx_buffer i => exact ⟨_, _, if_pos rfl⟩
  | wr_settings s | wr_settingsR s | wr_rx_buffer i b | sl_udelay_wait us => exact ⟨(), _, rfl⟩

/-- A program of the driver returns. -/
theorem drv_ends {α : Type} (bus : SpiBus D) (p : DrvM α) (d : Driver D) : ∃ a d', Ends (DrvOp.step bus) p d a d' :=
  Ends.exists (drv_answers bus) p d

/-- A call that answers `v` and changes nothing. -/
theorem returns_read {o : DrvOp} [DecidableEq o.Resp] {v : o.Resp}
    (ho : ∀ r, o.step bus r d = if r = v then some d else none) {k : o.Resp → DrvM α} :
    Returns bus (drv o >>= k) d a d' ↔ Returns bus (k v) d a d' := Ends.read_iff ho

/-- A call that has one answer and one next state. -/
theorem returns_write {o : DrvOp} [Unique o.Resp] {d₁ : Driver D} (ho : ∀ r, o.step bus r d = some d₁)
    {k : o.Resp → DrvM α} : Returns bus (drv o >>= k) d a d' ↔ Returns bus (k default) d₁ a d' := Ends.write_iff ho

theorem returns_rd_settings {k : DrvOp.rd_settings.Resp → DrvM α} :
    Returns bus (drv .rd_settings >>= k) d a d' ↔ Returns bus (k d.ads.settings) d a d' :=
  returns_read (o := .rd_settings) fun _ => rfl

theorem returns_wr_settings {s : ads1220_settings_t} {p : DrvM α} :
    Returns bus (do drv (.wr_settings s); p) d a d' ↔
      Returns bus p { d with ads := { d.ads with settings := s } } a d' :=
  returns_write (o := .wr_settings s) fun _ => rfl

theorem returns_rd_settingsR {k : DrvOp.rd_settingsR.Resp → DrvM α} :
    Returns bus (drv .rd_settingsR >>= k) d a d' ↔ Returns bus (k d.ads.settingsR) d a d' :=
  returns_read (o := .rd_settingsR) fun _ => rfl

theorem returns_wr_settingsR {s : ads1220_settings_t} {p : DrvM α} :
    Returns bus (do drv (.wr_settingsR s); p) d a d' ↔
      Returns bus p { d with ads := { d.ads with settingsR := s } } a d' :=
  returns_write (o := .wr_settingsR s) fun _ => rfl

theorem returns_rd_rx_buffer {i : Fin 3} {k : (DrvOp.rd_rx_buffer i).Resp → DrvM α} :
    Returns bus (drv (.rd_rx_buffer i) >>= k) d a d' ↔ Returns bus (k (d.rx_buffer i)) d a d' :=
  returns_read (o := .rd_rx_buffer i) fun _ => rfl

theorem returns_wr_rx_buffer {i : Fin 3} {b : UInt8} {p : DrvM α} :
    Returns bus (do drv (.wr_rx_buffer i b); p) d a d' ↔
      Returns bus p { d with rx_buffer := Function.update d.rx_buffer i b } a d' :=
  returns_write (o := .wr_rx_buffer i b) fun _ => rfl

theorem returns_delay {us : ℕ} {p : DrvM α} :
    Returns bus (do drv (.sl_udelay_wait us); p) d a d' ↔ Returns bus p d a d' :=
  returns_write (o := .sl_udelay_wait us) fun _ => rfl

/-- An assignment through `settingsR`. -/
theorem returns_update {f : ads1220_settings_t → ads1220_settings_t} {p : DrvM α} :
    Returns bus (do update_settingsR f; p) d a d' ↔
      Returns bus p { d with ads := { d.ads with settingsR := f d.ads.settingsR } } a d' := by
  simp only [update_settingsR, bind_assoc]
  exact returns_rd_settingsR.trans returns_wr_settingsR

theorem returns_transmit {tx : List UInt8} {k : (DrvOp.SPIDRV_MTransmitB tx).Resp → DrvM α} :
    Returns bus (drv (.SPIDRV_MTransmitB tx) >>= k) d a d' ↔
      ∃ ec dev, bus.transmit tx ec d.dev = some dev ∧ Returns bus (k ec) { d with dev } a d' := by
  rw [returns_drv]
  simp only [DrvOp.step, Option.map_eq_some_iff]
  constructor
  · rintro ⟨ec, _, ⟨dev, ht, rfl⟩, H⟩
    exact ⟨ec, dev, ht, H⟩
  · rintro ⟨ec, dev, ht, H⟩
    exact ⟨ec, _, ⟨dev, ht, rfl⟩, H⟩

theorem returns_transfer {tx : List UInt8} {k : (DrvOp.SPIDRV_MTransferB tx).Resp → DrvM α} :
    Returns bus (drv (.SPIDRV_MTransferB tx) >>= k) d a d' ↔
      ∃ ec rx dev, bus.transfer tx ec rx d.dev = some dev ∧ Returns bus (k (ec, rx)) { d with dev } a d' := by
  rw [returns_drv]
  simp only [DrvOp.step, Option.map_eq_some_iff]
  constructor
  · rintro ⟨⟨ec, rx⟩, _, ⟨dev, ht, rfl⟩, H⟩
    exact ⟨ec, rx, dev, ht, H⟩
  · rintro ⟨ec, rx, dev, ht, H⟩
    exact ⟨(ec, rx), _, ⟨dev, ht, rfl⟩, H⟩

theorem returns_receive {k : DrvOp.SPIDRV_MReceiveB.Resp → DrvM α} :
    Returns bus (drv .SPIDRV_MReceiveB >>= k) d a d' ↔
      ∃ ec b dev, bus.receive ec b d.dev = some dev ∧ Returns bus (k (ec, b)) { d with dev } a d' := by
  rw [returns_drv]
  simp only [DrvOp.step, Option.map_eq_some_iff]
  constructor
  · rintro ⟨⟨ec, b⟩, _, ⟨dev, ht, rfl⟩, H⟩
    exact ⟨ec, b, dev, ht, H⟩
  · rintro ⟨ec, b, dev, ht, H⟩
    exact ⟨(ec, b), _, ⟨dev, ht, rfl⟩, H⟩

/-- Whatever the status, it is dropped. -/
theorem returns_writeRegister {address value : UInt8} {p : DrvM α} :
    Returns bus (do writeRegister address value; p) d a d' ↔ ∃ ec dev,
      bus.transmit [WREG ||| (address <<< 2), value] ec d.dev = some dev ∧ Returns bus p { d with dev } a d' := by
  simp only [writeRegister, bind_assoc, pure_bind]
  exact returns_transmit

theorem returns_spi_command {data_in : UInt8} {p : DrvM α} :
    Returns bus (do spi_command data_in; p) d a d' ↔ ∃ ec dev,
      bus.transmit [0x00, data_in] ec d.dev = some dev ∧ Returns bus p { d with dev } a d' := by
  simp only [spi_command, bind_assoc, pure_bind]
  exact returns_transmit

/-- The frame that asks for one register. -/
def readFrame (address : UInt8) : List UInt8 :=
  [RREG ||| (address <<< 2), SPI_MASTER_DUMMY, SPI_MASTER_DUMMY, SPI_MASTER_DUMMY]

theorem readFrame_length {address : UInt8} : 1 < (readFrame address).length := Nat.le_add_left 2 2

theorem returns_readRegister {address : UInt8} {k : UInt8 → DrvM α} :
    Returns bus (readRegister address >>= k) d a d' ↔ ∃ ec rx dev,
      bus.transfer (readFrame address) ec rx d.dev = some dev ∧
        Returns bus (k (rx ⟨1, readFrame_length⟩)) { d with dev } a d' := by
  simp only [readRegister, bind_assoc, pure_bind]
  exact returns_transfer

/-- The answer of one `SPIDRV_MReceiveB`. -/
abbrev Transfer := Ecode_t × UInt8

/-- What its destination holds after a transfer, when it held `b`. -/
def Transfer.kept (t : Transfer) (b : UInt8) : UInt8 := if t.1 = ECODE_OK then t.2 else b

/-- One receive after the other is answered with `ts`. -/
def SpiBus.Receives (bus : SpiBus D) : List Transfer → D → D → Prop
  | [], dev, dev' => dev' = dev
  | t :: ts, dev, dev' => ∃ dev₁, bus.receive t.1 t.2 dev = some dev₁ ∧ bus.Receives ts dev₁ dev'

theorem returns_receive_byte {i : Fin 3} {p : DrvM α} : Returns bus (do receive_byte i; p) d a d' ↔
    ∃ (t : Transfer) (dev : D), bus.receive t.1 t.2 d.dev = some dev ∧ Returns bus p
      { d with rx_buffer := Function.update d.rx_buffer i (t.kept (d.rx_buffer i)), dev } a d' := by
  simp only [receive_byte, bind_assoc]
  rw [returns_receive]
  constructor
  · rintro ⟨ec, b, dev, hr, H⟩
    refine ⟨(ec, b), dev, hr, ?_⟩
    unfold Transfer.kept
    split at H
    · rename_i hec
      rw [if_pos hec]
      exact returns_wr_rx_buffer.1 H
    · rename_i hec
      rw [if_neg hec, Function.update_eq_self]
      exact H
  · rintro ⟨⟨ec, b⟩, dev, hr, H⟩
    refine ⟨ec, b, dev, hr, ?_⟩
    unfold Transfer.kept at H
    split
    · rename_i hec
      rw [if_pos hec] at H
      exact returns_wr_rx_buffer.2 H
    · rename_i hec
      rw [if_neg hec, Function.update_eq_self] at H
      exact H

/-- **A sample is made of the bytes in the buffer**: each the one received, or what the
buffer held before where the transfer failed. -/
theorem returns_read_data_samples {v : BitVec 32} : Returns bus read_data_samples d v d' ↔
    ∃ (t : Fin 3 → Transfer) (dev : D), bus.Receives [t 0, t 1, t 2] d.dev dev ∧
      d' = { d with rx_buffer := fun i => (t i).kept (d.rx_buffer i), dev } ∧
      v = sample_value (d'.rx_buffer 0) (d'.rx_buffer 1) (d'.rx_buffer 2) := by
  have buffer (t : Fin 3 → Transfer) : Function.update (Function.update (Function.update d.rx_buffer 0
      ((t 0).kept (d.rx_buffer 0))) 1 ((t 1).kept (d.rx_buffer 1))) 2 ((t 2).kept (d.rx_buffer 2)) =
      fun i => (t i).kept (d.rx_buffer i) := by
    funext i
    fin_cases i <;> rfl
  constructor
  · intro he
    obtain ⟨t₀, dev₀, h0, he⟩ := returns_receive_byte.1 he
    obtain ⟨t₁, dev₁, h1, he⟩ := returns_receive_byte.1 he
    obtain ⟨t₂, dev₂, h2, he⟩ := returns_receive_byte.1 he
    have he := returns_rd_rx_buffer.1 (returns_rd_rx_buffer.1 (returns_rd_rx_buffer.1 he))
    obtain ⟨rfl, rfl⟩ := returns_pure.1 he
    refine ⟨![t₀, t₁, t₂], dev₂, ⟨dev₀, h0, dev₁, h1, dev₂, h2, rfl⟩, ?_, rfl⟩
    rw [← buffer]
    rfl
  · rintro ⟨t, dev, ⟨dev₀, h0, dev₁, h1, dev₂, h2, rfl⟩, rfl, rfl⟩
    refine returns_receive_byte.2 ⟨t 0, dev₀, h0, ?_⟩
    refine returns_receive_byte.2 ⟨t 1, dev₁, h1, ?_⟩
    refine returns_receive_byte.2 ⟨t 2, dev, h2, ?_⟩
    refine returns_rd_rx_buffer.2 (returns_rd_rx_buffer.2 (returns_rd_rx_buffer.2 ?_))
    rw [← buffer]
    exact returns_pure.2 ⟨rfl, rfl⟩

end M20Strain
