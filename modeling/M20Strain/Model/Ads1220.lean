import M20Strain.Model.State

/-!
# The ADS1220 driver (`ADS1220.c`)

Registers, commands, the setters of bit fields, and samples. Statuses of register
transfers are only logged by the source, so they are read and dropped.
-/

namespace M20Strain

open Interrupt

/-- One elementary call of the driver. -/
def drv (o : DrvOp) : DrvM o.Resp := Prog.op o

def SPI_MASTER_DUMMY : UInt8 := 0xFF
def RESET : UInt8 := 0x06
def START : UInt8 := 0x08
def WREG : UInt8 := 0x40
def RREG : UInt8 := 0x20

def CONFIG_REG0_ADDRESS : UInt8 := 0x00
def CONFIG_REG1_ADDRESS : UInt8 := 0x01
def CONFIG_REG2_ADDRESS : UInt8 := 0x02
def CONFIG_REG3_ADDRESS : UInt8 := 0x03

def REG_CONFIG1_DR_MASK : UInt8 := 0xE0
def REG_CONFIG0_PGA_GAIN_MASK : UInt8 := 0x0E
def REG_CONFIG0_MUX_MASK : UInt8 := 0xF0
def REG_CONFIG1_TS_MASK : UInt8 := 0x02

def _BV (bit : UInt8) : UInt8 := 1 <<< bit

def writeRegister (address value : UInt8) : DrvM Unit := do
  let _ ← drv (.SPIDRV_MTransmitB [WREG ||| (address <<< 2), value])

/-- All registers in one transmission. Nothing calls it. -/
def writeAllRegister (settings : ads1220_settings_t) : DrvM Unit := do
  let _ ← drv (.SPIDRV_MTransmitB
    [WREG ||| 0b11, settings.reg0, settings.reg1, settings.reg2, settings.reg3])

/-- If the transfer fails, the byte returned is whatever the buffer on the stack held. -/
def readRegister (address : UInt8) : DrvM UInt8 := do
  let r ← drv (.SPIDRV_MTransferB
    [RREG ||| (address <<< 2), SPI_MASTER_DUMMY, SPI_MASTER_DUMMY, SPI_MASTER_DUMMY])
  pure (r.2 ⟨1, by simp⟩)

/-- The five bytes received are stored from the address `settings` on: the offsets and
values of these stores. Nothing calls it. -/
def readAllRegister : DrvM (List (ℕ × UInt8)) := do
  let r ← drv (.SPIDRV_MTransferB
    [RREG ||| 0b11, SPI_MASTER_DUMMY, SPI_MASTER_DUMMY, SPI_MASTER_DUMMY, SPI_MASTER_DUMMY])
  pure (List.ofFn fun i => (i.val, r.2 i))

def spi_command (data_in : UInt8) : DrvM Unit := do
  let _ ← drv (.SPIDRV_MTransmitB [0x00, data_in])

def ads1220_reset : DrvM Unit := spi_command RESET

def start_conv : DrvM Unit := spi_command START

/-- An assignment through the pointer `settingsR`. -/
def update_settingsR (f : ads1220_settings_t → ads1220_settings_t) : DrvM Unit := do
  let settingsR ← drv .rd_settingsR
  drv (.wr_settingsR (f settingsR))

/-- Reading the four registers back into the shadow `settingsR`. -/
def read_settingsR : DrvM Unit := do
  let reg0 ← readRegister CONFIG_REG0_ADDRESS
  update_settingsR ({ · with reg0 })
  let reg1 ← readRegister CONFIG_REG1_ADDRESS
  update_settingsR ({ · with reg1 })
  let reg2 ← readRegister CONFIG_REG2_ADDRESS
  update_settingsR ({ · with reg2 })
  let reg3 ← readRegister CONFIG_REG3_ADDRESS
  update_settingsR ({ · with reg3 })

/-- The settings `begin` writes. -/
def initial_settings : ads1220_settings_t where
  reg0 := 0b01101110 -- AINP=AIN1, AINN=AIN0, gain 128, PGA enabled
  reg1 := 0b11010000 -- 2000 SPS, turbo, single shot, temperature sensor disabled
  reg2 := 0b01000000 -- external reference
  reg3 := 0b00000000 -- IDACs disabled, DRDY pin only

def begin : DrvM Int := do
  drv (.sl_udelay_wait 100000)
  ads1220_reset
  drv (.sl_udelay_wait 100000)
  drv (.wr_settings initial_settings)
  let settings ← drv .rd_settings
  writeRegister CONFIG_REG0_ADDRESS settings.reg0
  writeRegister CONFIG_REG1_ADDRESS settings.reg1
  writeRegister CONFIG_REG2_ADDRESS settings.reg2
  writeRegister CONFIG_REG3_ADDRESS settings.reg3
  drv (.sl_udelay_wait 100000)
  read_settingsR
  drv (.sl_udelay_wait 100000)
  pure 0

/-- The low byte of an `int`, which is what a `uint8_t` keeps of it. -/
def low_byte (x : BitVec 32) : UInt8 := .ofBitVec (x.setWidth 8)

def write_reg0 : DrvM Unit := do
  let settingsR ← drv .rd_settingsR
  writeRegister CONFIG_REG0_ADDRESS settingsR.reg0

def write_reg1 : DrvM Unit := do
  let settingsR ← drv .rd_settingsR
  writeRegister CONFIG_REG1_ADDRESS settingsR.reg1

def pga_on : DrvM Unit := do
  update_settingsR fun s => { s with reg0 := s.reg0 &&& ~~~_BV 0 }
  write_reg0

def pga_off : DrvM Unit := do
  update_settingsR fun s => { s with reg0 := s.reg0 ||| _BV 0 }
  write_reg0

def set_conv_mode_continuous : DrvM Unit := do
  update_settingsR fun s => { s with reg1 := s.reg1 ||| _BV 2 }
  write_reg1

def set_conv_mode_single_shot : DrvM Unit := do
  update_settingsR fun s => { s with reg1 := s.reg1 &&& ~~~_BV 2 }
  write_reg1

/-- A setter of a bit field: clear the bits of `mask` in register 0 of the shadow, set those of
`value` and write the register to the device. -/
def set_field0 (mask value : UInt8) : DrvM Unit := do
  update_settingsR fun s => { s with reg0 := s.reg0 &&& ~~~mask }
  update_settingsR fun s => { s with reg0 := s.reg0 ||| value }
  write_reg0

/-- The same for register 1. -/
def set_field1 (mask value : UInt8) : DrvM Unit := do
  update_settingsR fun s => { s with reg1 := s.reg1 &&& ~~~mask }
  update_settingsR fun s => { s with reg1 := s.reg1 ||| value }
  write_reg1

def set_data_rate (datarate : BitVec 32) : DrvM Unit := set_field1 REG_CONFIG1_DR_MASK (low_byte datarate)

def select_mux_channels (channels_conf : BitVec 32) : DrvM Unit :=
  set_field0 REG_CONFIG0_MUX_MASK (low_byte channels_conf)

def set_pga_gain (pgagain : BitVec 32) : DrvM Unit := set_field0 REG_CONFIG0_PGA_GAIN_MASK (low_byte pgagain)

/-- Both switches set the temperature-sensor bit to `ts`. -/
def temp_sense (ts : UInt8) : DrvM Unit := set_field1 REG_CONFIG1_TS_MASK ts

def temp_sense_on : DrvM Unit := temp_sense 0x02

def temp_sense_off : DrvM Unit := temp_sense 0x00

/-- `get_config_reg`, with `settings` the record of the caller: what the function leaves
in it. Only `reg0` is assigned, four times. -/
def get_config_reg (settings : ads1220_settings_t) : DrvM ads1220_settings_t := do
  read_settingsR
  let settingsR ← drv .rd_settingsR
  let settings := { settings with reg0 := settingsR.reg0 }
  let settings := { settings with reg0 := settingsR.reg1 }
  let settings := { settings with reg0 := settingsR.reg2 }
  let settings := { settings with reg0 := settingsR.reg3 }
  pure settings

def set_config_reg (settings : ads1220_settings_t) : DrvM Unit := do
  writeRegister CONFIG_REG0_ADDRESS settings.reg0
  writeRegister CONFIG_REG1_ADDRESS settings.reg1
  writeRegister CONFIG_REG2_ADDRESS settings.reg2
  writeRegister CONFIG_REG3_ADDRESS settings.reg3

/-- One byte of a sample. A transfer that fails leaves its destination unchanged. -/
def receive_byte (i : Fin 3) : DrvM Unit := do
  let r ← drv .SPIDRV_MReceiveB
  if r.1 = ECODE_OK then drv (.wr_rx_buffer i r.2) else pure ()

/-- The 24-bit two's complement value of three bytes, as a 32-bit one. -/
def sample_value (b₀ b₁ b₂ : UInt8) : BitVec 32 :=
  let mResult32 : BitVec 32 := b₀.toBitVec.setWidth 32
  let mResult32 := (mResult32 <<< 8) ||| b₁.toBitVec.setWidth 32
  let mResult32 := (mResult32 <<< 8) ||| b₂.toBitVec.setWidth 32
  let mResult32 := mResult32 <<< 8
  mResult32.sshiftRight 8

def read_data_samples : DrvM (BitVec 32) := do
  receive_byte 0
  receive_byte 1
  receive_byte 2
  let b₀ ← drv (.rd_rx_buffer 0)
  let b₁ ← drv (.rd_rx_buffer 1)
  let b₂ ← drv (.rd_rx_buffer 2)
  pure (sample_value b₀ b₁ b₂)

end M20Strain
