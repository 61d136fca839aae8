import M20Strain.Interrupt.Component
import Mathlib.Data.Nat.Notation
import Mathlib.Logic.Function.Basic

/-!
# The state of the firmware and its elementary calls

What the programs of the repository do to memory and hardware, one indivisible
step each: reading or writing one variable, or one call of a vendor function.

* `Driver`: the ADS1220 driver's memory and the SPI bus, with the calls `DrvOp`.
* `Local`: everything only the main loop touches, with the calls `MainOp`.
* `Shared`: what an interrupt handler writes, with the calls `ShrOp`.

A call is answered by the environment; `step` says which answers are possible.
Statuses of the BLE stack are unconstrained, and what the SPI bus answers is a
parameter (`SpiBus`).
-/

namespace M20Strain

open Interrupt

abbrev sl_status_t := UInt32

def SL_STATUS_OK : sl_status_t := 0

abbrev Ecode_t := UInt32

def ECODE_OK : Ecode_t := 0

structure ads1220_settings_t where
  reg0 : UInt8
  reg1 : UInt8
  reg2 : UInt8
  reg3 : UInt8
  deriving DecidableEq, Repr

/-- The data of `ads1220_t`; its function pointers are fixed by `init_ads1220`. -/
structure ads1220_t where
  settings : ads1220_settings_t
  settingsR : ads1220_settings_t
  deriving DecidableEq, Repr

/-- The SPI bus with the device on it, in state `D`: which answers a blocking
transfer can get, and the state it leaves. A transfer always ends with some answer. -/
structure SpiBus (D : Type) where
  transmit : List UInt8 → Ecode_t → D → Option D
  transfer : (tx : List UInt8) → Ecode_t → (Fin tx.length → UInt8) → D → Option D
  receive : Ecode_t → UInt8 → D → Option D
  transmit_answers : ∀ tx d, ∃ ec d', transmit tx ec d = some d'
  transfer_answers : ∀ tx d, ∃ ec rx d', transfer tx ec rx d = some d'
  receive_answers : ∀ d, ∃ ec b d', receive ec b d = some d'

/-- The driver's memory (`rx_buffer` is the static buffer of `read_data_samples`)
and the device. -/
structure Driver (D : Type) where
  ads : ads1220_t
  rx_buffer : Fin 3 → UInt8
  dev : D

inductive DrvOp where
  | rd_settings
  | wr_settings (s : ads1220_settings_t)
  | rd_settingsR
  | wr_settingsR (s : ads1220_settings_t)
  | rd_rx_buffer (i : Fin 3)
  | wr_rx_buffer (i : Fin 3) (b : UInt8)
  | SPIDRV_MTransmitB (tx : List UInt8)
  | SPIDRV_MTransferB (tx : List UInt8)
  | SPIDRV_MReceiveB
  | sl_udelay_wait (us : ℕ)

/-- A transfer answers with its status and the bytes received. -/
abbrev DrvOp.Resp : DrvOp → Type
  | .rd_settings | .rd_settingsR => ads1220_settings_t
  | .wr_settings _ | .wr_settingsR _ | .wr_rx_buffer _ _ | .sl_udelay_wait _ => Unit
  | .rd_rx_buffer _ => UInt8
  | .SPIDRV_MTransmitB _ => Ecode_t
  | .SPIDRV_MTransferB tx => Ecode_t × (Fin tx.length → UInt8)
  | .SPIDRV_MReceiveB => Ecode_t × UInt8

def DrvOp.step {D : Type} (bus : SpiBus D) : (o : DrvOp) → o.Resp → Driver D → Option (Driver D)
  | .rd_settings, r, d => if r = d.ads.settings then some d else none
  | .wr_settings s, _, d => some { d with ads := { d.ads with settings := s } }
  | .rd_settingsR, r, d => if r = d.ads.settingsR then some d else none
  | .wr_settingsR s, _, d => some { d with ads := { d.ads with settingsR := s } }
  | .rd_rx_buffer i, r, d => if r = d.rx_buffer i then some d else none
  | .wr_rx_buffer i b, _, d => some { d with rx_buffer := Function.update d.rx_buffer i b }
  | .SPIDRV_MTransmitB tx, r, d => (bus.transmit tx r d.dev).map fun dev => { d with dev }
  | .SPIDRV_MTransferB tx, r, d => (bus.transfer tx r.1 r.2 d.dev).map fun dev => { d with dev }
  | .SPIDRV_MReceiveB, r, d => (bus.receive r.1 r.2 d.dev).map fun dev => { d with dev }
  | .sl_udelay_wait _, _, d => some d

/-- `enum states`. -/
inductive states where
  | SLEEPING
  | WAKING_UP
  | ASKING_FOR_DATA
  | RETRIEVING_DATA
  | SENDING_DATA
  | TO_SLEEP
  deriving DecidableEq, Repr

/-- The value of an enumerator, as stored in `current_state`. -/
@[simp] def states.val : states → Int
  | SLEEPING => 0
  | WAKING_UP => 1
  | ASKING_FOR_DATA => 2
  | RETRIEVING_DATA => 3
  | SENDING_DATA => 4
  | TO_SLEEP => 5

instance : Coe states Int := ⟨states.val⟩

/-- The address of an `int` in the RAM of the target (`linkerfile.ld`: 32 KiB from
`0x20000000`). -/
structure RamAddr where
  val : ℕ
  le : 0x20000000 ≤ val
  lt : val + 4 ≤ 0x20008000
  deriving DecidableEq

/-- The flags of `app_fsm_t` that no handler writes. -/
inductive Flag where
  | wakeup_timer_flag
  | wakeup_completed_flag
  | data_retrieved_flag
  | data_sent_flag
  | sleep_possible_flag
  deriving DecidableEq, Repr

/-- The fields of `app_fsm_t` that no handler writes. `nConnections` is the pointer,
`connections` (left out) always points to the array of `app.c`. -/
structure app_fsm_t where
  sensor_data : Fin 4 → BitVec 32
  wakeup_timer_flag : UInt8
  wakeup_completed_flag : UInt8
  data_retrieved_flag : UInt8
  data_sent_flag : UInt8
  sleep_possible_flag : UInt8
  num_data_retrieved : Int
  nConnections : RamAddr

@[simp] def app_fsm_t.get (u : app_fsm_t) : Flag → UInt8
  | .wakeup_timer_flag => u.wakeup_timer_flag
  | .wakeup_completed_flag => u.wakeup_completed_flag
  | .data_retrieved_flag => u.data_retrieved_flag
  | .data_sent_flag => u.data_sent_flag
  | .sleep_possible_flag => u.sleep_possible_flag

@[simp] def app_fsm_t.set (u : app_fsm_t) (v : UInt8) : Flag → app_fsm_t
  | .wakeup_timer_flag => { u with wakeup_timer_flag := v }
  | .wakeup_completed_flag => { u with wakeup_completed_flag := v }
  | .data_retrieved_flag => { u with data_retrieved_flag := v }
  | .data_sent_flag => { u with data_sent_flag := v }
  | .sleep_possible_flag => { u with sleep_possible_flag := v }

/-- Everything only the main loop touches: `fsm_t`, the user data, the globals of
`app.c`, the driver, and the hardware the programs drive (EM4 pin wake-up armed,
bridge supply pin high, reset cause contains EM4). -/
structure Local (D : Type) where
  current_state : Int
  user : app_fsm_t
  connections : Fin 10 → UInt8
  nConnections : ℕ
  advertising_set_handle : UInt8
  em4PinWakeup : Bool
  bridgeOn : Bool
  em4Reset : Bool
  driver : Driver D

/-- The handles recorded: the first `nConnections` entries of `connections`. -/
def recorded {D : Type} (l : Local D) : List UInt8 := (List.ofFn l.connections).take l.nConnections

/-- Calls of the BLE stack that answer with a status only. -/
inductive BleCall where
  | sl_bt_gatt_server_write_attribute_value (attr offset : ℕ) (value : List UInt8)
  | sl_bt_gatt_server_notify_all (characteristic : ℕ) (value : List UInt8)
  | sl_bt_connection_close (connection : UInt8)
  | sl_bt_legacy_advertiser_generate_data (set : UInt8)
  | sl_bt_advertiser_set_timing (set : UInt8) (interval_min interval_max duration maxevents : ℕ)
  | sl_bt_legacy_advertiser_start (set : UInt8)
  deriving DecidableEq, Repr

/-- Functions whose entry is visible in traces. -/
inductive Routine where
  | wake_up
  | ask_for_next_data
  | ask_again
  | retrieve_data
  | power_down_interface_send_data
  | try_to_sleep
  | reset_timer_sleep
  | reset_no_timer
  | start_conv
  | sl_bt_torque_send_data (number : List UInt8)
  deriving DecidableEq, Repr

inductive MainOp where
  | enter (f : Routine)
  | rd_current_state
  | wr_current_state (s : Int)
  | rd (f : Flag)
  | wr (f : Flag) (v : UInt8)
  | rd_num_data_retrieved
  | wr_num_data_retrieved (n : Int)
  | rd_sensor_data (k : Fin 4)
  | wr_sensor_data (k : Int) (v : BitVec 32)
  | rd_nConnections_ptr
  | rd_nConnections
  | wr_nConnections (n : ℕ)
  | rd_connections (i : ℕ)
  | wr_connections (i : ℕ) (c : UInt8)
  | rd_advertising_set_handle
  | wr_advertising_set_handle (s : UInt8)
  | GPIO_EM4DisablePinWakeup
  | GPIO_EM4EnablePinWakeup
  | EMU_UnlatchPinRetention
  | RMU_ResetCauseGet
  | RMU_ResetCauseClear
  | GPIO_PinOutSet
  | GPIO_PinOutClear
  | ble (c : BleCall)
  | sl_bt_system_get_identity_address
  | sl_bt_advertiser_create_set
  | app_assert_status (sc : sl_status_t)
  | undefined_behaviour

/-- `sl_bt_system_get_identity_address` also answers the address bytes, and
`sl_bt_advertiser_create_set` the handle. -/
abbrev MainOp.Resp : MainOp → Type
  | .rd_current_state | .rd_num_data_retrieved => Int
  | .rd _ | .rd_connections _ | .rd_advertising_set_handle => UInt8
  | .rd_sensor_data _ => BitVec 32
  | .rd_nConnections_ptr => RamAddr
  | .rd_nConnections => ℕ
  | .RMU_ResetCauseGet => UInt32
  | .ble _ => sl_status_t
  | .sl_bt_system_get_identity_address => sl_status_t × (Fin 6 → UInt8)
  | .sl_bt_advertiser_create_set => sl_status_t × UInt8
  | _ => Unit

/-- The bit of the reset cause that says "wake-up from EM4". -/
def EMU_RSTCAUSE_EM4 : UInt32 := 0x4

/-- A store past the end of `connections`, an assertion that fails and
`undefined_behaviour` have no next state. A load from `connections` past its end
answers whatever byte lies there, and a store outside `sensor_data` hits memory that is
left out, so that traces show every index. Loads that leave the RAM and stores outside
`sensor_data` have no next state on the machine `target`, whose runs are those runs of this
machine that make none. The other bits of the reset cause are left open. -/
def MainOp.step {D : Type} : (o : MainOp) → o.Resp → Local D → Option (Local D)
  | .rd_current_state, r, l => if r = l.current_state then some l else none
  | .wr_current_state s, _, l => some { l with current_state := s }
  | .rd f, r, l => if r = l.user.get f then some l else none
  | .wr f v, _, l => some { l with user := l.user.set v f }
  | .rd_num_data_retrieved, r, l => if r = l.user.num_data_retrieved then some l else none
  | .wr_num_data_retrieved n, _, l => some { l with user := { l.user with num_data_retrieved := n } }
  | .rd_sensor_data k, r, l => if r = l.user.sensor_data k then some l else none
  | .wr_sensor_data k v, _, l =>
    if h : 0 ≤ k ∧ k.toNat < 4 then
      some { l with user := { l.user with sensor_data := Function.update l.user.sensor_data ⟨k.toNat, h.2⟩ v } }
    else some l
  | .rd_nConnections_ptr, r, l => if r = l.user.nConnections then some l else none
  | .rd_nConnections, r, l => if r = l.nConnections then some l else none
  | .wr_nConnections n, _, l => some { l with nConnections := n }
  | .rd_connections i, r, l =>
    if h : i < 10 then (if r = l.connections ⟨i, h⟩ then some l else none) else some l
  | .wr_connections i c, _, l =>
    if h : i < 10 then some { l with connections := Function.update l.connections ⟨i, h⟩ c } else none
  | .rd_advertising_set_handle, r, l => if r = l.advertising_set_handle then some l else none
  | .wr_advertising_set_handle s, _, l => some { l with advertising_set_handle := s }
  | .GPIO_EM4DisablePinWakeup, _, l => some { l with em4PinWakeup := false }
  | .GPIO_EM4EnablePinWakeup, _, l => some { l with em4PinWakeup := true }
  | .RMU_ResetCauseGet, r, l => if decide (r &&& EMU_RSTCAUSE_EM4 ≠ 0) = l.em4Reset then some l else none
  | .RMU_ResetCauseClear, _, l => some { l with em4Reset := false }
  | .GPIO_PinOutSet, _, l => some { l with bridgeOn := true }
  | .GPIO_PinOutClear, _, l => some { l with bridgeOn := false }
  | .app_assert_status sc, _, l => if sc = SL_STATUS_OK then some l else none
  | .undefined_behaviour, _, _ => none
  | .enter _, _, l | .EMU_UnlatchPinRetention, _, l | .ble _, _, l
  | .sl_bt_system_get_identity_address, _, l | .sl_bt_advertiser_create_set, _, l => some l

/-- The flags of `app_fsm_t` that a handler writes. -/
inductive SharedFlag where
  | data_ready_flag
  | change_mode_flag
  | tmr_flag
  deriving DecidableEq, Repr

/-- What a handler writes: three flags, the static `wakeupTimer`, and whether the
sleep timer runs. -/
structure Shared where
  data_ready_flag : UInt8
  change_mode_flag : UInt8
  tmr_flag : UInt8
  wakeupTimer : Int
  timerRunning : Bool
  deriving DecidableEq, Repr

@[simp] def Shared.get (h : Shared) : SharedFlag → UInt8
  | .data_ready_flag => h.data_ready_flag
  | .change_mode_flag => h.change_mode_flag
  | .tmr_flag => h.tmr_flag

@[simp] def Shared.set (h : Shared) (v : UInt8) : SharedFlag → Shared
  | .data_ready_flag => { h with data_ready_flag := v }
  | .change_mode_flag => { h with change_mode_flag := v }
  | .tmr_flag => { h with tmr_flag := v }

inductive ShrOp where
  | rd (f : SharedFlag)
  | wr (f : SharedFlag) (v : UInt8)
  | rd_wakeupTimer
  | wr_wakeupTimer (v : Int)
  | sl_sleeptimer_is_timer_running
  | sl_sleeptimer_start_timer (timeout : ℕ)
  | sl_sleeptimer_stop_timer
  | EMU_EnterEM4

/-- `EMU_EnterEM4` answers what the restarted device finds in the heap block of the
driver object. -/
abbrev ShrOp.Resp : ShrOp → Type
  | .rd _ => UInt8
  | .wr _ _ | .wr_wakeupTimer _ => Unit
  | .rd_wakeupTimer => Int
  | .sl_sleeptimer_is_timer_running => Bool
  | .sl_sleeptimer_start_timer _ | .sl_sleeptimer_stop_timer => sl_status_t
  | .EMU_EnterEM4 => ads1220_t

/-- The state `app_init` leaves: the globals as the loader initialises them, the user
data and the state machine as `new_app_fsm` does. -/
def new_app_fsm {D : Type} (nConnections : RamAddr) (em4PinWakeup em4Reset : Bool) (ads : ads1220_t)
    (dev : D) : Local D × Shared :=
  ({ current_state := states.SLEEPING
     user :=
       { sensor_data := fun _ => 0
         wakeup_timer_flag := 1 -- to activate the FSM
         wakeup_completed_flag := 0
         data_retrieved_flag := 0
         data_sent_flag := 0
         sleep_possible_flag := 0
         num_data_retrieved := 0
         nConnections }
     connections := fun _ => 0
     nConnections := 0
     advertising_set_handle := 0xff
     em4PinWakeup
     bridgeOn := false
     em4Reset
     driver := { ads, rx_buffer := fun _ => 0, dev } },
   { data_ready_flag := 0
     change_mode_flag := 0
     tmr_flag := 0
     wakeupTimer := 0
     timerRunning := false })

/-- The calls on shared state. `EMU_EnterEM4` does not return: the device restarts at
`main` with its RAM initialised again. It is the last call of every transition
that makes it, so the restart is the call's effect. -/
def ShrOp.step {D : Type} : (o : ShrOp) → o.Resp → Local D → Shared → Option (Local D × Shared)
  | .rd f, r, l, h => if r = h.get f then some (l, h) else none
  | .wr f v, _, l, h => some (l, h.set v f)
  | .rd_wakeupTimer, r, l, h => if r = h.wakeupTimer then some (l, h) else none
  | .wr_wakeupTimer v, _, l, h => some (l, { h with wakeupTimer := v })
  | .sl_sleeptimer_is_timer_running, r, l, h => if r = h.timerRunning then some (l, h) else none
  | .sl_sleeptimer_start_timer _, r, l, h =>
    if h.timerRunning then (if r ≠ SL_STATUS_OK then some (l, h) else none)
    else (if r = SL_STATUS_OK then some (l, { h with timerRunning := true }) else none)
  | .sl_sleeptimer_stop_timer, _, l, h => some (l, { h with timerRunning := false })
  | .EMU_EnterEM4, ads, l, _ =>
    some (new_app_fsm l.user.nConnections l.em4PinWakeup true ads l.driver.dev)

inductive Op where
  | drv (o : DrvOp)
  | main (o : MainOp)
  | shr (o : ShrOp)

abbrev Op.Resp : Op → Type
  | .drv o => o.Resp
  | .main o => o.Resp
  | .shr o => o.Resp

abbrev DrvM := Prog DrvOp.Resp

abbrev AppM := Prog Op.Resp

/-- The interrupts: the change-mode and data-ready pins, the sleep timer, BURTC. -/
inductive Irq where
  | change_mode
  | data_ready
  | sleeptimer
  | burtc
  deriving DecidableEq, Repr

/-- Logical negation of a `uint8_t`. -/
def cnot (v : UInt8) : UInt8 := if v = 0 then 1 else 0

def change_mode_callback (intNo : UInt8) (h : Shared) : Shared :=
  if intNo = 1 then { h with change_mode_flag := cnot h.change_mode_flag } else h

def ready_to_retrieve_callback (intNo : UInt8) (h : Shared) : Shared :=
  if intNo = 2 then { h with data_ready_flag := 1 } else h

def sleeptimer_callback (h : Shared) : Shared := { h with tmr_flag := 1 }

def BURTC_IRQHandler (h : Shared) : Shared := { h with wakeupTimer := 1 }

/-- The GPIO callbacks are registered for 1 and 2. The sleep timer expires only while
it runs, and has stopped when its callback is called. -/
def handle : Irq → Shared → Option Shared
  | .change_mode, h => some (change_mode_callback 1 h)
  | .data_ready, h => some (ready_to_retrieve_callback 2 h)
  | .sleeptimer, h => if h.timerRunning then some (sleeptimer_callback { h with timerRunning := false }) else none
  | .burtc, h => some (BURTC_IRQHandler h)

/-- The firmware on a device with SPI bus `bus`. -/
def firmware {D : Type} (bus : SpiBus D) : Machine Op.Resp Irq (Local D) Shared where
  step
    | .drv o, r, l, h => (o.step bus r l.driver).map fun d => ({ l with driver := d }, h)
    | .main o, r, l, h => (o.step r l).map fun l' => (l', h)
    | .shr o, r, l, h => o.step r l h
  handle := handle

end M20Strain
