import M20Strain.Binary.Format
import M20Strain.Model.Ads1220
import M20Strain.Model.Ble
import M20Strain.Model.Fsm

/-!
# The application (`m20_strain_ble.c`, `app.c`)

Guards, transition functions and transition table of the state machine, the
Bluetooth event handler, and the two tasks of the main loop. Logging is left out.
-/

namespace M20Strain

open Interrupt

/-- A driver function, called from the main loop. -/
def ads1220 {α : Type} (p : DrvM α) : AppM α := p.embed Op.drv fun _ r => r

/-- `static uint8_t sensorsReadCheck`; nothing assigns it. -/
def sensorsReadCheck : UInt8 := 1

def check_wakeup_timer : AppM Int := do
  let wakeup_timer_flag ← own (.rd .wakeup_timer_flag)
  pure wakeup_timer_flag.toNat

def check_change_mode : AppM Int := do
  let change_mode_flag ← shr (.rd .change_mode_flag)
  pure change_mode_flag.toNat

def check_wakeup_completed : AppM Int := do
  let wakeup_completed_flag ← own (.rd .wakeup_completed_flag)
  pure wakeup_completed_flag.toNat

def check_all_data_retrieved : AppM Int := do
  let num_data_retrieved ← own .rd_num_data_retrieved
  pure (if num_data_retrieved = 4 then 1 else 0)

def check_data_ready : AppM Int := do
  let data_ready_flag ← shr (.rd .data_ready_flag)
  if data_ready_flag ≠ 0 then do
    let num_data_retrieved ← own .rd_num_data_retrieved
    pure (if num_data_retrieved = 4 then 0 else 1)
  else pure 0

def check_data_retrieved : AppM Int := do
  own (.wr .data_retrieved_flag sensorsReadCheck)
  let num_data_retrieved ← own .rd_num_data_retrieved
  own (.wr_num_data_retrieved (num_data_retrieved + 1))
  let data_retrieved_flag ← own (.rd .data_retrieved_flag)
  pure data_retrieved_flag.toNat

def check_data_sent_not_continuous : AppM Int := do
  let data_sent_flag ← own (.rd .data_sent_flag)
  if data_sent_flag ≠ 0 then do
    let change_mode_flag ← shr (.rd .change_mode_flag)
    pure (if change_mode_flag = 0 then 1 else 0)
  else pure 0

def check_data_sent_continuous : AppM Int := do
  let data_sent_flag ← own (.rd .data_sent_flag)
  if data_sent_flag ≠ 0 then do
    let change_mode_flag ← shr (.rd .change_mode_flag)
    pure (if change_mode_flag = 0 then 0 else 1)
  else pure 0

def check_sleep_not_possible : AppM Int := do
  let sleep_possible_flag ← own (.rd .sleep_possible_flag)
  if sleep_possible_flag = 0 then do
    let change_mode_flag ← shr (.rd .change_mode_flag)
    pure (if change_mode_flag = 0 then 1 else 0)
  else pure 0

def check_sleep_possible : AppM Int := do
  let sleep_possible_flag ← own (.rd .sleep_possible_flag)
  if sleep_possible_flag ≠ 0 then do
    let change_mode_flag ← shr (.rd .change_mode_flag)
    if change_mode_flag = 0 then do
      let tmr_flag ← shr (.rd .tmr_flag)
      pure (if tmr_flag = 0 then 0 else 1)
    else pure 0
  else pure 0

def check_continuous_mode : AppM Int := do
  let change_mode_flag ← shr (.rd .change_mode_flag)
  pure change_mode_flag.toNat

/-- The part of `wake_up` that tells a wake-up by pin (continuous mode) from one by
timer (slow mode). -/
def set_mode (resetCause : UInt32) : AppM Unit :=
  if resetCause &&& EMU_RSTCAUSE_EM4 ≠ 0 then do
    let wakeupTimer ← shr .rd_wakeupTimer
    if wakeupTimer = 1 then do
      shr (.wr .change_mode_flag 0)
      shr (.wr_wakeupTimer 0)
    else shr (.wr .change_mode_flag 1)
  else pure ()

def wake_up : AppM Unit := do
  own (.enter .wake_up)
  own (.wr .wakeup_timer_flag 0)
  own .GPIO_EM4DisablePinWakeup
  own .EMU_UnlatchPinRetention
  let resetCause ← own .RMU_ResetCauseGet
  own .RMU_ResetCauseClear
  set_mode resetCause
  own .GPIO_PinOutSet
  let status ← ads1220 begin
  if status = 0 then own (.wr .wakeup_completed_flag 1) else pure ()

/-- The two branches of `ask_for_next_data` that start a conversion are the same. -/
def ask_for_sample : AppM Unit := do
  own .GPIO_PinOutClear
  ads1220 temp_sense_on
  own (.enter .start_conv)
  ads1220 start_conv

def ask_for_next_data : AppM Unit := do
  own (.enter .ask_for_next_data)
  own (.wr .wakeup_completed_flag 0)
  own (.wr .data_retrieved_flag 0)
  shr (.wr .data_ready_flag 0) -- for safety
  let nextSensor ← own .rd_num_data_retrieved
  if nextSensor < 3 then ask_for_sample
  else if nextSensor = 3 then ask_for_sample
  else pure ()

def ask_again : AppM Unit := do
  own (.enter .ask_again)
  own (.wr .data_sent_flag 0)
  own (.wr .wakeup_completed_flag 1)

def retrieve_data : AppM Unit := do
  own (.enter .retrieve_data)
  shr (.wr .data_ready_flag 0)
  own (.wr .data_retrieved_flag 0)
  let num_data_retrieved ← own .rd_num_data_retrieved
  let data ← ads1220 read_data_samples
  own (.wr_sensor_data num_data_retrieved data)

/-- `convertToMicroVStrain`: `(float) ((data*VFSR*1000000)/FSR)`, where `VFSR` stands for `2.5/128`
without parentheses: doubles, from left to right. Its calls are commented out. -/
def convertToMicroVStrain (data : BitVec 32) : BitVec 32 :=
  let x := Binary.binary64.round (data.toInt * (5 / 2))
  let x := Binary.binary64.round (x / 128)
  let x := Binary.binary64.round (x * 1000000)
  Binary.float32 (Binary.binary64.round (x / (2 ^ 23 - 1)))

/-- `convertToMicroVTemp`: `(float)(data >> 10) * 0.03125`, a product of doubles stored
as a `float`. The result is its bit pattern. -/
def convertToMicroVTemp (data : BitVec 32) : BitVec 32 :=
  let x := Binary.binary32.round (data.sshiftRight 10).toInt
  Binary.float32 (Binary.binary64.round (x * (1 / 32)))

/-- A `float` in memory, least significant byte first. -/
def float_bytes (f : BitVec 32) : List UInt8 :=
  [.ofBitVec (f.extractLsb' 0 8), .ofBitVec (f.extractLsb' 8 8), .ofBitVec (f.extractLsb' 16 8),
    .ofBitVec (f.extractLsb' 24 8)]

/-- The array `result` of `power_down_interface_send_data`, as bytes. -/
def packet (sensor_data : List (BitVec 32)) : List UInt8 :=
  sensor_data.flatMap fun data => float_bytes (convertToMicroVTemp data)

def power_down_interface_send_data : AppM Unit := do
  own (.enter .power_down_interface_send_data)
  own (.wr_num_data_retrieved 0)
  ads1220 temp_sense_off
  let d₀ ← own (.rd_sensor_data 0)
  let d₁ ← own (.rd_sensor_data 1)
  let d₂ ← own (.rd_sensor_data 2)
  let d₃ ← own (.rd_sensor_data 3)
  let sc ← sl_bt_torque_send_data (packet [d₀, d₁, d₂, d₃]) 16
  if sc = SL_STATUS_OK then own (.wr .data_sent_flag 1) else pure ()

/-- The part of `try_to_sleep` that starts the timer, unless it runs. -/
def start_timer (aux : Bool) : AppM Unit :=
  if aux then pure ()
  else do
    let _ ← shr (.sl_sleeptimer_start_timer 20000)

def try_to_sleep : AppM Unit := do
  own (.enter .try_to_sleep)
  own (.wr .data_sent_flag 0)
  let aux ← shr .sl_sleeptimer_is_timer_running
  start_timer aux
  own (.wr .sleep_possible_flag 1)

/-- The loop of `reset_timer_sleep`, with `n` iterations left at index `i`. -/
def close_connections : ℕ → ℕ → AppM Unit
  | 0, _ => pure ()
  | n + 1, i => do
    let connection ← own (.rd_connections i)
    let _ ← own (.ble (.sl_bt_connection_close connection))
    close_connections n (i + 1)

/-- The loop bound is the pointer `nConnections`, not the number it points to: `i` is
compared with the address, so the loop runs `nConnections.val` times. -/
def reset_timer_sleep : AppM Unit := do
  own (.enter .reset_timer_sleep)
  own (.wr .sleep_possible_flag 0)
  shr (.wr .tmr_flag 0)
  let _ ← shr .sl_sleeptimer_stop_timer
  let nConnections ← own .rd_nConnections_ptr
  close_connections nConnections.val 0
  own .GPIO_EM4EnablePinWakeup
  let _ ← shr .EMU_EnterEM4

def reset_no_timer : AppM Unit := do
  own (.enter .reset_no_timer)
  own (.wr .sleep_possible_flag 0)
  shr (.wr .tmr_flag 0)
  let _ ← shr .sl_sleeptimer_stop_timer
  let _ ← shr .EMU_EnterEM4

def app_fsm_tt : List (fsm_trans_t AppM) :=
  [⟨states.SLEEPING, check_wakeup_timer, states.WAKING_UP, wake_up⟩,
   ⟨states.SLEEPING, check_change_mode, states.WAKING_UP, wake_up⟩,
   ⟨states.WAKING_UP, check_wakeup_completed, states.ASKING_FOR_DATA, ask_for_next_data⟩,
   ⟨states.ASKING_FOR_DATA, check_all_data_retrieved, states.SENDING_DATA, power_down_interface_send_data⟩,
   ⟨states.ASKING_FOR_DATA, check_data_ready, states.RETRIEVING_DATA, retrieve_data⟩,
   ⟨states.RETRIEVING_DATA, check_data_retrieved, states.ASKING_FOR_DATA, ask_for_next_data⟩,
   ⟨states.SENDING_DATA, check_data_sent_continuous, states.WAKING_UP, ask_again⟩,
   ⟨states.SENDING_DATA, check_data_sent_not_continuous, states.TO_SLEEP, try_to_sleep⟩,
   ⟨states.TO_SLEEP, check_sleep_not_possible, states.TO_SLEEP, try_to_sleep⟩,
   ⟨states.TO_SLEEP, check_sleep_possible, states.SLEEPING, reset_timer_sleep⟩,
   ⟨states.TO_SLEEP, check_continuous_mode, states.SLEEPING, reset_no_timer⟩,
   ⟨-1, none, -1, none⟩]

/-- `app_process_action`: one `fsm_fire` of the application's state machine. -/
def app_process_action : AppM Unit := do
  let _ ← fsm_fire (own .rd_current_state) (fun s => own (.wr_current_state s)) app_fsm_tt

inductive sl_bt_evt where
  | system_boot
  | connection_opened (connection : UInt8)
  | connection_closed (connection : UInt8)
  | other
  deriving DecidableEq, Repr

def sl_bt_on_event : sl_bt_evt → AppM Unit
  | .system_boot => do
    let (sc, address) ← own .sl_bt_system_get_identity_address
    own (.app_assert_status sc)
    -- pad and reverse the unique id
    let system_id := [address 5, address 4, address 3, 0xFF, 0xFE, address 2, address 1, address 0]
    let sc ← own (.ble (.sl_bt_gatt_server_write_attribute_value gattdb_system_id 0 system_id))
    own (.app_assert_status sc)
    let (sc, set) ← own .sl_bt_advertiser_create_set
    own (.wr_advertising_set_handle set)
    own (.app_assert_status sc)
    let set ← own .rd_advertising_set_handle
    let sc ← own (.ble (.sl_bt_legacy_advertiser_generate_data set))
    own (.app_assert_status sc)
    let set ← own .rd_advertising_set_handle
    let sc ← own (.ble (.sl_bt_advertiser_set_timing set 160 160 0 0))
    own (.app_assert_status sc)
    let set ← own .rd_advertising_set_handle
    let sc ← own (.ble (.sl_bt_legacy_advertiser_start set))
    own (.app_assert_status sc)
  | .connection_opened connection => do
    let nConnections ← own .rd_nConnections
    own (.wr_nConnections (nConnections + 1))
    own (.wr_connections nConnections connection)
  | .connection_closed _ => do
    let set ← own .rd_advertising_set_handle
    let sc ← own (.ble (.sl_bt_legacy_advertiser_generate_data set))
    own (.app_assert_status sc)
    let set ← own .rd_advertising_set_handle
    let sc ← own (.ble (.sl_bt_legacy_advertiser_start set))
    own (.app_assert_status sc)
  | .other => pure ()

/-- What the main loop runs: an event of the BLE stack, or `app_process_action`. -/
inductive Task where
  | app_process_action
  | sl_bt_on_event (evt : sl_bt_evt)

def Task.body : Task → AppM Unit
  | .app_process_action => M20Strain.app_process_action
  | .sl_bt_on_event evt => M20Strain.sl_bt_on_event evt

end M20Strain
