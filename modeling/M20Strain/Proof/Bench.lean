import M20Strain.Interrupt.Replay
import M20Strain.Proof.Runs

/-!
# A device on the bench

A bus that can answer anything, the state after power-up, and an environment in
which every call succeeds except as told: concrete values for the parameters of
the model, with which runs can be replayed.
-/

namespace M20Strain

open Interrupt

/-- A bus on which every transfer can get every answer. -/
def anyBus : SpiBus Unit where
  transmit _ _ d := some d
  transfer _ _ _ d := some d
  receive _ _ d := some d
  transmit_answers _ d := ⟨ECODE_OK, d, rfl⟩
  transfer_answers _ d := ⟨ECODE_OK, fun _ => 0, d, rfl⟩
  receive_answers d := ⟨ECODE_OK, 0, d, rfl⟩

/-- Where the linker puts `nConnections`. -/
def nConnections_addr : RamAddr := ⟨0x20000fc4, by decide, by decide⟩

/-- Where it puts `connections`. -/
def connections_addr : RamAddr := ⟨0x20000fb8, by decide, by decide⟩

/-- The state `app_init` leaves after power-up, or after EM4. -/
def booted (em4PinWakeup em4Reset : Bool) : Local Unit × Shared :=
  new_app_fsm nConnections_addr em4PinWakeup em4Reset ⟨⟨0, 0, 0, 0⟩, ⟨0, 0, 0, 0⟩⟩ ()

theorem booted_boot {em4PinWakeup em4Reset : Bool} :
    Boot (booted em4PinWakeup em4Reset).1 (booted em4PinWakeup em4Reset).2 :=
  ⟨_, _, _, _, _, rfl⟩

def DrvOp.answer : (o : DrvOp) → Driver Unit → o.Resp
  | .rd_settings, d => d.ads.settings
  | .rd_settingsR, d => d.ads.settingsR
  | .rd_rx_buffer i, d => d.rx_buffer i
  | .SPIDRV_MTransmitB _, _ => ECODE_OK
  | .SPIDRV_MTransferB _, _ => (ECODE_OK, fun _ => 0)
  | .SPIDRV_MReceiveB, _ => (ECODE_OK, 0)
  | .wr_settings _, _ | .wr_settingsR _, _ | .wr_rx_buffer _ _, _ | .sl_udelay_wait _, _ => ()

def MainOp.answer (status : BleCall → sl_status_t) : (o : MainOp) → Local Unit → o.Resp
  | .rd_current_state, l => l.current_state
  | .rd f, l => l.user.get f
  | .rd_num_data_retrieved, l => l.user.num_data_retrieved
  | .rd_sensor_data k, l => l.user.sensor_data k
  | .rd_nConnections_ptr, l => l.user.nConnections
  | .rd_nConnections, l => l.nConnections
  | .rd_connections i, l => if h : i < 10 then l.connections ⟨i, h⟩ else 0
  | .rd_advertising_set_handle, l => l.advertising_set_handle
  | .RMU_ResetCauseGet, l => if l.em4Reset then EMU_RSTCAUSE_EM4 else 0
  | .ble c, _ => status c
  | .sl_bt_system_get_identity_address, _ => (SL_STATUS_OK, fun _ => 0)
  | .sl_bt_advertiser_create_set, _ => (SL_STATUS_OK, 0)
  | .enter _, _ | .wr_current_state _, _ | .wr _ _, _ | .wr_num_data_retrieved _, _ | .wr_sensor_data _ _, _
  | .wr_nConnections _, _ | .wr_connections _ _, _ | .wr_advertising_set_handle _, _
  | .GPIO_EM4DisablePinWakeup, _ | .GPIO_EM4EnablePinWakeup, _ | .EMU_UnlatchPinRetention, _
  | .RMU_ResetCauseClear, _ | .GPIO_PinOutSet, _ | .GPIO_PinOutClear, _ | .app_assert_status _, _
  | .undefined_behaviour, _ => ()

def ShrOp.answer : (o : ShrOp) → Local Unit → Shared → o.Resp
  | .rd f, _, h => h.get f
  | .wr _ _, _, _ | .wr_wakeupTimer _, _, _ => ()
  | .rd_wakeupTimer, _, h => h.wakeupTimer
  | .sl_sleeptimer_is_timer_running, _, h => h.timerRunning
  | .sl_sleeptimer_start_timer _, _, h => if h.timerRunning then 1 else SL_STATUS_OK
  | .sl_sleeptimer_stop_timer, _, _ => SL_STATUS_OK
  | .EMU_EnterEM4, l, _ => l.driver.ads

/-- BLE calls are answered with `status`; `before` says which interrupts a call finds. -/
def bench (status : BleCall → sl_status_t) (before : Op → Local Unit → Shared → List Irq) :
    Env Op.Resp Irq (Local Unit) Shared where
  answer
    | .drv o, l, _ => o.answer l.driver
    | .main o, l, _ => o.answer status l
    | .shr o, l, h => o.answer l h
  before := before

/-- Without interrupts inside tasks, and with a BLE stack that never fails. -/
def quietBench : Env Op.Resp Irq (Local Unit) Shared := bench (fun _ => SL_STATUS_OK) fun _ _ _ => []

/-- With a data-ready interrupt right before every start of a conversion. -/
def earlyReady : Env Op.Resp Irq (Local Unit) Shared :=
  bench (fun _ => SL_STATUS_OK) fun
    | .main (.enter .start_conv), _, _ => [.data_ready]
    | _, _, _ => []

abbrev Script := List (Step Irq Task)

/-- The run of a script on the bench, from power-up. -/
def onBench (env : Env Op.Resp Irq (Local Unit) Shared) (script : Script) :
    Option (List (Event Unit) × Local Unit × Shared) :=
  replay (firmware anyBus) Task.body env script (booted false false).1 (booted false false).2

theorem bench_run (env : Env Op.Resp Irq (Local Unit) Shared) (script : Script)
    {P : List (Event Unit) → Local Unit → Shared → Prop} [∀ tr l h, Decidable (P tr l h)]
    (hr : (onBench env script).any (fun r => decide (P r.1 r.2.1 r.2.2)) = true) :
    ∃ tr l h, Runs anyBus (booted false false).1 (booted false false).2 tr l h ∧ P tr l h :=
  exists_run hr

/-- `n` calls of `app_process_action`. -/
def fires (n : ℕ) : Script := List.replicate n (.task .app_process_action)

/-- One measurement, from the state in which the next sample is asked for: four
conversions, the fifth entry to the state, and the packet. -/
def measurement : Script :=
  (List.replicate 4 (fires 1 ++ [.irq .data_ready] ++ fires 1)).flatten ++ fires 2

end M20Strain
