import M20Strain.Proof.Lifetime
import M20Strain.Proof.Station

/-!
# The device is a measuring station

Lives of the device look like runs of the main loop, and these are the paths of the station.
`device_iff`: so the device, with `app_init` after power-up and after every EM4 and interrupts
between its statements, shows exactly the paths of the station.
-/

namespace M20Strain

open Interrupt Prog

variable {D : Type} {bus : SpiBus D} {nConnections : RamAddr} {em4PinWakeup em4Reset : Bool} {dev : D}
  {l : Local D} {m : Memory} {ls : List Label}

/-- What can be seen of the station, from outside. -/
def Label.act : Label → Option Act
  | .call (.main (.enter .wake_up)) _ => some .wake
  | .call (.main (.enter .start_conv)) _ => some .convert
  | .call (.main (.wr_sensor_data _ v)) _ => some (.sample v)
  | .call (.main (.enter (.sl_bt_torque_send_data number))) _ => some (.publish number)
  | .call (.main (.ble (.sl_bt_gatt_server_notify_all c _))) sc =>
    if c = gattdb_temp_1_characteristic then some (.published (sc = some SL_STATUS_OK)) else none
  | .call (.main (.enter .ask_again)) _ => some .again
  | .call (.main (.enter .try_to_sleep)) _ => some .rest
  | .call (.shr .EMU_EnterEM4) _ => some .sleep
  | _ => none

theorem act_label (e : Event D) : (label e).act = visible e := by
  cases e with
  | irq i h => rfl
  | call o r l h =>
    cases o with
    | drv o => rfl
    | shr o => cases o <;> rfl
    | main o =>
      cases o with
      | enter f => cases f <;> rfl
      | ble c =>
        cases c with
        | sl_bt_gatt_server_notify_all c v => simp [label, answered, Op.restarts, Label.act, visible]
        | _ => rfl
      | _ => rfl

theorem filterMap_act (tr : List (Event D)) : (tr.map label).filterMap Label.act = tr.filterMap visible := by
  rw [List.filterMap_map]
  exact congrArg (fun see => tr.filterMap see) (funext act_label)

/-- **What the device shows is a path of the station**, with every bus. -/
theorem Lived.path {ads : ads1220_t}
    (hl : Lived bus nConnections (new_app_fsm nConnections em4PinWakeup em4Reset ads dev).1 ls [] l m) :
    Path Station.Move .asleep (ls.filterMap Label.act) (station l) := by
  obtain ⟨h, -, ads', tr, hr, rfl⟩ := hl.runsLike
  have hb : Boot (new_app_fsm nConnections em4PinWakeup em4Reset ads' dev).1 (cleared 0) :=
    ⟨nConnections, em4PinWakeup, em4Reset, ads', dev, rfl⟩
  rw [filterMap_act, ← hb.asleep]
  exact (refines_station bus).path hr hb.inv

/-- **The device is a measuring station.** Its timely lives show exactly the paths of the station,
on a bus that can answer anything. -/
theorem device_iff {w : List Act} {s : Station} :
    (∃ ads ls l m, Lived anyBus nConnections (new_app_fsm nConnections em4PinWakeup em4Reset ads ()).1 ls [] l m ∧
      ls.filterMap Label.act = w ∧ station l = s) ↔ Path Station.Move .asleep w s := by
  constructor
  · rintro ⟨ads, ls, l, m, hl, rfl, rfl⟩
    exact hl.path
  · intro hp
    let ads : ads1220_t := ⟨⟨0, 0, 0, 0⟩, ⟨0, 0, 0, 0⟩⟩
    have hb : Boot (new_app_fsm nConnections em4PinWakeup em4Reset ads ()).1 (cleared 0) :=
      ⟨nConnections, em4PinWakeup, em4Reset, ads, (), rfl⟩
    rw [← hb.asleep] at hp
    obtain ⟨tr, l, h, hr, rfl, rfl⟩ := realises_station.run (refines_station anyBus) hp hb.inv
    exact ⟨ads, tr.map label, l, .ready h, (lived_of_run hr).1, filterMap_act tr, rfl⟩

end M20Strain
