import M20Strain.Model.State

/-!
# Publishing a measurement (`sl_bt_m20_strain_sensor.c`)
-/

namespace M20Strain

open Interrupt

/-- One elementary call of the main loop. -/
def own (o : MainOp) : AppM o.Resp := Prog.op (Op.main o)

/-- One call on shared state. -/
def shr (o : ShrOp) : AppM o.Resp := Prog.op (Op.shr o)

-- the attributes of `gatt_db.h`
def gattdb_system_id : ℕ := 18
def gattdb_strain_1_characteristic : ℕ := 21
def gattdb_strain_2_characteristic : ℕ := 25
def gattdb_strain_3_characteristic : ℕ := 29
def gattdb_temp_1_characteristic : ℕ := 33

/-- `reverse`: the loop over `ix`, on the scratch array `rebmun`. A load or store
outside an array is `none`. -/
def reverse (number : List UInt8) (size : ℕ) (rebmun : List UInt8) : Option (List UInt8) :=
  (List.range size).foldlM (fun rebmun ix => do
    let b ← number[size - ix - 1]?
    if ix < rebmun.length then some (rebmun.set ix b) else none) rebmun

/-- What is left of the log message after a call: the load of `*number` for its text. -/
def log_number (sc : sl_status_t) (number : List UInt8) : AppM Unit :=
  if sc = SL_STATUS_OK then
    match number[0]? with
    | some _ => pure ()
    | none => own .undefined_behaviour
  else pure ()

/-- The part of `sl_bt_torque_send_data` for one characteristic: `size / 4` bytes from
`number` on, reversed, written and notified. The status of the write is only logged. -/
def send_value (characteristic : ℕ) (number : List UInt8) (size : ℕ) (rebmun : List UInt8) :
    AppM (sl_status_t × List UInt8) :=
  match reverse number (size / 4) rebmun with
  | none => do
    own .undefined_behaviour
    pure (SL_STATUS_OK, rebmun)
  | some rebmun => do
    let sc ← own (.ble (.sl_bt_gatt_server_write_attribute_value characteristic 0 rebmun))
    log_number sc number
    let sc ← own (.ble (.sl_bt_gatt_server_notify_all characteristic rebmun))
    log_number sc number
    pure (sc, rebmun)

/-- `sl_bt_torque_send_data`. The scratch array is uninitialised; its initial content
is overwritten before it is read. -/
def sl_bt_torque_send_data (number : List UInt8) (size : ℕ) : AppM sl_status_t := do
  own (.enter (.sl_bt_torque_send_data number))
  let (_, rebmun) ← send_value gattdb_strain_1_characteristic number size (List.replicate (size / 4) 0)
  let number := number.drop (size / 4)
  let (_, rebmun) ← send_value gattdb_strain_2_characteristic number size rebmun
  let number := number.drop (size / 4)
  let (_, rebmun) ← send_value gattdb_strain_3_characteristic number size rebmun
  let number := number.drop (size / 4)
  let (sc, _) ← send_value gattdb_temp_1_characteristic number size rebmun
  pure sc

end M20Strain
