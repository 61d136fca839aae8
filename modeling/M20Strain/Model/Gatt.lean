import M20Strain.Model.Ble

/-!
# The GATT database (`gatt_db.c`)

The attributes that the BLE stack serves: constants, declarations of characteristics, values
that the firmware writes, and client configurations.
-/

namespace M20Strain

/-- `sli_bt_gattdb_attribute_chrvalue_t`. -/
structure sli_bt_gattdb_attribute_chrvalue_t where
  properties : UInt8
  max_len : ℕ
  data : List UInt8
  deriving DecidableEq, Repr

/-- What an attribute holds, by its `datatype`. `user` is answered by the firmware and holds
nothing. -/
inductive Attribute where
  | constdata (data : List UInt8)
  | characteristic (properties : UInt8)
  | dynamicdata (value : sli_bt_gattdb_attribute_chrvalue_t)
  | configdata (flags : UInt8)
  | user
  deriving DecidableEq, Repr

/-- `gattdb_attributes_map`, with the handles. -/
def gattdb_attributes_map : List (ℕ × Attribute) :=
  [(0x01, .constdata [0x01, 0x18]),
   (0x02, .characteristic 0x20),
   (0x03, .dynamicdata ⟨0x20, 4, [0, 0, 0, 0]⟩),
   (0x04, .configdata 0x02),
   (0x05, .characteristic 0x02),
   (0x06, .dynamicdata ⟨0x02, 16, [0, 0, 0, 0, 0, 0, 0, 0, 0, 0, 0, 0, 0, 0, 0, 0]⟩),
   (0x07, .characteristic 0x0a),
   (0x08, .dynamicdata ⟨0x0a, 1, [0]⟩),
   (0x09, .constdata [0x00, 0x18]),
   (0x0a, .characteristic 0x0a),
   (0x0b, .dynamicdata ⟨0x0a, 14,
     [0x4d, 0x32, 0x30, 0x20, 0x4d, 0x61, 0x73, 0x74, 0x65, 0x72, 0x20, 0x4d, 0x43, 0x55]⟩),
   (0x0c, .characteristic 0x02),
   (0x0d, .constdata [0x00, 0x00]),
   (0x0e, .constdata [0x0a, 0x18]),
   (0x0f, .characteristic 0x02),
   (0x10, .constdata [0x53, 0x69, 0x6c, 0x69, 0x63, 0x6f, 0x6e, 0x20, 0x4c, 0x61, 0x62, 0x73]),
   (0x11, .characteristic 0x02),
   (0x12, .dynamicdata ⟨0x02, 8, [0, 0, 0, 0, 0, 0, 0, 0]⟩),
   (0x13, .constdata
     [0xe1, 0xf1, 0x87, 0xf9, 0x4c, 0x72, 0xec, 0x83, 0xeb, 0x41, 0x6c, 0x60, 0xdb, 0x77, 0x9b, 0x31]),
   (0x14, .characteristic 0x12),
   (0x15, .dynamicdata ⟨0x12, 4, [0, 0, 0, 0]⟩),
   (0x16, .configdata 0x01),
   (0x17, .constdata [0x73, 0x74, 0x72, 0x61, 0x69, 0x6e, 0x5f, 0x31]),
   (0x18, .characteristic 0x12),
   (0x19, .dynamicdata ⟨0x12, 4, [0, 0, 0, 0]⟩),
   (0x1a, .configdata 0x01),
   (0x1b, .constdata [0x73, 0x74, 0x72, 0x61, 0x69, 0x6e, 0x5f, 0x32]),
   (0x1c, .characteristic 0x12),
   (0x1d, .dynamicdata ⟨0x12, 4, [0, 0, 0, 0]⟩),
   (0x1e, .configdata 0x01),
   (0x1f, .constdata [0x73, 0x74, 0x72, 0x61, 0x69, 0x6e, 0x5f, 0x33]),
   (0x20, .characteristic 0x12),
   (0x21, .dynamicdata ⟨0x12, 4, [0, 0, 0, 0]⟩),
   (0x22, .configdata 0x01),
   (0x23, .constdata [0x74, 0x65, 0x6d, 0x70, 0x65, 0x72, 0x61, 0x74, 0x75, 0x72, 0x65]),
   (0x24, .constdata
     [0xf0, 0x19, 0x21, 0xb4, 0x47, 0x8f, 0xa4, 0xbf, 0xa1, 0x4f, 0x63, 0xfd, 0xee, 0xd6, 0x14, 0x1d]),
   (0x25, .characteristic 0x08),
   (0x26, .user)]

/-- The attribute with a handle. -/
def gattdb_attribute (handle : ℕ) : Option Attribute := gattdb_attributes_map.lookup handle

/-- The bits of `properties` and `flags` that say "notify". -/
def PROPERTY_NOTIFY : UInt8 := 0x10
def FLAG_NOTIFICATION : UInt8 := 0x01

/-- The call fits the database: a write stays inside the value of its attribute, a
notification fits a value whose characteristic has notifications, for which clients can
register in the next attribute. -/
def BleCall.fits : BleCall → Bool
  | .sl_bt_gatt_server_write_attribute_value attr offset value =>
    match gattdb_attribute attr with
    | some (.dynamicdata v) => offset + value.length ≤ v.max_len
    | _ => false
  | .sl_bt_gatt_server_notify_all characteristic value =>
    match gattdb_attribute characteristic, gattdb_attribute (characteristic + 1) with
    | some (.dynamicdata v), some (.configdata flags) =>
      value.length ≤ v.max_len && v.properties &&& PROPERTY_NOTIFY != 0 && flags &&& FLAG_NOTIFICATION != 0
    | _, _ => false
  | _ => true

/-- The values that clients read. -/
abbrev Values := ℕ → List UInt8

/-- The values after a restart: those of the database. -/
def initial_values : Values := fun handle =>
  match gattdb_attribute handle with
  | some (.dynamicdata v) => v.data
  | _ => []

/-- The effect that `sl_bt_gatt_server_write_attribute_value` is documented to have when the stack
accepts the write. -/
def Values.write (vs : Values) (attr offset : ℕ) (value : List UInt8) : Values :=
  Function.update vs attr ((vs attr).take offset ++ value ++ (vs attr).drop (offset + value.length))

end M20Strain
