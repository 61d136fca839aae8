import M20Strain.Proof.Rules
import Mathlib.Data.Fin.VecNotation
import Mathlib.Data.Fintype.Basic

/-!
# What `sl_bt_torque_send_data` sends

`reverse_eq`: `reverse` reverses the bytes of a value. `after_publish`: for every
packet of four values the function makes its eight BLE calls, whatever their
statuses, and returns the last status.
-/

namespace M20Strain

open Interrupt Prog

variable {D : Type} {bus : SpiBus D} {G : Type} {μ : G → Event D → G} {g : G} {l : Local D} {h : Shared}

/-- The loop of `reverse` after `k` iterations. -/
theorem reverse_loop {number rebmun : List UInt8} {size : ℕ} (hs : size ≤ number.length)
    (hr : rebmun.length = size) : ∀ k ≤ size, (List.range k).foldlM (fun rebmun ix => do
        let b ← number[size - ix - 1]?
        if ix < rebmun.length then some (rebmun.set ix b) else none) rebmun =
      some ((number.take size).reverse.take k ++ rebmun.drop k) := by
  intro k
  induction k with
  | zero => intro _; simp
  | succ k ih =>
    intro hk
    have hlen : ((number.take size).reverse.take k).length = k := by simp; omega
    have hlt : k < (number.take size).reverse.length := by simp; omega
    have hget : number[size - k - 1]? = some (number.take size).reverse[k] := by
      rw [List.getElem_reverse, List.getElem_take, List.getElem?_eq_getElem (by omega)]
      congr 2; simp; omega
    rw [List.range_succ, List.foldlM_append, ih (by omega)]
    simp only [List.foldlM_cons, List.foldlM_nil, Option.bind_eq_bind, Option.bind_some, hget, Option.pure_def]
    rw [if_pos (by simp; omega)]
    simp only [Option.bind_some, Option.some.injEq]
    rw [List.set_append_right _ _ (by omega), hlen, Nat.sub_self, List.drop_eq_getElem_cons (by omega),
      List.set_cons_zero, List.take_succ_eq_append_getElem (by simp; omega), List.append_assoc]
    rfl

/-- `reverse` reverses the bytes. -/
theorem reverse_eq {number rebmun : List UInt8} {size : ℕ} (hs : size ≤ number.length)
    (hr : rebmun.length = size) : reverse number size rebmun = some (number.take size).reverse := by
  have hl := reverse_loop hs hr size le_rfl
  rw [List.drop_eq_nil_of_le hr.le, List.append_nil, List.take_of_length_le (by simp)] at hl
  exact hl

/-- The log messages load a byte that is there. -/
theorem log_number_eq {number : List UInt8} (hn : 0 < number.length) (sc : sl_status_t) :
    log_number sc number = pure () := by
  unfold log_number
  rw [List.getElem?_eq_getElem hn]
  exact ite_self _

/-- One value: it is written and notified. -/
def put (characteristic : ℕ) (value : List UInt8) : AppM sl_status_t := do
  let _ ← own (.ble (.sl_bt_gatt_server_write_attribute_value characteristic 0 value))
  own (.ble (.sl_bt_gatt_server_notify_all characteristic value))

/-- **One value is sent**, where the array is long enough. -/
theorem send_value_eq {ch size : ℕ} {number rebmun : List UInt8} (hs : size / 4 ≤ number.length)
    (hn : 0 < number.length) (hr : rebmun.length = size / 4) : send_value ch number size rebmun =
      put ch (number.take (size / 4)).reverse >>= fun sc => pure (sc, (number.take (size / 4)).reverse) := by
  simp only [send_value, reverse_eq hs hr, log_number_eq hn, put, bind_assoc, pure_bind]

/-- Value `i` of a packet, as `sl_bt_torque_send_data` sends it. -/
def chunk (p : List UInt8) (i : ℕ) : List UInt8 := ((p.drop (4 * i)).take 4).reverse

/-- The characteristics, in the order of the samples. -/
def characteristic : Fin 4 → ℕ :=
  ![gattdb_strain_1_characteristic, gattdb_strain_2_characteristic, gattdb_strain_3_characteristic,
    gattdb_temp_1_characteristic]

theorem characteristic_injective : Function.Injective characteristic := by decide

/-- A packet is handed to the BLE interface. -/
def isPacket : Event D → Bool
  | .call (.main (.enter (.sl_bt_torque_send_data _))) _ _ _ => true
  | _ => false

/-- The calls of `sl_bt_torque_send_data`, with the statuses `s` of the eight BLE calls. -/
def published (p : List UInt8) (s : Fin 8 → sl_status_t) (l : Local D) : List (Made Op.Resp (Local D)) :=
  [did (.enter (.sl_bt_torque_send_data p)) () l,
   did (.ble (.sl_bt_gatt_server_write_attribute_value gattdb_strain_1_characteristic 0 (chunk p 0))) (s 0) l,
   did (.ble (.sl_bt_gatt_server_notify_all gattdb_strain_1_characteristic (chunk p 0))) (s 1) l,
   did (.ble (.sl_bt_gatt_server_write_attribute_value gattdb_strain_2_characteristic 0 (chunk p 1))) (s 2) l,
   did (.ble (.sl_bt_gatt_server_notify_all gattdb_strain_2_characteristic (chunk p 1))) (s 3) l,
   did (.ble (.sl_bt_gatt_server_write_attribute_value gattdb_strain_3_characteristic 0 (chunk p 2))) (s 4) l,
   did (.ble (.sl_bt_gatt_server_notify_all gattdb_strain_3_characteristic (chunk p 2))) (s 5) l,
   did (.ble (.sl_bt_gatt_server_write_attribute_value gattdb_temp_1_characteristic 0 (chunk p 3))) (s 6) l,
   did (.ble (.sl_bt_gatt_server_notify_all gattdb_temp_1_characteristic (chunk p 3))) (s 7) l]

/-- The eight calls for the values of packet `p`, with statuses `s`. -/
def eightCalls (p : List UInt8) (s : Fin 8 → sl_status_t) : List (BleCall × sl_status_t) :=
  [(.sl_bt_gatt_server_write_attribute_value gattdb_strain_1_characteristic 0 (chunk p 0), s 0),
   (.sl_bt_gatt_server_notify_all gattdb_strain_1_characteristic (chunk p 0), s 1),
   (.sl_bt_gatt_server_write_attribute_value gattdb_strain_2_characteristic 0 (chunk p 1), s 2),
   (.sl_bt_gatt_server_notify_all gattdb_strain_2_characteristic (chunk p 1), s 3),
   (.sl_bt_gatt_server_write_attribute_value gattdb_strain_3_characteristic 0 (chunk p 2), s 4),
   (.sl_bt_gatt_server_notify_all gattdb_strain_3_characteristic (chunk p 2), s 5),
   (.sl_bt_gatt_server_write_attribute_value gattdb_temp_1_characteristic 0 (chunk p 3), s 6),
   (.sl_bt_gatt_server_notify_all gattdb_temp_1_characteristic (chunk p 3), s 7)]

/-- The three strain characteristics are not the temperature characteristic. -/
theorem strain_ne_temp : gattdb_strain_1_characteristic ≠ gattdb_temp_1_characteristic ∧
    gattdb_strain_2_characteristic ≠ gattdb_temp_1_characteristic ∧
    gattdb_strain_3_characteristic ≠ gattdb_temp_1_characteristic := by decide

theorem mem_published {p : List UInt8} {s : Fin 8 → sl_status_t} : ∀ e ∈ published p s l,
    e = did (.enter (.sl_bt_torque_send_data p)) () l ∨ ∃ c sc, e = did (.ble c) sc l := by
  intro e he
  simp only [published, List.mem_cons, List.not_mem_nil, or_false] at he
  rcases he with rfl | rfl | rfl | rfl | rfl | rfl | rfl | rfl | rfl
  · exact .inl rfl
  all_goals exact .inr ⟨_, _, rfl⟩

/-- One value: two BLE calls. -/
theorem after_send_value {ch : ℕ} {p rebmun v : List UInt8} (hp : 4 ≤ p.length) (hr : rebmun.length = 4)
    (hv : (p.take 4).reverse = v) {es : List (Made Op.Resp (Local D))} {α : Type}
    {k : sl_status_t × List UInt8 → AppM α} {Q : α → G → Local D → Shared → Prop} :
    wpAfter (firmware bus) μ es g h (send_value ch p 16 rebmun >>= k) Q l ↔ ∀ s₁ s₂, wpAfter (firmware bus) μ
      (es ++ [did (.ble (.sl_bt_gatt_server_write_attribute_value ch 0 v)) s₁ l,
        did (.ble (.sl_bt_gatt_server_notify_all ch v)) s₂ l]) g h (k (s₂, v)) Q l := by
  rw [send_value_eq hp (by omega) hr]
  simp only [put, bind_assoc, pure_bind]
  subst hv
  refine after_ble.trans (forall_congr' fun s₁ => after_ble.trans (forall_congr' fun s₂ => ?_))
  rw [List.append_assoc]; rfl

theorem chunk_length {p : List UInt8} {i : ℕ} (hp : 4 * i + 4 ≤ p.length) : (chunk p i).length = 4 := by
  simp only [chunk, List.length_reverse, List.length_take, List.length_drop]; omega

/-- **`sl_bt_torque_send_data` makes its eight calls**, whatever the statuses, and
returns the last one. -/
theorem after_publish {p : List UInt8} (hp : p.length = 16) {es : List (Made Op.Resp (Local D))}
    {α : Type} {k : sl_status_t → AppM α} {Q : α → G → Local D → Shared → Prop}
    (H : ∀ s : Fin 8 → sl_status_t, wpAfter (firmware bus) μ (es ++ published p s l) g h (k (s 7)) Q l) :
    wpAfter (firmware bus) μ es g h (sl_bt_torque_send_data p 16 >>= k) Q l := by
  simp only [sl_bt_torque_send_data, bind_assoc, after_enter, pure_bind, List.drop_drop]
  refine (after_send_value (p := p) (by simp [hp]) rfl (v := chunk p 0) rfl).2 fun s₀ s₁ => ?_
  refine (after_send_value (by simp [hp]) (chunk_length (by omega)) (v := chunk p 1) rfl).2 fun s₂ s₃ => ?_
  refine (after_send_value (by simp [hp]) (chunk_length (by omega)) (v := chunk p 2) rfl).2 fun s₄ s₅ => ?_
  refine (after_send_value (by simp [hp]) (chunk_length (by omega)) (v := chunk p 3) rfl).2 fun s₆ s₇ => ?_
  simp only [List.append_assoc]
  exact H ![s₀, s₁, s₂, s₃, s₄, s₅, s₆, s₇]

end M20Strain
