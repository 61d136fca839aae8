import M20Strain.Proof.Bench
import M20Strain.Proof.Publish
import Mathlib.Data.List.FinRange

/-!
# `sl_bt_torque_send_data` for any size

`send_chunks`: a buffer of four chunks of `n` bytes, whatever `n`, goes out in eight calls,
two for each chunk; the statuses change nothing, no array is accessed outside its bounds,
and the client can put the buffer together again.
-/

namespace M20Strain

open Interrupt Prog

variable {D : Type} {bus : SpiBus D}

/-- The BLE calls, with their statuses. -/
def bleCall : (o : Op) → o.Resp → Option (BleCall × sl_status_t)
  | .main (.ble c), sc => some (c, sc)
  | _, _ => none

/-- Chunk `k` of `n` bytes, as it is sent: in reverse order. -/
def value (n : ℕ) (buffer : List UInt8) (k : ℕ) : List UInt8 := ((buffer.drop (k * n)).take n).reverse

/-- The two calls for characteristic `k`. -/
def chunkCalls (n : ℕ) (buffer : List UInt8) (s : Fin 4 → sl_status_t × sl_status_t) (k : Fin 4) :
    List (BleCall × sl_status_t) :=
  [(.sl_bt_gatt_server_write_attribute_value (characteristic k) 0 (value n buffer k), (s k).1),
   (.sl_bt_gatt_server_notify_all (characteristic k) (value n buffer k), (s k).2)]

variable {n : ℕ} {buffer : List UInt8}

theorem value_length (hb : buffer.length = 4 * n) (k : Fin 4) : (value n buffer k).length = n := by
  have hk : k.val * n ≤ 3 * n := Nat.mul_le_mul_right n (Nat.le_of_lt_succ k.isLt)
  simp only [value, List.length_reverse, List.length_take, List.length_drop]
  omega

/-- The chunks are the buffer. -/
theorem values_join (hb : buffer.length = 4 * n) :
    (List.finRange 4).flatMap (fun k : Fin 4 => (value n buffer k).reverse) = buffer := by
  have hcut (k : ℕ) : (buffer.drop (k * n)).take n ++ buffer.drop ((k + 1) * n) = buffer.drop (k * n) := by
    rw [Nat.succ_mul, ← List.drop_drop, List.take_append_drop]
  have hend : buffer.drop ((3 + 1) * n) = [] := List.drop_eq_nil_of_le hb.le
  calc (List.finRange 4).flatMap (fun k : Fin 4 => (value n buffer k).reverse)
      = (buffer.drop (0 * n)).take n ++ ((buffer.drop (1 * n)).take n ++
          ((buffer.drop (2 * n)).take n ++ (buffer.drop (3 * n)).take n)) := by
        simp only [List.finRange_succ, List.finRange_zero, List.map_cons, List.map_nil, List.flatMap_cons,
          List.flatMap_nil, value, List.reverse_reverse, List.append_nil]
        rfl
    _ = buffer := by
        have h3 := hcut 3
        rw [hend, List.append_nil] at h3
        rw [h3, hcut 2, hcut 1, hcut 0, Nat.zero_mul, List.drop_zero]

/-- **Every chunk is put on its characteristic**; nothing else happens. -/
theorem torque_eq (hn : 0 < n) (hb : buffer.length = 4 * n) : sl_bt_torque_send_data buffer (4 * n) =
    (own (.enter (.sl_bt_torque_send_data buffer)) >>= fun _ =>
      put (characteristic 0) (value n buffer 0) >>= fun _ => put (characteristic 1) (value n buffer 1) >>= fun _ =>
      put (characteristic 2) (value n buffer 2) >>= fun _ => put (characteristic 3) (value n buffer 3)) := by
  have hsize : 4 * n / 4 = n := Nat.mul_div_cancel_left n (by decide)
  have hsend (ch k : ℕ) (rebmun : List UInt8) (hk : k < 4) (hr : rebmun.length = n) :
      send_value ch (buffer.drop (k * n)) (4 * n) rebmun =
        put ch (value n buffer k) >>= fun sc => pure (sc, value n buffer k) := by
    have hlen : n ≤ (buffer.drop (k * n)).length := by
      have := Nat.mul_le_mul_right n (Nat.le_of_lt_succ hk)
      rw [List.length_drop]
      omega
    rw [send_value_eq (by rw [hsize]; exact hlen) (by omega) (by rw [hsize]; exact hr), hsize]
    rfl
  -- where each value starts, and what the scratch array holds by then
  have hd1 : buffer.drop n = buffer.drop (1 * n) := by rw [Nat.one_mul]
  have hd2 : (buffer.drop (1 * n)).drop n = buffer.drop (2 * n) := by rw [List.drop_drop, ← Nat.succ_mul]
  have hd3 : (buffer.drop (2 * n)).drop n = buffer.drop (3 * n) := by rw [List.drop_drop, ← Nat.succ_mul]
  have h0 := hsend gattdb_strain_1_characteristic 0 (List.replicate n 0) (by decide) List.length_replicate
  rw [Nat.zero_mul, List.drop_zero] at h0
  have h1 (ch : ℕ) := hsend ch 1 (value n buffer 0) (by decide) (value_length hb 0)
  have h2 (ch : ℕ) := hsend ch 2 (value n buffer 1) (by decide) (value_length hb 1)
  have h3 (ch : ℕ) := hsend ch 3 (value n buffer 2) (by decide) (value_length hb 2)
  unfold sl_bt_torque_send_data
  simp only [hsize, hd1, hd2, hd3, h0, h1, h2, h3, bind_assoc, pure_bind]
  rw [bind_pure]
  rfl

/-- All eight calls, with statuses `s`. -/
def chunksCalls (n : ℕ) (buffer : List UInt8) (s : Fin 4 → sl_status_t × sl_status_t) :
    List (BleCall × sl_status_t) :=
  (List.finRange 4).flatMap (chunkCalls n buffer s)

variable {α : Type} {l : Local D} {h : Shared} {g : List (BleCall × sl_status_t)} {ch : ℕ} {v : List UInt8}
  {k : sl_status_t → AppM α} {Q : α → List (BleCall × sl_status_t) → Local D → Shared → Prop}

/-- What a client of `put` collects, whatever the statuses. -/
theorem collect_put (hk : ∀ s : sl_status_t × sl_status_t, wp (firmware bus) (collect (ofCalls bleCall)) (k s.2) Q
      (g ++ [(.sl_bt_gatt_server_write_attribute_value ch 0 v, s.1), (.sl_bt_gatt_server_notify_all ch v, s.2)]) l h) :
    wp (firmware bus) (collect (ofCalls bleCall)) (put ch v >>= k) Q g l h := by
  simp only [put, bind_assoc]
  refine collect_own.2 fun s₁ l₁ hs₁ => collect_own.2 fun s₂ l₂ hs₂ => ?_
  obtain rfl := Option.some.inj hs₁
  obtain rfl := Option.some.inj hs₂
  have hw := hk (s₁, s₂)
  simp only [bleCall, Option.toList_some, List.append_assoc, List.cons_append, List.nil_append] at hw ⊢
  exact hw

/-- Any two statuses are possible. -/
theorem may_put (s : sl_status_t × sl_status_t) (hk : may (firmware bus) (collect (ofCalls bleCall)) (k s.2) Q
      (g ++ [(.sl_bt_gatt_server_write_attribute_value ch 0 v, s.1), (.sl_bt_gatt_server_notify_all ch v, s.2)]) l h) :
    may (firmware bus) (collect (ofCalls bleCall)) (put ch v >>= k) Q g l h := by
  simp only [put, bind_assoc]
  refine may_own.2 ⟨s.1, l, rfl, may_own.2 ⟨s.2, l, rfl, ?_⟩⟩
  simp only [collect, ofCalls, bleCall, Option.toList_some, List.append_assoc, List.cons_append, List.nil_append]
  exact hk

/-- **Which calls an execution can make**: the eight, with any statuses. -/
theorem torque_calls (hn : 0 < n) (hb : buffer.length = 4 * n) (calls : List (BleCall × sl_status_t)) :
    (∃ tr sc l' h', Exec (firmware bus) (sl_bt_torque_send_data buffer (4 * n)) l h tr sc l' h' ∧
      tr.filterMap (ofCalls bleCall) = calls) ↔ ∃ s, calls = chunksCalls n buffer s := by
  rw [torque_eq hn hb]
  constructor
  · rintro ⟨tr, sc, l', h', he, rfl⟩
    have hw : wp (firmware bus) (collect (ofCalls bleCall))
        (own (.enter (.sl_bt_torque_send_data buffer)) >>= fun _ =>
          put (characteristic 0) (value n buffer 0) >>= fun _ => put (characteristic 1) (value n buffer 1) >>= fun _ =>
          put (characteristic 2) (value n buffer 2) >>= fun _ => put (characteristic 3) (value n buffer 3) >>= pure)
        (fun _ g _ _ => ∃ s, g = chunksCalls n buffer s) [] l h := by
      refine collect_own.2 fun _ l₁ hs => ?_
      refine collect_put fun s₀ => collect_put fun s₁ => collect_put fun s₂ => collect_put fun s₃ => ?_
      exact collect_pure fun _ => ⟨![s₀, s₁, s₂, s₃], rfl⟩
    rw [bind_pure] at hw
    have hs := wp_iff.1 hw tr sc l' h' he
    rwa [foldl_collect, List.nil_append] at hs
  · rintro ⟨s, rfl⟩
    have hm : may (firmware bus) (collect (ofCalls bleCall))
        (own (.enter (.sl_bt_torque_send_data buffer)) >>= fun _ =>
          put (characteristic 0) (value n buffer 0) >>= fun _ => put (characteristic 1) (value n buffer 1) >>= fun _ =>
          put (characteristic 2) (value n buffer 2) >>= fun _ => put (characteristic 3) (value n buffer 3) >>= pure)
        (fun _ g _ _ => g = chunksCalls n buffer s) [] l h := by
      refine may_own.2 ⟨(), l, rfl, ?_⟩
      refine may_put (s 0) (may_put (s 1) (may_put (s 2) (may_put (s 3) ?_)))
      rfl
    rw [bind_pure] at hm
    obtain ⟨tr, sc, l', h', he, -, hs⟩ := may_iff.1 hm
    rw [foldl_collect, List.nil_append] at hs
    exact ⟨tr, sc, l', h', he, hs⟩

/-- No load or store is outside its array. -/
theorem torque_defined (hn : 0 < n) (hb : buffer.length = 4 * n) :
    AllCalls (fun o => o ≠ .main .undefined_behaviour) (sl_bt_torque_send_data buffer (4 * n)) := by
  have hput (c : ℕ) (v : List UInt8) : AllCalls (fun o => o ≠ .main .undefined_behaviour) (put c v) :=
    ⟨by simp, fun _ => ⟨by simp, fun _ => trivial⟩⟩
  rw [torque_eq hn hb]
  refine ⟨by simp, fun _ => ?_⟩
  exact (hput _ _).bind fun _ => (hput _ _).bind fun _ => (hput _ _).bind fun _ => hput _ _

/-- **`sl_bt_torque_send_data` sends every byte once**, for every chunk size: no access is
outside an array, the executions make exactly the eight calls, with any statuses, the values
are `n` bytes long, and put back in order they are the buffer. -/
theorem send_chunks (bus : SpiBus D) (hn : 1 ≤ n) (hb : buffer.length = 4 * n) (l : Local D) (h : Shared) :
    AllCalls (fun o => o ≠ .main .undefined_behaviour) (sl_bt_torque_send_data buffer (4 * n)) ∧
    (∀ calls, (∃ tr sc l' h', Exec (firmware bus) (sl_bt_torque_send_data buffer (4 * n)) l h tr sc l' h' ∧
      tr.filterMap (ofCalls bleCall) = calls) ↔ ∃ s, calls = chunksCalls n buffer s) ∧
    (∀ k : Fin 4, (value n buffer k).length = n) ∧
    (List.finRange 4).flatMap (fun k : Fin 4 => (value n buffer k).reverse) = buffer :=
  ⟨torque_defined hn hb, torque_calls hn hb, value_length hb, values_join hb⟩

/-- Chunks of two bytes. -/
theorem send_chunks_two : ∃ tr sc l' h', Exec (firmware anyBus) (sl_bt_torque_send_data [1, 2, 3, 4, 5, 6, 7, 8] 8)
    (booted false false).1 (booted false false).2 tr sc l' h' ∧
    tr.filterMap (ofCalls bleCall) = chunksCalls 2 [1, 2, 3, 4, 5, 6, 7, 8] fun _ => (SL_STATUS_OK, 1) := by
  have hb : ([1, 2, 3, 4, 5, 6, 7, 8] : List UInt8).length = 4 * 2 := rfl
  obtain ⟨-, hcalls, -⟩ := send_chunks anyBus (by decide) hb (booted false false).1 (booted false false).2
  exact (hcalls _).2 ⟨_, rfl⟩

end M20Strain
