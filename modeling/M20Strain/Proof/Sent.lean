import M20Strain.Proof.Bench
import M20Strain.Proof.Emits
import Mathlib.Data.Fintype.Basic
import Mathlib.Tactic.FinCases

/-!
# What `SL_STATUS_OK` from `sl_bt_torque_send_data` says

The function returns the status of its last call only. `torque_ok_iff`: for
every packet and all statuses, `SL_STATUS_OK` means that all eight calls succeeded
exactly when the last call failed or the seven before it succeeded; and in every
run, `data_sent_flag` is set for complete packets only, exactly when each
successful last notification came after seven successful calls.
-/

namespace M20Strain

open Interrupt Prog

variable {D : Type} {bus : SpiBus D} {l₀ l l' : Local D} {h₀ h h' : Shared} {tr evs : List (Event D)}

/-- A packet, and the BLE calls made for it with their statuses. -/
structure Sending where
  number : List UInt8
  calls : List (BleCall × sl_status_t)

/-- The packet `sl_bt_torque_send_data` was last called with, and the BLE calls since. -/
def bleCalls (g : Sending) : Event D → Sending
  | .call (.main (.enter (.sl_bt_torque_send_data number))) _ _ _ => ⟨number, []⟩
  | .call (.main (.ble c)) sc _ _ => { g with calls := g.calls ++ [(c, sc)] }
  | _ => g

/-- `data_sent_flag` is set only for a packet whose eight calls all succeeded. -/
def SentWhole (g : Sending) : Event D → Prop
  | .call (.main (.wr .data_sent_flag v)) _ _ _ =>
    v = 1 → ∃ s, g.calls = eightCalls g.number s ∧ ∀ i, s i = SL_STATUS_OK
  | _ => True

/-- A last notification that succeeds comes after calls that did. -/
def LastAgrees (g : Sending) : Event D → Prop
  | .call (.main (.ble (.sl_bt_gatt_server_notify_all c _))) sc _ _ =>
    c = gattdb_temp_1_characteristic → sc = SL_STATUS_OK → ∀ x ∈ g.calls, x.2 = SL_STATUS_OK
  | _ => True

theorem blind_bleCalls : Blind (bleCalls (D := D)) where
  quiet o ho g r l h := by
    unfold bleCalls
    split <;> first | rfl | (rename_i heq; cases heq; cases ho)
  irq _ _ _ := rfl
  main g o r l h h' ho := by
    rcases o with o | o | o <;> cases ho
    cases o <;> first | rfl | (rename_i f; cases f <;> rfl)

theorem blind_sent : Blind (watch (watch bleCalls (SentWhole (D := D))) fun k => LastAgrees k.1) := by
  refine (blind_bleCalls.watch ?_ (fun _ _ _ => trivial) ?_).watch ?_ (fun _ _ _ => trivial) ?_
  · intro o ho g r l h
    unfold SentWhole
    split <;> first | trivial | (rename_i heq; cases heq; cases ho)
  · intro g o r l h h' ho
    rcases o with o | o | o <;> cases ho
    cases o <;> first | rfl | (rename_i f _; cases f <;> rfl)
  · intro o ho g r l h
    unfold LastAgrees
    split <;> first | trivial | (rename_i heq; cases heq; cases ho)
  · intro g o r l h h' ho
    rcases o with o | o | o <;> cases ho
    cases o <;> first | rfl | (rename_i c; cases c <;> rfl)

theorem all_ok_iff {s : Fin 8 → sl_status_t} : (∀ i, s i = SL_STATUS_OK) ↔ s 0 = SL_STATUS_OK ∧ s 1 = SL_STATUS_OK ∧
    s 2 = SL_STATUS_OK ∧ s 3 = SL_STATUS_OK ∧ s 4 = SL_STATUS_OK ∧ s 5 = SL_STATUS_OK ∧ s 6 = SL_STATUS_OK ∧
    s 7 = SL_STATUS_OK := by
  constructor
  · exact fun H => ⟨H 0, H 1, H 2, H 3, H 4, H 5, H 6, H 7⟩
  · rintro ⟨h0, h1, h2, h3, h4, h5, h6, h7⟩ i
    fin_cases i <;> assumption

theorem eightCalls_inj {p : List UInt8} {s s' : Fin 8 → sl_status_t} (he : eightCalls p s = eightCalls p s') :
    s = s' := by
  simp only [eightCalls, List.cons.injEq, Prod.mk.injEq, true_and, and_true] at he
  obtain ⟨h0, h1, h2, h3, h4, h5, h6, h7⟩ := he
  funext i; fin_cases i <;> assumption

theorem Emits.sent_iff {g : Sending} (he : Emits l h evs l') :
    Checked bleCalls SentWhole g evs ↔ Checked bleCalls LastAgrees g evs := by
  cases he with
  | send_ok s hs hn hk =>
    simp only [entries, start, published, Made.entry, List.map_cons, List.map_nil, List.cons_append, List.nil_append,
      Checked, SentWhole, LastAgrees, bleCalls, and_true, true_and, strain_ne_temp, false_imp_iff, hk, forall_const]
    constructor
    · rintro ⟨s', heq, hok⟩
      obtain rfl : s = s' := eightCalls_inj (p := samples l) (by rw [← heq, eightCalls, hk])
      simp [hok]
    · intro H
      refine ⟨s, by rw [eightCalls, hk], all_ok_iff.2 ?_⟩
      simpa [hk] using H
  | send_failed s hs hn hk =>
    simp only [entries, start, published, Made.entry, List.map_cons, List.map_nil, List.cons_append, List.nil_append,
      Checked, SentWhole, LastAgrees, and_true, strain_ne_temp, false_imp_iff, hk, forall_const]
  | reset_timer_sleep hs hes hr =>
    simp only [start, entries, Made.entry, List.map_cons, List.map_nil, List.cons_append, List.nil_append, Checked,
      SentWhole, LastAgrees, checked_append, and_true, true_and]
    exact iff_of_true (hes.checked fun _ _ _ _ _ => trivial) (hes.checked fun _ _ _ _ _ => trivial)
  | _ => simp [entries, start, Made.entry, Checked, SentWhole, LastAgrees]

/-- One call of `sl_bt_torque_send_data`: the eight calls, and the last status. -/
theorem wp_torque {p : List UInt8} (hp : p.length = 16) {g : Sending} :
    wp (firmware bus) bleCalls (sl_bt_torque_send_data p 16)
      (fun sc g' _ _ => ∃ s, g' = ⟨p, eightCalls p s⟩ ∧ sc = s 7) g l h := by
  rw [wp_iff_wpAfter, ← bind_pure (sl_bt_torque_send_data p 16)]
  refine after_publish hp fun s => after_pure.2 fun g' h' hc => ⟨s, ?_, rfl⟩
  exact blind_bleCalls.calls (by simp [published, Op.isMain]) h hc

/-- In every run, both checks agree. -/
theorem run_sent_iff (hb : Boot l₀ h₀) (hr : Runs bus l₀ h₀ tr l h) :
    Checked bleCalls SentWhole ⟨[], []⟩ tr ↔ Checked bleCalls LastAgrees ⟨[], []⟩ tr := by
  refine run_blind_iff blind_sent hb (fun _ _ _ _ _ _ he => he.sent_iff) (fun g b sc l h hb => ?_) hr
  cases b <;> first | exact Iff.rfl | cases hb

/-- **What `SL_STATUS_OK` says.** For every packet and all statuses, it says that all
eight calls succeeded exactly when the last call failed or the seven before it
succeeded. In every run, `data_sent_flag` is set for whole packets only, exactly
when every successful last notification came after successful calls. -/
theorem torque_ok_iff (bus : SpiBus D) :
    (∀ p : List UInt8, p.length = 16 → ∀ g l h tr sc l' h',
      Exec (firmware bus) (sl_bt_torque_send_data p 16) l h tr sc l' h' →
      ∃ s, tr.foldl bleCalls g = ⟨p, eightCalls p s⟩ ∧
        ((sc = SL_STATUS_OK → ∀ i, s i = SL_STATUS_OK) ↔
          s 7 ≠ SL_STATUS_OK ∨ ∀ i < 7, s i = SL_STATUS_OK)) ∧
    ∀ l₀ h₀ tr l h, Boot l₀ h₀ → Runs bus l₀ h₀ tr l h →
      (Checked bleCalls SentWhole ⟨[], []⟩ tr ↔ Checked bleCalls LastAgrees ⟨[], []⟩ tr) := by
  refine ⟨fun p hp g l h tr sc l' h' he => ?_, fun _ _ _ _ _ => run_sent_iff⟩
  obtain ⟨s, hs, rfl⟩ := wp_iff.1 (wp_torque hp) tr sc l' h' he
  refine ⟨s, hs, ?_⟩
  by_cases hk : s 7 = SL_STATUS_OK
  · simp only [hk, forall_const, ne_eq, not_true_eq_false, false_or]
    refine ⟨fun H i _ => H i, fun H i => ?_⟩
    rcases (Fin.le_last i).lt_or_eq with hi | rfl
    · exact H i hi
    · exact hk
  · exact iff_of_true (fun h => absurd h hk) (.inl hk)

instance LastAgrees.decidable {g : Sending} : ∀ e : Event D, Decidable (LastAgrees g e)
  | .irq _ _ | .call (.drv _) _ _ _ | .call (.shr _) _ _ _ => instDecidableTrue
  | .call (.main o) r l h => by
    unfold LastAgrees
    split <;> infer_instance

/-- A BLE stack that fails the first write. -/
def firstFails : BleCall → sl_status_t
  | .sl_bt_gatt_server_write_attribute_value c _ _ => if c = gattdb_strain_1_characteristic then 1 else SL_STATUS_OK
  | _ => SL_STATUS_OK

theorem torque_ok_iff_bench :
    (∃ tr sc l h, Exec (firmware anyBus) (sl_bt_torque_send_data (List.replicate 16 0) 16)
        (booted false false).1 (booted false false).2 tr sc l h ∧
      ∃ s, tr.foldl bleCalls ⟨[], []⟩ = ⟨List.replicate 16 0, eightCalls (List.replicate 16 0) s⟩ ∧
        ((sc = SL_STATUS_OK → ∀ i, s i = SL_STATUS_OK) ↔ s 7 ≠ SL_STATUS_OK ∨ ∀ i < 7, s i = SL_STATUS_OK)) ∧
    ∃ tr l h, Runs anyBus (booted false false).1 (booted false false).2 tr l h ∧ l.user.data_sent_flag = 1 ∧
      (Checked bleCalls SentWhole ⟨[], []⟩ tr ↔ Checked bleCalls LastAgrees ⟨[], []⟩ tr) := by
  constructor
  · obtain ⟨tr, sc, l, h, he, -⟩ := exists_exec (M := firmware anyBus) quietBench
      (p := sl_bt_torque_send_data (List.replicate 16 0) 16) (l := (booted false false).1)
      (h := (booted false false).2) (P := fun _ _ _ _ => True) (by decide +kernel)
    exact ⟨tr, sc, l, h, he, (torque_ok_iff anyBus).1 _ (List.length_replicate ..) _ _ _ _ _ _ _ he⟩
  · obtain ⟨tr, l, h, hr, hP⟩ := bench_run quietBench (fires 1 ++ measurement)
      (P := fun _ l _ => l.user.data_sent_flag = 1) (by decide +kernel)
    exact ⟨tr, l, h, hr, hP, (torque_ok_iff anyBus).2 _ _ _ _ _ booted_boot hr⟩

/-- The function answers `SL_STATUS_OK` although a write has failed, and the packet counts as sent. -/
theorem partly_sent :
    (∃ tr l h, Exec (firmware anyBus) (sl_bt_torque_send_data (List.replicate 16 0) 16)
        (booted false false).1 (booted false false).2 tr SL_STATUS_OK l h ∧
      ∃ c ∈ (tr.foldl bleCalls ⟨[], []⟩).calls, c.2 ≠ SL_STATUS_OK) ∧
    ∃ tr l h, Runs anyBus (booted false false).1 (booted false false).2 tr l h ∧ l.user.data_sent_flag = 1 ∧
      ¬ Checked bleCalls SentWhole ⟨[], []⟩ tr := by
  constructor
  · obtain ⟨tr, sc, l, h, he, rfl, hc⟩ := exists_exec (M := firmware anyBus) (bench firstFails fun _ _ _ => [])
      (p := sl_bt_torque_send_data (List.replicate 16 0) 16) (l := (booted false false).1)
      (h := (booted false false).2) (P := fun tr sc _ _ => sc = SL_STATUS_OK ∧
        ∃ c ∈ (tr.foldl bleCalls ⟨[], []⟩).calls, c.2 ≠ SL_STATUS_OK) (by decide +kernel)
    exact ⟨tr, l, h, he, hc⟩
  · obtain ⟨tr, l, h, hr, hd, hc⟩ := bench_run (bench firstFails fun _ _ _ => []) (fires 1 ++ measurement)
      (P := fun tr l _ => l.user.data_sent_flag = 1 ∧ ¬ Checked bleCalls LastAgrees ⟨[], []⟩ tr) (by decide +kernel)
    exact ⟨tr, l, h, hr, hd, fun hs => hc ((run_sent_iff booted_boot hr).1 hs)⟩

end M20Strain
