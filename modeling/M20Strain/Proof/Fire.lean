import M20Strain.Proof.Rules

/-!
# Which row `fsm_fire` takes

For each state, what is left of `app_process_action` once the rows of other
states are skipped and the guards that read the main loop's own flags are
evaluated (`fire_sleeping` … `fire_to_sleep`). Guards that read shared flags
remain, one read each, because handlers run while the table is scanned.
-/

namespace M20Strain

open Interrupt Prog

variable {D : Type} {bus : SpiBus D} {l l' : Local D}

/-- Taking a row: store the new state, run the action. -/
def row (d : states) (out : AppM Unit) : AppM Unit := do
  own (.wr_current_state d)
  out
  pure ()

/-- What `app_process_action` does from a row of the table on. -/
def scan (tt : List (fsm_trans_t AppM)) : AppM Unit := do
  let _ ← fsm_fire (own .rd_current_state) (fun s => own (.wr_current_state s)) tt
  pure ()

/-- The rest of the table from the first row that belongs to state `s`, or ends it. -/
def rowsFrom (s : states) : List (fsm_trans_t AppM) → List (fsm_trans_t AppM)
  | [] => []
  | t :: tt => if 0 ≤ t.orig_state ∧ t.orig_state ≠ s then rowsFrom s tt else t :: tt

/-- Rows of other states are skipped. -/
theorem scan_rowsFrom {s : states} (hs : l.current_state = s) (tt : List (fsm_trans_t AppM)) :
    Acts bus l (scan tt) l (scan (rowsFrom s tt)) := by
  induction tt with
  | nil => exact .refl
  | cons t tt ih =>
    unfold rowsFrom
    split
    · rename_i ht
      refine .trans ?_ ih
      simp only [scan, fsm_fire, if_neg (Int.not_lt.2 ht.1), bind_assoc]
      refine acts_rd_current_state.trans (.of_eq ?_)
      rw [if_neg (by rw [hs]; exact fun he => ht.2 he.symm)]
    · exact .refl

/-- A row of the current state calls its guard. -/
theorem scan_row {s d : states} {guard : AppM Int} {out : AppM Unit} {tt : List (fsm_trans_t AppM)}
    (hs : l.current_state = s) : Acts bus l (scan (⟨s, guard, d, out⟩ :: tt)) l
      (guard >>= fun b => if b ≠ 0 then row d out else scan tt) := by
  have h0 : ¬ (s : Int) < 0 := by cases s <;> decide
  simp only [scan, fsm_fire, if_neg h0, bind_assoc]
  refine acts_rd_current_state.trans (.of_eq ?_)
  rw [if_pos hs]
  simp only [bind_assoc]
  congr 1; funext b
  split
  · simp only [take, row, bind_assoc]; rfl
  · rfl

/-- Scanning starts at the first row of the current state. -/
theorem fire_from {s d : states} {guard : AppM Int} {out : AppM Unit} {tt : List (fsm_trans_t AppM)}
    (hs : l.current_state = s) (htt : rowsFrom s app_fsm_tt = ⟨s, guard, d, out⟩ :: tt) :
    Acts bus l app_process_action l (guard >>= fun b => if b ≠ 0 then row d out else scan tt) := by
  refine (scan_rowsFrom hs app_fsm_tt).trans ?_
  rw [htt]
  exact scan_row hs

/-- Scanning ends at the sentinel. -/
theorem scan_end {s : states} {tt : List (fsm_trans_t AppM)} (hs : l.current_state = s)
    (htt : rowsFrom s tt = [⟨-1, none, -1, none⟩]) : Acts bus l (scan tt) l (pure ()) := by
  refine (scan_rowsFrom hs tt).trans ?_
  rw [htt]
  exact .refl

theorem fire_sleeping (hs : l.current_state = states.SLEEPING) (hw : l.user.wakeup_timer_flag = 1) :
    Acts bus l app_process_action l (row .WAKING_UP wake_up) := by
  refine (fire_from hs rfl).trans ?_
  simp only [check_wakeup_timer, bind_assoc, pure_bind]
  refine acts_rd.trans (.of_eq ?_)
  simp only [app_fsm_t.get, hw]; rfl

theorem fire_waking_up (hs : l.current_state = states.WAKING_UP) (hw : l.user.wakeup_completed_flag = 1) :
    Acts bus l app_process_action l (row .ASKING_FOR_DATA ask_for_next_data) := by
  refine (fire_from hs rfl).trans ?_
  simp only [check_wakeup_completed, bind_assoc, pure_bind]
  refine acts_rd.trans (.of_eq ?_)
  simp only [app_fsm_t.get, hw]; rfl

/-- What `check_data_retrieved` leaves: the counter is incremented in the guard. -/
def counted (l : Local D) : Local D :=
  { l with user := { l.user with
      data_retrieved_flag := sensorsReadCheck
      num_data_retrieved := l.user.num_data_retrieved + 1 } }

theorem fire_retrieving (hs : l.current_state = states.RETRIEVING_DATA) :
    Acts bus l app_process_action (counted l) (row .ASKING_FOR_DATA ask_for_next_data) := by
  refine (fire_from hs rfl).trans ?_
  simp only [check_data_retrieved, bind_assoc, pure_bind]
  exact ((acts_wr (by decide)).trans acts_rd_num).trans (acts_wr_num.trans acts_rd)

theorem fire_asking_all (hs : l.current_state = states.ASKING_FOR_DATA)
    (hn : l.user.num_data_retrieved = 4) :
    Acts bus l app_process_action l (row .SENDING_DATA power_down_interface_send_data) := by
  refine (fire_from hs rfl).trans ?_
  simp only [check_all_data_retrieved, bind_assoc, pure_bind]
  refine acts_rd_num.trans (.of_eq ?_)
  rw [hn]; rfl

theorem fire_asking (hs : l.current_state = states.ASKING_FOR_DATA) (hn : l.user.num_data_retrieved ≠ 4) :
    Acts bus l app_process_action l (do
      let data_ready_flag ← shr (.rd .data_ready_flag)
      if data_ready_flag ≠ 0 then row .RETRIEVING_DATA retrieve_data else pure ()) := by
  refine (fire_from hs rfl).trans ?_
  simp only [check_all_data_retrieved, bind_assoc, pure_bind]
  refine acts_rd_num.trans ?_
  rw [if_neg hn]
  refine (scan_row hs).trans ?_
  simp only [check_data_ready, bind_assoc]
  refine .shr rfl fun v => ?_
  by_cases hv : v = 0
  · simp only [hv, ne_eq, not_true_eq_false, if_false, pure_bind]
    exact scan_end hs rfl
  · simp only [hv, ne_eq, not_false_eq_true, if_true, bind_assoc, pure_bind]
    refine acts_rd_num.trans (.of_eq ?_)
    rw [if_neg hn]; rfl

theorem fire_sending_failed (hs : l.current_state = states.SENDING_DATA) (hd : l.user.data_sent_flag = 0) :
    Acts bus l app_process_action l (pure ()) := by
  refine (fire_from hs rfl).trans ?_
  simp only [check_data_sent_continuous, bind_assoc]
  refine acts_rd.trans ?_
  simp only [app_fsm_t.get, hd, ne_eq, not_true_eq_false, if_false, pure_bind]
  refine (scan_row hs).trans ?_
  simp only [check_data_sent_not_continuous, bind_assoc]
  refine acts_rd.trans ?_
  simp only [app_fsm_t.get, hd, ne_eq, not_true_eq_false, if_false, pure_bind]
  exact scan_end hs rfl

/-- The two guards read the mode one after the other: a row is taken by the value its
own guard reads, and none when the mode turns continuous in between. -/
theorem fire_sending (hs : l.current_state = states.SENDING_DATA) (hd : l.user.data_sent_flag ≠ 0) :
    Acts bus l app_process_action l (do
      let change_mode_flag ← shr (.rd .change_mode_flag)
      if change_mode_flag ≠ 0 then row .WAKING_UP ask_again
      else do
        let change_mode_flag ← shr (.rd .change_mode_flag)
        if change_mode_flag = 0 then row .TO_SLEEP try_to_sleep else pure ()) := by
  refine (fire_from hs rfl).trans ?_
  simp only [check_data_sent_continuous, bind_assoc]
  refine acts_rd.trans ?_
  simp only [app_fsm_t.get, hd, ne_eq, not_false_eq_true, if_true, bind_assoc, pure_bind]
  refine .shr rfl fun v => ?_
  by_cases hv : v = 0
  · simp only [hv, if_true, not_true_eq_false, if_false]
    refine (scan_row hs).trans ?_
    simp only [check_data_sent_not_continuous, bind_assoc]
    refine acts_rd.trans ?_
    simp only [app_fsm_t.get, hd, ne_eq, not_false_eq_true, if_true, bind_assoc, pure_bind]
    refine .shr rfl fun v' => ?_
    by_cases hv' : v' = 0
    · simp only [hv', if_true]; exact .refl
    · simp only [hv', if_false, not_true_eq_false]; exact scan_end hs rfl
  · simp only [hv, if_false, not_false_eq_true, if_true]; exact .refl

/-- `check_continuous_mode`, the last guard of `TO_SLEEP`. -/
def rest_to_sleep : AppM Unit := do
  let change_mode_flag ← shr (.rd .change_mode_flag)
  if change_mode_flag ≠ 0 then row .SLEEPING reset_no_timer else pure ()

theorem scan_rest_to_sleep (hs : l.current_state = states.TO_SLEEP) : Acts bus l
    (scan [⟨states.TO_SLEEP, check_continuous_mode, states.SLEEPING, reset_no_timer⟩, ⟨-1, none, -1, none⟩])
    l rest_to_sleep := by
  refine (scan_row hs).trans ?_
  simp only [check_continuous_mode, bind_assoc, pure_bind]
  refine .shr rfl fun v => ?_
  by_cases hv : v = 0
  · simp only [hv, ne_eq, not_true_eq_false, if_false]
    exact scan_end hs rfl
  · have hv' : ((v.toNat : ℕ) : Int) ≠ 0 := by
      simpa [← UInt8.toNat_inj] using hv
    rw [if_pos hv', if_pos hv]; exact .refl

/-- `reset_timer_sleep` needs slow mode first and the timer flag later,
`reset_no_timer` continuous mode at the last read. -/
theorem fire_to_sleep (hs : l.current_state = states.TO_SLEEP) (hp : l.user.sleep_possible_flag ≠ 0) :
    Acts bus l app_process_action l (do
      let change_mode_flag ← shr (.rd .change_mode_flag)
      if change_mode_flag = 0 then do
        let tmr_flag ← shr (.rd .tmr_flag)
        if tmr_flag ≠ 0 then row .SLEEPING reset_timer_sleep else rest_to_sleep
      else rest_to_sleep) := by
  refine (fire_from hs rfl).trans ?_
  simp only [check_sleep_not_possible, bind_assoc]
  refine acts_rd.trans ?_
  simp only [app_fsm_t.get, hp, if_false, pure_bind, ne_eq, not_true_eq_false]
  refine (scan_row hs).trans ?_
  simp only [check_sleep_possible, bind_assoc]
  refine acts_rd.trans ?_
  simp only [app_fsm_t.get, hp, ne_eq, not_false_eq_true, if_true, bind_assoc]
  refine .shr rfl fun v => ?_
  by_cases hv : v = 0
  · simp only [hv, if_true, bind_assoc, pure_bind]
    refine .shr rfl fun t => ?_
    by_cases ht : t = 0
    · simp only [ht, if_true, not_true_eq_false, if_false]; exact scan_rest_to_sleep hs
    · simp only [ht, if_false, not_false_eq_true, if_true]; exact .refl
  · simp only [hv, if_false, pure_bind, not_true_eq_false]; exact scan_rest_to_sleep hs

end M20Strain
