import M20Strain.Model.Target
import M20Strain.Proof.Alone
import M20Strain.Proof.CloseLoop
import M20Strain.Proof.Emits
import M20Strain.Proof.Tasks

/-!
# Where the target stops

What the firmware does beyond the RAM is `reset_timer_sleep` only: a run is one of the target if and
only if it never enters it (`target_iff`). So the target stops there, in state `TO_SLEEP`, and
otherwise only at an event that fails (`task_stops`).
-/

namespace M20Strain

open Interrupt Prog

variable {D : Type} {bus : SpiBus D} {connections : RamAddr} {l₀ l l' : Local D} {h₀ h h' : Shared}
  {tr : List (Event D)} {o : Op}

/-- Calls at which the firmware stops on any device: an assertion that fails, a connection that does not
fit the table, and undefined behaviour. -/
def Op.Halts : Op → Prop
  | .main (.app_assert_status sc) => sc ≠ SL_STATUS_OK
  | .main (.wr_connections i _) => 10 ≤ i
  | .main .undefined_behaviour => True
  | _ => False

theorem shr_answers (o : ShrOp) (l : Local D) (h : Shared) : ∃ r l' h', o.step r l h = some (l', h') := by
  cases o with
  | sl_sleeptimer_start_timer n =>
    cases ht : h.timerRunning with
    | true => exact ⟨1, l, h, by simp [ShrOp.step, ht, SL_STATUS_OK]⟩
    | false => exact ⟨SL_STATUS_OK, l, { h with timerRunning := true }, by simp [ShrOp.step, ht]⟩
  | rd f => exact ⟨h.get f, l, h, by simp [ShrOp.step]⟩
  | rd_wakeupTimer => exact ⟨h.wakeupTimer, l, h, by simp [ShrOp.step]⟩
  | sl_sleeptimer_is_timer_running => exact ⟨h.timerRunning, l, h, by simp [ShrOp.step]⟩
  | EMU_EnterEM4 => exact ⟨l.driver.ads, _, _, rfl⟩
  | wr | wr_wakeupTimer => exact ⟨(), _, _, rfl⟩
  | sl_sleeptimer_stop_timer => exact ⟨SL_STATUS_OK, _, _, rfl⟩

theorem main_answers {o : MainOp} (ho : ¬ (Op.main o).Halts) (l : Local D) : ∃ r l', o.step r l = some l' := by
  cases o with
  | undefined_behaviour => exact absurd trivial ho
  | app_assert_status sc => exact ⟨(), l, if_pos (not_not.1 ho)⟩
  | wr_connections i c => exact ⟨(), _, dif_pos (not_le.1 ho)⟩
  | rd_current_state => exact ⟨l.current_state, l, if_pos rfl⟩
  | rd f => exact ⟨l.user.get f, l, if_pos rfl⟩
  | rd_num_data_retrieved => exact ⟨l.user.num_data_retrieved, l, if_pos rfl⟩
  | rd_sensor_data k => exact ⟨l.user.sensor_data k, l, if_pos rfl⟩
  | rd_nConnections_ptr => exact ⟨l.user.nConnections, l, if_pos rfl⟩
  | rd_nConnections => exact ⟨l.nConnections, l, if_pos rfl⟩
  | rd_advertising_set_handle => exact ⟨l.advertising_set_handle, l, if_pos rfl⟩
  | rd_connections i =>
    by_cases hi : i < 10
    · exact ⟨l.connections ⟨i, hi⟩, l, by simp [MainOp.step, hi]⟩
    · exact ⟨(0 : UInt8), l, by simp [MainOp.step, hi]⟩
  | RMU_ResetCauseGet =>
    cases hr : l.em4Reset with
    | true => exact ⟨EMU_RSTCAUSE_EM4, l, by simp [MainOp.step, hr, EMU_RSTCAUSE_EM4]⟩
    | false => exact ⟨(0 : UInt32), l, by simp [MainOp.step, hr]⟩
  | wr_sensor_data k v => exact ⟨(), store_ends l k v⟩
  | ble c => exact ⟨SL_STATUS_OK, l, rfl⟩
  | sl_bt_system_get_identity_address => exact ⟨(SL_STATUS_OK, fun _ => 0), l, rfl⟩
  | sl_bt_advertiser_create_set => exact ⟨(SL_STATUS_OK, 0), l, rfl⟩
  | _ => exact ⟨(), _, rfl⟩

/-- **Every other call has an answer.** -/
theorem firmware_answers (bus : SpiBus D) (ho : ¬ o.Halts) (l : Local D) (h : Shared) :
    ∃ r l' h', (firmware bus).step o r l h = some (l', h') := by
  cases o with
  | drv o =>
    obtain ⟨r, d, hd⟩ := drv_answers bus o l.driver
    exact ⟨r, _, _, Option.map_eq_some_iff.2 ⟨d, hd, rfl⟩⟩
  | shr o => exact shr_answers o l h
  | main o =>
    obtain ⟨r, l', hs⟩ := main_answers ho l
    exact ⟨r, _, _, Option.map_eq_some_iff.2 ⟨l', hs, rfl⟩⟩

theorem Op.Proper.not_halts {table : Bool} (ho : o.Proper false table) : ¬ o.Halts := by
  intro hh
  unfold Op.Halts at hh
  split at hh
  · rcases ho with ho | ho <;> cases ho
  · rcases ho with ho | ho <;> cases ho
  · rcases ho with ho | ho <;> cases ho
  · exact hh

/-- `app_process_action` never halts. -/
theorem action_answers : AllCalls (fun o => ∀ l h, ∃ r l' h', (firmware bus).step o r l h = some (l', h'))
    app_process_action :=
  (Task.proper .app_process_action).imp fun _ ho => firmware_answers bus ho.not_halts

/-- `reset_timer_sleep` is entered. -/
def entersTimerSleep : Event D → Bool
  | .call (.main (.enter .reset_timer_sleep)) _ _ _ => true
  | _ => false

/-- A store outside `sensor_data`. -/
def storesOutside : Event D → Bool
  | .call (.main (.wr_sensor_data k _)) _ _ _ => k < 0 ∨ 4 ≤ k
  | _ => false

theorem blind_entersTimerSleep : Blind (seen (entersTimerSleep (D := D))) := by
  refine .seen ?_ (fun _ _ => rfl) ?_
  · intro o ho r l h
    unfold entersTimerSleep
    split
    · rename_i heq
      cases heq
      cases ho
    · rfl
  · intro o r l h h' _
    cases o with
    | main o => cases o with
      | enter f => cases f <;> rfl
      | _ => rfl
    | _ => rfl

theorem blind_storesOutside : Blind (seen (storesOutside (D := D))) := by
  refine .seen ?_ (fun _ _ => rfl) ?_
  · intro o ho r l h
    unfold storesOutside
    split
    · rename_i heq
      cases heq
      cases ho
    · rfl
  · intro o r l h h' _
    cases o with
    | main o => cases o <;> rfl
    | _ => rfl

/-- What is seen of an `fsm_fire`, in its list of calls. -/
theorem any_emits {p : Event D → Bool} (hp : Blind (seen p)) (hI : Inv l h)
    (he : Exec (firmware bus) app_process_action l h tr () l' h') :
    ∃ evs, Emits l h evs l' ∧ tr.any p = evs.any p := by
  obtain ⟨evs, hem, heq⟩ := (wp_iff.1 (wp_fired (g := false) hp.quiet hI) _ _ _ _ he).emits hp
  rw [foldl_seen, foldl_seen, Bool.false_or, Bool.false_or] at heq
  exact ⟨evs, hem, heq⟩

/-- **Samples are stored inside the array.** -/
theorem stores_inside (hI : Inv l h) (he : Exec (firmware bus) app_process_action l h tr () l' h') :
    tr.any storesOutside = false := by
  obtain ⟨evs, hem, heq⟩ := any_emits blind_storesOutside hI he
  rw [heq]
  cases hem with
  | retrieve hs hn hw =>
    have hpos := (hI.fits hs).num_nonneg
    simp [entries, start, Made.entry, storesOutside]
    omega
  | reset_timer_sleep hs hes hr =>
    have hloop := hes.any (h := h) (p := storesOutside) fun _ _ => rfl
    simp only [List.any_append, List.any_cons, hloop]
    rfl
  | _ => simp [entries, start, published, Made.entry, storesOutside]

/-- The way to sleep by the timer is taken in `TO_SLEEP` only. -/
theorem enters_to_sleep (hI : Inv l h) (he : Exec (firmware bus) app_process_action l h tr () l' h')
    (hmem : tr.any entersTimerSleep = true) : l.current_state = states.TO_SLEEP := by
  obtain ⟨evs, hem, heq⟩ := any_emits blind_entersTimerSleep hI he
  rw [heq] at hmem
  cases hem with
  | reset_timer_sleep hs hes hr => exact hs
  | _ => simp [entries, start, published, Made.entry, entersTimerSleep] at hmem

/-- Every execution of `reset_timer_sleep` leaves the RAM. -/
theorem reset_timer_sleep_faults (connections : RamAddr)
    (he : Exec (firmware bus) reset_timer_sleep l h tr () l' h') : ¬ Avoids (Op.faults connections) tr := by
  intro hav
  have hread : Closing.read 0x8000 ∈ tr.filterMap closing := by
    rw [reads_iff he]
    exact lt_of_lt_of_le (by decide) l.user.nConnections.le
  obtain ⟨e, hmem, hclosing⟩ := List.mem_filterMap.1 hread
  cases e with
  | irq i h => cases hclosing
  | call o r l₁ h₁ =>
    have hok : o.faults connections = false := hav _ hmem
    have hload : o = .main (.rd_connections 0x8000) := by
      simp only [closing, ofCalls, Op.closing] at hclosing
      split at hclosing <;> cases hclosing
      rfl
    subst hload
    have hle := connections.le
    simp [Op.faults, RAM_END] at hok
    omega

/-- What neither reads the table of connections nor enters `reset_timer_sleep` stays in the RAM. -/
theorem stays_inside {event : Bool} (connections : RamAddr) (htr : ∀ e ∈ tr, e.OfCall (Op.Proper event false))
    (hst : tr.any storesOutside = false) :
    Avoids (Op.faults connections) tr ∧ tr.any entersTimerSleep = false := by
  constructor
  · intro e he
    cases e with
    | irq i h => trivial
    | call o r l h =>
      change o.faults connections = false
      unfold Op.faults
      split
      · rcases htr _ he with ho | ho <;> cases ho
      · exact Bool.eq_false_iff.2 (List.any_eq_false.1 hst _ he)
      · rfl
  · refine List.any_eq_false.2 fun e he henters => ?_
    unfold entersTimerSleep at henters
    split at henters
    · rcases htr _ he with ho | ho <;> cases ho
    · cases henters

/-- **An `fsm_fire` stays in the RAM** exactly when it does not enter `reset_timer_sleep`. -/
theorem action_avoids (connections : RamAddr) (hI : Inv l h)
    (he : Exec (firmware bus) app_process_action l h tr () l' h') :
    Avoids (Op.faults connections) tr ↔ tr.any entersTimerSleep = false := by
  have hst := stores_inside hI he
  obtain ⟨r, hf⟩ := he.of_map
  have hguard : ∀ t ∈ app_fsm_tt, ∀ guard ∈ t.input, AllCalls (Op.Proper false false) guard :=
    fun t ht guard hg => (plain_guards t ht guard hg).imp fun _ ho => .inl ho.steady
  obtain ⟨tr₁, tr₂, rfl, h1, h2⟩ := fsm_fire_scans (.inl trivial) (fun _ => .inl trivial) hguard hf
  have inside (h2 : ∀ e ∈ tr₂, e.OfCall (Op.Proper false false)) :
      Avoids (Op.faults connections) (tr₁ ++ tr₂) ↔ (tr₁ ++ tr₂).any entersTimerSleep = false := by
    obtain ⟨h3, h4⟩ := stays_inside connections (List.forall_mem_append.2 ⟨h1, h2⟩) hst
    exact iff_of_true h3 h4
  rcases h2 with rfl | ⟨t, ht, out, hout, l₁, h₁, he₂⟩
  · exact inside (List.forall_mem_nil _)
  rcases (actions_last t ht out hout).2 with rfl | hp
  · -- the only action that leaves the RAM, and it says so when it is entered
    obtain ⟨r, h₂, hmem⟩ := he₂.mem_call
    refine iff_of_false (fun hav => reset_timer_sleep_faults connections he₂ (avoids_append.1 hav).2) ?_
    exact fun hnone => List.any_eq_false.1 hnone _ (List.mem_append_right _ hmem) rfl
  · exact inside (hp.entries he₂)

/-- Events stay in the RAM. -/
theorem event_inside (connections : RamAddr) {evt : sl_bt_evt}
    (he : Exec (firmware bus) (sl_bt_on_event evt) l h tr () l' h') :
    Avoids (Op.faults connections) tr ∧ tr.any entersTimerSleep = false := by
  refine stays_inside connections (((steady_sl_bt_on_event evt).imp fun _ => .inl).entries he) ?_
  refine List.any_eq_false.2 fun e hmem hout => ?_
  have ho := (connecting_sl_bt_on_event evt).entries he e hmem
  unfold storesOutside at hout
  split at hout
  · cases ho
  · cases hout

/-- **The runs of the target** are those that never take the way to sleep by the timer. -/
theorem target_iff (connections : RamAddr) (hb : Boot l₀ h₀) (hr : Runs bus l₀ h₀ tr l h) :
    Run (target bus connections) Task.body l₀ h₀ tr l h ↔ tr.any entersTimerSleep = false := by
  refine run_without.trans ((and_iff_right hr).trans ?_)
  induction hr with
  | nil => exact iff_of_true (List.forall_mem_nil _) rfl
  | irq i _ _ ih =>
    rw [avoids_append, List.any_append, Bool.or_eq_false_iff, ih]
    exact and_congr_right fun _ => iff_of_true (List.forall_mem_singleton.2 trivial) rfl
  | task t hr he ih =>
    rw [avoids_append, List.any_append, Bool.or_eq_false_iff, ih]
    refine and_congr_right fun _ => ?_
    cases t with
    | app_process_action => exact action_avoids connections (run_inv hb hr) he
    | sl_bt_on_event evt =>
      obtain ⟨h1, h2⟩ := event_inside connections he
      exact iff_of_true h1 h2

/-- **Where a task can stop.** -/
theorem stops_at (hI : Inv l h) {t : Task} (hs : Stops (target bus connections) t.body l h o l' h') :
    (∃ evt, t = .sl_bt_on_event evt) ∧ ((∃ sc, o = .main (.app_assert_status sc) ∧ sc ≠ SL_STATUS_OK) ∨
        ∃ i c, o = .main (.wr_connections i c) ∧ 10 ≤ i) ∨
      t = .app_process_action ∧ ∃ i, o = .main (.rd_connections i) ∧ RAM_END ≤ connections.val + i := by
  obtain ⟨ho, hn⟩ := t.proper.stops hs
  cases t with
  | sl_bt_on_event evt =>
    refine .inl ⟨⟨evt, rfl⟩, ?_⟩
    have hc := ((connecting_sl_bt_on_event evt).stops hs).1
    by_cases hh : o.Halts
    · unfold Op.Halts at hh
      split at hh
      · exact .inl ⟨_, rfl, hh⟩
      · exact .inr ⟨_, _, rfl, hh⟩
      · rcases ho with ho | ho <;> cases ho
      · exact hh.elim
    · -- what faults is no call of an event
      have hfault := without_stuck (firmware_answers bus hh l' h') hn
      unfold Op.faults at hfault
      split at hfault
      · rcases ho with ho | ho <;> cases ho
      · cases hc
      · cases hfault
  | app_process_action =>
    obtain ⟨hfault, r, tr, ⟨⟩, l₁, h₁, he, hmem⟩ := hs.goes_on action_answers
    refine .inr ⟨rfl, ?_⟩
    unfold Op.faults at hfault
    split at hfault
    · exact ⟨_, rfl, (of_decide_eq_true hfault).2⟩
    · exact absurd hfault (List.any_eq_false.1 (stores_inside hI he) _ hmem)
    · cases hfault

/-- In slow mode and with the timer expired, the way to sleep is taken. -/
theorem may_enter_timer_sleep (bus : SpiBus D) (hs : l.current_state = states.TO_SLEEP)
    (hp : l.user.sleep_possible_flag ≠ 0) (hm : h.change_mode_flag = 0) (ht : h.tmr_flag ≠ 0) :
    may (firmware bus) (seen entersTimerSleep) app_process_action (fun _ g _ _ => g = true) false l h := by
  refine ((fire_to_sleep hs hp).may blind_entersTimerSleep.quiet _ _ _).2 ((may_rd blind_entersTimerSleep.quiet).2 ?_)
  rw [if_pos (by exact hm)]
  refine (may_rd blind_entersTimerSleep.quiet).2 ?_
  rw [if_pos (by exact ht)]
  have hrest : AllCalls (Op.Proper false true) (reset_timer_sleep >>= fun _ => pure ()) :=
    reset_timer_sleep_last.2.bind fun _ => trivial
  refine ⟨(), _, _, rfl, (), _, _, rfl, ?_⟩
  refine AllCalls.may_of_forall (fun g e hg => by rw [seen, hg, Bool.true_or]) rfl ?_
  exact (hrest.2 ()).imp fun _ ho => firmware_answers bus ho.not_halts

/-- **The target can stop in an `fsm_fire`** in state `TO_SLEEP`, and only there. -/
theorem action_stops_iff (connections : RamAddr) (hI : Inv l h) :
    (∃ o l' h', Stops (target bus connections) app_process_action l h o l' h') ↔
      l.current_state = states.TO_SLEEP := by
  constructor
  · rintro ⟨o, l', h', hs⟩
    obtain ⟨hfault, r, tr, ⟨⟩, l₁, h₁, he, hmem⟩ := hs.goes_on action_answers
    have hav : ¬ Avoids (Op.faults connections) tr := by
      intro hav
      have hok : o.faults connections = false := hav _ hmem
      rw [hfault] at hok
      cases hok
    refine enters_to_sleep hI he (Bool.eq_true_of_not_eq_false fun hnone => ?_)
    exact hav ((action_avoids connections hI he).2 hnone)
  · intro hs
    have hf := hI.fits hs
    have hp : l.user.sleep_possible_flag ≠ 0 := by
      rw [hf.sleep_possible]
      decide
    have expired {h : Shared} (hI : Inv l h) (hm : h.change_mode_flag = 0) (ht : h.tmr_flag ≠ 0) :
        ∃ o l' h', Stops (target bus connections) app_process_action l h o l' h' := by
      obtain ⟨tr, ⟨⟩, l₁, h₁, he, -, hg⟩ := may_iff.1 (may_enter_timer_sleep bus hs hp hm ht)
      rw [foldl_seen, Bool.false_or] at hg
      refine he.stops fun hav => ?_
      rw [(action_avoids connections hI he).1 hav] at hg
      cases hg
    -- the button makes the mode slow, and the timer expires
    have slow {h : Shared} (hI : Inv l h) (hm : h.change_mode_flag = 0) :
        ∃ o l' h', Stops (target bus connections) app_process_action l h o l' h' := by
      have ha : Armed h := (hI.fits hs).timer
      rcases ha with ⟨-, hrun⟩ | ⟨ht, -⟩
      · have hi : handle .sleeptimer h = some (sleeptimer_callback { h with timerRunning := false }) := if_pos hrun
        obtain ⟨o, l', h', hstop⟩ := expired (hI.handle hi) hm (by simp [sleeptimer_callback])
        exact ⟨o, l', h', .irq (i := Irq.sleeptimer) hi hstop⟩
      · exact expired hI hm (by rw [ht]; decide)
    by_cases hm : h.change_mode_flag = 0
    · exact slow hI hm
    · have hi : handle .change_mode h = some (change_mode_callback 1 h) := rfl
      obtain ⟨o, l', h', hstop⟩ := slow (hI.handle hi) (by simp [change_mode_callback, cnot, hm])
      exact ⟨o, l', h', .irq (i := Irq.change_mode) hi hstop⟩

/-- **Where the target stops**, from any state of any run: at an assertion of an event that fails, at a
connection that does not fit the table, or at a load that leaves the RAM; the last in state `TO_SLEEP`,
since `reset_timer_sleep` never returns. -/
theorem task_stops (connections : RamAddr) (hb : Boot l₀ h₀) (hr : Runs bus l₀ h₀ tr l h) :
    (∀ t o l' h', Stops (target bus connections) (Task.body t) l h o l' h' →
      (∃ evt, t = .sl_bt_on_event evt) ∧ ((∃ sc, o = .main (.app_assert_status sc) ∧ sc ≠ SL_STATUS_OK) ∨
          ∃ i c, o = .main (.wr_connections i c) ∧ 10 ≤ i) ∨
        t = .app_process_action ∧ ∃ i, o = .main (.rd_connections i) ∧ RAM_END ≤ connections.val + i) ∧
    ((∃ o l' h', Stops (target bus connections) app_process_action l h o l' h') ↔
      l.current_state = states.TO_SLEEP) ∧
    ∀ l h tr l' h', ¬ Exec (target bus connections) reset_timer_sleep l h tr () l' h' := by
  have hI := run_inv hb hr
  refine ⟨fun _ _ _ _ hs => stops_at hI hs, action_stops_iff connections hI, ?_⟩
  intro l h tr l' h' he
  obtain ⟨he, hav⟩ := exec_without.1 he
  exact reset_timer_sleep_faults connections he hav

/-- After a measurement in slow mode. -/
theorem task_stops_slow : ∃ tr l h, Runs anyBus (booted false false).1 (booted false false).2 tr l h ∧
    l.current_state = states.TO_SLEEP ∧ ∃ o l' h',
      Stops (target anyBus connections_addr) app_process_action l h o l' h' ∧
      ∃ i, o = .main (.rd_connections i) ∧ RAM_END ≤ connections_addr.val + i := by
  obtain ⟨tr, l, h, hr, hs⟩ := bench_run quietBench (fires 1 ++ measurement ++ fires 1)
    (P := fun _ l _ => l.current_state = states.TO_SLEEP) (by decide +kernel)
  obtain ⟨hwhere, hstops, -⟩ := task_stops connections_addr booted_boot hr
  obtain ⟨o, l', h', hstop⟩ := hstops.2 hs
  refine ⟨tr, l, h, hr, hs, o, l', h', hstop, ?_⟩
  rcases hwhere .app_process_action o l' h' hstop with ⟨⟨evt, hevt⟩, -⟩ | ⟨-, hload⟩
  · cases hevt
  · exact hload

end M20Strain
