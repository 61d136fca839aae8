import M20Strain.Proof.Driver
import M20Strain.Proof.Runs

/-!
# One `fsm_fire` without interrupts

For each way through a row, the `fsm_fire` that goes this way when no handler runs
(`can_power_up` … `can_reset_no_timer`): what it needs of the state, what it is
answered, and the state it leaves. `Fired` has the same ways.
-/

namespace M20Strain

open Interrupt Prog

variable {D : Type} {bus : SpiBus D} {α : Type} {l l₁ l' : Local D} {h h₁ h' : Shared} {d : Driver D}
  {Q : α → Unit → Local D → Shared → Prop} {p : AppM α}

/-- **One `fsm_fire` alone** can go from `(l, h)` to `(l', h')`. -/
def Can (bus : SpiBus D) (l : Local D) (h : Shared) (l' : Local D) (h' : Shared) : Prop :=
  may (firmware bus) blind app_process_action (fun _ _ l₂ h₂ => l₂ = l' ∧ h₂ = h') () l h

/-- A call that ends in one state and has one answer. -/
theorem may_does {o : MainOp} [Unique o.Resp] {f : Local D → Local D} (ho : ∀ r l, o.step r l = some (f l))
    {k : o.Resp → AppM α} : may (firmware bus) blind (own o >>= k) Q () l h ↔
      may (firmware bus) blind (k default) Q () (f l) h := by
  rw [may_own]
  simp only [ho _ _, Option.some.injEq, Unique.exists_iff]
  constructor
  · rintro ⟨_, rfl, H⟩
    exact H
  · intro H
    exact ⟨f l, rfl, H⟩

theorem may_enter {f : Routine} : may (firmware bus) blind (do own (.enter f); p) Q () l h ↔
    may (firmware bus) blind p Q () l h :=
  may_does (o := .enter f) (f := id) fun _ _ => rfl

theorem may_wr_current_state {s : Int} : may (firmware bus) blind (do own (.wr_current_state s); p) Q () l h ↔
    may (firmware bus) blind p Q () { l with current_state := s } h :=
  may_does (o := .wr_current_state s) (f := fun l => { l with current_state := s }) fun _ _ => rfl

theorem may_wr_data_sent {v : UInt8} : may (firmware bus) blind (do own (.wr .data_sent_flag v); p) Q () l h ↔
    may (firmware bus) blind p Q () { l with user := { l.user with data_sent_flag := v } } h :=
  may_does (o := .wr .data_sent_flag v)
    (f := fun l => { l with user := { l.user with data_sent_flag := v } }) fun _ _ => rfl

/-- A BLE call can be answered with any status. -/
theorem may_ble {c : BleCall} {k : sl_status_t → AppM α} : may (firmware bus) blind (own (.ble c) >>= k) Q () l h ↔
    ∃ sc, may (firmware bus) blind (k sc) Q () l h := by
  rw [may_own]
  constructor
  · rintro ⟨sc, l₁, hs, H⟩
    obtain rfl := Option.some.inj hs
    exact ⟨sc, H⟩
  · rintro ⟨sc, H⟩
    exact ⟨sc, l, rfl, H⟩

/-- A call on shared state that ends in one state, whatever the answer. -/
theorem may_shr_does {o : ShrOp} {f : Shared → Shared} (ho : ∀ r (l : Local D) h, o.step r l h = some (l, f h))
    {k : o.Resp → AppM α} : may (firmware bus) blind (shr o >>= k) Q () l h ↔
      ∃ r, may (firmware bus) blind (k r) Q () l (f h) := by
  rw [may_shr]
  simp only [ho _ _ _, Option.some.injEq, Prod.mk.injEq]
  constructor
  · rintro ⟨r, _, _, ⟨rfl, rfl⟩, H⟩
    exact ⟨r, H⟩
  · rintro ⟨r, H⟩
    exact ⟨r, l, f h, ⟨rfl, rfl⟩, H⟩

theorem may_wr {f : SharedFlag} {v : UInt8} : may (firmware bus) blind (do shr (.wr f v); p) Q () l h ↔
    may (firmware bus) blind p Q () l (h.set v f) :=
  (may_shr_does (o := .wr f v) (f := fun h => h.set v f) fun _ _ _ => rfl).trans Unique.exists_iff

theorem may_wr_wakeupTimer {v : Int} : may (firmware bus) blind (do shr (.wr_wakeupTimer v); p) Q () l h ↔
    may (firmware bus) blind p Q () l { h with wakeupTimer := v } :=
  (may_shr_does (o := .wr_wakeupTimer v) (f := fun h => { h with wakeupTimer := v }) fun _ _ _ => rfl).trans
    Unique.exists_iff

theorem may_stop {k : sl_status_t → AppM α} :
    may (firmware bus) blind (shr .sl_sleeptimer_stop_timer >>= k) Q () l h ↔
      ∃ sc, may (firmware bus) blind (k sc) Q () l { h with timerRunning := false } :=
  may_shr_does (o := .sl_sleeptimer_stop_timer) (f := fun h => { h with timerRunning := false }) fun _ _ _ => rfl

theorem may_rd_wakeupTimer {k : Int → AppM α} : may (firmware bus) blind (shr .rd_wakeupTimer >>= k) Q () l h ↔
    may (firmware bus) blind (k h.wakeupTimer) Q () l h := may_reads reads_wakeupTimer

theorem may_EM4 {k : ads1220_t → AppM α} : may (firmware bus) blind (shr .EMU_EnterEM4 >>= k) Q () l h ↔
    ∃ ads, may (firmware bus) blind (k ads) Q ()
      (new_app_fsm l.user.nConnections l.em4PinWakeup true ads l.driver.dev).1
      (new_app_fsm l.user.nConnections l.em4PinWakeup true ads l.driver.dev).2 := by
  rw [may_shr]
  simp only [ShrOp.step]
  constructor
  · rintro ⟨ads, l₁, h₁, hs, H⟩
    cases hs
    exact ⟨ads, H⟩
  · rintro ⟨ads, H⟩
    exact ⟨ads, _, _, rfl, H⟩

theorem may_resetCause {k : UInt32 → AppM α} {cause : UInt32}
    (hc : decide (cause &&& EMU_RSTCAUSE_EM4 ≠ 0) = l.em4Reset) (H : may (firmware bus) blind (k cause) Q () l h) :
    may (firmware bus) blind (own .RMU_ResetCauseGet >>= k) Q () l h :=
  may_own.2 ⟨cause, l, if_pos hc, H⟩

section Rows

variable {Q : Unit → Unit → Local D → Shared → Prop}

/-- The end of `wake_up`. -/
theorem may_begin (hd : Ends (DrvOp.step bus) begin l.driver 0 d)
    (H : Q () () { l with
      bridgeOn := true
      driver := d
      user := { l.user with wakeup_completed_flag := 1 } } h) :
    may (firmware bus) blind (do
      own .GPIO_PinOutSet
      let status ← ads1220 begin
      (if status = 0 then own (.wr .wakeup_completed_flag 1) else pure ())
      pure ()) Q () l h := by
  simp only [acts_pin_set.may .blind]
  refine (may_ads1220 .blind).2 ⟨0, d, hd, ?_⟩
  simp only [if_true, (acts_wr _).may .blind, ne_eq, reduceCtorEq, not_false_eq_true, may_pure]
  exact H

theorem may_wake_up (cause : UInt32) (hc : decide (cause &&& EMU_RSTCAUSE_EM4 ≠ 0) = l.em4Reset)
    (H : may (firmware bus) blind (do
      set_mode cause
      own .GPIO_PinOutSet
      let status ← ads1220 begin
      (if status = 0 then own (.wr .wakeup_completed_flag 1) else pure ())
      pure ()) Q () (roused l) h) : may (firmware bus) blind (row .WAKING_UP wake_up) Q () l h := by
  simp only [row, wake_up, bind_assoc, may_wr_current_state, may_enter, (acts_wr _).may .blind,
    acts_disable_pin.may .blind, acts_unlatch.may .blind, ne_eq, reduceCtorEq, not_false_eq_true]
  refine may_resetCause hc ?_
  simp only [acts_clear_cause.may .blind]
  exact H

/-- After EM4, the mode is set by the wake-up source. -/
theorem set_mode_em4 : set_mode EMU_RSTCAUSE_EM4 = (do
    let wakeupTimer ← shr .rd_wakeupTimer
    if wakeupTimer = 1 then do
      shr (.wr .change_mode_flag 0)
      shr (.wr_wakeupTimer 0)
    else shr (.wr .change_mode_flag 1)) := if_pos (by decide)

end Rows

theorem can_power_up (hs : l.current_state = states.SLEEPING) (hw : l.user.wakeup_timer_flag = 1)
    (hr : l.em4Reset = false) (hd : Ends (DrvOp.step bus) begin l.driver 0 d) : Can bus l h (woken l d) h := by
  refine ((fire_sleeping hs hw).may .blind _ _ _).2 (may_wake_up 0 (by rw [hr]; decide) ?_)
  exact may_begin (by exact hd) ⟨rfl, rfl⟩

theorem can_pin_wake (hs : l.current_state = states.SLEEPING) (hw : l.user.wakeup_timer_flag = 1)
    (hr : l.em4Reset = true) (ht : h.wakeupTimer ≠ 1) (hd : Ends (DrvOp.step bus) begin l.driver 0 d) :
    Can bus l h (woken l d) { h with change_mode_flag := 1 } := by
  refine ((fire_sleeping hs hw).may .blind _ _ _).2 (may_wake_up EMU_RSTCAUSE_EM4 (by rw [hr]; decide) ?_)
  rw [set_mode_em4, bind_assoc]
  refine may_rd_wakeupTimer.2 ?_
  simp only [ht, if_false, may_wr]
  exact may_begin (by exact hd) ⟨rfl, rfl⟩

theorem can_timer_wake (hs : l.current_state = states.SLEEPING) (hw : l.user.wakeup_timer_flag = 1)
    (hr : l.em4Reset = true) (ht : h.wakeupTimer = 1) (hd : Ends (DrvOp.step bus) begin l.driver 0 d) :
    Can bus l h (woken l d) { h with change_mode_flag := 0, wakeupTimer := 0 } := by
  refine ((fire_sleeping hs hw).may .blind _ _ _).2 (may_wake_up EMU_RSTCAUSE_EM4 (by rw [hr]; decide) ?_)
  rw [set_mode_em4, bind_assoc]
  refine may_rd_wakeupTimer.2 ?_
  simp only [ht, if_true, bind_assoc, may_wr, may_wr_wakeupTimer]
  exact may_begin (by exact hd) ⟨rfl, rfl⟩

/-- `ask_for_next_data` with a conversion, from `l₀`. -/
theorem may_ask {l₀ : Local D} {d₁ d₂ : Driver D} (hn : l₀.user.num_data_retrieved < 4)
    (hd₁ : Ends (DrvOp.step bus) temp_sense_on l₀.driver () d₁) (hd₂ : Ends (DrvOp.step bus) start_conv d₁ () d₂) :
    may (firmware bus) blind (row .ASKING_FOR_DATA ask_for_next_data)
      (fun _ _ l₂ h₂ => l₂ = asked l₀ d₂ ∧ h₂ = { h with data_ready_flag := 0 }) () l₀ h := by
  simp only [row, ask_for_next_data, bind_assoc, may_wr_current_state, may_enter, (acts_wr _).may .blind,
    ne_eq, reduceCtorEq, not_false_eq_true, may_wr]
  refine (acts_rd_num.may .blind _ _ _).2 ?_
  have sample : may (firmware bus) blind (ask_for_sample >>= pure)
      (fun _ _ l₂ h₂ => l₂ = asked l₀ d₂ ∧ h₂ = { h with data_ready_flag := 0 }) () (asking l₀)
      { h with data_ready_flag := 0 } := by
    simp only [ask_for_sample, bind_assoc, acts_pin_clear.may .blind]
    refine (may_ads1220 .blind).2 ⟨(), d₁, hd₁, ?_⟩
    simp only [may_enter]
    exact (may_ads1220 .blind).2 ⟨(), d₂, hd₂, rfl, rfl⟩
  by_cases h3 : l₀.user.num_data_retrieved < 3
  · rw [if_pos (by exact h3)]
    exact sample
  · have hn3 : l₀.user.num_data_retrieved = 3 := by omega
    rw [if_neg (by exact h3), if_pos (by exact hn3)]
    exact sample

theorem can_ask {l₀ : Local D} {d₁ d₂ : Driver D}
    (hs : l.current_state = states.WAKING_UP ∧ l.user.wakeup_completed_flag = 1 ∧ l₀ = l ∨
      l.current_state = states.RETRIEVING_DATA ∧ l₀ = counted l)
    (hn : l₀.user.num_data_retrieved < 4) (hd₁ : Ends (DrvOp.step bus) temp_sense_on l.driver () d₁)
    (hd₂ : Ends (DrvOp.step bus) start_conv d₁ () d₂) :
    Can bus l h (asked l₀ d₂) { h with data_ready_flag := 0 } := by
  obtain ⟨hs, hw, rfl⟩ | ⟨hs, rfl⟩ := hs
  · exact ((fire_waking_up hs hw).may .blind _ _ _).2 (may_ask hn hd₁ hd₂)
  · exact ((fire_retrieving hs).may .blind _ _ _).2 (may_ask hn hd₁ hd₂)

theorem can_ask_all (hs : l.current_state = states.RETRIEVING_DATA) (hn : l.user.num_data_retrieved = 3) :
    Can bus l h (asking (counted l)) { h with data_ready_flag := 0 } := by
  refine ((fire_retrieving hs).may .blind _ _ _).2 ?_
  simp only [row, ask_for_next_data, bind_assoc, may_wr_current_state, may_enter, (acts_wr _).may .blind,
    ne_eq, reduceCtorEq, not_false_eq_true, may_wr]
  refine (acts_rd_num.may .blind _ _ _).2 ?_
  -- with four samples neither branch asks for another
  have h4 : (counted l).user.num_data_retrieved = 4 := by
    simp only [counted, hn]
    rfl
  have hlt : ¬ (counted l).user.num_data_retrieved < 3 := by omega
  have hne : ¬ (counted l).user.num_data_retrieved = 3 := by omega
  rw [if_neg (by exact hlt), if_neg (by exact hne)]
  exact ⟨rfl, rfl⟩

theorem can_retrieve {v : BitVec 32} (hs : l.current_state = states.ASKING_FOR_DATA)
    (hn : l.user.num_data_retrieved < 4) (hr : h.data_ready_flag ≠ 0)
    (hd : Ends (DrvOp.step bus) read_data_samples l.driver v d)
    (hw : (MainOp.wr_sensor_data l.user.num_data_retrieved v).step () { retrieving l with driver := d } = some l') :
    Can bus l h l' { h with data_ready_flag := 0 } := by
  refine ((fire_asking hs hn.ne).may .blind _ _ _).2 ((may_rd .blind).2 ?_)
  rw [if_pos (by exact hr)]
  simp only [row, retrieve_data, bind_assoc, may_wr_current_state, may_enter, (acts_wr _).may .blind,
    ne_eq, reduceCtorEq, not_false_eq_true, may_wr]
  refine (acts_rd_num.may .blind _ _ _).2 ((may_ads1220 .blind).2 ⟨v, d, hd, ?_⟩)
  exact may_own.2 ⟨(), l', hw, rfl, rfl⟩

theorem can_ask_again (hs : l.current_state = states.SENDING_DATA) (hd : l.user.data_sent_flag ≠ 0)
    (hm : h.change_mode_flag ≠ 0) : Can bus l h (again l) h := by
  refine ((fire_sending hs hd).may .blind _ _ _).2 ((may_rd .blind).2 ?_)
  rw [if_pos (by exact hm)]
  simp only [row, ask_again, bind_assoc, may_wr_current_state, may_enter, may_wr_data_sent,
    (acts_wr _).may .blind, ne_eq, reduceCtorEq, not_false_eq_true]
  exact ⟨rfl, rfl⟩

theorem can_try_to_sleep (hs : l.current_state = states.SENDING_DATA) (hd : l.user.data_sent_flag ≠ 0)
    (hm : h.change_mode_flag = 0) (ht : h.timerRunning = false) :
    Can bus l h (sleepy l) { h with timerRunning := true } := by
  refine ((fire_sending hs hd).may .blind _ _ _).2 ((may_rd .blind).2 ?_)
  rw [if_neg (by simpa using hm)]
  refine (may_rd .blind).2 ?_
  rw [if_pos (by exact hm)]
  simp only [row, try_to_sleep, bind_assoc, may_wr_current_state, may_enter, may_wr_data_sent]
  refine (may_timer_running .blind).2 ?_
  simp only [start_timer, ht, Bool.false_eq_true, if_false, bind_assoc]
  have hstart : (ShrOp.sl_sleeptimer_start_timer 20000).step SL_STATUS_OK (drowsy l) h =
      some (drowsy l, { h with timerRunning := true }) := by
    simp only [ShrOp.step, ht, Bool.false_eq_true, if_false, if_true]
  refine may_shr.2 ⟨SL_STATUS_OK, _, _, hstart, ?_⟩
  simp only [pure_bind, (acts_wr _).may .blind, ne_eq, reduceCtorEq, not_false_eq_true]
  exact ⟨rfl, rfl⟩

theorem can_reset_no_timer (ads : ads1220_t) (hs : l.current_state = states.TO_SLEEP)
    (hp : l.user.sleep_possible_flag ≠ 0) (hm : h.change_mode_flag ≠ 0) :
    Can bus l h (new_app_fsm l.user.nConnections l.em4PinWakeup true ads l.driver.dev).1
      (new_app_fsm l.user.nConnections l.em4PinWakeup true ads l.driver.dev).2 := by
  refine ((fire_to_sleep hs hp).may .blind _ _ _).2 ((may_rd .blind).2 ?_)
  rw [if_neg (by exact hm)]
  refine (may_rd .blind).2 ?_
  rw [if_pos (by exact hm)]
  simp only [row, reset_no_timer, bind_assoc, may_wr_current_state, may_enter, (acts_wr _).may .blind,
    ne_eq, reduceCtorEq, not_false_eq_true, may_wr]
  exact may_stop.2 ⟨SL_STATUS_OK, may_EM4.2 ⟨ads, rfl, rfl⟩⟩

/-- The loop of `reset_timer_sleep`. -/
theorem may_close_connections {k : Unit → AppM Unit} {Q : Unit → Unit → Local D → Shared → Prop} {n i : ℕ}
    {es : List (Made Op.Resp (Local D))} (hes : Closes l n i es) (H : may (firmware bus) blind (k ()) Q () l h) :
    may (firmware bus) blind (close_connections n i >>= k) Q () l h := by
  induction n generalizing i es with
  | zero => simpa [close_connections] using H
  | succ n ih =>
    obtain ⟨c, sc, es', hc, -, hes⟩ := hes
    simp only [close_connections, bind_assoc]
    refine may_own.2 ⟨c, l, ?_, may_ble.2 ⟨sc, ih hes⟩⟩
    simp only [MainOp.step]
    split
    · rw [if_pos (hc ‹_›)]
    · rfl

theorem can_reset_timer_sleep {ads : ads1220_t} {es : List (Made Op.Resp (Local D))}
    (hs : l.current_state = states.TO_SLEEP) (hp : l.user.sleep_possible_flag ≠ 0) (hm : h.change_mode_flag = 0)
    (ht : h.tmr_flag ≠ 0) (hes : Closes (resetting l) l.user.nConnections.val 0 es) :
    Can bus l h (new_app_fsm l.user.nConnections true true ads l.driver.dev).1
      (new_app_fsm l.user.nConnections true true ads l.driver.dev).2 := by
  refine ((fire_to_sleep hs hp).may .blind _ _ _).2 ((may_rd .blind).2 ?_)
  rw [if_pos (by exact hm)]
  refine (may_rd .blind).2 ?_
  rw [if_pos (by exact ht)]
  simp only [row, reset_timer_sleep, bind_assoc, may_wr_current_state, may_enter, (acts_wr _).may .blind,
    ne_eq, reduceCtorEq, not_false_eq_true, may_wr]
  refine may_stop.2 ⟨SL_STATUS_OK, (acts_rd_nConnections_ptr.may .blind _ _ _).2 (may_close_connections hes ?_)⟩
  simp only [acts_enable_pin.may .blind]
  exact may_EM4.2 ⟨ads, rfl, rfl⟩

/-- One value: two BLE calls. -/
theorem may_send_value {ch : ℕ} {p rebmun v : List UInt8} (hp : 4 ≤ p.length) (hr : rebmun.length = 4)
    (hv : (p.take 4).reverse = v) {k : sl_status_t × List UInt8 → AppM α} (sc : sl_status_t)
    (H : may (firmware bus) blind (k (sc, v)) Q () l h) :
    may (firmware bus) blind (send_value ch p 16 rebmun >>= k) Q () l h := by
  rw [send_value_eq hp (by omega) hr]
  simp only [put, bind_assoc, pure_bind]
  subst hv
  exact may_ble.2 ⟨SL_STATUS_OK, may_ble.2 ⟨sc, H⟩⟩

theorem may_publish {p : List UInt8} (hp : p.length = 16) {k : sl_status_t → AppM α} (sc : sl_status_t)
    (H : may (firmware bus) blind (k sc) Q () l h) :
    may (firmware bus) blind (sl_bt_torque_send_data p 16 >>= k) Q () l h := by
  simp only [sl_bt_torque_send_data, bind_assoc, may_enter, pure_bind, List.drop_drop]
  refine may_send_value (v := chunk p 0) (by simp [hp]) rfl rfl SL_STATUS_OK ?_
  refine may_send_value (v := chunk p 1) (by simp [hp]) (chunk_length (by omega)) rfl SL_STATUS_OK ?_
  refine may_send_value (v := chunk p 2) (by simp [hp]) (chunk_length (by omega)) rfl SL_STATUS_OK ?_
  exact may_send_value (v := chunk p 3) (by simp [hp]) (chunk_length (by omega)) rfl sc H

/-- `power_down_interface_send_data`, up to the status `sc` of the last notification. -/
theorem may_send (sc : sl_status_t) {Q : Unit → Unit → Local D → Shared → Prop}
    (hd : Ends (DrvOp.step bus) temp_sense_off l.driver () d)
    (H : may (firmware bus) blind (do
      (if sc = SL_STATUS_OK then own (.wr .data_sent_flag 1) else pure ())
      pure ()) Q () (sending l d) h) :
    may (firmware bus) blind (row .SENDING_DATA power_down_interface_send_data) Q () l h := by
  simp only [row, power_down_interface_send_data, bind_assoc, may_wr_current_state, may_enter, acts_wr_num.may .blind]
  refine (may_ads1220 .blind).2 ⟨(), d, hd, ?_⟩
  refine (acts_rd_sensor.may .blind _ _ _).2 ?_
  refine (acts_rd_sensor.may .blind _ _ _).2 ?_
  refine (acts_rd_sensor.may .blind _ _ _).2 ?_
  refine (acts_rd_sensor.may .blind _ _ _).2 ?_
  exact may_publish (p := samples l) samples_length sc H

theorem can_send_ok (hs : l.current_state = states.ASKING_FOR_DATA) (hn : l.user.num_data_retrieved = 4)
    (hd : Ends (DrvOp.step bus) temp_sense_off l.driver () d) :
    Can bus l h { sending l d with user := { (sending l d).user with data_sent_flag := 1 } } h := by
  refine ((fire_asking_all hs hn).may .blind _ _ _).2 (may_send SL_STATUS_OK hd ?_)
  simp only [if_true, may_wr_data_sent]
  exact ⟨rfl, rfl⟩

theorem can_send_failed {sc : sl_status_t} (hs : l.current_state = states.ASKING_FOR_DATA)
    (hn : l.user.num_data_retrieved = 4) (hd : Ends (DrvOp.step bus) temp_sense_off l.driver () d)
    (hk : sc ≠ SL_STATUS_OK) : Can bus l h (sending l d) h := by
  refine ((fire_asking_all hs hn).may .blind _ _ _).2 (may_send sc hd ?_)
  simp only [hk, if_false]
  exact ⟨rfl, rfl⟩

end M20Strain
