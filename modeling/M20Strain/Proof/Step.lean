import M20Strain.Proof.Fire
import M20Strain.Proof.Invariant
import M20Strain.Proof.Publish

/-!
# One `fsm_fire` under interrupts

`Fired` is everything one `app_process_action` can do from a state that satisfies
the invariant: one constructor for each way through a row, with the calls it
makes in order and the handlers between them. `wp_fired` proves that it is
everything, and `wp_reacted` does the same for the Bluetooth events.
-/

namespace M20Strain

open Interrupt Prog

variable {D : Type}

/-- `wake_up`, when it looks at the reset cause. -/
def roused (l : Local D) : Local D :=
  { l with
    current_state := states.WAKING_UP
    user := { l.user with wakeup_timer_flag := 0 }
    em4PinWakeup := false
    em4Reset := false }

/-- `wake_up`, with the driver left in `d`. -/
def woken (l : Local D) (d : Driver D) : Local D :=
  { roused l with
    user := { l.user with wakeup_timer_flag := 0, wakeup_completed_flag := 1 }
    bridgeOn := true
    driver := d }

/-- `ask_for_next_data`, before it starts a conversion. -/
def asking (l : Local D) : Local D :=
  { l with
    current_state := states.ASKING_FOR_DATA
    user := { l.user with wakeup_completed_flag := 0, data_retrieved_flag := 0 } }

/-- `ask_for_next_data` during the conversion start. -/
def asked (l : Local D) (d : Driver D) : Local D := { asking l with bridgeOn := false, driver := d }

/-- `retrieve_data`, before it reads the sample. -/
def retrieving (l : Local D) : Local D :=
  { l with
    current_state := states.RETRIEVING_DATA
    user := { l.user with data_retrieved_flag := 0 } }

/-- `power_down_interface_send_data`, while it publishes. -/
def sending (l : Local D) (d : Driver D) : Local D :=
  { l with
    current_state := states.SENDING_DATA
    user := { l.user with num_data_retrieved := 0 }
    driver := d }

/-- `ask_again`. -/
def again (l : Local D) : Local D :=
  { l with
    current_state := states.WAKING_UP
    user := { l.user with data_sent_flag := 0, wakeup_completed_flag := 1 } }

/-- `try_to_sleep`, before it looks at the timer. -/
def drowsy (l : Local D) : Local D :=
  { l with
    current_state := states.TO_SLEEP
    user := { l.user with data_sent_flag := 0 } }

/-- `try_to_sleep`. -/
def sleepy (l : Local D) : Local D :=
  { drowsy l with user := { l.user with data_sent_flag := 0, sleep_possible_flag := 1 } }

/-- `reset_timer_sleep` and `reset_no_timer`, before they arm the pin or enter EM4. -/
def resetting (l : Local D) : Local D :=
  { l with
    current_state := states.SLEEPING
    user := { l.user with sleep_possible_flag := 0 } }

/-- The same state with another number in `current_state`. -/
def moved (l : Local D) (s : states) : Local D := { l with current_state := s }

/-- The first two calls of every row. -/
def start (s : states) (f : Routine) (l : Local D) : List (Made Op.Resp (Local D)) :=
  [did (.wr_current_state s) () l, did (.enter f) () (moved l s)]

/-- The packet of the four samples in memory. -/
def samples (l : Local D) : List UInt8 := packet (List.ofFn l.user.sensor_data)

/-- `n` iterations of the loop of `reset_timer_sleep` from index `i`: inside the array
the handle closed is the one in the table. -/
def Closes (l : Local D) : ℕ → ℕ → List (Made Op.Resp (Local D)) → Prop
  | 0, _, es => es = []
  | n + 1, i, es => ∃ c sc es', (∀ hi : i < 10, c = l.connections ⟨i, hi⟩) ∧
      es = did (.ble (.sl_bt_connection_close c)) sc l :: es' ∧ Closes l n (i + 1) es'

theorem Closes.mem {n i : ℕ} {l : Local D} {es : List (Made Op.Resp (Local D))} (hes : Closes l n i es) :
    ∀ e ∈ es, ∃ c sc, e = did (.ble (.sl_bt_connection_close c)) sc l := by
  induction n generalizing i es with
  | zero => rw [show es = [] from hes]; exact fun _ he => absurd he List.not_mem_nil
  | succ n ih =>
    obtain ⟨c, sc, es', -, rfl, hes⟩ := hes
    intro e he
    rcases List.mem_cons.1 he with rfl | he
    · exact ⟨c, sc, rfl⟩
    · exact ih hes e he

variable (bus : SpiBus D) {G : Type} (μ : G → Event D → G)

/-- **What one `fsm_fire` can do** from monitor `g` and state `(l, h)`. Calls on shared
state are written out, the calls between them are in `Calls`. -/
inductive Fired (g : G) (l : Local D) (h : Shared) : G → Local D → Shared → Prop where
  | stay {g' h'} (s : states) (hs : l.current_state = s)
      (ht : s = .ASKING_FOR_DATA ∨ s = .SENDING_DATA ∨ s = .TO_SLEEP)
      (hi : Irqs (firmware bus) μ g h g' h') : Fired g l h g' l h'
  | power_up {d g' h'} (hs : l.current_state = states.SLEEPING) (hr : l.em4Reset = false)
      (hd : Ends (DrvOp.step bus) begin l.driver 0 d)
      (hc : Calls (firmware bus) μ (start .WAKING_UP .wake_up l) g h g' h') : Fired g l h g' (woken l d) h'
  | pin_wake {d g₁ h₁ g₂ h₂ g' h'} (hs : l.current_state = states.SLEEPING) (hr : l.em4Reset = true)
      (hd : Ends (DrvOp.step bus) begin l.driver 0 d)
      (hc : Calls (firmware bus) μ (start .WAKING_UP .wake_up l) g h g₁ h₁) (hw : h₁.wakeupTimer ≠ 1)
      (hi : Irqs (firmware bus) μ (μ g₁ (.call (.shr .rd_wakeupTimer) h₁.wakeupTimer (roused l) h₁)) h₁ g₂ h₂)
      (hi' : Irqs (firmware bus) μ (μ g₂ (.call (.shr (.wr .change_mode_flag 1)) () (roused l) h₂))
        { h₂ with change_mode_flag := 1 } g' h') : Fired g l h g' (woken l d) h'
  | timer_wake {d g₁ h₁ g₂ h₂ g₃ h₃ g' h'} (hs : l.current_state = states.SLEEPING) (hr : l.em4Reset = true)
      (hd : Ends (DrvOp.step bus) begin l.driver 0 d)
      (hc : Calls (firmware bus) μ (start .WAKING_UP .wake_up l) g h g₁ h₁) (hw : h₁.wakeupTimer = 1)
      (hi : Irqs (firmware bus) μ (μ g₁ (.call (.shr .rd_wakeupTimer) h₁.wakeupTimer (roused l) h₁)) h₁ g₂ h₂)
      (hi₂ : Irqs (firmware bus) μ (μ g₂ (.call (.shr (.wr .change_mode_flag 0)) () (roused l) h₂))
        { h₂ with change_mode_flag := 0 } g₃ h₃)
      (hi₃ : Irqs (firmware bus) μ (μ g₃ (.call (.shr (.wr_wakeupTimer 0)) () (roused l) h₃))
        { h₃ with wakeupTimer := 0 } g' h') : Fired g l h g' (woken l d) h'
  | ask {l₀ d₁ d₂ g₁ h₁ g' h'}
      (hs : l.current_state = states.WAKING_UP ∧ l₀ = l ∨
        l.current_state = states.RETRIEVING_DATA ∧ l₀ = counted l)
      (hn : l₀.user.num_data_retrieved < 4)
      (hd₁ : Ends (DrvOp.step bus) temp_sense_on l.driver () d₁)
      (hd₂ : Ends (DrvOp.step bus) start_conv d₁ () d₂)
      (hc : Calls (firmware bus) μ (start .ASKING_FOR_DATA .ask_for_next_data l₀) g h g₁ h₁)
      (hc' : Calls (firmware bus) μ [did (.enter .start_conv) () (asked l₀ d₁)]
        (μ g₁ (.call (.shr (.wr .data_ready_flag 0)) () (asking l₀) h₁)) { h₁ with data_ready_flag := 0 }
        g' h') : Fired g l h g' (asked l₀ d₂) h'
  | ask_all {g₁ h₁ g' h'} (hs : l.current_state = states.RETRIEVING_DATA)
      (hn : l.user.num_data_retrieved = 3)
      (hc : Calls (firmware bus) μ (start .ASKING_FOR_DATA .ask_for_next_data (counted l)) g h g₁ h₁)
      (hi : Irqs (firmware bus) μ
        (μ g₁ (.call (.shr (.wr .data_ready_flag 0)) () (asking (counted l)) h₁))
        { h₁ with data_ready_flag := 0 } g' h') : Fired g l h g' (asking (counted l)) h'
  | retrieve {v d l' g₁ h₁ g₂ h₂ g' h'} (hs : l.current_state = states.ASKING_FOR_DATA)
      (hn : l.user.num_data_retrieved < 4)
      (hi : Irqs (firmware bus) μ g h g₁ h₁) (hr : h₁.data_ready_flag ≠ 0)
      (hc : Calls (firmware bus) μ (start .RETRIEVING_DATA .retrieve_data l) g₁ h₁ g₂ h₂)
      (hd : Ends (DrvOp.step bus) read_data_samples l.driver v d)
      (hw : (MainOp.wr_sensor_data l.user.num_data_retrieved v).step ()
        { retrieving l with driver := d } = some l')
      (hc' : Calls (firmware bus) μ
        [did (.wr_sensor_data l.user.num_data_retrieved v) () { retrieving l with driver := d }]
        (μ g₂ (.call (.shr (.wr .data_ready_flag 0)) () (moved l .RETRIEVING_DATA) h₂))
        { h₂ with data_ready_flag := 0 } g' h') : Fired g l h g' l' h'
  | send_ok {d g' h'} (s : Fin 8 → sl_status_t) (hs : l.current_state = states.ASKING_FOR_DATA)
      (hn : l.user.num_data_retrieved = 4) (hd : Ends (DrvOp.step bus) temp_sense_off l.driver () d)
      (hk : s 7 = SL_STATUS_OK)
      (hc : Calls (firmware bus) μ (start .SENDING_DATA .power_down_interface_send_data l ++
        published (samples l) s (sending l d) ++ [did (.wr .data_sent_flag 1) () (sending l d)]) g h g' h') :
      Fired g l h g' { sending l d with user := { (sending l d).user with data_sent_flag := 1 } } h'
  | send_failed {d g' h'} (s : Fin 8 → sl_status_t) (hs : l.current_state = states.ASKING_FOR_DATA)
      (hn : l.user.num_data_retrieved = 4) (hd : Ends (DrvOp.step bus) temp_sense_off l.driver () d)
      (hk : s 7 ≠ SL_STATUS_OK)
      (hc : Calls (firmware bus) μ (start .SENDING_DATA .power_down_interface_send_data l ++
        published (samples l) s (sending l d)) g h g' h') : Fired g l h g' (sending l d) h'
  | ask_again {g₁ h₁ g' h'} (hs : l.current_state = states.SENDING_DATA)
      (hd : l.user.data_sent_flag ≠ 0) (hi : Irqs (firmware bus) μ g h g₁ h₁) (hm : h₁.change_mode_flag ≠ 0)
      (hc : Calls (firmware bus) μ (start .WAKING_UP .ask_again l ++
        [did (.wr .data_sent_flag 0) () (moved l .WAKING_UP)]) g₁ h₁ g' h') : Fired g l h g' (again l) h'
  | try_to_sleep {g₁ h₁ g₂ h₂ g' h'} (hs : l.current_state = states.SENDING_DATA)
      (hd : l.user.data_sent_flag ≠ 0) (hi : Irqs (firmware bus) μ g h g₁ h₁) (hm : h₁.change_mode_flag = 0)
      (hc : Calls (firmware bus) μ (start .TO_SLEEP .try_to_sleep l ++
        [did (.wr .data_sent_flag 0) () (moved l .TO_SLEEP)]) g₁ h₁ g₂ h₂)
      (hr : h₂.timerRunning = false)
      (hi' : Irqs (firmware bus) μ
        (μ g₂ (.call (.shr (.sl_sleeptimer_start_timer 20000)) SL_STATUS_OK (drowsy l) h₂))
        { h₂ with timerRunning := true } g' h') : Fired g l h g' (sleepy l) h'
  | reset_timer_sleep {g₁ h₁ g₂ h₂ g₃ h₃ g₄ h₄ g₅ h₅ g' h'} {sc : sl_status_t} {ads es}
      (hs : l.current_state = states.TO_SLEEP)
      (hi₁ : Irqs (firmware bus) μ g h g₁ h₁) (hm : h₁.change_mode_flag = 0)
      (hi₂ : Irqs (firmware bus) μ g₁ h₁ g₂ h₂) (ht : h₂.tmr_flag ≠ 0)
      (hc : Calls (firmware bus) μ (start .SLEEPING .reset_timer_sleep l) g₂ h₂ g₃ h₃)
      (hi₃ : Irqs (firmware bus) μ (μ g₃ (.call (.shr (.wr .tmr_flag 0)) () (resetting l) h₃))
        { h₃ with tmr_flag := 0 } g₄ h₄)
      (hes : Closes (resetting l) l.user.nConnections.val 0 es)
      (hc' : Calls (firmware bus) μ es (μ g₄ (.call (.shr .sl_sleeptimer_stop_timer) sc (resetting l) h₄))
        { h₄ with timerRunning := false } g₅ h₅)
      (hi : Irqs (firmware bus) μ
        (μ g₅ (.call (.shr .EMU_EnterEM4) ads { resetting l with em4PinWakeup := true } h₅))
        (new_app_fsm l.user.nConnections true true ads l.driver.dev).2 g' h') :
      Fired g l h g' (new_app_fsm l.user.nConnections true true ads l.driver.dev).1 h'
  | reset_no_timer {g₁ h₁ g₂ h₂ g₃ h₃ g₄ h₄ g' h'} {sc : sl_status_t} {ads}
      (hs : l.current_state = states.TO_SLEEP)
      (hi₁ : Irqs (firmware bus) μ g h g₁ h₁) (hm : h₁.change_mode_flag ≠ 0)
      (hc : Calls (firmware bus) μ (start .SLEEPING .reset_no_timer l) g₁ h₁ g₂ h₂)
      (hi₂ : Irqs (firmware bus) μ (μ g₂ (.call (.shr (.wr .tmr_flag 0)) () (resetting l) h₂))
        { h₂ with tmr_flag := 0 } g₃ h₃)
      (hi₃ : Irqs (firmware bus) μ (μ g₃ (.call (.shr .sl_sleeptimer_stop_timer) sc (resetting l) h₃))
        { h₃ with timerRunning := false } g₄ h₄)
      (hi : Irqs (firmware bus) μ (μ g₄ (.call (.shr .EMU_EnterEM4) ads (resetting l) h₄))
        (new_app_fsm l.user.nConnections l.em4PinWakeup true ads l.driver.dev).2 g' h') :
      Fired g l h g' (new_app_fsm l.user.nConnections l.em4PinWakeup true ads l.driver.dev).1 h'

variable {bus μ} {g : G} {l : Local D} {h : Shared}

/-- `begin` can only return 0. -/
theorem begin_ends {d d' : Driver D} {r : Int} (he : Ends (DrvOp.step bus) begin d r d') : r = 0 := by
  simp only [begin, Ends.bind_iff, pure_eq, Ends.ret_iff] at he
  grind

/-- The end of `wake_up`. -/
theorem after_begin (hμ : Quiet μ) {es : List (Made Op.Resp (Local D))} {Q : Unit → G → Local D → Shared → Prop}
    (H : ∀ d g' h', Ends (DrvOp.step bus) begin l.driver 0 d → Calls (firmware bus) μ es g h g' h' →
      Q () g' { l with bridgeOn := true, driver := d, user := { l.user with wakeup_completed_flag := 1 } } h') :
    wpAfter (firmware bus) μ es g h (do
      own .GPIO_PinOutSet
      let status ← ads1220 begin
      (if status = 0 then own (.wr .wakeup_completed_flag 1) else pure ())
      pure ()) Q l := by
  simp only [acts_pin_set.wpAfter hμ]
  refine (after_ads1220 hμ).2 fun b d he => ?_
  obtain rfl := begin_ends he
  simp only [if_true, (acts_wr _).wpAfter hμ, ne_eq, reduceCtorEq, not_false_eq_true, after_pure]
  exact fun g' h' hc => H d g' h' he hc

theorem row_wake_up (hμ : Quiet μ) (hs : l.current_state = states.SLEEPING) :
    wp (firmware bus) μ (row .WAKING_UP wake_up) (fun _ => Fired bus μ g l h) g l h := by
  rw [wp_iff_wpAfter]
  simp only [row, wake_up, bind_assoc, after_wr_current_state, after_enter, (acts_wr _).wpAfter hμ,
    acts_disable_pin.wpAfter hμ, acts_unlatch.wpAfter hμ, ne_eq, reduceCtorEq, not_false_eq_true]
  refine (after_resetCause hμ).2 fun cause hr => ?_
  simp only [acts_clear_cause.wpAfter hμ]
  by_cases hc : cause &&& EMU_RSTCAUSE_EM4 = 0
  · simp only [set_mode, hc, ne_eq, not_true_eq_false, if_false, pure_bind]
    exact after_begin hμ fun d g' h' he hc' => .power_up hs (by simpa [hc] using hr.symm) he hc'
  have hr' : l.em4Reset = true := by simpa [hc] using hr.symm
  simp only [set_mode, hc, ne_eq, not_false_eq_true, if_true, bind_assoc, ite_bind]
  refine after_rd_wakeupTimer.2 fun g₁ h₁ hc₁ => ?_
  by_cases hw : h₁.wakeupTimer = 1
  · simp only [hw, if_true, after_wr, after_wr_wakeupTimer]
    intro g₂ h₂ hi₂ g₃ h₃ hi₃
    exact after_begin hμ fun d g' h' he hi' => .timer_wake hs hr' he hc₁ hw (hw ▸ hi₂) hi₃ hi'
  · simp only [hw, if_false, after_wr]
    intro g₂ h₂ hi₂
    exact after_begin hμ fun d g' h' he hi' => .pin_wake hs hr' he hc₁ hw hi₂ hi'

/-- `ask_for_next_data`, from `l₀`: the guard of `RETRIEVING_DATA` has changed `l` by then. -/
theorem row_ask_for_next_data (hμ : Quiet μ) {l₀ : Local D} (hd : l₀.driver = l.driver)
    (hs : l.current_state = states.WAKING_UP ∧ l₀ = l ∨
      l.current_state = states.RETRIEVING_DATA ∧ l₀ = counted l)
    (hn : l₀.user.num_data_retrieved < 4 ∨
      l.current_state = states.RETRIEVING_DATA ∧ l₀ = counted l ∧ l.user.num_data_retrieved = 3) :
    wp (firmware bus) μ (row .ASKING_FOR_DATA ask_for_next_data) (fun _ => Fired bus μ g l h) g l₀ h := by
  rw [wp_iff_wpAfter]
  simp only [row, ask_for_next_data, bind_assoc, after_wr_current_state, after_enter, (acts_wr _).wpAfter hμ,
    ne_eq, reduceCtorEq, not_false_eq_true, after_wr]
  intro g₁ h₁ hc₁
  refine (acts_rd_num.wpAfter hμ).2 ?_
  have sample : l₀.user.num_data_retrieved < 4 → wpAfter (firmware bus) μ []
      (μ g₁ (.call (.shr (.wr .data_ready_flag 0)) () (asking l₀) h₁)) { h₁ with data_ready_flag := 0 }
      (ask_for_sample >>= pure) (fun _ => Fired bus μ g l h) (asking l₀) := by
    intro hn
    simp only [ask_for_sample, bind_assoc, acts_pin_clear.wpAfter hμ]
    refine (after_ads1220 hμ).2 fun _ d₁ he₁ => ?_
    simp only [after_enter]
    refine (after_ads1220 hμ).2 fun _ d₂ he₂ => ?_
    exact after_pure.2 fun g' h' hc => .ask hs hn (hd ▸ he₁) he₂ hc₁ hc
  rcases hn with hn | ⟨hs', rfl, hn⟩
  · by_cases h3 : l₀.user.num_data_retrieved < 3
    · rw [if_pos (by exact h3)]; exact sample hn
    · rw [if_neg (by exact h3), if_pos (by exact show l₀.user.num_data_retrieved = 3 by omega)]; exact sample hn
  · have h4 : (counted l).user.num_data_retrieved = 4 := by simp only [counted, hn]; rfl
    rw [if_neg (by exact show ¬ (counted l).user.num_data_retrieved < 3 by omega),
      if_neg (by exact show ¬ (counted l).user.num_data_retrieved = 3 by omega)]
    exact after_pure.2 fun g' h' hi => .ask_all hs' hn hc₁ hi

theorem row_retrieve_data (hμ : Quiet μ) {g₁ : G} {h₁ : Shared} (hs : l.current_state = states.ASKING_FOR_DATA)
    (hn : l.user.num_data_retrieved < 4) (hi : Irqs (firmware bus) μ g h g₁ h₁) (hr : h₁.data_ready_flag ≠ 0) :
    wp (firmware bus) μ (row .RETRIEVING_DATA retrieve_data) (fun _ => Fired bus μ g l h) g₁ l h₁ := by
  rw [wp_iff_wpAfter]
  simp only [row, retrieve_data, bind_assoc, after_wr_current_state, after_enter, (acts_wr _).wpAfter hμ,
    ne_eq, reduceCtorEq, not_false_eq_true, after_wr]
  intro g₂ h₂ hc₂
  refine (acts_rd_num.wpAfter hμ).2 ((after_ads1220 hμ).2 fun v d he => ?_)
  refine after_own.2 fun _ l' hw => after_pure.2 fun g' h' hc => ?_
  exact .retrieve hs hn hi hr hc₂ he hw hc

theorem samples_length : (samples l).length = 16 := by simp [samples, packet, float_bytes]

/-- The calls of `power_down_interface_send_data`, up to the status of the last one. -/
def publishing (l : Local D) (d : Driver D) (s : Fin 8 → sl_status_t) : List (Made Op.Resp (Local D)) :=
  start .SENDING_DATA .power_down_interface_send_data l ++ published (samples l) s (sending l d)

/-- `power_down_interface_send_data` publishes, and looks at the last status only. -/
theorem wp_send (hμ : Quiet μ) {Q : G → Local D → Shared → Prop}
    (hok : ∀ s d g' h', Ends (DrvOp.step bus) temp_sense_off l.driver () d → s 7 = SL_STATUS_OK →
      Calls (firmware bus) μ (publishing l d s ++ [did (.wr .data_sent_flag 1) () (sending l d)]) g h g' h' →
      Q g' { sending l d with user := { (sending l d).user with data_sent_flag := 1 } } h')
    (hfail : ∀ s d g' h', Ends (DrvOp.step bus) temp_sense_off l.driver () d → s 7 ≠ SL_STATUS_OK →
      Calls (firmware bus) μ (publishing l d s) g h g' h' → Q g' (sending l d) h') :
    wp (firmware bus) μ (row .SENDING_DATA power_down_interface_send_data) (fun _ => Q) g l h := by
  rw [wp_iff_wpAfter]
  simp only [row, power_down_interface_send_data, bind_assoc, after_wr_current_state, after_enter,
    acts_wr_num.wpAfter hμ]
  refine (after_ads1220 hμ).2 fun _ d he => ?_
  refine (acts_rd_sensor.wpAfter hμ).2 ?_
  refine (acts_rd_sensor.wpAfter hμ).2 ?_
  refine (acts_rd_sensor.wpAfter hμ).2 ?_
  refine (acts_rd_sensor.wpAfter hμ).2 ?_
  refine after_publish (p := samples l) samples_length fun s => ?_
  -- of the eight statuses only the last is returned
  by_cases hk : s 7 = SL_STATUS_OK
  · simp only [hk, if_true, after_wr_data_sent, after_pure]
    exact fun g' h' hc => hok s d g' h' he hk hc
  · simp only [hk, if_false, pure_bind, after_pure]
    exact fun g' h' hc => hfail s d g' h' he hk hc

theorem row_send (hμ : Quiet μ) (hs : l.current_state = states.ASKING_FOR_DATA)
    (hn : l.user.num_data_retrieved = 4) :
    wp (firmware bus) μ (row .SENDING_DATA power_down_interface_send_data) (fun _ => Fired bus μ g l h) g l h :=
  wp_send hμ (fun s _ _ _ hd hk hc => .send_ok s hs hn hd hk hc) fun s _ _ _ hd hk hc => .send_failed s hs hn hd hk hc

theorem row_ask_again {g₁ : G} {h₁ : Shared} (hμ : Quiet μ) (hs : l.current_state = states.SENDING_DATA)
    (hd : l.user.data_sent_flag ≠ 0) (hi : Irqs (firmware bus) μ g h g₁ h₁) (hm : h₁.change_mode_flag ≠ 0) :
    wp (firmware bus) μ (row .WAKING_UP ask_again) (fun _ => Fired bus μ g l h) g₁ l h₁ := by
  rw [wp_iff_wpAfter]
  simp only [row, ask_again, bind_assoc, after_wr_current_state, after_enter, after_wr_data_sent,
    (acts_wr _).wpAfter hμ, ne_eq, reduceCtorEq, not_false_eq_true, after_pure]
  exact fun g' h' hc => .ask_again hs hd hi hm hc

/-- Handlers cannot start the timer. -/
theorem Idle.calls {es : List (Made Op.Resp (Local D))} {g' : G} {h' : Shared} (hd : Idle h)
    (hc : Calls (firmware bus) μ es g h g' h') : Idle h' :=
  hc.stable_shared (fun _ _ _ => Idle.handle) hd

theorem row_try_to_sleep {g₁ : G} {h₁ : Shared} (hμ : Quiet μ) (hs : l.current_state = states.SENDING_DATA)
    (hd : l.user.data_sent_flag ≠ 0) (hi : Irqs (firmware bus) μ g h g₁ h₁) (hm : h₁.change_mode_flag = 0)
    (ht : Idle h₁) :
    wp (firmware bus) μ (row .TO_SLEEP try_to_sleep) (fun _ => Fired bus μ g l h) g₁ l h₁ := by
  rw [wp_iff_wpAfter]
  simp only [row, try_to_sleep, bind_assoc, after_wr_current_state, after_enter, after_wr_data_sent]
  refine (after_timer_running hμ).2 fun g₂ h₂ hc₂ => ?_
  have ht₂ := ht.calls hc₂
  simp only [start_timer, ht₂.2, Bool.false_eq_true, if_false, bind_assoc]
  refine after_shr.2 fun g₃ h₃ hc₃ sc l₁ h₄ hst => ?_
  have ht₃ := ht₂.calls hc₃
  simp only [ShrOp.step, ht₃.2, Bool.false_eq_true, if_false] at hst
  split at hst
  · cases hst
    rename_i hsc
    subst hsc
    simp only [pure_bind, (acts_wr _).wpAfter hμ, ne_eq, reduceCtorEq, not_false_eq_true, after_pure]
    exact fun g' h' hi' => .try_to_sleep hs hd hi hm (hc₂.then_irqs hc₃) ht₃.2 hi'
  · cases hst

/-- The loop of `reset_timer_sleep`. -/
theorem after_close_connections (hμ : Quiet μ) {Q : Unit → G → Local D → Shared → Prop}
    {k : Unit → AppM Unit} {n i : ℕ} {es : List (Made Op.Resp (Local D))}
    (H : ∀ es', Closes l n i es' → wpAfter (firmware bus) μ (es ++ es') g h (k ()) Q l) :
    wpAfter (firmware bus) μ es g h (close_connections n i >>= k) Q l := by
  induction n generalizing i es with
  | zero => simpa [close_connections] using H [] rfl
  | succ n ih =>
    simp only [close_connections, bind_assoc]
    refine (after_quiet hμ rfl).2 fun c l₁ hc => after_ble.2 fun sc => ?_
    simp only [MainOp.step] at hc
    have hl : l₁ = l ∧ ∀ hi : i < 10, c = l.connections ⟨i, hi⟩ := by
      split at hc
      · split at hc
        · cases hc; exact ⟨rfl, fun _ => ‹_›⟩
        · cases hc
      · cases hc; exact ⟨rfl, fun hi => absurd hi ‹_›⟩
    obtain ⟨rfl, hc⟩ := hl
    refine ih fun es' hes => ?_
    simpa using H (did (.ble (.sl_bt_connection_close c)) sc l₁ :: es') ⟨c, sc, es', hc, rfl, hes⟩

theorem row_reset_timer_sleep {g₁ g₂ : G} {h₁ h₂ : Shared} (hμ : Quiet μ) (hs : l.current_state = states.TO_SLEEP)
    (hi₁ : Irqs (firmware bus) μ g h g₁ h₁) (hm : h₁.change_mode_flag = 0)
    (hi₂ : Irqs (firmware bus) μ g₁ h₁ g₂ h₂) (ht : h₂.tmr_flag ≠ 0) :
    wp (firmware bus) μ (row .SLEEPING reset_timer_sleep) (fun _ => Fired bus μ g l h) g₂ l h₂ := by
  rw [wp_iff_wpAfter]
  simp only [row, reset_timer_sleep, bind_assoc, after_wr_current_state, after_enter, (acts_wr _).wpAfter hμ,
    ne_eq, reduceCtorEq, not_false_eq_true, after_wr]
  intro g₃ h₃ hc
  refine after_stop.2 fun g₄ h₄ hi₃ sc => (acts_rd_nConnections_ptr.wpAfter hμ).2 ?_
  refine after_close_connections hμ fun es hes => ?_
  simp only [acts_enable_pin.wpAfter hμ]
  refine after_EM4.2 fun g₅ h₅ hc' ads => after_pure.2 fun g' h' hi => ?_
  exact .reset_timer_sleep hs hi₁ hm hi₂ ht hc hi₃ hes hc' hi

theorem row_reset_no_timer {g₁ : G} {h₁ : Shared} (hμ : Quiet μ) (hs : l.current_state = states.TO_SLEEP)
    (hi₁ : Irqs (firmware bus) μ g h g₁ h₁) (hm : h₁.change_mode_flag ≠ 0) :
    wp (firmware bus) μ (row .SLEEPING reset_no_timer) (fun _ => Fired bus μ g l h) g₁ l h₁ := by
  rw [wp_iff_wpAfter]
  simp only [row, reset_no_timer, bind_assoc, after_wr_current_state, after_enter, (acts_wr _).wpAfter hμ,
    ne_eq, reduceCtorEq, not_false_eq_true, after_wr]
  intro g₂ h₂ hc
  refine after_stop.2 fun g₃ h₃ hi₂ sc => after_EM4.2 fun g₄ h₄ hi₃ ads => after_pure.2 fun g' h' hi => ?_
  exact .reset_no_timer hs hi₁ hm hc hi₂ hi₃ hi

/-- No row is taken. -/
theorem stays {s : states} {g₁ : G} {h₁ : Shared} (hs : l.current_state = s)
    (ht : s = .ASKING_FOR_DATA ∨ s = .SENDING_DATA ∨ s = .TO_SLEEP) (hi : Irqs (firmware bus) μ g h g₁ h₁) :
    wp (firmware bus) μ (pure ()) (fun _ => Fired bus μ g l h) g₁ l h₁ :=
  wp_ret.2 fun _ _ hi' => .stay s hs ht (hi.trans hi')

/-- **`Fired` is everything one `fsm_fire` can do.** -/
theorem wp_fired (hμ : Quiet μ) (hI : Inv l h) :
    wp (firmware bus) μ app_process_action (fun _ => Fired bus μ g l h) g l h := by
  obtain ⟨s, hs, hf⟩ := hI
  cases s with
  | SLEEPING => exact ((fire_sleeping hs hf.wakeup_timer).wp hμ _ _ _).2 (row_wake_up hμ hs)
  | WAKING_UP =>
    refine ((fire_waking_up hs hf.wakeup_completed).wp hμ _ _ _).2 (row_ask_for_next_data hμ rfl (.inl ⟨hs, rfl⟩) ?_)
    exact .inl (Int.lt_of_le_of_lt hf.num_le (by decide))
  | RETRIEVING_DATA =>
    refine ((fire_retrieving hs).wp hμ _ _ _).2 (row_ask_for_next_data hμ rfl (.inr ⟨hs, rfl⟩) ?_)
    have hn : l.user.num_data_retrieved ≤ 3 := hf.num_le
    rcases hn.lt_or_eq with hn | hn
    · exact .inl (show l.user.num_data_retrieved + 1 < 4 by omega)
    · exact .inr ⟨hs, rfl, hn⟩
  | ASKING_FOR_DATA =>
    have hn : l.user.num_data_retrieved ≤ 4 := hf.num_le
    rcases hn.lt_or_eq with hn | hn
    · refine ((fire_asking hs hn.ne).wp hμ _ _ _).2 (wp_iff_wpAfter.2 ((after_rd hμ).2 fun g₁ h₁ hi => ?_))
      split
      · exact wp_iff_wpAfter.1 (row_retrieve_data hμ hs hn hi ‹_›)
      · exact wp_iff_wpAfter.1 (stays hs (.inl rfl) hi)
    · exact ((fire_asking_all hs hn).wp hμ _ _ _).2 (row_send hμ hs hn)
  | SENDING_DATA =>
    by_cases hd : l.user.data_sent_flag = 0
    · exact ((fire_sending_failed hs hd).wp hμ _ _ _).2 (stays hs (.inr (.inl rfl)) .refl)
    refine ((fire_sending hs hd).wp hμ _ _ _).2 (wp_iff_wpAfter.2 ((after_rd hμ).2 fun g₁ h₁ hi₁ => ?_))
    split
    · exact wp_iff_wpAfter.1 (row_ask_again hμ hs hd hi₁ ‹_›)
    -- the second row reads the mode again, and the button may have been pressed
    refine (after_rd hμ).2 fun g₂ h₂ hi₂ => ?_
    have hi := hi₁.trans hi₂
    split
    · exact wp_iff_wpAfter.1 (row_try_to_sleep hμ hs hd hi ‹_› (Idle.calls hf.timer hi.calls))
    · exact wp_iff_wpAfter.1 (stays hs (.inr (.inl rfl)) hi)
  | TO_SLEEP =>
    have hp : l.user.sleep_possible_flag ≠ 0 := by
      rw [hf.sleep_possible]
      decide
    -- what is left of the table if the row to `reset_timer_sleep` is not taken
    have rest : ∀ g₁ h₁, Irqs (firmware bus) μ g h g₁ h₁ →
        wpAfter (firmware bus) μ [] g₁ h₁ rest_to_sleep (fun _ => Fired bus μ g l h) l := by
      intro g₁ h₁ hi₁
      refine (after_rd hμ).2 fun g₂ h₂ hi₂ => ?_
      split
      · exact wp_iff_wpAfter.1 (row_reset_no_timer hμ hs (hi₁.trans hi₂) ‹_›)
      · exact wp_iff_wpAfter.1 (stays hs (.inr (.inr rfl)) (hi₁.trans hi₂))
    refine ((fire_to_sleep hs hp).wp hμ _ _ _).2 (wp_iff_wpAfter.2 ((after_rd hμ).2 fun g₁ h₁ hi₁ => ?_))
    split
    · refine (after_rd hμ).2 fun g₂ h₂ hi₂ => ?_
      split
      · exact wp_iff_wpAfter.1 (row_reset_timer_sleep hμ hs hi₁ ‹_› hi₂ ‹_›)
      · exact rest _ _ (hi₁.trans hi₂)
    · exact rest _ _ hi₁

end M20Strain
