import M20Strain.Proof.Alone
import M20Strain.Proof.Bench

/-!
# Where interrupts occur does not matter

`atomic`: every state at the end of a run in which handlers run between any two
calls is also found at the end of a run in which they run between tasks only.
For each way through a row, one point can be found at which the whole `fsm_fire`
could have happened; the handlers before that point run before it, those after it
run after it, past writes of flags that they do not read.
-/

namespace M20Strain

open Interrupt Prog

variable {D : Type} {bus : SpiBus D} {l₀ l l' : Local D} {h₀ h h₁ h' : Shared} {tr : List (Event D)}

/-- A write `f` past handlers: the timer's has nothing to do with what is written, and each
of the others commutes with `f` or is undone by it. -/
theorem handled_past {f : Shared → Shared} (ht : ∀ h, handle .sleeptimer (f h) = (handle .sleeptimer h).map f)
    (hf : ∀ i h h', i ≠ .sleeptimer → handle i h = some h' → f h' = f h ∨ handle i (f h) = some (f h'))
    (hh : Handled (firmware bus) h h') : Handled (firmware bus) (f h) (f h') := by
  refine Irqs.map (P := fun _ => True) ?_ ?_ hh trivial
  · intro _ _ _ _ _
    trivial
  · intro i h h' _ hi
    by_cases hs : i = .sleeptimer
    · subst hs
      have hi : handle .sleeptimer h = some h' := hi
      refine .inr ((ht h).trans ?_)
      rw [hi]
      rfl
    · exact hf i h h' hs hi

/-- The button acts on the mode only, and a write of the mode undoes it. -/
theorem handled_mode {v : UInt8} (hh : Handled (firmware bus) h h') :
    Handled (firmware bus) { h with change_mode_flag := v } { h' with change_mode_flag := v } := by
  refine handled_past (f := fun h => { h with change_mode_flag := v }) ?_ ?_ hh
  · intro h
    simp only [handle]
    split <;> rfl
  intro i h h' hs hi
  cases i with
  | change_mode =>
    cases hi
    exact .inl rfl
  | data_ready | burtc =>
    cases hi
    exact .inr rfl
  | sleeptimer => exact absurd rfl hs

theorem handled_ready {v : UInt8} (hh : Handled (firmware bus) h h') :
    Handled (firmware bus) { h with data_ready_flag := v } { h' with data_ready_flag := v } := by
  refine handled_past (f := fun h => { h with data_ready_flag := v }) ?_ ?_ hh
  · intro h
    simp only [handle]
    split <;> rfl
  intro i h h' hs hi
  cases i with
  | data_ready =>
    cases hi
    exact .inl rfl
  | change_mode | burtc =>
    cases hi
    exact .inr rfl
  | sleeptimer => exact absurd rfl hs

theorem handled_wakeupTimer {v : Int} (hh : Handled (firmware bus) h h') :
    Handled (firmware bus) { h with wakeupTimer := v } { h' with wakeupTimer := v } := by
  refine handled_past (f := fun h => { h with wakeupTimer := v }) ?_ ?_ hh
  · intro h
    simp only [handle]
    split <;> rfl
  intro i h h' hs hi
  cases i with
  | burtc =>
    cases hi
    exact .inl rfl
  | change_mode | data_ready =>
    cases hi
    exact .inr rfl
  | sleeptimer => exact absurd rfl hs

/-- While the timer is stopped, its handler does not run. -/
theorem handled_start (hr : h.timerRunning = false) (hh : Handled (firmware bus) h h') :
    Handled (firmware bus) { h with timerRunning := true } { h' with timerRunning := true } := by
  refine Irqs.map (P := fun h => h.timerRunning = false) (f := fun h => { h with timerRunning := true })
    ?_ ?_ hh hr
  · intro i h h' hi hr
    rcases handle_timer hi with ⟨-, h2⟩ | ⟨-, hr', -⟩
    · exact h2.trans hr
    · rw [hr] at hr'
      cases hr'
  · intro i h h' hr hi
    cases i with
    | change_mode | data_ready | burtc =>
      cases hi
      exact .inr rfl
    | sleeptimer =>
      simp only [firmware, handle, hr, Bool.false_eq_true, if_false] at hi
      cases hi

/-- Handlers, the `fsm_fire` alone, and handlers. -/
theorem serial_of_can {h₂ : Shared} (h1 : Handled (firmware bus) h h₁) (hc : Can bus l h₁ l' h₂)
    (h2 : Handled (firmware bus) h₂ h') : Serial (firmware bus) app_process_action l h l' h' := by
  refine ⟨h₁, h1, .inr (may_mono ?_ hc)⟩
  rintro _ _ _ _ ⟨rfl, rfl⟩
  exact ⟨rfl, h2⟩

theorem Fired.serial {g g' : Unit} (hf : Fired bus blind g l h g' l' h') (hI : Inv l h) :
    Serial (firmware bus) app_process_action l h l' h' := by
  have wakeup (hs : l.current_state = states.SLEEPING) : l.user.wakeup_timer_flag = 1 :=
    (hI.fits hs).wakeup_timer
  have possible (hs : l.current_state = states.TO_SLEEP) : l.user.sleep_possible_flag ≠ 0 := by
    rw [(hI.fits hs).sleep_possible]
    decide
  cases hf with
  | stay s hs ht hi => exact ⟨h, .refl, .inl ⟨rfl, hi.handled⟩⟩
  | power_up hs hr hd hc => exact serial_of_can hc.handled (can_power_up hs (wakeup hs) hr hd) .refl
  | pin_wake hs hr hd hc hw hi hi' =>
    -- what the button did before the write of the mode is lost
    have h1 := (handled_mode hi.handled).trans hi'.handled
    exact serial_of_can hc.handled (can_pin_wake hs (wakeup hs) hr hw hd) h1
  | timer_wake hs hr hd hc hw hi hi₂ hi₃ =>
    refine serial_of_can hc.handled (can_timer_wake hs (wakeup hs) hr hw hd) (.trans ?_ hi₃.handled)
    exact handled_wakeupTimer ((handled_mode hi.handled).trans hi₂.handled)
  | ask hs hn hd₁ hd₂ hc hc' =>
    refine serial_of_can hc.handled (can_ask ?_ hn hd₁ hd₂) hc'.handled
    rcases hs with ⟨hs, hl⟩ | hs
    · exact .inl ⟨hs, (hI.fits hs).wakeup_completed, hl⟩
    · exact .inr hs
  | ask_all hs hn hc hi => exact serial_of_can hc.handled (can_ask_all hs hn) hi.handled
  | retrieve hs hn hi hr hc hd hw hc' =>
    have h1 := (handled_ready hc.handled).trans hc'.handled
    exact serial_of_can hi.handled (can_retrieve hs hn hr hd hw) h1
  | send_ok s hs hn hd hk hc => exact serial_of_can hc.handled (can_send_ok hs hn hd) .refl
  | send_failed s hs hn hd hk hc => exact serial_of_can hc.handled (can_send_failed hs hn hd hk) .refl
  | ask_again hs hd hi hm hc => exact serial_of_can hi.handled (can_ask_again hs hd hm) hc.handled
  | try_to_sleep hs hd hi hm hc hr hi' =>
    have ht := (Idle.irqs (hI.fits hs).timer hi).2
    have h1 := (handled_start ht hc.handled).trans hi'.handled
    exact serial_of_can hi.handled (can_try_to_sleep hs hd hm ht) h1
  | @reset_timer_sleep _ h₁ _ h₂ _ _ _ _ _ _ _ _ _ _ _ hs hi₁ hm hi₂ ht hc hi₃ hes hc' hi =>
    -- the mode as it was read first, the rest as when the timer's flag was read
    have h1 : Handled (firmware bus) h { h₂ with change_mode_flag := h₁.change_mode_flag } :=
      hi₁.handled.trans (handled_mode hi₂.handled)
    exact serial_of_can h1 (can_reset_timer_sleep hs (possible hs) hm ht hes) hi.handled
  | reset_no_timer hs hi₁ hm hc hi₂ hi₃ hi =>
    exact serial_of_can hi₁.handled (can_reset_no_timer _ hs (possible hs) hm) hi.handled

/-- The event handler touches no shared state. -/
theorem allCalls_event (evt : sl_bt_evt) :
    AllCalls (fun o => ∃ f, (firmware bus).Owned o f) (sl_bt_on_event evt) := by
  have own_calls (o : MainOp) : AllCalls (fun o => ∃ f, (firmware bus).Owned o f) (own o) :=
    ⟨⟨_, owned_main o⟩, fun _ => trivial⟩
  cases evt with
  | system_boot => repeat first | exact own_calls _ | refine (own_calls _).bind fun _ => ?_
  | connection_opened c => repeat first | exact own_calls _ | refine (own_calls _).bind fun _ => ?_
  | connection_closed c => repeat first | exact own_calls _ | refine (own_calls _).bind fun _ => ?_
  | other => trivial

/-- **Interrupt granularity.** Every state that a run reaches, with handlers between any
two calls, is reached by a run in which handlers run between tasks only. -/
theorem atomic (hb : Boot l₀ h₀) (hr : Runs bus l₀ h₀ tr l h) : SerialRun (firmware bus) Task.body l₀ h₀ l h := by
  refine Run.serial ?_ hr
  rintro t l₁ h₁ ⟨tr₁, hr₁⟩
  cases t with
  | app_process_action =>
    have hI := run_inv hb hr₁
    refine wp_mono ?_ (wp_fired .blind hI)
    intro _ _ _ _ hf
    exact hf.serial hI
  | sl_bt_on_event evt => exact (allCalls_event evt).serial

/-- A conversion that ends while it is started. -/
theorem atomic_bench : ∃ tr l h, Runs anyBus (booted false false).1 (booted false false).2 tr l h ∧
    h.data_ready_flag = 1 ∧
      SerialRun (firmware anyBus) Task.body (booted false false).1 (booted false false).2 l h := by
  obtain ⟨tr, l, h, hr, hP⟩ := bench_run earlyReady (fires 2)
    (P := fun _ _ h => h.data_ready_flag = 1) (by decide +kernel)
  exact ⟨tr, l, h, hr, hP, atomic booted_boot hr⟩

end M20Strain
