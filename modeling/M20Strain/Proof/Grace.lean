import M20Strain.Proof.Bench
import M20Strain.Proof.Runs

/-!
# The grace period before deep sleep

`grace_kept`: `reset_timer_sleep` runs only in a visit to `TO_SLEEP` in which the
sleep timer was started once and has expired, the timer is never started while
it runs, and in slow mode EM4 is not entered before it expired.
-/

namespace M20Strain

open Interrupt Prog

variable {D : Type} {bus : SpiBus D} {l₀ l l' : Local D} {h₀ h h' : Shared} {tr : List (Event D)}

/-- The current or last visit to `TO_SLEEP` since the restart: how often the timer was
started, whether it expired after that, whether the mode was slow on entry, and
whether the change-mode button was pressed. -/
structure Visit where
  starts : ℕ
  expired : Bool
  slow : Bool
  pressed : Bool

def visit (g : Visit) : Event D → Visit
  | .call (.main (.wr_current_state s)) _ _ h =>
    if s = states.TO_SLEEP then ⟨0, false, h.change_mode_flag = 0, false⟩ else g
  | .call (.shr (.sl_sleeptimer_start_timer _)) _ _ _ => { g with starts := g.starts + 1 }
  | .call (.shr .EMU_EnterEM4) _ _ _ => ⟨0, false, false, false⟩
  | .irq .sleeptimer _ => { g with expired := g.expired || decide (0 < g.starts) }
  | .irq .change_mode _ => { g with pressed := true }
  | _ => g

/-- `reset_timer_sleep` comes after one start and its callback, a timer that runs is not
started, and a visit in slow mode that nobody disturbs ends after the callback. -/
def Graceful (g : Visit) : Event D → Prop
  | .call (.main (.enter .reset_timer_sleep)) _ _ _ => g.starts = 1 ∧ g.expired = true
  | .call (.shr (.sl_sleeptimer_start_timer _)) _ _ h => h.timerRunning = false
  | .call (.shr .EMU_EnterEM4) _ _ _ => g.slow = true → g.pressed = false → g.expired = true
  | _ => True

/-- A visit in which the timer was started `n` times: expired says what the flag says,
and in slow mode only the button changes the mode. -/
structure Waiting (n : ℕ) (g : Visit) (h : Shared) : Prop where
  starts : g.starts = n
  expired : g.expired = true ↔ h.tmr_flag = 1
  slow : g.slow = true → g.pressed = false → h.change_mode_flag = 0

theorem Waiting.handle {n : ℕ} {g : Visit} {i : Irq} (hw : Waiting n g h) (hn : 0 < n ∨ Idle h)
    (hi : handle i h = some h') : Waiting n (visit g (.irq i h : Event D)) h' := by
  cases i with
  | change_mode => cases hi; exact ⟨hw.starts, hw.expired, fun _ hp => absurd hp Bool.noConfusion⟩
  | data_ready | burtc => cases hi; exact ⟨hw.starts, hw.expired, hw.slow⟩
  | sleeptimer =>
    simp only [M20Strain.handle] at hi
    split at hi
    · rename_i hr
      cases hi
      have hn : 0 < n := hn.resolve_right fun hd => absurd (hr.symm.trans hd.2) Bool.noConfusion
      exact ⟨hw.starts, by simp [visit, sleeptimer_callback, hw.starts, hn], hw.slow⟩
    · cases hi

theorem quiet_graceful : Quiet (watch visit (Graceful (D := D))) := by
  refine Quiet.watch (fun o ho g r l h => ?_) fun o ho g r l h => ?_
  · unfold visit
    split <;> first | rfl | (rename_i heq; cases heq <;> cases ho)
  · unfold Graceful
    split <;> first | trivial | (rename_i heq; cases heq; cases ho)

/-- In `TO_SLEEP` the timer was started once. -/
def InVisit (g : Visit) (l : Local D) (h : Shared) : Prop :=
  l.current_state = states.TO_SLEEP → Waiting 1 g h

theorem InVisit.of_ne {g : Visit} (s : states) (hs : l.current_state = s) (hne : s ≠ .TO_SLEEP) :
    InVisit g l h := by
  intro ht
  exact absurd ht (not_at hs hne)

variable {k k' : Visit × Prop} {es : List (Made Op.Resp (Local D))}

/-- The calls leave the visit alone and pass the check. -/
def Bystanders (es : List (Made Op.Resp (Local D))) : Prop :=
  ∀ e ∈ es, ∀ g h, visit g (e.entry h) = g ∧ Graceful g (e.entry h)

theorem Waiting.calls {n : ℕ} (hes : Bystanders es)
    (hc : Calls (firmware bus) (watch visit Graceful) es k h k' h') (hn : 0 < n ∨ Idle h) (hp : k.2)
    (hw : Waiting n k.1 h) : k'.2 ∧ Waiting n k'.1 h' := by
  refine (hc.stable (P := fun k h => (k.2 ∧ Waiting n k.1 h) ∧ (0 < n ∨ Idle h)) ?_ ?_ ⟨⟨hp, hw⟩, hn⟩).1
  · rintro i k h h' hi ⟨⟨hp, hw⟩, hn⟩
    exact ⟨⟨⟨hp, trivial⟩, hw.handle hn hi⟩, hn.imp_right fun hd => hd.handle hi⟩
  · rintro e he k h ⟨⟨hp, hw⟩, hn⟩
    obtain ⟨h1, h2⟩ := hes e he k.1 h
    exact ⟨⟨⟨hp, h2⟩, by simpa only [watch, h1] using hw⟩, hn⟩

/-- The visit may end: in slow mode, after the callback. -/
def MayEnd (g : Visit) : Prop := g.slow = true → g.pressed = false → g.expired = true

theorem MayEnd.calls (hes : Bystanders es) (hc : Calls (firmware bus) (watch visit Graceful) es k h k' h')
    (hk : k.2 ∧ MayEnd k.1) : k'.2 ∧ MayEnd k'.1 := by
  refine hc.stable (P := fun k _ => k.2 ∧ MayEnd k.1) ?_ ?_ hk
  · rintro i k h h' hi ⟨hp, hm⟩
    refine ⟨⟨hp, trivial⟩, ?_⟩
    cases i with
    | change_mode => exact fun _ h => absurd h Bool.noConfusion
    | sleeptimer => exact fun h1 h2 => by simp [watch, visit, hm h1 h2]
    | data_ready | burtc => exact hm
  · rintro e he k h ⟨hp, hm⟩
    obtain ⟨h1, h2⟩ := hes e he k.1 h
    exact ⟨⟨hp, h2⟩, by simpa only [watch, h1] using hm⟩

/-- A handler does not clear the flag of the timer. -/
theorem flag_set (hi : Irqs (firmware bus) (watch visit Graceful) k h k' h') (ht : h.tmr_flag = 1) :
    h'.tmr_flag = 1 := by
  refine Irqs.stable (P := fun _ h => h.tmr_flag = 1) (fun i k h h' hi ht => ?_) hi ht
  rcases handle_timer hi with ⟨h1, -⟩ | ⟨-, -, h1, -⟩
  · exact h1.trans ht
  · exact h1

theorem bystanders_nil : Bystanders ([] : List (Made Op.Resp (Local D))) := List.forall_mem_nil _

theorem Closes.bystanders {n i : ℕ} (hes : Closes l n i es) : Bystanders es := by
  intro e he g h
  obtain ⟨c, sc, rfl⟩ := hes.mem e he
  exact ⟨rfl, trivial⟩

/-- Only the entry of `reset_timer_sleep` is checked at the beginning of a row. -/
theorem graceful_start {s : states} {f : Routine} (hf : f ≠ .reset_timer_sleep) :
    ∀ e ∈ start s f l, ∀ g h, Graceful g (e.entry h) := by
  intro e he g h
  rcases List.mem_pair.1 he with rfl | rfl
  · trivial
  · cases f <;> trivial

theorem graceful_send {s : Fin 8 → sl_status_t} {l' : Local D}
    (hes : ∀ e ∈ es, ∀ g h, Graceful g (e.entry h)) :
    ∀ e ∈ start .SENDING_DATA .power_down_interface_send_data l ++ published (samples l) s l' ++ es,
      ∀ g h, Graceful g (e.entry h) := by
  intro e he g h
  rcases List.mem_append.1 he with he | he
  · rcases List.mem_append.1 he with he | he
    · exact graceful_start (by decide) e he g h
    · rcases mem_published e he with rfl | ⟨c, sc, rfl⟩ <;> trivial
  · exact hes e he g h

theorem graceful_data_sent {v : UInt8} :
    ∀ e ∈ [did (.wr .data_sent_flag v) () l], ∀ g h, Graceful g (e.entry h) := by
  intro e he g h
  obtain rfl := List.mem_singleton.1 he
  trivial

/-- Entering `TO_SLEEP` begins a visit, with the flag clear and the timer stopped. -/
theorem visit_begins {s : sl_status_t} {h₁ : Shared} {k₁ : Visit × Prop} (ht : Idle h) (hp : k.2)
    (hc : Calls (firmware bus) (watch visit Graceful) (start .TO_SLEEP .try_to_sleep l ++
      [did (.wr .data_sent_flag 0) () (moved l .TO_SLEEP)]) k h k₁ h₁)
    (hr : h₁.timerRunning = false)
    (hi : Irqs (firmware bus) (watch visit Graceful)
      (watch visit Graceful k₁ (.call (.shr (.sl_sleeptimer_start_timer 20000)) s (drowsy l) h₁))
      { h₁ with timerRunning := true } k' h') : k'.2 ∧ Waiting 1 k'.1 h' := by
  obtain ⟨k₂, h₂, hi₂, hc⟩ := hc
  have ht := ht.irqs hi₂
  have hp := watch_irqs (fun _ _ _ => trivial) hi₂ hp
  have hw : Waiting 0 ⟨0, false, h₂.change_mode_flag = 0, false⟩ h₂ := by
    refine ⟨rfl, ?_, fun hs _ => ?_⟩
    · simp [ht.1]
    · simpa using hs
  obtain ⟨h1, hw⟩ := Waiting.calls (by simp [Bystanders, Made.entry, Graceful, visit]) hc (.inr ht)
    ⟨hp, trivial⟩ (by exact hw)
  -- the start is counted, and found the timer stopped
  exact Waiting.calls bystanders_nil hi.calls (.inl Nat.one_pos) ⟨h1, hr⟩
    ⟨congrArg (· + 1) hw.starts, hw.expired, hw.slow⟩

/-- `reset_timer_sleep` ends a visit whose timer has expired. -/
theorem visit_expired {k₁ : Visit × Prop} {h₁ : Shared} (hp : k.2) (hw : Waiting 1 k.1 h) (ht : h.tmr_flag = 1)
    (hc : Calls (firmware bus) (watch visit Graceful) (start .SLEEPING .reset_timer_sleep l) k h k₁ h₁) :
    k₁.2 ∧ MayEnd k₁.1 := by
  obtain ⟨k₂, h₂, hi₂, k₃, h₃, hi₃, hi₄⟩ := hc
  obtain ⟨h1, hw⟩ := Waiting.calls bystanders_nil hi₂.calls (.inl Nat.one_pos) hp hw
  obtain ⟨h1, hw⟩ := Waiting.calls bystanders_nil hi₃.calls (.inl Nat.one_pos) ⟨h1, trivial⟩ hw
  have he : k₃.1.expired = true := hw.expired.2 (flag_set hi₃ (flag_set hi₂ ht))
  exact MayEnd.calls bystanders_nil hi₄ ⟨⟨h1, hw.starts, he⟩, fun _ _ => he⟩

/-- One `fsm_fire` is graceful. -/
theorem Fired.graceful (hf : Fired bus (watch visit Graceful) k l h k' l' h') (hI : Inv l h)
    (hk : k.2 ∧ InVisit k.1 l h) : k'.2 ∧ InVisit k'.1 l' h' := by
  obtain ⟨hp, hv⟩ := hk
  have irqs {k k' : Visit × Prop} {h h' : Shared}
      (hi : Irqs (firmware bus) (watch visit Graceful) k h k' h') : k.2 → k'.2 :=
    watch_irqs (fun _ _ _ => trivial) hi
  have calls {k k' : Visit × Prop} {h h' : Shared} {es : List (Made Op.Resp (Local D))}
      (hc : Calls (firmware bus) (watch visit Graceful) es k h k' h')
      (hes : ∀ e ∈ es, ∀ g h, Graceful g (e.entry h)) : k.2 → k'.2 :=
    watch_calls (fun _ _ _ => trivial) hc hes
  cases hf with
  | stay s hs ht hi =>
    refine ⟨irqs hi hp, fun h1 => ?_⟩
    exact (Waiting.calls bystanders_nil hi.calls (.inl Nat.one_pos) hp (hv h1)).2
  | power_up hs hr hd hc =>
    have h1 := calls hc (graceful_start (by decide)) hp
    exact ⟨h1, .of_ne .WAKING_UP rfl (by decide)⟩
  | pin_wake hs hr hd hc hw hi hi' =>
    have h1 := calls hc (graceful_start (by decide)) hp
    have h2 := irqs hi ⟨h1, trivial⟩
    exact ⟨irqs hi' ⟨h2, trivial⟩, .of_ne .WAKING_UP rfl (by decide)⟩
  | timer_wake hs hr hd hc hw hi hi₂ hi₃ =>
    have h1 := calls hc (graceful_start (by decide)) hp
    have h2 := irqs hi₂ ⟨irqs hi ⟨h1, trivial⟩, trivial⟩
    exact ⟨irqs hi₃ ⟨h2, trivial⟩, .of_ne .WAKING_UP rfl (by decide)⟩
  | ask hs hn hd₁ hd₂ hc hc' =>
    have h1 := calls hc (graceful_start (by decide)) hp
    have h2 := calls hc' (by simp [Made.entry, Graceful]) ⟨h1, trivial⟩
    exact ⟨h2, .of_ne .ASKING_FOR_DATA rfl (by decide)⟩
  | ask_all hs hn hc hi =>
    have h1 := calls hc (graceful_start (by decide)) hp
    exact ⟨irqs hi ⟨h1, trivial⟩, .of_ne .ASKING_FOR_DATA rfl (by decide)⟩
  | retrieve hs hn hi hr hc hd hw hc' =>
    have h1 := calls hc (graceful_start (by decide)) (irqs hi hp)
    have h2 := calls hc' (by simp [Made.entry, Graceful]) ⟨h1, trivial⟩
    obtain ⟨s, rfl⟩ := stored hw
    exact ⟨h2, .of_ne .RETRIEVING_DATA rfl (by decide)⟩
  | send_ok s hs hn hd hk hc =>
    have h1 := calls hc (graceful_send graceful_data_sent) hp
    exact ⟨h1, .of_ne .SENDING_DATA rfl (by decide)⟩
  | send_failed s hs hn hd hk hc =>
    have h1 := calls hc (by simpa using graceful_send (List.forall_mem_nil _)) hp
    exact ⟨h1, .of_ne .SENDING_DATA rfl (by decide)⟩
  | ask_again hs hd hi hm hc =>
    have h1 := calls hc (List.forall_mem_append.2 ⟨graceful_start (by decide), graceful_data_sent⟩) (irqs hi hp)
    exact ⟨h1, .of_ne .WAKING_UP rfl (by decide)⟩
  | try_to_sleep hs hd hi hm hc hr hi' =>
    have ht := Idle.irqs (hI.fits hs).timer hi
    have H := visit_begins ht (irqs hi hp) hc hr hi'
    exact ⟨H.1, fun _ => H.2⟩
  | reset_timer_sleep hs hi₁ hm hi₂ ht hc hi₃ hes hc' hi =>
    -- the guard has found the flag set, so the timer has expired in this visit
    have ha := Armed.irqs (hI.fits hs).timer (hi₁.trans hi₂)
    have hd := (ha.resolve_left fun hd => ht hd.1).1
    obtain ⟨h1, hw⟩ := Waiting.calls bystanders_nil (hi₁.trans hi₂).calls (.inl Nat.one_pos) hp (hv hs)
    have H := visit_expired h1 hw hd hc
    have H := MayEnd.calls bystanders_nil hi₃.calls ⟨⟨H.1, trivial⟩, H.2⟩
    have H := MayEnd.calls hes.bystanders hc' ⟨⟨H.1, trivial⟩, H.2⟩
    exact ⟨irqs hi ⟨H.1, H.2⟩, .of_ne .SLEEPING rfl (by decide)⟩
  | reset_no_timer hs hi₁ hm hc hi₂ hi₃ hi =>
    -- the guard has found the mode continuous, so the button was pressed or the visit was not slow
    obtain ⟨h1, hw⟩ := Waiting.calls bystanders_nil hi₁.calls (.inl Nat.one_pos) hp (hv hs)
    have H := MayEnd.calls (by simp [Bystanders, start, Made.entry, Graceful, visit]) hc
      ⟨h1, fun hs hp => absurd (hw.slow hs hp) hm⟩
    have H := MayEnd.calls bystanders_nil hi₂.calls ⟨⟨H.1, trivial⟩, H.2⟩
    have H := MayEnd.calls bystanders_nil hi₃.calls ⟨⟨H.1, trivial⟩, H.2⟩
    exact ⟨irqs hi ⟨H.1, H.2⟩, .of_ne .SLEEPING rfl (by decide)⟩

theorem Reacted.graceful {evt : sl_bt_evt} (hr : Reacted bus (watch visit Graceful) k l h evt k' l' h')
    (hk : k.2 ∧ InVisit k.1 l h) : k'.2 ∧ InVisit k'.1 l' h' := by
  have calls {es : List (Made Op.Resp (Local D))} (hes : Advertises es)
      (hc : Calls (firmware bus) (watch visit Graceful) es k h k' h') : k'.2 ∧ InVisit k'.1 l h' := by
    have hb : Bystanders es := fun e he => by
      obtain ⟨b, sc, l, -, rfl⟩ := hes e he
      exact fun g h => ⟨rfl, trivial⟩
    refine ⟨watch_calls (fun _ _ _ => trivial) hc (fun e he g h => (hb e he g h).2) hk.1, fun hs => ?_⟩
    exact (Waiting.calls hb hc (.inl Nat.one_pos) hk.1 (hk.2 hs)).2
  cases hr with
  | system_boot hes hc => exact calls hes hc
  | connection_opened hn hi => exact calls .nil hi
  | connection_closed hes hc => exact calls hes hc
  | other hi => exact calls .nil hi

/-- **The grace period is kept.** In every run: `reset_timer_sleep` is entered only after
exactly one start of the timer in that visit to `TO_SLEEP` and its callback; the
timer is not started while it runs; and after a visit in slow mode without a press of
the button, EM4 is not entered before the callback. -/
theorem grace_kept (hb : Boot l₀ h₀) (hr : Runs bus l₀ h₀ tr l h) :
    Checked visit Graceful ⟨0, false, false, false⟩ tr := by
  refine (run_checked (J := InVisit) quiet_graceful hb ?_ ?_ ?_ ?_ hr).1
  · exact hb.elim fun _ _ _ _ _ => .of_ne .SLEEPING rfl (by decide)
  · exact fun i g l h h' _ hi hv => ⟨trivial, fun hs => (hv hs).handle (.inl Nat.one_pos) hi⟩
  · exact fun g l h g' l' h' hI hJ hf => hf.graceful hI hJ
  · exact fun evt g l h g' l' h' _ hJ hr => hr.graceful hJ

/-- A visit in slow mode, up to the callback. -/
theorem grace_kept_expired : ∃ tr l h, Runs anyBus (booted false false).1 (booted false false).2 tr l h ∧
    (l.current_state = states.TO_SLEEP ∧ h.tmr_flag = 1) ∧
    Checked visit Graceful ⟨0, false, false, false⟩ tr := by
  obtain ⟨tr, l, h, hr, hP⟩ := bench_run quietBench
    (fires 1 ++ measurement ++ fires 1 ++ [.irq .sleeptimer])
    (P := fun _ l h => l.current_state = states.TO_SLEEP ∧ h.tmr_flag = 1) (by decide +kernel)
  exact ⟨tr, l, h, hr, hP, grace_kept booted_boot hr⟩

end M20Strain
