import M20Strain.Proof.Events
import M20Strain.Proof.Step

/-!
# Runs of the firmware

The flags fit the state in every reachable state (`run_inv`). `run_invariant`
extends this to properties of monitor and state: they are checked for handlers,
for one `fsm_fire` (`Fired`) and for one event (`Reacted`).
-/

namespace M20Strain

open Interrupt Prog

variable {D : Type} {bus : SpiBus D} {G : Type} {μ : G → Event D → G} {g g' : G} {l l' : Local D}
  {h h' : Shared}

theorem Inv.irqs (hI : Inv l h) (hi : Irqs (firmware bus) μ g h g' h') : Inv l h' :=
  Irqs.stable (P := fun _ h => Inv l h) (fun _ _ _ _ hi hI => hI.handle hi) hi hI

theorem Idle.irqs (hd : Idle h) (hi : Irqs (firmware bus) μ g h g' h') : Idle h' :=
  Idle.calls hd hi.calls

theorem Armed.irqs (hd : Armed h) (hi : Irqs (firmware bus) μ g h g' h') : Armed h' :=
  Irqs.stable (P := fun _ => Armed) (fun _ _ _ _ hi hd => hd.handle hi) hi hd

theorem Fits.not_sent {s : states} {u : app_fsm_t} (hf : Fits s u h) (hs : s ≠ .SENDING_DATA) :
    u.data_sent_flag = 0 := by
  rcases hf.data_sent with hd | ⟨hd, -⟩
  · exact hd
  · exact absurd hd hs

/-- Waking up sets `wakeup_completed_flag` and clears the flag that woke the machine. -/
theorem Inv.woken {d : Driver D} (hI : Inv l h) (hs : l.current_state = states.SLEEPING) (ht : Idle h') :
    Inv (woken l d) h' := by
  have hf := hI.fits hs
  have hd := hf.not_sent (by decide)
  exact ⟨.WAKING_UP, rfl, { hf with
    wakeup_timer := rfl, wakeup_completed := rfl, data_sent := .inl hd, timer := ht }⟩

/-- **The flags fit the state after every `fsm_fire`.** -/
theorem Fired.inv (hf : Fired bus μ g l h g' l' h') (hI : Inv l h) : Inv l' h' := by
  cases hf with
  | stay s hs ht hi => exact hI.irqs hi
  | power_up hs hr hd hc => exact hI.woken hs (Idle.calls (hI.fits hs).timer hc)
  | pin_wake hs hr hd hc hw hi hi' =>
    have ht := Idle.irqs (Idle.calls (hI.fits hs).timer hc) hi
    exact hI.woken hs (Idle.irqs (by exact ht) hi')
  | timer_wake hs hr hd hc hw hi hi₂ hi₃ =>
    have ht := Idle.irqs (Idle.calls (hI.fits hs).timer hc) hi
    have ht := Idle.irqs (by exact ht) hi₂
    exact hI.woken hs (Idle.irqs (by exact ht) hi₃)
  | ask hs hn hd₁ hd₂ hc hc' =>
    obtain ⟨hs, rfl⟩ | ⟨hs, rfl⟩ := hs
    · have hf := hI.fits hs
      have hd := hf.not_sent (by decide)
      have ht := Idle.calls hf.timer hc
      exact ⟨.ASKING_FOR_DATA, rfl, { hf with
        wakeup_completed := rfl, data_sent := .inl hd, num_le := hf.num_le.trans (by decide),
        timer := Idle.calls (by exact ht) hc' }⟩
    · have hf := hI.fits hs
      have hd := hf.not_sent (by decide)
      have ht := Idle.calls hf.timer hc
      exact ⟨.ASKING_FOR_DATA, rfl, { hf with
        wakeup_completed := rfl, data_sent := .inl hd, num_nonneg := Int.le_add_one hf.num_nonneg,
        num_le := Int.add_le_add_right hf.num_le 1, timer := Idle.calls (by exact ht) hc' }⟩
  | ask_all hs hn hc hi =>
    have hf := hI.fits hs
    have hd := hf.not_sent (by decide)
    have ht := Idle.calls hf.timer hc
    exact ⟨.ASKING_FOR_DATA, rfl, { hf with
      wakeup_completed := rfl, data_sent := .inl hd, num_nonneg := Int.le_add_one hf.num_nonneg,
      num_le := Int.add_le_add_right hf.num_le 1, timer := Idle.irqs (by exact ht) hi }⟩
  | retrieve hs hn hi hr hc hd hw hc' =>
    have hf := hI.fits hs
    have hd := hf.not_sent (by decide)
    have ht := Idle.calls (Idle.irqs hf.timer hi) hc
    have ht := Idle.calls (by exact ht) hc'
    -- the store moves no flag, wherever it goes
    have hfit : Fits .RETRIEVING_DATA (retrieving l).user h' := { hf with
      data_sent := .inl hd, num_le := Int.le_of_lt_add_one hn, timer := ht }
    obtain ⟨s, rfl⟩ := stored hw
    exact ⟨.RETRIEVING_DATA, rfl, { hfit with }⟩
  | send_ok s hs hn hd hk hc =>
    have hf := hI.fits hs
    exact ⟨.SENDING_DATA, rfl, { hf with
      data_sent := .inr ⟨rfl, rfl⟩, num_nonneg := le_refl _, num_le := le_refl _,
      timer := Idle.calls hf.timer hc }⟩
  | send_failed s hs hn hd hk hc =>
    have hf := hI.fits hs
    have hd := hf.not_sent (by decide)
    exact ⟨.SENDING_DATA, rfl, { hf with
      data_sent := .inl hd, num_nonneg := le_refl _, num_le := le_refl _, timer := Idle.calls hf.timer hc }⟩
  | ask_again hs hd hi hm hc =>
    have hf := hI.fits hs
    have ht := Idle.irqs hf.timer hi
    exact ⟨.WAKING_UP, rfl, { hf with
      wakeup_completed := rfl, data_sent := .inl rfl, timer := Idle.calls ht hc }⟩
  | @try_to_sleep _ _ _ h₂ _ _ hs hd hi hm hc hr hi' =>
    have hf := hI.fits hs
    have ht := Idle.calls (Idle.irqs hf.timer hi) hc
    -- the flag of the timer is clear, so the timer that now runs arms it
    have harmed : Armed { h₂ with timerRunning := true } := .inl ⟨ht.1, rfl⟩
    exact ⟨.TO_SLEEP, rfl, { hf with
      sleep_possible := rfl, data_sent := .inl rfl, timer := harmed.irqs hi' }⟩
  | reset_timer_sleep hs hi₁ hm hi₂ ht hc hi₃ hes hc' hi => exact new_app_fsm_inv.irqs hi
  | reset_no_timer hs hi₁ hm hc hi₂ hi₃ hi => exact new_app_fsm_inv.irqs hi

theorem Reacted.inv {evt : sl_bt_evt} (hr : Reacted bus μ g l h evt g' l' h') (hI : Inv l h) :
    Inv l' h' := by
  have hc {es : List (Made Op.Resp (Local D))} (hc : Calls (firmware bus) μ es g h g' h') : Inv l h' :=
    hc.stable_shared (P := Inv l) (fun _ _ _ hi hI => hI.handle hi) hI
  cases hr with
  | system_boot hes hc' => exact hc hc'
  | connection_opened hn hi => exact hI.irqs hi
  | connection_closed hes hc' => exact hc hc'
  | other hi => exact hI.irqs hi

/-- A run of the firmware. -/
abbrev Runs (bus : SpiBus D) (l : Local D) (h : Shared) (tr : List (Event D)) (l' : Local D) (h' : Shared) :
    Prop :=
  Run (firmware bus) Task.body l h tr l' h'

variable {tr : List (Event D)}

/-- **Invariants of runs**, on top of the flags. -/
theorem run_invariant {J : G → Local D → Shared → Prop} (hμ : Quiet μ) (hb : Boot l h) (h0 : J g l h)
    (hirq : ∀ i g l h h', Inv l h → handle i h = some h' → J g l h → J (μ g (.irq i h)) l h')
    (hfire : ∀ g l h g' l' h', Inv l h → J g l h → Fired bus μ g l h g' l' h' → J g' l' h')
    (hevt : ∀ evt g l h g' l' h', Inv l h → J g l h → Reacted bus μ g l h evt g' l' h' → J g' l' h')
    (hr : Runs bus l h tr l' h') : Inv l' h' ∧ J (tr.foldl μ g) l' h' := by
  refine Run.invariant (I := fun g l h => Inv l h ∧ J g l h) ⟨hb.inv, h0⟩ ?_ ?_ hr
  · exact fun i g l h h' _ hi hJ => ⟨hJ.1.handle hi, hirq i g l h h' hJ.1 hi hJ.2⟩
  · rintro t g l h - ⟨hI, hJ⟩
    cases t with
    | app_process_action =>
      exact wp_mono (fun _ _ _ _ hf => ⟨hf.inv hI, hfire _ _ _ _ _ _ hI hJ hf⟩) (wp_fired hμ hI)
    | sl_bt_on_event evt =>
      exact wp_mono (fun _ _ _ _ hf => ⟨hf.inv hI, hevt _ _ _ _ _ _ _ hI hJ hf⟩) (wp_reacted hμ evt)

theorem Quiet.blind : Quiet (blind : Unit → Event D → Unit) := fun _ _ _ _ _ _ => rfl

/-- The flags fit the state in every reachable state. -/
theorem run_inv (hb : Boot l h) (hr : Runs bus l h tr l' h') : Inv l' h' :=
  (run_invariant (J := fun _ _ _ => True) (g := ()) .blind hb trivial (fun _ _ _ _ _ _ _ _ => trivial)
    (fun _ _ _ _ _ _ _ _ _ => trivial) (fun _ _ _ _ _ _ _ _ _ _ => trivial) hr).1

/-- A monitor for one kind of event, if that is not a quiet call. -/
theorem Quiet.seen {p : Event D → Bool} (hp : ∀ o : Op, o.quiet = true → ∀ r l h, p (.call o r l h) = false) :
    Quiet (seen p) := by
  intro o ho g r l h
  rw [Interrupt.seen, hp o ho, Bool.or_false]

theorem Quiet.watch (hμ : Quiet μ) {c : G → Event D → Prop}
    (hc : ∀ o : Op, o.quiet = true → ∀ g r l h, c g (.call o r l h)) : Quiet (watch μ c) := by
  intro o ho g r l h
  refine Prod.ext (hμ o ho _ _ _ _) ?_
  simp only [Interrupt.watch, hc o ho _ _ _ _, and_true]

section Watch

variable {c : G → Event D → Prop} {k k' : G × Prop} {es : List (Made Op.Resp (Local D))}

/-- What handlers and each of the calls preserve while they pass the check. -/
theorem watch_stable {S : G → Shared → Prop}
    (hirq : ∀ i g h h', handle i h = some h' → S g h → c g (.irq i h) ∧ S (μ g (.irq i h)) h')
    (hes : ∀ e ∈ es, ∀ g h, S g h → c g (e.entry h) ∧ S (μ g (e.entry h)) h)
    (hc : Calls (firmware bus) (watch μ c) es k h k' h') : k.2 ∧ S k.1 h → k'.2 ∧ S k'.1 h' := by
  refine hc.stable (P := fun k h => k.2 ∧ S k.1 h) (fun i k h h' hi hk => ?_) fun e he k h hk => ?_
  · obtain ⟨h1, h2⟩ := hirq i k.1 h h' hi hk.2
    exact ⟨⟨hk.1, h1⟩, h2⟩
  · obtain ⟨h1, h2⟩ := hes e he k.1 h hk.2
    exact ⟨⟨hk.1, h1⟩, h2⟩

/-- Handlers pass a check that is not about them. -/
theorem watch_irqs (hirq : ∀ g i h, c g (.irq i h)) (hi : Irqs (firmware bus) (watch μ c) k h k' h') :
    k.2 → k'.2 :=
  hi.stable (P := fun k _ => k.2) fun i k h _ _ hk => ⟨hk, hirq k.1 i h⟩

/-- Calls pass a check that holds of each of them, whatever the monitor. -/
theorem watch_calls (hirq : ∀ g i h, c g (.irq i h)) (hc : Calls (firmware bus) (watch μ c) es k h k' h')
    (hes : ∀ e ∈ es, ∀ g h, c g (e.entry h)) : k.2 → k'.2 := by
  refine hc.stable (P := fun k _ => k.2) ?_ ?_
  · exact fun i k h _ _ hk => ⟨hk, hirq k.1 i h⟩
  · exact fun e he k h hk => ⟨hk, hes e he k.1 h⟩

end Watch

/-- A property of every entry, by an invariant that the check is part of. -/
theorem run_checked {c : G → Event D → Prop} {J : G → Local D → Shared → Prop}
    (hμ : Quiet (watch μ c)) (hb : Boot l h) (h0 : J g l h)
    (hirq : ∀ i g l h h', Inv l h → handle i h = some h' → J g l h →
      c g (.irq i h) ∧ J (μ g (.irq i h)) l h')
    (hfire : ∀ g l h g' l' h', Inv l h → g.2 ∧ J g.1 l h → Fired bus (watch μ c) g l h g' l' h' →
      g'.2 ∧ J g'.1 l' h')
    (hevt : ∀ evt g l h g' l' h', Inv l h → g.2 ∧ J g.1 l h → Reacted bus (watch μ c) g l h evt g' l' h' →
      g'.2 ∧ J g'.1 l' h')
    (hr : Runs bus l h tr l' h') : Checked μ c g tr ∧ J (tr.foldl μ g) l' h' := by
  have hirq' : ∀ i (g : G × Prop) l h h', Inv l h → handle i h = some h' → g.2 ∧ J g.1 l h →
      (watch μ c g (.irq i h)).2 ∧ J (watch μ c g (.irq i h)).1 l h' := by
    rintro i g l h h' hI hi ⟨hp, hJ⟩
    obtain ⟨h1, h2⟩ := hirq i g.1 l h h' hI hi hJ
    exact ⟨⟨hp, h1⟩, h2⟩
  have H := run_invariant (g := (g, True)) hμ hb ⟨trivial, h0⟩ hirq' hfire hevt hr
  rw [foldl_watch] at H
  exact ⟨H.2.1.2, H.2.2⟩

end M20Strain
