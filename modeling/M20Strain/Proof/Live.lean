import M20Strain.Proof.Flags

/-!
# Another measurement

`live_iff`: another measurement can be started exactly when the last notification
of every packet has succeeded. A packet whose last notification fails leaves the
machine in `SENDING_DATA` with `data_sent_flag` clear, and no row leads out.
-/

namespace M20Strain

open Interrupt Prog

variable {D : Type} {bus : SpiBus D} {l₀ l l' l'' : Local D} {h₀ h h' h'' : Shared} {tr : List (Event D)}

/-- A continuation: interrupts and calls of `app_process_action`. -/
abbrev Fires (bus : SpiBus D) (l : Local D) (h : Shared) (tr : List (Event D)) (l' : Local D) (h' : Shared) : Prop :=
  Run (firmware bus) (fun _ : Unit => app_process_action) l h tr l' h'

/-- Some continuation leads to `(l', h')`. -/
abbrev Leads (bus : SpiBus D) (l : Local D) (h : Shared) (l' : Local D) (h' : Shared) : Prop :=
  Reaches (firmware bus) (fun _ : Unit => app_process_action) l h l' h'

theorem Leads.trans (h1 : Leads bus l h l' h') (h2 : Leads bus l' h' l'' h'') : Leads bus l h l'' h'' :=
  let ⟨_, h1⟩ := h1
  let ⟨_, h2⟩ := h2
  ⟨_, h1.append h2⟩

theorem Leads.irq {i : Irq} (hi : handle i h = some h') (h1 : Leads bus l h' l'' h'') : Leads bus l h l'' h'' :=
  .trans ⟨_, .irq i .nil hi⟩ h1

theorem Leads.fire (hc : Can bus l h l' h') (h1 : Leads bus l' h' l'' h'') : Leads bus l h l'' h'' := by
  obtain ⟨tr, ⟨⟩, l₁, h₁, he, -, rfl, rfl⟩ := may_iff.1 hc
  exact .trans ⟨_, .task () .nil he⟩ h1

theorem Leads.inv (h1 : Leads bus l h l' h') (hI : Inv l h) : Inv l' h' := by
  obtain ⟨tr, hr⟩ := h1
  refine Run.invariant (I := fun _ l h => Inv l h) (μ := blind) (g := ()) hI ?_ ?_ hr
  · exact fun i _ l h h' _ hi hI => hI.handle hi
  · exact fun _ _ l h _ hI => wp_mono (fun _ _ _ _ hf => hf.inv hI) (wp_fired .blind hI)

/-- A continuation leads to `WAKING_UP`. -/
def Wakes (bus : SpiBus D) (l : Local D) (h : Shared) : Prop :=
  ∃ l' h', Leads bus l h l' h' ∧ l'.current_state = states.WAKING_UP

theorem Wakes.irq {i : Irq} (hi : handle i h = some h') : Wakes bus l h' → Wakes bus l h
  | ⟨l', h', h1, hs⟩ => ⟨l', h', .irq hi h1, hs⟩

theorem Wakes.fire (hc : Can bus l h l' h') : Wakes bus l' h' → Wakes bus l h
  | ⟨l', h', h1, hs⟩ => ⟨l', h', .fire hc h1, hs⟩

theorem Wakes.here (hs : l.current_state = states.WAKING_UP) : Wakes bus l h := ⟨l, h, ⟨[], .nil⟩, hs⟩

theorem wakes_sleeping (hs : l.current_state = states.SLEEPING) (hI : Inv l h) : Wakes bus l h := by
  have hw : l.user.wakeup_timer_flag = 1 := (hI.fits hs).wakeup_timer
  obtain ⟨r, d, hd⟩ := drv_ends bus begin l.driver
  obtain rfl := begin_ends hd
  cases hr : l.em4Reset with
  | false => exact .fire (can_power_up hs hw hr hd) (.here rfl)
  | true =>
    by_cases ht : h.wakeupTimer = 1
    · exact .fire (can_timer_wake hs hw hr ht hd) (.here rfl)
    · exact .fire (can_pin_wake hs hw hr ht hd) (.here rfl)

/-- Once the packet was sent, continuous mode starts the next measurement at once. -/
theorem wakes_sending (hs : l.current_state = states.SENDING_DATA) (hd : l.user.data_sent_flag ≠ 0) :
    Wakes bus l h := by
  by_cases hm : h.change_mode_flag = 0
  · refine .irq (i := .change_mode) rfl (.fire (can_ask_again hs hd ?_) (.here rfl))
    simp [change_mode_callback, hm, cnot]
  · exact .fire (can_ask_again hs hd hm) (.here rfl)

theorem wakes_to_sleep (hs : l.current_state = states.TO_SLEEP) (hp : l.user.sleep_possible_flag ≠ 0) :
    Wakes bus l h := by
  have reset {h : Shared} (hm : h.change_mode_flag ≠ 0) : Wakes bus l h :=
    .fire (can_reset_no_timer l.driver.ads hs hp hm) (wakes_sleeping rfl new_app_fsm_inv)
  by_cases hm : h.change_mode_flag = 0
  · refine .irq (i := .change_mode) rfl (reset ?_)
    simp [change_mode_callback, hm, cnot]
  · exact reset hm

/-- With a sample asked for and `k` more to be sent, counting this one. -/
theorem wakes_asking {k : ℕ} (hs : l.current_state = states.ASKING_FOR_DATA)
    (hn : l.user.num_data_retrieved + k = 4) : Wakes bus l h := by
  induction k generalizing l h with
  | zero =>
    obtain ⟨⟨⟩, d, hd⟩ := drv_ends bus temp_sense_off l.driver
    exact .fire (can_send_ok hs (by omega) hd) (wakes_sending rfl (by simp))
  | succ k ih =>
    -- the conversion ends, the sample is retrieved, and the next state asks for another one
    obtain ⟨v, d, hd⟩ := drv_ends bus read_data_samples l.driver
    obtain ⟨l₁, hw⟩ := store_ends { retrieving l with driver := d } l.user.num_data_retrieved v
    have hready : (ready_to_retrieve_callback 2 h).data_ready_flag ≠ 0 := by
      simp [ready_to_retrieve_callback]
    refine .irq (i := .data_ready) rfl (.fire (can_retrieve hs (by omega) hready hd hw) ?_)
    obtain ⟨s, rfl⟩ := stored hw
    rcases Nat.eq_zero_or_pos k with rfl | hk
    · refine .fire (can_ask_all rfl ?_) (ih rfl ?_)
      · simp only [retrieving]; omega
      · simp only [asking, counted, retrieving]; omega
    · obtain ⟨⟨⟩, d₁, hd₁⟩ := drv_ends bus temp_sense_on d
      obtain ⟨⟨⟩, d₂, hd₂⟩ := drv_ends bus start_conv d₁
      refine .fire (can_ask (.inr ⟨rfl, rfl⟩) ?_ hd₁ hd₂) (ih rfl ?_)
      · simp only [counted, retrieving]; omega
      · simp only [asked, asking, counted, retrieving]; omega

theorem wakes_retrieving (hs : l.current_state = states.RETRIEVING_DATA) (hI : Inv l h) : Wakes bus l h := by
  have hle : l.user.num_data_retrieved ≤ 3 := (hI.fits hs).num_le
  have hpos := (hI.fits hs).num_nonneg
  by_cases hn : l.user.num_data_retrieved = 3
  · exact .fire (can_ask_all hs hn) (wakes_asking (k := 0) rfl (by simp only [asking, counted]; omega))
  · obtain ⟨⟨⟩, d₁, hd₁⟩ := drv_ends bus temp_sense_on l.driver
    obtain ⟨⟨⟩, d₂, hd₂⟩ := drv_ends bus start_conv d₁
    refine .fire (can_ask (.inr ⟨hs, rfl⟩) (by simp only [counted]; omega) hd₁ hd₂)
      (wakes_asking (k := (3 - l.user.num_data_retrieved).toNat) rfl ?_)
    simp only [asked, asking, counted]; omega

/-- The packet was not sent, and nothing will change that. -/
def Stuck (l : Local D) : Prop := l.current_state = states.SENDING_DATA ∧ l.user.data_sent_flag = 0

/-- **Every other state has a way out.** -/
theorem wakes_of_not_stuck (hI : Inv l h) (hns : ¬ Stuck l) : Wakes bus l h := by
  obtain ⟨s, hs, hf⟩ := hI
  cases s with
  | SLEEPING => exact wakes_sleeping hs ⟨_, hs, hf⟩
  | WAKING_UP => exact .here hs
  | ASKING_FOR_DATA =>
    have hle : l.user.num_data_retrieved ≤ 4 := hf.num_le
    have hpos := hf.num_nonneg
    exact wakes_asking (k := (4 - l.user.num_data_retrieved).toNat) hs (by omega)
  | RETRIEVING_DATA => exact wakes_retrieving hs ⟨_, hs, hf⟩
  | SENDING_DATA => exact wakes_sending hs fun hd => hns ⟨hs, hd⟩
  | TO_SLEEP => exact wakes_to_sleep hs (by rw [hf.sleep_possible]; decide)

/-- `ask_for_next_data` is entered for the first sample. -/
def asksFirst : Event D → Bool
  | .call (.main (.enter .ask_for_next_data)) _ l _ => l.user.num_data_retrieved = 0
  | _ => false

theorem quiet_asksFirst : Quiet (seen (asksFirst (D := D))) := by
  refine .seen fun o ho r l h => ?_
  unfold asksFirst
  split
  · cases ‹Entry.call _ _ _ _ = _›
    cases ho
  · rfl

/-- From `WAKING_UP`, every `fsm_fire` asks for the first sample. -/
theorem wp_asks (hI : Inv l h) (hs : l.current_state = states.WAKING_UP) :
    wp (firmware bus) (seen asksFirst) app_process_action (fun _ g _ _ => g = true) false l h := by
  have hz : l.user.num_data_retrieved = 0 := le_antisymm (hI.fits hs).num_le (hI.fits hs).num_nonneg
  refine wp_mono (fun _ g' l' h' hf => ?_) (wp_fired quiet_asksFirst hI)
  obtain ⟨d, g₁, h₁, hc, hc'⟩ := hf.of_waking_up hs
  have h1 : g₁ = true := by
    refine hc.seen_of_mem (List.mem_cons_of_mem _ List.mem_cons_self) fun h => ?_
    simp [Made.entry, asksFirst, moved, hz]
  exact hc'.seen_mono (by rw [h1]; rfl)

/-- Another measurement can be started. -/
def CanMeasure (bus : SpiBus D) (l : Local D) (h : Shared) : Prop :=
  ∃ tr l' h', Fires bus l h tr l' h' ∧ ∃ l₁ h₁, .call (.main (.enter .ask_for_next_data)) () l₁ h₁ ∈ tr ∧
    l₁.user.num_data_retrieved = 0

theorem canMeasure_of_wakes (hI : Inv l h) (hw : Wakes bus l h) : CanMeasure bus l h := by
  obtain ⟨l₁, h₁, hlead, hs⟩ := hw
  have hI₁ := hlead.inv hI
  obtain ⟨tr, hr⟩ := hlead
  obtain ⟨tr₁, l₂, h₂, he⟩ := waking_up_ends hI₁ hs
  refine ⟨_, _, _, .task () hr he, ?_⟩
  obtain ⟨e, he, hf⟩ := exists_of_wp_seen (wp_asks hI₁ hs) he
  unfold asksFirst at hf
  split at hf
  · exact ⟨_, _, List.mem_append_right _ he, by simpa using hf⟩
  · cases hf

/-- The last notification of a packet failed. -/
def lastFailed : Event D → Bool
  | .call (.main (.ble (.sl_bt_gatt_server_notify_all c _))) sc _ _ =>
    c = gattdb_temp_1_characteristic ∧ sc ≠ SL_STATUS_OK
  | _ => false

theorem blind_lastFailed : Blind (seen (lastFailed (D := D))) where
  quiet := by
    refine .seen fun o ho r l h => ?_
    unfold lastFailed
    split
    · cases ‹Entry.call _ _ _ _ = _›
      cases ho
    · rfl
  irq g _ _ := Bool.or_false g
  main g o r l h h' ho := by
    rcases o with o | o | o <;> cases ho
    cases o <;> first | rfl | (rename_i c; cases c <;> rfl)

/-- A packet whose last notification fails ends in `Stuck`, and only `stay` keeps it there. -/
theorem Emits.stuck {evs : List (Event D)} {g : Bool} (he : Emits l h evs l') (hI : Inv l h)
    (hg : g = true ↔ Stuck l) : evs.foldl (seen lastFailed) g = true ↔ Stuck l' := by
  -- every other way leaves from a state that is not stuck
  have free {s : states} (hs : l.current_state = s) (hne : s ≠ .SENDING_DATA) : g = false :=
    Bool.eq_false_iff.2 fun h => not_at hs hne (hg.1 h).1
  have sent (hd : l.user.data_sent_flag ≠ 0) : g = false := Bool.eq_false_iff.2 fun h => hd (hg.1 h).2
  rw [foldl_seen]
  cases he with
  | stay s hs ht => simpa using hg
  | power_up hs => simp [free hs, entries, start, Made.entry, lastFailed, Stuck, woken, roused]
  | pin_wake hs => simp [free hs, entries, start, Made.entry, lastFailed, Stuck, woken, roused]
  | timer_wake hs => simp [free hs, entries, start, Made.entry, lastFailed, Stuck, woken, roused]
  | ask hs hn =>
    have hg : g = false := hs.elim (fun hs => free hs.1 (by decide)) fun hs => free hs.1 (by decide)
    simp [hg, entries, start, Made.entry, lastFailed, Stuck, asked, asking]
  | ask_all hs hn => simp [free hs, entries, start, Made.entry, lastFailed, Stuck, asking]
  | retrieve hs hn hw =>
    obtain ⟨s, rfl⟩ := stored hw
    simp [free hs, entries, start, Made.entry, lastFailed, Stuck, retrieving]
  | send_ok s hs hn hk => simp [free hs, entries, start, published, Made.entry, lastFailed, Stuck, hk, strain_ne_temp]
  | send_failed s hs hn hk =>
    have hd := (hI.fits hs).not_sent (by decide)
    simp [entries, start, published, Made.entry, lastFailed, Stuck, hk, sending, hd]
  | ask_again hs hd => simp [sent hd, entries, start, Made.entry, lastFailed, Stuck, again]
  | try_to_sleep hs hd => simp [sent hd, entries, start, Made.entry, lastFailed, Stuck, sleepy, drowsy]
  | reset_timer_sleep hs hes hr =>
    have hno : (entries _ h).any lastFailed = false := List.any_eq_false.2 fun e he => by
      obtain ⟨c, sc, rfl⟩ := hes.mem_entries e he
      exact Bool.false_ne_true
    rw [List.any_append, List.any_cons, List.any_cons, List.any_append, hno]
    simp [free hs, entries, start, Made.entry, lastFailed, Stuck, new_app_fsm]
  | reset_no_timer hs hr => simp [free hs, entries, start, Made.entry, lastFailed, Stuck, new_app_fsm]

/-- **In every run, the machine is stuck once a last notification has failed.** -/
theorem stuck_iff (hb : Boot l₀ h₀) (hr : Runs bus l₀ h₀ tr l h) : Stuck l ↔ ∃ e ∈ tr, lastFailed e = true := by
  have H := run_blind (J := fun g l => g = true ↔ Stuck l) (g := false) blind_lastFailed hb ?_ ?_ ?_ ?_ hr
  · rw [← H, foldl_seen, Bool.false_or, List.any_eq_true]
  · obtain ⟨_, _, _, _, _, heq⟩ := hb
    cases heq
    exact iff_of_false Bool.false_ne_true fun hs => by cases hs.1
  · exact fun g l h evs l' hI hJ he => he.stuck hI hJ
  · intro g l b sc l₁ h hb hJ
    have hg : seen lastFailed g (.call (.main (.ble b)) sc l₁ h) = g := by
      cases b <;> first | exact Bool.or_false g | cases hb
    rwa [hg]
  · exact fun g l set n cs hJ => hJ

/-- **No row leads out.** -/
theorem Fired.stuck {G : Type} {μ : G → Event D → G} {g g' : G} (hf : Fired bus μ g l h g' l' h') (hst : Stuck l) :
    l' = l ∧ Irqs (firmware bus) μ g h g' h' := by
  have no {s : states} (hs : l.current_state = s) (hne : s ≠ .SENDING_DATA) : False :=
    not_at hs hne hst.1
  cases hf with
  | stay s hs ht hi => exact ⟨rfl, hi⟩
  | ask_again hs hd | try_to_sleep hs hd => exact absurd hst.2 hd
  | ask hs => exact (hs.elim (fun hs => no hs.1 (by decide)) fun hs => no hs.1 (by decide)).elim
  | power_up hs | pin_wake hs | timer_wake hs | ask_all hs | retrieve hs | send_ok s hs | send_failed s hs
  | reset_timer_sleep hs | reset_no_timer hs => exact (no hs (by decide)).elim

theorem Stuck.not_canMeasure (hs : Stuck l) (hI : Inv l h) : ¬ CanMeasure bus l h := by
  rintro ⟨tr, l', h', hr, l₁, h₁, he, hn⟩
  have H := Run.invariant (I := fun g l h => g = false ∧ Inv l h ∧ Stuck l) (μ := seen asksFirst) (g := false)
    ⟨rfl, hI, hs⟩ ?_ ?_ hr
  · rw [foldl_seen, Bool.false_or] at H
    exact List.any_eq_false.1 H.1 _ he (by simpa [asksFirst] using hn)
  · exact fun i g l h h' _ hi hI => ⟨by rw [hI.1]; rfl, hI.2.1.handle hi, hI.2.2⟩
  · rintro ⟨⟩ g l h - ⟨rfl, hI, hs⟩
    refine wp_mono (fun _ g' l' h' hf => ?_) (wp_fired quiet_asksFirst hI)
    obtain ⟨rfl, hi⟩ := hf.stuck hs
    exact ⟨hi.ghost_eq fun g _ _ => Bool.or_false g, hI.irqs hi, hs⟩

/-- **Another measurement can be started** in a reachable state exactly when every last
notification so far has succeeded. -/
theorem live_iff (hb : Boot l₀ h₀) (hr : Runs bus l₀ h₀ tr l h) :
    CanMeasure bus l h ↔ ∀ e ∈ tr, lastFailed e = false := by
  have hI := run_inv hb hr
  have hst : Stuck l ↔ ¬ ∀ e ∈ tr, lastFailed e = false := by simpa using stuck_iff hb hr
  by_cases hs : Stuck l
  · exact iff_of_false (hs.not_canMeasure hI) (hst.1 hs)
  · exact iff_of_true (canMeasure_of_wakes hI (wakes_of_not_stuck hI hs)) (not_not.1 (mt hst.2 hs))

theorem live_iff_bench : ∃ tr l h, Runs anyBus (booted false false).1 (booted false false).2 tr l h ∧
    l.current_state = states.SENDING_DATA ∧ (CanMeasure anyBus l h ↔ ∀ e ∈ tr, lastFailed e = false) := by
  obtain ⟨tr, l, h, hr, hs⟩ := bench_run quietBench (fires 1 ++ measurement)
    (P := fun _ l _ => l.current_state = states.SENDING_DATA) (by decide +kernel)
  exact ⟨tr, l, h, hr, hs, live_iff booted_boot hr⟩

/-- A BLE stack that fails the last notification. -/
def lastFails : BleCall → sl_status_t
  | .sl_bt_gatt_server_notify_all c _ => if c = gattdb_temp_1_characteristic then 1 else SL_STATUS_OK
  | _ => SL_STATUS_OK

/-- A failed notification ends the measurements. -/
theorem never_again : ∃ tr l h, Runs anyBus (booted false false).1 (booted false false).2 tr l h ∧
    l.current_state = states.SENDING_DATA ∧ ¬ CanMeasure anyBus l h := by
  obtain ⟨tr, l, h, hr, hs⟩ := bench_run (bench lastFails fun _ _ _ => []) (fires 1 ++ measurement)
    (P := fun _ l _ => l.current_state = states.SENDING_DATA ∧ l.user.data_sent_flag = 0) (by decide +kernel)
  exact ⟨tr, l, h, hr, hs.1, Stuck.not_canMeasure hs (run_inv booted_boot hr)⟩

end M20Strain
