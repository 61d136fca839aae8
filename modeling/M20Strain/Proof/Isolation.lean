import M20Strain.Interrupt.Unwind
import M20Strain.Proof.Live
import M20Strain.Proof.Tasks

/-!
# Events and the measurement

`isolated_iff`: the events of the Bluetooth stack have no influence on the measurement. What a run
shows of it, with its interrupts, a run without events can show, and the two end in states that
differ in the records of `app.c` only. What `reset_timer_sleep` reads of these records decides which
connections it closes, not how many.
-/

namespace M20Strain

open Interrupt Prog

variable {D : Type} {bus : SpiBus D} {l l' m : Local D} {h h' : Shared} {o : Op}

/-- All calls but those that set up and record connections are seen, with their answers; of a connection
that is closed, that it is closed. -/
def measured : (o : Op) → o.Resp → Option (Σ o : Op, o.Resp)
  | .main (.ble (.sl_bt_connection_close _)), sc => some ⟨.main (.ble (.sl_bt_connection_close 0)), sc⟩
  | o, r => if o.connecting then none else some ⟨o, r⟩

/-- The same state, but for the records of `app.c`. -/
def UpToRecords (l m : Local D) : Prop :=
  ∃ set n cs, m = { l with advertising_set_handle := set, nConnections := n, connections := cs }

theorem upToRecords_equivalence : Equivalence (UpToRecords (D := D)) where
  refl l := ⟨l.advertising_set_handle, l.nConnections, l.connections, rfl⟩
  symm := by
    rintro l _ ⟨_, _, _, rfl⟩
    exact ⟨l.advertising_set_handle, l.nConnections, l.connections, rfl⟩
  trans := by
    rintro l _ _ ⟨_, _, _, rfl⟩ ⟨set, n, cs, rfl⟩
    exact ⟨set, n, cs, rfl⟩

theorem measured_connecting (ho : o.connecting = true) (r : o.Resp) : measured o r = none := by
  unfold measured
  split
  · cases ho
  · rw [if_pos ho]

theorem load_connection {i : ℕ} {c : UInt8} (hs : (MainOp.rd_connections i).step c l = some l') : l' = l := by
  by_cases hi : i < 10
  · obtain ⟨-, h2⟩ := Option.ite_none_right_eq_some.1 ((dif_pos hi).symm.trans hs)
    exact (Option.some.inj h2).symm
  · exact (Option.some.inj ((dif_neg hi).symm.trans hs)).symm

/-- A load is answered, also one past the end of the table. -/
theorem connection_loaded (l : Local D) (i : ℕ) : ∃ c, (MainOp.rd_connections i).step c l = some l := by
  by_cases hi : i < 10
  · exact ⟨l.connections ⟨i, hi⟩, (dif_pos hi).trans (if_pos rfl)⟩
  · exact ⟨0, dif_neg hi⟩

theorem hides_connecting (ho : o.connecting = true) : Hides (firmware bus) UpToRecords measured o := by
  intro r l h l₁ h₁ hs
  have hsee := measured_connecting ho r
  cases o with
  | drv o | shr o => cases ho
  | main o =>
    obtain ⟨l₂, h2, heq⟩ := Option.map_eq_some_iff.1 hs
    obtain ⟨rfl, rfl⟩ := Prod.mk.inj heq
    refine ⟨rfl, ?_, hsee⟩
    cases o with
    | wr_nConnections n | wr_advertising_set_handle s =>
      cases h2
      exact ⟨_, _, _, rfl⟩
    | wr_connections i c =>
      obtain ⟨_, h2⟩ := Option.dite_none_right_eq_some.1 h2
      cases h2
      exact ⟨_, _, _, rfl⟩
    | rd_nConnections | rd_advertising_set_handle | app_assert_status sc =>
      obtain ⟨-, h2⟩ := Option.ite_none_right_eq_some.1 h2
      cases h2
      exact upToRecords_equivalence.refl l
    | rd_connections i =>
      rw [load_connection h2]
      exact upToRecords_equivalence.refl l
    | ble c | sl_bt_system_get_identity_address | sl_bt_advertiser_create_set =>
      cases h2
      exact upToRecords_equivalence.refl l
    | _ => cases ho

theorem unaffected_drv (o : DrvOp) : Unaffected (firmware bus) UpToRecords (.drv o) := by
  rintro r l h _ _ _ hs ⟨set, n, cs, rfl⟩
  obtain ⟨d, hd, heq⟩ := Option.map_eq_some_iff.1 hs
  obtain ⟨rfl, rfl⟩ := Prod.mk.inj heq
  exact ⟨_, Option.map_eq_some_iff.2 ⟨d, hd, rfl⟩, set, n, cs, rfl⟩

theorem unaffected_shr (o : ShrOp) : Unaffected (firmware bus) UpToRecords (.shr o) := by
  rintro r l h _ _ _ hs ⟨set, n, cs, rfl⟩
  change o.step r l h = some _ at hs
  cases o with
  | rd f | rd_wakeupTimer | sl_sleeptimer_is_timer_running =>
    obtain ⟨hr, h2⟩ := Option.ite_none_right_eq_some.1 hs
    cases h2
    exact ⟨_, if_pos hr, set, n, cs, rfl⟩
  | wr f v | wr_wakeupTimer v | sl_sleeptimer_stop_timer =>
    cases hs
    exact ⟨_, rfl, set, n, cs, rfl⟩
  | sl_sleeptimer_start_timer t =>
    by_cases hrun : h.timerRunning = true
    · obtain ⟨hr, h2⟩ := Option.ite_none_right_eq_some.1 ((if_pos hrun).symm.trans hs)
      cases h2
      exact ⟨_, (if_pos hrun).trans (if_pos hr), set, n, cs, rfl⟩
    · obtain ⟨hr, h2⟩ := Option.ite_none_right_eq_some.1 ((if_neg hrun).symm.trans hs)
      cases h2
      exact ⟨_, (if_neg hrun).trans (if_pos hr), set, n, cs, rfl⟩
  | EMU_EnterEM4 =>
    cases hs
    exact ⟨_, rfl, upToRecords_equivalence.refl _⟩

theorem unaffected_main {o : MainOp} (ho : (Op.main o).Steady false false) :
    Unaffected (firmware bus) UpToRecords (.main o) := by
  rintro r l h l₁ _ _ hs ⟨set, n, cs, rfl⟩
  obtain ⟨l₂, h2, heq⟩ := Option.map_eq_some_iff.1 hs
  obtain ⟨rfl, rfl⟩ := Prod.mk.inj heq
  suffices hm : ∃ m, UpToRecords l₂ m ∧
      o.step r { l with advertising_set_handle := set, nConnections := n, connections := cs } = some m by
    obtain ⟨m, hl, hm⟩ := hm
    exact ⟨m, Option.map_eq_some_iff.2 ⟨m, hm, rfl⟩, hl⟩
  cases o with
  | rd_current_state | rd f | rd_num_data_retrieved | rd_sensor_data k | rd_nConnections_ptr | RMU_ResetCauseGet =>
    obtain ⟨hr, h2⟩ := Option.ite_none_right_eq_some.1 h2
    cases h2
    exact ⟨_, ⟨set, n, cs, rfl⟩, if_pos hr⟩
  | wr_sensor_data k v =>
    by_cases hk : 0 ≤ k ∧ k.toNat < 4
    · cases (dif_pos hk).symm.trans h2
      exact ⟨_, ⟨set, n, cs, rfl⟩, dif_pos hk⟩
    · cases (dif_neg hk).symm.trans h2
      exact ⟨_, ⟨set, n, cs, rfl⟩, dif_neg hk⟩
  | rd_nConnections | rd_connections i | wr_connections i c | rd_advertising_set_handle | app_assert_status sc =>
    cases ho
  | undefined_behaviour => cases ho
  | _ =>
    cases h2
    exact ⟨_, ⟨_, _, _, rfl⟩, rfl⟩

theorem unaffected_enter (f : Routine) : Unaffected (firmware bus) UpToRecords (.main (.enter f)) := by
  rintro r l h l₁ _ _ hs ⟨set, n, cs, rfl⟩
  cases hs
  exact ⟨_, rfl, set, n, cs, rfl⟩

theorem unaffected_proper (ho : o.Proper false false) : Unaffected (firmware bus) UpToRecords o := by
  cases o with
  | drv o => exact unaffected_drv o
  | shr o => exact unaffected_shr o
  | main o =>
    rcases ho with ho | ho
    · exact unaffected_main ho
    · cases ho

theorem mimics_own (o : MainOp) (ho : (Op.main o).Steady false false) :
    Mimics (firmware bus) UpToRecords measured (own o) (own o) := .refl (all_own.2 (unaffected_main ho))

theorem mimics_shr (o : ShrOp) : Mimics (firmware bus) UpToRecords measured (shr o) (shr o) :=
  .refl (AllCalls.op_iff.2 (unaffected_shr o))

theorem mimics_fsm_fire {tt : List (fsm_trans_t AppM)}
    (hin : ∀ t ∈ tt, ∀ guard ∈ t.input, Mimics (firmware bus) UpToRecords measured guard guard)
    (hout : ∀ t ∈ tt, ∀ out ∈ t.out, Mimics (firmware bus) UpToRecords measured out out) :
    Mimics (firmware bus) UpToRecords measured
      (fsm_fire (own .rd_current_state) (fun s => own (.wr_current_state s)) tt)
      (fsm_fire (own .rd_current_state) (fun s => own (.wr_current_state s)) tt) := by
  induction tt with
  | nil => rfl
  | cons t tt ih =>
    have ih := ih (fun t ht => hin t (List.mem_cons_of_mem _ ht)) fun t ht => hout t (List.mem_cons_of_mem _ ht)
    unfold fsm_fire
    split
    · rfl
    refine (mimics_own .rd_current_state trivial).bind fun s => ?_
    split
    · split
      · rfl
      rename_i guard hguard
      refine (hin t List.mem_cons_self guard hguard).bind fun b => ?_
      split
      · refine (mimics_own (.wr_current_state t.dest_state) trivial).bind fun _ => ?_
        split
        · rename_i out hout'
          exact (hout t List.mem_cons_self out hout').bind fun _ => rfl
        · rfl
      · exact ih
    · exact ih

/-- The two loops may close different connections. -/
theorem mimics_close (n i : ℕ) :
    Mimics (firmware bus) UpToRecords measured (close_connections n i) (close_connections n i) := by
  induction n generalizing i with
  | zero => rfl
  | succ n ih =>
    have hclose (c c' : UInt8) : Mimics (firmware bus) UpToRecords measured
        (own (.ble (.sl_bt_connection_close c)) >>= fun _ => close_connections n (i + 1))
        (own (.ble (.sl_bt_connection_close c')) >>= fun _ => close_connections n (i + 1)) := by
      refine ⟨_, _, rfl, ?_⟩
      intro sc l h l₁ h₁ m hs hm
      cases hs
      exact ⟨sc, m, rfl, hm, rfl, ih (i + 1)⟩
    refine ⟨_, _, rfl, ?_⟩
    intro c l h l₁ h₁ m hs hm
    obtain ⟨l₂, h2, heq⟩ := Option.map_eq_some_iff.1 hs
    obtain ⟨rfl, rfl⟩ := Prod.mk.inj heq
    obtain ⟨c', hc⟩ := connection_loaded m i
    rw [load_connection h2]
    exact ⟨c', m, Option.map_eq_some_iff.2 ⟨m, hc, rfl⟩, hm, rfl, hclose c c'⟩

theorem mimics_reset_timer_sleep :
    Mimics (firmware bus) UpToRecords measured reset_timer_sleep reset_timer_sleep := by
  unfold reset_timer_sleep
  refine Mimics.bind (.refl (all_own.2 (unaffected_enter .reset_timer_sleep))) fun _ => ?_
  refine (mimics_own (.wr .sleep_possible_flag 0) trivial).bind fun _ => ?_
  refine (mimics_shr (.wr .tmr_flag 0)).bind fun _ => (mimics_shr .sl_sleeptimer_stop_timer).bind fun _ => ?_
  refine (mimics_own .rd_nConnections_ptr trivial).bind fun n => (mimics_close n.val 0).bind fun _ => ?_
  refine (mimics_own .GPIO_EM4EnablePinWakeup trivial).bind fun _ => ?_
  exact (mimics_shr .EMU_EnterEM4).bind fun _ => rfl

theorem mimics_app_process_action :
    Mimics (firmware bus) UpToRecords measured app_process_action app_process_action := by
  refine (mimics_fsm_fire ?_ ?_).bind fun _ => rfl
  · intro t ht guard hg
    exact .refl ((plain_guards t ht guard hg).imp fun _ ho => unaffected_proper (.inl ho.steady))
  · intro t ht out ho
    rcases (actions_last t ht out ho).2 with rfl | hout
    · exact mimics_reset_timer_sleep
    · exact .refl (hout.imp fun _ => unaffected_proper)

/-- What a trace shows of the measurement, with the interrupts. -/
def shown (tr : List (Event D)) : List ((Σ o : Op, o.Resp) ⊕ Irq) := tr.filterMap (Entry.shown measured)

/-- A task hides, or is `app_process_action`, which mimics itself. -/
theorem task_isolated (t : Task) : AllCalls (Hides (firmware bus) UpToRecords measured) t.body ∨
    ∃ _ : Unit, Mimics (firmware bus) UpToRecords measured t.body app_process_action := by
  cases t with
  | app_process_action => exact .inr ⟨(), mimics_app_process_action⟩
  | sl_bt_on_event evt => exact .inl ((connecting_sl_bt_on_event evt).imp fun _ => hides_connecting)

/-- **Events of the Bluetooth stack have no influence on the measurement**, nor have the records of
`app.c` that the run starts with. -/
theorem isolated_iff {w : List ((Σ o : Op, o.Resp) ⊕ Irq)} {set : UInt8} {n : ℕ} {cs : Fin 10 → UInt8} :
    (∃ tr m, Runs bus l h tr m h' ∧ shown tr = w ∧ UpToRecords l' m) ↔
      ∃ tr m, Fires bus { l with advertising_set_handle := set, nConnections := n, connections := cs } h tr m h' ∧
        shown tr = w ∧ UpToRecords l' m := by
  have hl : UpToRecords l { l with advertising_set_handle := set, nConnections := n, connections := cs } :=
    ⟨set, n, cs, rfl⟩
  constructor
  · rintro ⟨tr, m, hr, rfl, hm⟩
    obtain ⟨tr', m', hf, hm', heq⟩ := hr.unwind upToRecords_equivalence task_isolated hl
    exact ⟨tr', m', hf, heq, upToRecords_equivalence.trans hm hm'⟩
  · rintro ⟨tr, m, hf, rfl, hm⟩
    -- the other way, no task hides
    have hfire (_ : Unit) : AllCalls (Hides (firmware bus) UpToRecords measured) app_process_action ∨
        ∃ t : Task, Mimics (firmware bus) UpToRecords measured app_process_action t.body :=
      .inr ⟨.app_process_action, mimics_app_process_action⟩
    obtain ⟨tr', m', hr, hm', heq⟩ := Run.unwind upToRecords_equivalence hfire hf (upToRecords_equivalence.symm hl)
    exact ⟨tr', m', hr, heq, upToRecords_equivalence.trans hm hm'⟩

end M20Strain
