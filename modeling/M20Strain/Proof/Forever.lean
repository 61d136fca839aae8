import M20Strain.Interrupt.Forever
import M20Strain.Proof.BootFirst
import M20Strain.Proof.Mode
import M20Strain.Proof.Station
import M20Strain.Proof.Target

/-!
# Packets for ever

`forever_iff`: in a fair environment, the target sends packets again and again exactly when no
last notification of a packet fails and no pass takes the way to sleep by the timer. Each pass that
takes a row comes closer to the next packet (`rank`), and a state without a row to take waits for a
flag that comes (`wp_moves`).
-/

namespace M20Strain

open Filter Interrupt Prog

variable {D : Type} {bus : SpiBus D} {l l' : Local D} {h h' : Shared} {tr : List (Event D)}

/-- How many rows are taken before the next packet, counted from the state with `num` samples. -/
def states.rank (num : Int) : states → ℕ
  | SENDING_DATA => 12
  | TO_SLEEP => 11
  | SLEEPING => 10
  | WAKING_UP => 9
  | ASKING_FOR_DATA => 2 * (4 - num).toNat
  | RETRIEVING_DATA => 2 * (3 - num).toNat + 1

def rank (l : Local D) : ℕ := (state l).rank l.user.num_data_retrieved

theorem rank_eq {s : states} (hs : l.current_state = s) : rank l = s.rank l.user.num_data_retrieved := by
  unfold rank
  rw [state_eq hs]

/-- **One `fsm_fire` lowers the rank**, unless it takes no row or sends the packet. -/
theorem Fired.rank_lt {G : Type} {μ : G → Event D → G} {g g' : G} (hI : Inv l h)
    (hf : Fired bus μ g l h g' l' h') (hd : ¬ Due l) :
    (l' = l ∧ Irqs (firmware bus) μ g h g' h') ∨ rank l' < rank l := by
  have lower {s : states} (s' : states) (hs : l.current_state = s) (hs' : l'.current_state = s')
      (hlt : s'.rank l'.user.num_data_retrieved < s.rank l.user.num_data_retrieved) : rank l' < rank l := by
    rw [rank_eq hs, rank_eq hs']
    exact hlt
  cases hf with
  | stay s hs ht hi => exact .inl ⟨rfl, hi⟩
  | power_up hs | pin_wake hs | timer_wake hs =>
    exact .inr (lower .WAKING_UP hs rfl (by simp [states.rank]))
  | ask hs hn =>
    refine .inr ?_
    obtain ⟨hs, rfl⟩ | ⟨hs, rfl⟩ := hs
    · have hpos := (hI.fits hs).num_nonneg
      refine lower .ASKING_FOR_DATA hs rfl ?_
      simp only [states.rank, asked, asking]
      omega
    · have hpos := (hI.fits hs).num_nonneg
      refine lower .ASKING_FOR_DATA hs rfl ?_
      simp only [states.rank, asked, asking, counted] at hn ⊢
      omega
  | ask_all hs hn =>
    refine .inr (lower .ASKING_FOR_DATA hs rfl ?_)
    simp only [states.rank, asking, counted]
    omega
  | retrieve hs hn hi hr hc hdr hw =>
    have hpos := (hI.fits hs).num_nonneg
    obtain ⟨s, rfl⟩ := stored hw
    refine .inr (lower .RETRIEVING_DATA hs rfl ?_)
    simp only [states.rank, retrieving]
    omega
  | send_ok s hs hn | send_failed s hs hn => exact absurd ⟨hs, hn⟩ hd
  | ask_again hs => exact .inr (lower .WAKING_UP hs rfl (by simp [states.rank]))
  | try_to_sleep hs => exact .inr (lower .TO_SLEEP hs rfl (by simp [states.rank]))
  | reset_timer_sleep hs | reset_no_timer hs =>
    exact .inr (lower .SLEEPING hs rfl (by simp [states.rank]))

/-- A row is taken. -/
def isRow : Event D → Bool
  | .call (.main (.wr_current_state _)) _ _ _ => true
  | _ => false

def isIrq (i : Irq) : Event D → Bool
  | .irq j _ => j = i
  | _ => false

/-- The flags that the state waits for are set. -/
structure Ready (l : Local D) (h : Shared) : Prop where
  data : l.current_state = states.ASKING_FOR_DATA → l.user.num_data_retrieved < 4 → h.data_ready_flag ≠ 0
  timer : l.current_state = states.TO_SLEEP → h.tmr_flag ≠ 0

theorem Ready.handle {i : Irq} (hr : Ready l h) (hi : handle i h = some h') : Ready l h' := by
  refine ⟨?_, ?_⟩
  · intro hs hn
    have hd := hr.data hs hn
    cases i with
    | data_ready =>
      cases hi
      simp [ready_to_retrieve_callback]
    | sleeptimer =>
      simp only [M20Strain.handle] at hi
      split at hi <;> cases hi
      exact hd
    | change_mode | burtc =>
      cases hi
      exact hd
  · intro hs
    have ht := hr.timer hs
    rcases handle_timer hi with ⟨h1, -⟩ | ⟨-, -, h1, -⟩
    · rw [h1]
      exact ht
    · rw [h1]
      decide

/-- A row is taken, or the button was pressed. -/
def moves (e : Event D) : Bool := isRow e || isIrq .change_mode e

theorem quiet_moves : Quiet (seen (moves (D := D))) := by
  refine .seen fun o ho r l h => ?_
  unfold moves isRow
  split
  · rename_i heq
    cases heq
    cases ho
  · rfl

theorem row_moves {s : states} {out : AppM Unit} {g : Bool} :
    wp (firmware bus) (seen moves) (row s out) (fun _ g _ _ => g = true) g l h := by
  rw [row, own, Prog.op, call_bind]
  refine wp_call.2 ?_
  intro g₁ h₁ _ _ l₁ h₂ _
  refine wp_of_forall (fun g e hg => by rw [seen, hg, Bool.true_or]) ?_
  exact Bool.or_true g₁

/-- Handlers keep the mode, unless the button is pressed. -/
theorem mode_kept {g g' : Bool} {m : UInt8} (hi : Irqs (firmware bus) (seen moves) g h g' h')
    (hg : g = true ∨ h.change_mode_flag = m) : g' = true ∨ h'.change_mode_flag = m := by
  refine Irqs.stable (P := fun g h => g = true ∨ h.change_mode_flag = m) ?_ hi hg
  intro i g h h' hi hg
  by_cases hne : i = .change_mode
  · subst hne
    exact .inl (Bool.or_true g)
  · rcases hg with hg | hm
    · exact .inl (by rw [seen, hg, Bool.true_or])
    · exact .inr ((handle_mode hi hne).trans hm)

theorem Ready.irqs {G : Type} {μ : G → Event D → G} {g g' : G} (hr : Ready l h)
    (hi : Irqs (firmware bus) μ g h g' h') : Ready l h' :=
  Irqs.stable (P := fun _ h => Ready l h) (fun _ _ _ _ hi hr => hr.handle hi) hi hr

/-- **Once the flags are set a row is taken**, unless the button is pressed. -/
theorem wp_moves (hI : Inv l h) (hst : ¬ Stuck l) (hr : Ready l h) :
    wp (firmware bus) (seen moves) app_process_action (fun _ g _ _ => g = true) false l h := by
  have pressed {p : AppM Unit} {g : Bool} {h : Shared} (hg : g = true) :
      wp (firmware bus) (seen moves) p (fun _ g _ _ => g = true) g l h :=
    wp_of_forall (fun g e hg => by rw [seen, hg, Bool.true_or]) hg
  obtain ⟨s, hs, hf⟩ := hI
  cases s with
  | SLEEPING => exact ((fire_sleeping hs hf.wakeup_timer).wp quiet_moves _ _ _).2 row_moves
  | WAKING_UP => exact ((fire_waking_up hs hf.wakeup_completed).wp quiet_moves _ _ _).2 row_moves
  | RETRIEVING_DATA => exact ((fire_retrieving hs).wp quiet_moves _ _ _).2 row_moves
  | ASKING_FOR_DATA =>
    have hn : l.user.num_data_retrieved ≤ 4 := hf.num_le
    rcases hn.lt_or_eq with hn | hn
    · refine ((fire_asking hs hn.ne).wp quiet_moves _ _ _).2 (wp_iff_wpAfter.2 ((after_rd quiet_moves).2 ?_))
      intro g₁ h₁ hi
      rw [← wp_iff_wpAfter, if_pos (by exact (hr.irqs hi).data hs hn)]
      exact row_moves
    · exact ((fire_asking_all hs hn).wp quiet_moves _ _ _).2 row_moves
  | SENDING_DATA =>
    have hd : l.user.data_sent_flag ≠ 0 := fun hd => hst ⟨hs, hd⟩
    refine ((fire_sending hs hd).wp quiet_moves _ _ _).2 (wp_iff_wpAfter.2 ((after_rd quiet_moves).2 ?_))
    intro g₁ h₁ hi₁
    rw [← wp_iff_wpAfter]
    split
    · exact row_moves
    rename_i hm₁
    have hm₁ : h₁.change_mode_flag = 0 := not_not.1 hm₁
    refine wp_iff_wpAfter.2 ((after_rd quiet_moves).2 fun g₂ h₂ hi₂ => ?_)
    rw [← wp_iff_wpAfter]
    rcases mode_kept hi₂ (.inr hm₁) with hg | hm₂
    · exact pressed hg
    · rw [if_pos (by exact hm₂)]
      exact row_moves
  | TO_SLEEP =>
    have hp : l.user.sleep_possible_flag ≠ 0 := by
      rw [hf.sleep_possible]
      decide
    refine ((fire_to_sleep hs hp).wp quiet_moves _ _ _).2 (wp_iff_wpAfter.2 ((after_rd quiet_moves).2 ?_))
    intro g₁ h₁ hi₁
    have hr₁ := hr.irqs hi₁
    rw [← wp_iff_wpAfter]
    split
    · refine wp_iff_wpAfter.2 ((after_rd quiet_moves).2 fun g₂ h₂ hi₂ => ?_)
      rw [← wp_iff_wpAfter, if_pos (by exact (hr₁.irqs hi₂).timer hs)]
      exact row_moves
    · rename_i hm₁
      refine wp_iff_wpAfter.2 ((after_rd quiet_moves).2 fun g₂ h₂ hi₂ => ?_)
      rw [← wp_iff_wpAfter]
      rcases mode_kept hi₂ (.inr rfl) with hg | hm₂
      · exact pressed hg
      · rw [if_pos (by exact fun hz => hm₁ (hm₂.symm.trans hz))]
        exact row_moves

/-- Handlers keep `P`, and those that `c` marks establish it. -/
structure Raises (c : Event D → Bool) (P : Shared → Prop) : Prop where
  call : ∀ o r l h, c (.call o r l h) = false
  keep : ∀ i h h', handle i h = some h' → P h → P h'
  raise : ∀ i h h', c (.irq i h) = true → handle i h = some h' → P h'

variable {c : Event D → Bool} {P : Shared → Prop} {g g' : Bool}

theorem Raises.irq (hc : Raises c P) {i : Irq} (hi : handle i h = some h') (hg : g = true → P h) :
    seen c g (.irq i h) = true → P h' := by
  intro hor
  rcases Bool.or_eq_true_iff.1 hor with hg' | hci
  · exact hc.keep _ _ _ hi (hg hg')
  · exact hc.raise _ _ _ hci hi

theorem Raises.irqs (hc : Raises c P) (hi : Irqs (firmware bus) (seen c) g h g' h') :
    (g = true → P h) → g' = true → P h' :=
  Irqs.stable (P := fun g h => g = true → P h) (fun _ _ _ _ hi hg => hc.irq hi hg) hi

/-- A call that has nothing to do with what handlers share. -/
def Op.unshared : Op → Bool
  | .shr _ => false
  | _ => true

theorem unshared_shared {o : Op} {r : o.Resp} (ho : o.unshared = true)
    (hs : (firmware bus).step o r l h = some (l', h')) : h' = h := by
  cases o with
  | drv o | main o =>
    obtain ⟨x, -, heq⟩ := Option.map_eq_some_iff.1 hs
    exact (Prod.mk.inj heq).2.symm
  | shr o => cases ho

theorem allCalls_unshared (evt : Option sl_bt_evt) : AllCalls (fun o => o.unshared = true) (sl_bt_step evt) := by
  cases evt with
  | none => trivial
  | some evt =>
    refine (connecting_sl_bt_on_event evt).imp ?_
    intro o ho
    cases o with
    | drv o | main o => rfl
    | shr o => cases ho

/-- The event handler leaves the flags to the interrupts. -/
theorem handler_raises {evt : Option sl_bt_evt} (hc : Raises c P)
    (he : Exec (firmware bus) (sl_bt_step evt) l h tr () l' h') (hp : P h ∨ tr.any c = true) : P h' := by
  have H (b : Bool) (hb : b = true → P h) : tr.foldl (seen c) b = true → P h' := by
    refine AllCalls.preserves (I := fun g _ h => g = true → P h) ?_ ?_ (allCalls_unshared evt) he hb
    · intro g o r l h l' h' ho hs hg
      rw [unshared_shared ho hs, seen, hc.call, Bool.or_false]
      exact hg
    · exact fun g i l h h' hi hg => hc.irq hi hg
  rcases hp with hp | hany
  · exact H true (fun _ => hp) (by rw [foldl_seen, Bool.true_or])
  · exact H false (fun hf => absurd hf Bool.false_ne_true) (by rw [foldl_seen, hany, Bool.or_true])

theorem Raises.quiet (hc : Raises c P) : Quiet (seen c) := .seen fun o _ r l h => hc.call o r l h

/-- An `fsm_fire` that lowers no rank takes no row. -/
theorem fire_stays (hI : Inv l h) (hd : ¬ Due l) (hlow : ¬ rank l' < rank l)
    (he : Exec (firmware bus) app_process_action l h tr () l' h') :
    l' = l ∧ (∀ e ∈ tr, isRow e = false) ∧
      ∀ (c : Event D → Bool) (P : Shared → Prop), Raises c P → P h ∨ tr.any c = true → P h' := by
  have stay {G : Type} {μ : G → Event D → G} (hμ : Quiet μ) (g : G) :
      l' = l ∧ Irqs (firmware bus) μ g h (tr.foldl μ g) h' :=
    ((wp_iff.1 (wp_fired hμ hI) _ _ _ _ he).rank_lt hI hd).resolve_right hlow
  have quiet_isRow : Quiet (seen (isRow (D := D))) := by
    refine .seen fun o ho r l h => ?_
    unfold isRow
    split
    · rename_i heq
      cases heq
      cases ho
    · rfl
  obtain ⟨hl, hrow⟩ := stay quiet_isRow false
  refine ⟨hl, ?_, ?_⟩
  · have hnone := hrow.ghost_eq fun g i h => Bool.or_false g
    rw [foldl_seen, Bool.false_or, List.any_eq_false] at hnone
    exact fun e he => Bool.eq_false_iff.2 (hnone e he)
  · intro c P hc hp
    rcases hp with hp | hany
    · exact hc.irqs (stay hc.quiet true).2 (fun _ => hp) (by rw [foldl_seen, Bool.true_or])
    · refine hc.irqs (stay hc.quiet false).2 (fun hf => absurd hf Bool.false_ne_true) ?_
      rw [foldl_seen, hany, Bool.or_true]

theorem quiet_isPacket : Quiet (seen (isPacket (D := D))) := by
  refine .seen fun o ho r l h => ?_
  unfold isPacket
  split
  · rename_i heq
    cases heq
    cases ho
  · rfl

theorem due_packet (hd : Due l) (he : Exec (firmware bus) app_process_action l h tr () l' h') :
    ∃ e ∈ tr, isPacket e = true := by
  refine exists_of_wp_seen ?_ he
  refine ((fire_asking_all hd.1 hd.2).wp quiet_isPacket _ _ _).2 (wp_send quiet_isPacket ?_ ?_)
  · intro s d g' h' _ _ hc
    refine hc.seen_of_mem (e := did (.enter (.sl_bt_torque_send_data (samples l))) () (sending l d)) ?_ fun _ => rfl
    simp [publishing, published]
  · intro s d g' h' _ _ hc
    refine hc.seen_of_mem (e := did (.enter (.sl_bt_torque_send_data (samples l))) () (sending l d)) ?_ fun _ => rfl
    simp [publishing, published]

namespace Forever

variable {r : Forever bus l h} {n : ℕ}

/-- The interrupt comes in pass `n`. -/
def Interrupted (r : Forever bus l h) (i : Irq) (n : ℕ) : Prop := (r.pass n).trace.any (isIrq i) = true

/-- A conversion is waited for. -/
def Converts (r : Forever bus l h) (n : ℕ) : Prop :=
  (r.loc n).current_state = states.ASKING_FOR_DATA ∧ (r.loc n).user.num_data_retrieved < 4

/-- **A fair environment**: a conversion that is waited for ends, the sleep timer does not run for
ever, and the button is not pressed in every pass from some time on. -/
structure Fair (r : Forever bus l h) : Prop where
  data : ∀ n, (∀ m, n ≤ m → r.Converts m) → ∃ m, n ≤ m ∧ r.Interrupted .data_ready m
  timer : ∃ᶠ n in atTop, (r.shared n).timerRunning = false
  button : ∃ᶠ n in atTop, ¬ r.Interrupted .change_mode n

/-- The pass sends a packet. -/
def Sends (r : Forever bus l h) (n : ℕ) : Prop := ∃ e ∈ (r.pass n).firing, isPacket e = true

/-- The target makes the passes up to this one, too. -/
def OnTarget (r : Forever bus l h) (connections : RamAddr) (n : ℕ) : Prop :=
  Run (target bus connections) Task.body l h ((List.range (n + 1)).flatMap fun m => (r.pass m).trace)
    (r.loc (n + 1)) (r.shared (n + 1))

/-- An infinite loop is an infinite run. -/
def endless (r : Forever bus l h) : Endless (firmware bus) Task.body where
  loc := r.loc
  shared := r.shared
  trace n := (r.pass n).trace
  run n := by
    have h1 := r.handles n
    have h2 := r.fires n
    generalize (r.pass n).evt = evt at h1
    cases evt with
    | none => exact .task .app_process_action (.of_ret h1) h2
    | some evt =>
      have h0 : Runs bus (r.loc n) (r.shared n) ([] ++ (r.pass n).handling) (r.pass n).loc (r.pass n).shared :=
        .task (.sl_bt_on_event evt) .nil h1
      exact .task .app_process_action h0 h2

theorem runs (r : Forever bus l h) (n : ℕ) :
    Runs bus l h ((List.range n).flatMap fun m => (r.pass m).trace) (r.loc n) (r.shared n) := by
  have hr := r.endless.upTo n
  rw [show r.endless.loc 0 = l from r.loc_zero, show r.endless.shared 0 = h from r.shared_zero] at hr
  exact hr

/-- The pass sends the packet, or comes closer to it. -/
def Moves (r : Forever bus l h) (n : ℕ) : Prop := Due (r.pass n).loc ∨ rank (r.loc (n + 1)) < rank (r.loc n)

theorem handled (hI : Inv (r.loc n) (r.shared n)) : Inv (r.pass n).loc (r.pass n).shared ∧
    (r.pass n).loc.current_state = (r.loc n).current_state ∧ (r.pass n).loc.user = (r.loc n).user :=
  handler_keeps hI (r.handles n)

theorem rank_handled (hI : Inv (r.loc n) (r.shared n)) : rank (r.pass n).loc = rank (r.loc n) := by
  obtain ⟨-, hs, hu⟩ := handled hI
  unfold rank state
  rw [hs, hu]

theorem stays (hI : Inv (r.loc n) (r.shared n)) (hm : ¬ r.Moves n) :
    (r.loc (n + 1)).current_state = (r.loc n).current_state ∧ (r.loc (n + 1)).user = (r.loc n).user ∧
      (∀ e ∈ (r.pass n).firing, isRow e = false) ∧ ∀ (c : Event D → Bool) (P : Shared → Prop), Raises c P →
        P (r.shared n) ∨ (r.pass n).trace.any c = true → P (r.shared (n + 1)) := by
  obtain ⟨hI', hs, hu⟩ := handled hI
  have hlow : ¬ rank (r.loc (n + 1)) < rank (r.pass n).loc := by
    rw [rank_handled hI]
    exact fun hlt => hm (.inr hlt)
  obtain ⟨hl, hrow, hraise⟩ := fire_stays hI' (fun hd => hm (.inl hd)) hlow (r.fires n)
  rw [hl]
  refine ⟨hs, hu, hrow, ?_⟩
  intro c P hc hp
  rw [Pass.trace, List.any_append, Bool.or_eq_true_iff, ← or_assoc] at hp
  exact hraise c P hc (hp.imp_left (handler_raises hc (r.handles n)))

theorem raises_ready (l : Local D) : Raises (fun _ : Event D => false) (Ready l) where
  call _ _ _ _ := rfl
  keep _ _ _ hi hr := hr.handle hi
  raise _ _ _ hf _ := absurd hf Bool.false_ne_true

theorem raises_data : Raises (isIrq (D := D) .data_ready) fun h => h.data_ready_flag ≠ 0 where
  call _ _ _ _ := rfl
  keep i h h' hi hd := by
    cases i with
    | data_ready =>
      cases hi
      simp [ready_to_retrieve_callback]
    | sleeptimer =>
      simp only [handle] at hi
      split at hi <;> cases hi
      exact hd
    | change_mode | burtc =>
      cases hi
      exact hd
  raise i h h' hc hi := by
    obtain rfl : i = .data_ready := of_decide_eq_true hc
    cases hi
    simp [ready_to_retrieve_callback]

/-- While nothing moves the state stays, and what it waits for comes. -/
theorem Fair.armed (hI : ∀ n, Inv (r.loc n) (r.shared n)) (hf : r.Fair) (n : ℕ) (hn : ∀ m, n ≤ m → ¬ r.Moves m) :
    ∃ m, n ≤ m ∧ Ready (r.loc m) (r.shared m) := by
  have hsame : ∀ m, n ≤ m → (r.loc m).current_state = (r.loc n).current_state ∧ (r.loc m).user = (r.loc n).user := by
    intro m hm
    induction m, hm using Nat.le_induction with
    | base => exact ⟨rfl, rfl⟩
    | succ m hm ih =>
      obtain ⟨hs, hu, -⟩ := stays (hI m) (hn m hm)
      exact ⟨hs.trans ih.1, hu.trans ih.2⟩
  by_cases hc : r.Converts n
  · have hconv : ∀ m, n ≤ m → r.Converts m := by
      intro m hm
      obtain ⟨hs, hu⟩ := hsame m hm
      unfold Converts
      rw [hs, hu]
      exact hc
    obtain ⟨m, hm, hirq⟩ := hf.data n hconv
    obtain ⟨hs, -, -, hraise⟩ := stays (hI m) (hn m hm)
    refine ⟨m + 1, by omega, fun _ _ => hraise _ _ raises_data (.inr hirq), ?_⟩
    intro ht
    rw [hs, (hsame m hm).1] at ht
    exact absurd ht (not_at hc.1 (by decide))
  · by_cases ht : (r.loc n).current_state = states.TO_SLEEP
    · obtain ⟨m, hm, hrun⟩ := frequently_atTop.1 hf.timer n
      have ht' := (hsame m hm).1.trans ht
      refine ⟨m, hm, fun hs => absurd hs (not_at ht' (by decide)), ?_⟩
      -- the timer was started, so it has expired
      intro _
      have harmed : Armed (r.shared m) := ((hI m).fits ht').timer
      rcases harmed with ⟨-, hr⟩ | ⟨hflag, -⟩
      · rw [hrun] at hr
        cases hr
      · rw [hflag]
        decide
    · exact ⟨n, le_rfl, fun hs hlt => absurd ⟨hs, hlt⟩ hc, fun hs => absurd hs ht⟩

/-- What the state waits for stays. -/
theorem ready_stays (hI : Inv (r.loc n) (r.shared n)) (hr : Ready (r.loc n) (r.shared n)) (hm : ¬ r.Moves n) :
    Ready (r.loc (n + 1)) (r.shared (n + 1)) := by
  obtain ⟨hs, hu, -, hraise⟩ := stays hI hm
  have hr' := hraise _ _ (raises_ready (r.loc n)) (.inl hr)
  refine ⟨?_, ?_⟩
  · rw [hs, hu]
    exact hr'.data
  · rw [hs]
    exact hr'.timer

/-- A pass without the button moves, when all that is waited for has come. -/
theorem ready_moves (hI : Inv (r.loc n) (r.shared n)) (hst : ¬ Stuck (r.loc n)) (hr : Ready (r.loc n) (r.shared n))
    (hb : ¬ r.Interrupted .change_mode n) : r.Moves n := by
  by_contra hm
  obtain ⟨hI', hs, hu⟩ := handled hI
  have hr' := handler_raises (raises_ready (r.loc n)) (r.handles n) (.inl hr)
  have hready : Ready (r.pass n).loc (r.pass n).shared := by
    refine ⟨?_, ?_⟩
    · rw [hs, hu]
      exact hr'.data
    · rw [hs]
      exact hr'.timer
  have hstuck : ¬ Stuck (r.pass n).loc := by
    unfold Stuck
    rw [hs, hu]
    exact hst
  obtain ⟨e, he, hmoves⟩ := exists_of_wp_seen (wp_moves hI' hstuck hready) (r.fires n)
  rcases Bool.or_eq_true_iff.1 hmoves with hrow | hpress
  · obtain ⟨-, -, hnone, -⟩ := stays hI hm
    rw [hnone e he] at hrow
    cases hrow
  · exact hb (List.any_eq_true.2 ⟨e, List.mem_append_right _ he, hpress⟩)

/-- A state that is stuck sends nothing. -/
theorem stuck_sends (hI : Inv (r.loc n) (r.shared n)) (hst : Stuck (r.loc n)) : ¬ r.Sends n := by
  rintro ⟨e, he, hp⟩
  obtain ⟨hI', hs, hu⟩ := handled hI
  have hst' : Stuck (r.pass n).loc := by
    unfold Stuck
    rw [hs, hu]
    exact hst
  have hf := wp_iff.1 (wp_fired (g := false) quiet_isPacket hI') _ _ _ _ (r.fires n)
  have hnone := (hf.stuck hst').2.ghost_eq fun g i h => Bool.or_false g
  rw [foldl_seen, Bool.false_or, List.any_eq_false] at hnone
  exact hnone e he hp

end Forever

variable {l₀ : Local D} {h₀ : Shared}

/-- The firmware sends packets again and again exactly when the last notification of every packet has
succeeded and does so. -/
theorem sends_iff (hb : Boot l₀ h₀) (hr : Runs bus l₀ h₀ tr l h) (r : Forever bus l h) (hf : r.Fair) :
    (∃ᶠ n in atTop, r.Sends n) ↔ (∀ e ∈ tr, lastFailed e = false) ∧
      ∀ n, ∀ e ∈ (r.pass n).trace, lastFailed e = false := by
  have hruns := fun n => hr.append (r.runs n)
  have hI := fun n => run_inv hb (hruns n)
  have hst := fun n => stuck_iff hb (hruns n)
  constructor
  · intro hsends
    -- after a failure the state is stuck, and sends nothing
    have hnever : ∀ n, ¬ Stuck (r.loc n) := by
      intro n hs
      obtain ⟨e, he, hfail⟩ := (hst n).1 hs
      obtain ⟨m, hm, hsend⟩ := frequently_atTop.1 hsends n
      refine Forever.stuck_sends (hI m) ((hst m).2 ⟨e, ?_, hfail⟩) hsend
      rcases List.mem_append.1 he with he | he
      · exact List.mem_append_left _ he
      · obtain ⟨k, hk, he⟩ := List.mem_flatMap.1 he
        have hkm : k < m := (List.mem_range.1 hk).trans_le hm
        exact List.mem_append_right _ (List.mem_flatMap.2 ⟨k, List.mem_range.2 hkm, he⟩)
    refine ⟨?_, ?_⟩
    · intro e he
      refine Bool.eq_false_iff.2 fun hfail => hnever 0 ((hst 0).2 ⟨e, List.mem_append_left _ he, hfail⟩)
    · intro n e he
      refine Bool.eq_false_iff.2 fun hfail => hnever (n + 1) ((hst (n + 1)).2 ⟨e, ?_, hfail⟩)
      exact List.mem_append_right _ (List.mem_flatMap.2 ⟨n, List.self_mem_range_succ, he⟩)
  · rintro ⟨htr, hpass⟩
    have hfree : ∀ n, ¬ Stuck (r.loc n) := by
      intro n hs
      obtain ⟨e, he, hfail⟩ := (hst n).1 hs
      have hok : lastFailed e = false := by
        rcases List.mem_append.1 he with he | he
        · exact htr e he
        · obtain ⟨k, -, he⟩ := List.mem_flatMap.1 he
          exact hpass k e he
      rw [hok] at hfail
      cases hfail
    have hmoves : ∃ᶠ n in atTop, r.Moves n :=
      frequently_moved (hf.armed hI) (fun n hready hm => Forever.ready_stays (hI n) hready hm)
        (fun n hready hbutton => Forever.ready_moves (hI n) (hfree n) hready hbutton) hf.button
    have hdue : ∃ᶠ n in atTop, Due (r.pass n).loc := by
      refine frequently_goal (fun n => rank (r.loc n)) ?_ (fun n hm => hm) hmoves
      intro n hd
      by_cases hlt : rank (r.loc (n + 1)) < rank (r.loc n)
      · exact hlt.le
      · obtain ⟨hs, hu, -⟩ := Forever.stays (hI n) fun hm => hm.elim hd hlt
        unfold rank state
        rw [hs, hu]
    exact hdue.mono fun n hd => due_packet hd (r.fires n)

/-- The passes that the target makes. -/
theorem onTarget_iff {connections : RamAddr} (hb : Boot l₀ h₀)
    (hr : Run (target bus connections) Task.body l₀ h₀ tr l h) (r : Forever bus l h) (n : ℕ) :
    r.OnTarget connections n ↔ ∀ m ≤ n, (r.pass m).trace.any entersTimerSleep = false := by
  obtain ⟨hruns, hav⟩ := run_without.1 hr
  have hmore := r.runs (n + 1)
  have hall := target_iff connections hb (hruns.append hmore)
  unfold Forever.OnTarget
  unfold target at hall ⊢
  rw [run_without, avoids_append, and_iff_right (hruns.append hmore), and_iff_right hav, List.any_append,
    (target_iff connections hb hruns).1 hr, Bool.false_or] at hall
  rw [run_without, and_iff_right hmore, hall, List.any_flatMap, List.any_eq_false]
  simp only [List.mem_range, Nat.lt_succ_iff, Bool.not_eq_true]

/-- **Packets for ever**: in a fair environment the target sends packets again and again exactly when the
last notification of every packet has succeeded and does so, and no pass enters `reset_timer_sleep`. -/
theorem forever_iff {connections : RamAddr} (hb : Boot l₀ h₀)
    (hr : Run (target bus connections) Task.body l₀ h₀ tr l h) (r : Forever bus l h) (hf : r.Fair) :
    (∃ᶠ n in atTop, r.OnTarget connections n ∧ r.Sends n) ↔ (∀ e ∈ tr, lastFailed e = false) ∧
      ∀ n, ∀ e ∈ (r.pass n).trace, lastFailed e = false ∧ entersTimerSleep e = false := by
  have hsends := sends_iff hb (run_without.1 hr).1 r hf
  have hon := onTarget_iff hb hr r
  constructor
  · intro hfreq
    obtain ⟨htr, hok⟩ := hsends.1 (hfreq.mono fun n hn => hn.2)
    refine ⟨htr, fun n e he => ⟨hok n e he, ?_⟩⟩
    -- a later pass is made, so this one did not stop
    obtain ⟨m, hm, hmade, -⟩ := frequently_atTop.1 hfreq n
    exact Bool.eq_false_iff.2 (List.any_eq_false.1 ((hon m).1 hmade n hm) e he)
  · rintro ⟨htr, hpass⟩
    refine (hsends.2 ⟨htr, fun n e he => (hpass n e he).1⟩).mono fun n hn => ⟨(hon n).2 fun m _ => ?_, hn⟩
    exact List.any_eq_false.2 fun e he => Bool.eq_false_iff.1 (hpass m e he).2

/-- The button is pressed, or the timer of the deep sleep expires. -/
def pressed (e : Event D) : Bool := isIrq .change_mode e || isIrq .burtc e

theorem quiet_pressed : Quiet (seen (pressed (D := D))) := .seen fun _ _ _ _ _ => rfl

/-- What the other handlers preserve stays, unless there is such an interrupt. -/
theorem unpressed {S : Shared → Prop} {es : List (Made Op.Resp (Local D))}
    (hS : ∀ i h h', i ≠ .change_mode → i ≠ .burtc → M20Strain.handle i h = some h' → S h → S h')
    (hc : Calls (firmware bus) (seen pressed) es g h g' h') : g = true ∨ S h → g' = true ∨ S h' := by
  refine hc.stable (P := fun g h => g = true ∨ S h) ?_ fun e _ g h hg => hg.imp_left fun hg => ?_
  · rintro i g h h' hi (hg | hs)
    · exact .inl (by rw [seen, hg, Bool.true_or])
    · by_cases hm : i = .change_mode
      · exact .inl (by subst hm; exact Bool.or_true g)
      · by_cases hb : i = .burtc
        · exact .inl (by subst hb; exact Bool.or_true g)
        · exact .inr (hS i h h' hm hb hi hs)
  · rw [seen, hg, Bool.true_or]

theorem continuous_kept {es : List (Made Op.Resp (Local D))} (hc : Calls (firmware bus) (seen pressed) es g h g' h') :
    g = true ∨ h.change_mode_flag ≠ 0 → g' = true ∨ h'.change_mode_flag ≠ 0 := by
  refine unpressed (S := fun h => h.change_mode_flag ≠ 0) (fun i h h' hm _ hi hs => ?_) hc
  rw [handle_mode hi hm]
  exact hs

theorem pin_kept {es : List (Made Op.Resp (Local D))} (hc : Calls (firmware bus) (seen pressed) es g h g' h') :
    g = true ∨ h.wakeupTimer ≠ 1 → g' = true ∨ h'.wakeupTimer ≠ 1 := by
  refine unpressed (S := fun h => h.wakeupTimer ≠ 1) (fun i h h' _ hb hi hs => ?_) hc
  cases i with
  | burtc => exact absurd rfl hb
  | sleeptimer =>
    simp only [M20Strain.handle] at hi
    split at hi <;> cases hi
    exact hs
  | change_mode | data_ready =>
    cases hi
    exact hs

/-- The device is awake in continuous mode, or wakes up by the pin. -/
def Continuous (l : Local D) (h : Shared) : Prop :=
  l.current_state = states.SLEEPING ∧ l.em4Reset = true ∧ h.wakeupTimer ≠ 1 ∨
    l.current_state ≠ states.SLEEPING ∧ l.current_state ≠ states.TO_SLEEP ∧ h.change_mode_flag ≠ 0

/-- **Nobody falls asleep in continuous mode**, unless the button is pressed. -/
theorem Fired.continuous (hc : Continuous l h) (hf : Fired bus (seen pressed) g l h g' l' h') :
    g' = true ∨ Continuous l' h' := by
  have awake {s : states} (hs : l.current_state = s) (hne : s ≠ .SLEEPING) : h.change_mode_flag ≠ 0 := by
    rcases hc with ⟨hsl, -⟩ | ⟨-, -, hm⟩
    · exact absurd hsl (not_at hs hne)
    · exact hm
  have stay (s' : states) (hs' : l'.current_state = s') (h1 : s' ≠ .SLEEPING) (h2 : s' ≠ .TO_SLEEP)
      (hm : g' = true ∨ h'.change_mode_flag ≠ 0) : g' = true ∨ Continuous l' h' :=
    hm.imp_right fun hm => .inr ⟨not_at hs' h1, not_at hs' h2, hm⟩
  have never (hs : l.current_state = states.TO_SLEEP) : g' = true ∨ Continuous l' h' := by
    rcases hc with ⟨hsl, -⟩ | ⟨-, hto, -⟩
    · exact absurd hsl (not_at hs (by decide))
    · exact absurd hs hto
  -- calls are not presses
  have call {g : Bool} {o : Op} {r : o.Resp} {l : Local D} {h : Shared} :
      seen pressed g (.call o r l h) = g := Bool.or_false g
  cases hf with
  | stay s hs ht hi =>
    have hm := awake hs (by rintro rfl; simp at ht)
    rcases ht with rfl | rfl | rfl
    · exact stay .ASKING_FOR_DATA hs (by decide) (by decide) (continuous_kept hi.calls (.inr hm))
    · exact stay .SENDING_DATA hs (by decide) (by decide) (continuous_kept hi.calls (.inr hm))
    · exact never hs
  | power_up hs hr hd hc' =>
    rcases hc with ⟨-, hem4, -⟩ | ⟨hsl, -⟩
    · rw [hr] at hem4
      cases hem4
    · exact absurd hs hsl
  | pin_wake hs hr hd hc' hw hi hi' =>
    have hone : (1 : UInt8) ≠ 0 := by decide
    exact stay .WAKING_UP rfl (by decide) (by decide) (continuous_kept hi'.calls (.inr hone))
  | timer_wake hs hr hd hc' hw hi hi₂ hi₃ =>
    have hpin : h.wakeupTimer ≠ 1 := by
      rcases hc with ⟨-, -, hpin⟩ | ⟨hsl, -⟩
      · exact hpin
      · exact absurd hs hsl
    have hg := (pin_kept hc' (.inr hpin)).resolve_right fun hne => hne hw
    have hg := hi.calls.seen_mono (call.trans hg)
    have hg := hi₂.calls.seen_mono (call.trans hg)
    exact .inl (hi₃.calls.seen_mono (call.trans hg))
  | ask hs hn hd₁ hd₂ hc₁ hc₂ =>
    have hm : h.change_mode_flag ≠ 0 := by
      rcases hs with ⟨hs, -⟩ | ⟨hs, -⟩
      · exact awake hs (by decide)
      · exact awake hs (by decide)
    have hm := continuous_kept hc₁ (.inr hm)
    exact stay .ASKING_FOR_DATA rfl (by decide) (by decide) (continuous_kept hc₂ (by rw [call]; exact hm))
  | ask_all hs hn hc₁ hi =>
    have hm := continuous_kept hc₁ (.inr (awake hs (by decide)))
    exact stay .ASKING_FOR_DATA rfl (by decide) (by decide) (continuous_kept hi.calls (by rw [call]; exact hm))
  | retrieve hs hn hi hr hc₁ hd hw hc₂ =>
    have hm := continuous_kept hc₁ (continuous_kept hi.calls (.inr (awake hs (by decide))))
    obtain ⟨s, rfl⟩ := stored hw
    exact stay .RETRIEVING_DATA rfl (by decide) (by decide) (continuous_kept hc₂ (by rw [call]; exact hm))
  | send_ok s hs hn hd hk hc' | send_failed s hs hn hd hk hc' =>
    exact stay .SENDING_DATA rfl (by decide) (by decide) (continuous_kept hc' (.inr (awake hs (by decide))))
  | ask_again hs hd hi hm hc' =>
    exact stay .WAKING_UP rfl (by decide) (by decide) (continuous_kept hc' (.inr hm))
  | try_to_sleep hs hd hi hm hc' hr hi' =>
    have hg := (continuous_kept hi.calls (.inr (awake hs (by decide)))).resolve_right fun hne => hne hm
    exact .inl (hi'.calls.seen_mono (call.trans (hc'.seen_mono hg)))
  | reset_timer_sleep hs => exact never hs
  | reset_no_timer hs => exact never hs

/-- A data-ready interrupt at the beginning of every pass. -/
def fairBench : Env Op.Resp Irq (Local Unit) Shared :=
  bench (fun _ => SL_STATUS_OK) fun
    | .main .rd_current_state, _, _ => [.data_ready]
    | _, _, _ => []

/-- A read that is answered what it finds. -/
theorem isSome_read {X Y : Type} [DecidableEq X] {x : X} {y : Y} : (if x = x then some y else none).isSome := by
  rw [if_pos rfl]
  rfl

/-- The bench answers every call of an `fsm_fire`. -/
theorem bench_answers {status : BleCall → sl_status_t} {before : Op → Local Unit → Shared → List Irq} {o : Op}
    {l : Local Unit} (ho : o.Proper false true) :
    ((firmware anyBus).step o ((bench status before).answer o l h) l h).isSome := by
  cases o with
  | drv o => cases o <;> first | rfl | exact Option.isSome_map.trans isSome_read
  | shr o =>
    cases o with
    | sl_sleeptimer_start_timer t =>
      cases ht : h.timerRunning <;> simp [firmware, bench, ShrOp.step, ShrOp.answer, ht, SL_STATUS_OK]
    | _ => first | rfl | exact isSome_read
  | main o =>
    cases o with
    | app_assert_status sc | wr_connections i c | rd_nConnections | rd_advertising_set_handle | undefined_behaviour =>
      exact absurd ho (by simp [Op.Proper, Op.Steady, Op.restarts])
    | rd_connections i => by_cases hi : i < 10 <;> simp [firmware, bench, MainOp.step, MainOp.answer, hi]
    | wr_sensor_data k v =>
      obtain ⟨l', hw⟩ := store_ends l k v
      exact Option.isSome_map.trans (Option.isSome_iff_exists.2 ⟨l', hw⟩)
    | RMU_ResetCauseGet =>
      cases hr : l.em4Reset <;> simp [firmware, bench, MainOp.step, MainOp.answer, hr, EMU_RSTCAUSE_EM4]
    | _ => first | rfl | exact Option.isSome_map.trans isSome_read

theorem fairBench_before (o : Op) (l : Local Unit) (h : Shared) :
    fairBench.before o l h = [.data_ready] ∨ fairBench.before o l h = [] := by
  unfold fairBench bench
  dsimp only
  split
  · exact .inl rfl
  · exact .inr rfl

theorem fairBench_irqs (o : Op) (l : Local Unit) (h : Shared) :
    (handlers (firmware anyBus) (fairBench.before o l h) h).isSome := by
  rcases fairBench_before o l h with hb | hb
  · rw [hb]
    rfl
  · rw [hb]
    rfl

/-- One pass on the bench, without an event. -/
def benchPass (s : Local Unit × Shared) : List (Event Unit) × Unit × Local Unit × Shared :=
  (execute (firmware anyBus) fairBench app_process_action s.1 s.2).get
    (execute_isSome (fun _ _ _ ho => bench_answers ho) fairBench_irqs (Task.proper .app_process_action))

theorem benchPass_execute (s : Local Unit × Shared) :
    execute (firmware anyBus) fairBench app_process_action s.1 s.2 = some (benchPass s) := (Option.some_get _).symm

/-- The states between the passes on the bench. -/
def benchLoop (s : Local Unit × Shared) : ℕ → Local Unit × Shared
  | 0 => s
  | n + 1 => (benchPass (benchLoop s n)).2.2

/-- The loop for ever, on the bench. -/
def benchForever (s : Local Unit × Shared) : Forever anyBus s.1 s.2 where
  loc n := (benchLoop s n).1
  shared n := (benchLoop s n).2
  pass n := ⟨none, [], (benchLoop s n).1, (benchLoop s n).2, (benchPass (benchLoop s n)).1⟩
  loc_zero := rfl
  shared_zero := rfl
  handles _ := .ret
  fires n := execute_exec (benchPass_execute (benchLoop s n))

/-- The interrupts at the beginning of a pass. -/
theorem benchForever_first {s : Local Unit × Shared} {n : ℕ} {i : Irq}
    (hi : i ∈ fairBench.before (.main .rd_current_state) ((benchForever s).loc n) ((benchForever s).shared n)) :
    (benchForever s).Interrupted i n := by
  obtain ⟨k, hk⟩ : ∃ k, app_process_action = .call (.main .rd_current_state) k := ⟨_, rfl⟩
  have he := benchPass_execute (benchLoop s n)
  rw [hk] at he
  obtain ⟨h₁, hmem⟩ := execute_first he i hi
  exact List.any_eq_true.2 ⟨_, hmem, decide_eq_true rfl⟩

/-- Nobody presses the button on the bench. -/
theorem benchPass_unpressed (s : Local Unit × Shared) : (benchPass s).1.any pressed = false := by
  refine List.any_eq_false.2 fun e he hp => ?_
  have hmade := execute_entries (benchPass_execute s) e he
  cases e with
  | call o r l h => cases hp
  | irq i h =>
    obtain ⟨o, l, h₁, hmem⟩ := hmade
    rcases fairBench_before o l h₁ with hb | hb
    · rw [hb, List.mem_singleton] at hmem
      subst hmem
      cases hp
    · rw [hb] at hmem
      exact absurd hmem List.not_mem_nil

/-- So the device stays awake. -/
theorem benchForever_continuous {s : Local Unit × Shared} (hs : Continuous s.1 s.2)
    (hI : ∀ n, Inv ((benchForever s).loc n) ((benchForever s).shared n)) (n : ℕ) :
    Continuous ((benchForever s).loc n) ((benchForever s).shared n) := by
  induction n with
  | zero => exact hs
  | succ n ih =>
    have hf := wp_iff.1 (wp_fired (g := false) quiet_pressed (hI n)) _ _ _ _ ((benchForever s).fires n)
    rw [foldl_seen, Bool.false_or, show ((benchForever s).pass n).firing.any pressed = false from
      benchPass_unpressed _] at hf
    exact (hf.continuous ih).resolve_left Bool.false_ne_true

/-- The bench is fair: every pass has a data-ready interrupt, the sleep timer never runs, and nobody
presses the button. -/
theorem benchForever_fair {s : Local Unit × Shared} (hs : Continuous s.1 s.2)
    (hI : ∀ n, Inv ((benchForever s).loc n) ((benchForever s).shared n)) : (benchForever s).Fair where
  data n _ := ⟨n, le_rfl, benchForever_first List.mem_cons_self⟩
  timer := by
    refine frequently_atTop.2 fun n => ⟨n, le_rfl, ?_⟩
    obtain ⟨st, hst, hf⟩ := hI n
    have hne : st ≠ .TO_SLEEP := by
      rintro rfl
      rcases benchForever_continuous hs hI n with ⟨hsl, -⟩ | ⟨-, hto, -⟩
      · exact not_at hst (by decide) hsl
      · exact hto hst
    have ht := hf.timer
    rw [if_neg hne] at ht
    exact ht.2
  button := by
    refine frequently_atTop.2 fun n => ⟨n, le_rfl, fun hpress => ?_⟩
    obtain ⟨e, he, hirq⟩ := List.any_eq_true.1 hpress
    refine List.any_eq_false.1 (benchPass_unpressed (benchLoop s n)) e he ?_
    rw [pressed, hirq, Bool.true_or]

/-- **Packets for ever** on the bench, after a wake-up by the pin. -/
theorem forever_iff_bench : ∃ r : Forever anyBus (booted true true).1 (booted true true).2,
    r.Fair ∧ ∃ᶠ n in atTop, r.OnTarget connections_addr n ∧ r.Sends n := by
  have hstart : Continuous (booted true true).1 (booted true true).2 := .inl ⟨rfl, rfl, by decide⟩
  have hI := fun n => run_inv booted_boot ((benchForever (booted true true)).runs n)
  have hf := benchForever_fair hstart hI
  refine ⟨_, hf, (forever_iff booted_boot .nil _ hf).2 ⟨List.forall_mem_nil _, fun n e he => ⟨?_, ?_⟩⟩⟩
  · have hmade := execute_entries (benchPass_execute (benchLoop (booted true true) n)) e he
    refine Bool.eq_false_iff.2 fun hfail => ?_
    unfold lastFailed at hfail
    split at hfail
    · obtain ⟨-, hne⟩ := of_decide_eq_true hfail
      exact hne hmade
    · cases hfail
  · refine Bool.eq_false_iff.2 fun henters => ?_
    have hto := enters_to_sleep (hI n) ((benchForever (booted true true)).fires n)
      (List.any_eq_true.2 ⟨e, he, henters⟩)
    rcases benchForever_continuous hstart hI n with ⟨hsl, -⟩ | ⟨-, hne, -⟩
    · exact not_at hto (by decide) hsl
    · exact hne hto

end M20Strain
