import M20Strain.Interrupt.Calls
import M20Strain.Interrupt.Serial
import M20Strain.Model.App

/-!
# Rules for the programs of the application

Most calls of the main loop are *quiet*: reads, and writes that no property of a
trace is about. For monitors that ignore them, a quiet call that can end in one
way only can be replaced by its effect (`Acts`), in `wp`, `wpAfter` and `may`.

* `acts_*`: one rule for each quiet call.
* `after_own`, `after_shr`, `after_ads1220`: the other calls, and driver functions.
* `may_own`, `may_shr`, `may_ads1220`: the same for uninterrupted executions.
-/

namespace M20Strain

open Interrupt Prog

variable {D : Type} {bus : SpiBus D} {G α β : Type}

/-- An entry of a trace of the firmware. -/
abbrev Event (D : Type) := Entry Op.Resp Irq (Local D) Shared

variable {μ : G → Event D → G} {Q : α → G → Local D → Shared → Prop} {g : G} {l l' l'' : Local D}
  {h : Shared}

/-- The driver as a component of the main loop's state. -/
def driver (bus : SpiBus D) : Component (firmware bus) (DrvOp.step bus) Op.drv fun _ r => r where
  get := Local.driver
  put d l := { l with driver := d }
  put_get _ := rfl
  get_put _ _ := rfl
  put_put _ _ _ := rfl
  surj _ := Function.surjective_id
  owned o r l h := by simp [firmware, Option.map_map, Function.comp_def]

theorem owned_main (o : MainOp) : (firmware bus).Owned (.main o) (o.step (D := D)) := fun _ _ _ => rfl

/-- The calls no property here is about. -/
def Op.quiet : Op → Bool
  | .main (.enter _) | .main (.wr_current_state _) | .main (.wr .data_sent_flag _)
  | .main (.wr_sensor_data _ _) | .main (.ble _) => false
  | .shr (.rd _) | .shr .sl_sleeptimer_is_timer_running => true
  | .shr _ => false
  | .drv _ | .main _ => true

/-- The monitor ignores the quiet calls. -/
def Quiet (μ : G → Event D → G) : Prop := ∀ o : Op, o.quiet = true → Ignores μ o

theorem Quiet.drv (hμ : Quiet μ) (o : DrvOp) : Ignores μ (Op.drv o) := hμ _ rfl

/-- Quiet calls do not change the shared state. -/
theorem quiet_shared {o : Op} {r : o.Resp} {h' : Shared} (ho : o.quiet = true)
    (hs : (firmware bus).step o r l h = some (l', h')) : h' = h := by
  rcases o with o | o | o
  · obtain ⟨d, -, heq⟩ := Option.map_eq_some_iff.1 hs
    obtain ⟨-, hh⟩ := Prod.mk.inj heq
    exact hh.symm
  · obtain ⟨l, -, heq⟩ := Option.map_eq_some_iff.1 hs
    obtain ⟨-, hh⟩ := Prod.mk.inj heq
    exact hh.symm
  · cases o <;> simp only [Op.quiet, Bool.false_eq_true] at ho <;>
      simp only [firmware, ShrOp.step] at hs <;> split at hs <;> cases hs <;> rfl

/-- A store to `sensor_data` always ends. -/
theorem store_ends (l : Local D) (k : Int) (v : BitVec 32) :
    ∃ l', (MainOp.wr_sensor_data k v).step () l = some l' := by
  simp only [MainOp.step]
  split
  · exact ⟨_, rfl⟩
  · exact ⟨_, rfl⟩

/-- It moves nothing else, wherever it goes. -/
theorem stored {k : Int} {v : BitVec 32} (hw : (MainOp.wr_sensor_data k v).step () l = some l') :
    ∃ s, l' = { l with user := { l.user with sensor_data := s } } := by
  simp only [MainOp.step] at hw
  split at hw
  · cases hw
    exact ⟨_, rfl⟩
  · cases hw
    exact ⟨l.user.sensor_data, rfl⟩

/-- Only its own calls change the driver's memory and the device. -/
theorem MainOp.driver_eq {o : MainOp} {r : o.Resp} (hs : o.step r l = some l') : l'.driver = l.driver := by
  cases o <;> simp only [MainOp.step] at hs
  all_goals grind

theorem ShrOp.dev_eq {o : ShrOp} {r : o.Resp} {h' : Shared} (hs : o.step r l h = some (l', h')) :
    l'.driver.dev = l.driver.dev := by
  cases o <;> simp only [ShrOp.step] at hs
  all_goals grind [new_app_fsm]

/-- **`p` in `l` does what `q` does in `l'`**, as far as monitors see that ignore the quiet calls. -/
structure Acts (bus : SpiBus D) (l : Local D) (p : AppM α) (l' : Local D) (q : AppM α) : Prop where
  wp : ∀ {G : Type} {μ : G → Event D → G}, Quiet μ → ∀ Q g h,
    wp (firmware bus) μ p Q g l h ↔ wp (firmware bus) μ q Q g l' h
  may : ∀ {G : Type} {μ : G → Event D → G}, Quiet μ → ∀ Q g h,
    may (firmware bus) μ p Q g l h ↔ may (firmware bus) μ q Q g l' h

namespace Acts

variable {p q r : AppM α} {es : List (Made Op.Resp (Local D))}

theorem refl : Acts bus l p l p := ⟨fun _ _ _ _ => Iff.rfl, fun _ _ _ _ => Iff.rfl⟩

theorem of_eq (hpq : p = q) : Acts bus l p l q := by
  rw [hpq]
  exact refl

theorem trans (h1 : Acts bus l p l' q) (h2 : Acts bus l' q l'' r) : Acts bus l p l'' r where
  wp hμ Q g h := (h1.wp hμ Q g h).trans (h2.wp hμ Q g h)
  may hμ Q g h := (h1.may hμ Q g h).trans (h2.may hμ Q g h)

theorem wpAfter (ha : Acts bus l p l' q) (hμ : Quiet μ) :
    wpAfter (firmware bus) μ es g h p Q l ↔ wpAfter (firmware bus) μ es g h q Q l' := by
  unfold Interrupt.wpAfter
  apply forall₂_congr
  intro g' h'
  rw [ha.wp hμ]

/-- Under a read of shared state, answer by answer. -/
theorem shr {o : ShrOp} (hq : (Op.shr o).quiet = true) {k k' : o.Resp → AppM α}
    (ha : ∀ r, Acts bus l (k r) l (k' r)) : Acts bus l (shr o >>= k) l (shr o >>= k') := by
  have hl : ∀ {r : o.Resp} {l₁ : Local D} {h h₁ : Shared}, o.step r l h = some (l₁, h₁) → l₁ = l := by
    intro r l₁ h h₁ hs
    cases o <;> simp only [Op.quiet, Bool.false_eq_true] at hq <;> simp only [ShrOp.step] at hs <;>
      split at hs <;> cases hs <;> rfl
  refine ⟨fun hμ Q g h => ?_, fun hμ Q g h => ?_⟩
  · refine wp_call.trans <| .trans ?_ wp_call.symm
    refine forall₂_congr fun g' h' => imp_congr_right fun _ => forall₃_congr fun r l₁ h₁ => ?_
    refine imp_congr_right fun hs => ?_
    rw [hl hs]
    exact (ha r).wp hμ _ _ _
  · refine exists_congr fun r => exists₂_congr fun l₁ h₁ => and_congr_right fun hs => ?_
    rw [hl hs]
    exact (ha r).may hμ _ _ _

end Acts

/-- In `l`, call `o` can only answer `r` and leave `l'`. -/
def MainOp.Det (o : MainOp) (l : Local D) (r : o.Resp) (l' : Local D) : Prop :=
  ∀ r' l'', o.step r' l = some l'' ↔ r' = r ∧ l'' = l'

theorem acts_det {o : MainOp} {r : o.Resp} (hq : (Op.main o).quiet = true) (hd : o.Det l r l')
    {k : o.Resp → AppM α} : Acts bus l (own o >>= k) l' (k r) := by
  refine ⟨fun hμ Q g h => ?_, fun hμ Q g h => ?_⟩
  · refine (wp_owned (owned_main o) (hμ _ hq).commutes).trans ?_
    simp only [hμ _ hq _ _ _ _, hd _ _]
    constructor
    · intro H
      exact H r l' ⟨rfl, rfl⟩
    · rintro H r' l₁ ⟨rfl, rfl⟩
      exact H
  · refine (may_owned (owned_main o)).trans ?_
    simp only [hμ _ hq _ _ _ _, hd _ _]
    constructor
    · rintro ⟨r', l₁, ⟨rfl, rfl⟩, H⟩
      exact H
    · intro H
      exact ⟨r, l', ⟨rfl, rfl⟩, H⟩

/-- A read: the answer is the value, and nothing changes. -/
theorem det_read {o : MainOp} [DecidableEq o.Resp] {v : o.Resp}
    (ho : ∀ r, o.step r l = if r = v then some l else none) : o.Det l v l := by
  intro r l'
  rw [ho]
  by_cases hr : r = v <;> simp [hr, eq_comm]

/-- A write: any answer (there is only one), and one next state. -/
theorem det_write {o : MainOp} [Subsingleton o.Resp] {v : o.Resp} (ho : ∀ r, o.step r l = some l') :
    o.Det l v l' := by
  intro r l''
  rw [ho]
  simp [Subsingleton.elim r v, eq_comm]

variable {p : AppM α}

theorem acts_rd_current_state {k : Int → AppM α} :
    Acts bus l (own .rd_current_state >>= k) l (k l.current_state) :=
  acts_det (o := .rd_current_state) rfl (det_read fun _ => rfl)

theorem acts_rd {f : Flag} {k : UInt8 → AppM α} :
    Acts bus l (own (.rd f) >>= k) l (k (l.user.get f)) :=
  acts_det (o := .rd f) rfl (det_read fun _ => rfl)

theorem acts_wr {f : Flag} {v : UInt8} (hf : f ≠ .data_sent_flag) :
    Acts bus l (do own (.wr f v); p) { l with user := l.user.set v f } p := by
  have hq : (Op.main (.wr f v)).quiet = true := by
    cases f <;> first | rfl | exact absurd rfl hf
  exact acts_det (o := .wr f v) hq (det_write (v := ()) fun _ => rfl)

theorem acts_rd_num {k : Int → AppM α} :
    Acts bus l (own .rd_num_data_retrieved >>= k) l (k l.user.num_data_retrieved) :=
  acts_det (o := .rd_num_data_retrieved) rfl (det_read fun _ => rfl)

theorem acts_wr_num {n : Int} : Acts bus l (do own (.wr_num_data_retrieved n); p)
    { l with user := { l.user with num_data_retrieved := n } } p :=
  acts_det (o := .wr_num_data_retrieved n) rfl (det_write (v := ()) fun _ => rfl)

theorem acts_rd_sensor {i : Fin 4} {k : BitVec 32 → AppM α} :
    Acts bus l (own (.rd_sensor_data i) >>= k) l (k (l.user.sensor_data i)) :=
  acts_det (o := .rd_sensor_data i) rfl (det_read fun _ => rfl)

theorem acts_rd_nConnections_ptr {k : RamAddr → AppM α} :
    Acts bus l (own .rd_nConnections_ptr >>= k) l (k l.user.nConnections) :=
  acts_det (o := .rd_nConnections_ptr) rfl (det_read fun _ => rfl)

theorem acts_rd_nConnections {k : ℕ → AppM α} :
    Acts bus l (own .rd_nConnections >>= k) l (k l.nConnections) :=
  acts_det (o := .rd_nConnections) rfl (det_read fun _ => rfl)

theorem acts_wr_nConnections {n : ℕ} :
    Acts bus l (do own (.wr_nConnections n); p) { l with nConnections := n } p :=
  acts_det (o := .wr_nConnections n) rfl (det_write (v := ()) fun _ => rfl)

theorem acts_rd_set {k : UInt8 → AppM α} :
    Acts bus l (own .rd_advertising_set_handle >>= k) l (k l.advertising_set_handle) :=
  acts_det (o := .rd_advertising_set_handle) rfl (det_read fun _ => rfl)

theorem acts_wr_set {s : UInt8} :
    Acts bus l (do own (.wr_advertising_set_handle s); p) { l with advertising_set_handle := s } p :=
  acts_det (o := .wr_advertising_set_handle s) rfl (det_write (v := ()) fun _ => rfl)

theorem acts_disable_pin :
    Acts bus l (do own .GPIO_EM4DisablePinWakeup; p) { l with em4PinWakeup := false } p :=
  acts_det (o := .GPIO_EM4DisablePinWakeup) rfl (det_write (v := ()) fun _ => rfl)

theorem acts_enable_pin :
    Acts bus l (do own .GPIO_EM4EnablePinWakeup; p) { l with em4PinWakeup := true } p :=
  acts_det (o := .GPIO_EM4EnablePinWakeup) rfl (det_write (v := ()) fun _ => rfl)

theorem acts_unlatch :
    Acts bus l (do own .EMU_UnlatchPinRetention; p) l p :=
  acts_det (o := .EMU_UnlatchPinRetention) rfl (det_write (v := ()) fun _ => rfl)

theorem acts_clear_cause :
    Acts bus l (do own .RMU_ResetCauseClear; p) { l with em4Reset := false } p :=
  acts_det (o := .RMU_ResetCauseClear) rfl (det_write (v := ()) fun _ => rfl)

theorem acts_pin_set :
    Acts bus l (do own .GPIO_PinOutSet; p) { l with bridgeOn := true } p :=
  acts_det (o := .GPIO_PinOutSet) rfl (det_write (v := ()) fun _ => rfl)

theorem acts_pin_clear :
    Acts bus l (do own .GPIO_PinOutClear; p) { l with bridgeOn := false } p :=
  acts_det (o := .GPIO_PinOutClear) rfl (det_write (v := ()) fun _ => rfl)

variable {es : List (Made Op.Resp (Local D))}

/-- A call of the main loop, for a monitor that does not care when handlers run. -/
theorem wp_own {o : MainOp} (hc : Commutes (firmware bus) μ (.main o)) {k : o.Resp → AppM α} :
    wp (firmware bus) μ (own o >>= k) Q g l h ↔
      ∀ r l₁, o.step r l = some l₁ → wp (firmware bus) μ (k r) Q (μ g (.call (.main o) r l h)) l₁ h :=
  wp_owned (owned_main o) hc

section Collect

variable {X : Type} {f : (o : Op) → o.Resp → Option X} {g : List X} {Q : α → List X → Local D → Shared → Prop}

theorem collect_own {o : MainOp} {k : o.Resp → AppM α} :
    wp (firmware bus) (collect (ofCalls f)) (own o >>= k) Q g l h ↔ ∀ r l₁, o.step r l = some l₁ →
      wp (firmware bus) (collect (ofCalls f)) (k r) Q (g ++ (f (.main o) r).toList) l₁ h :=
  wp_own collect_commutes

theorem collect_shr {o : ShrOp} {k : o.Resp → AppM α}
    (hk : ∀ r h₁ l₁ h₂, o.step r l h₁ = some (l₁, h₂) →
      wp (firmware bus) (collect (ofCalls f)) (k r) Q (g ++ (f (.shr o) r).toList) l₁ h₂) :
    wp (firmware bus) (collect (ofCalls f)) (shr o >>= k) Q g l h := by
  refine wp_call.2 ?_
  intro g₁ h₁ hi r l₁ h₂ hs
  rw [hi.ghost_eq fun _ _ _ => collect_irq]
  exact hk r h₁ l₁ h₂ hs

theorem collect_pure {a : α} (hq : ∀ h', Q a g l h') :
    wp (firmware bus) (collect (ofCalls f)) (pure a) Q g l h := by
  refine wp_ret.2 ?_
  intro g' h' hi
  rw [hi.ghost_eq fun _ _ _ => collect_irq]
  exact hq h'

end Collect

/-- An owned call that was made. -/
abbrev did (o : MainOp) (r : o.Resp) (l : Local D) : Made Op.Resp (Local D) := ⟨.main o, r, l⟩

theorem after_own {o : MainOp} {k : o.Resp → AppM α} :
    wpAfter (firmware bus) μ es g h (own o >>= k) Q l ↔
      ∀ r l₁, o.step r l = some l₁ → wpAfter (firmware bus) μ (es ++ [did o r l]) g h (k r) Q l₁ :=
  wpAfter_owned (owned_main o)

/-- An owned call that ends in one state, whatever the answer. -/
theorem after_does {o : MainOp} {f : Local D → Local D} (ho : ∀ r l, o.step r l = some (f l))
    {k : o.Resp → AppM α} : wpAfter (firmware bus) μ es g h (own o >>= k) Q l ↔
      ∀ r, wpAfter (firmware bus) μ (es ++ [did o r l]) g h (k r) Q (f l) := by
  simp only [after_own, ho _ _, Option.some.injEq]
  constructor
  · intro H r
    exact H r (f l) rfl
  · rintro H r _ rfl
    exact H r

theorem after_enter {f : Routine} :
    wpAfter (firmware bus) μ es g h (do own (.enter f); p) Q l ↔
      wpAfter (firmware bus) μ (es ++ [did (.enter f) () l]) g h p Q l :=
  (after_does (o := .enter f) (f := id) fun _ _ => rfl).trans Unique.forall_iff

theorem after_wr_current_state {s : Int} :
    wpAfter (firmware bus) μ es g h (do own (.wr_current_state s); p) Q l ↔
      wpAfter (firmware bus) μ (es ++ [did (.wr_current_state s) () l]) g h p Q
        { l with current_state := s } :=
  (after_does (o := .wr_current_state s) (f := fun l => { l with current_state := s }) fun _ _ => rfl).trans
    Unique.forall_iff

theorem after_wr_data_sent {v : UInt8} :
    wpAfter (firmware bus) μ es g h (do own (.wr .data_sent_flag v); p) Q l ↔
      wpAfter (firmware bus) μ (es ++ [did (.wr .data_sent_flag v) () l]) g h p Q
        { l with user := { l.user with data_sent_flag := v } } :=
  (after_does (o := .wr .data_sent_flag v)
    (f := fun l => { l with user := { l.user with data_sent_flag := v } }) fun _ _ => rfl).trans
    Unique.forall_iff

theorem after_ble {c : BleCall} {k : sl_status_t → AppM α} :
    wpAfter (firmware bus) μ es g h (own (.ble c) >>= k) Q l ↔
      ∀ sc, wpAfter (firmware bus) μ (es ++ [did (.ble c) sc l]) g h (k sc) Q l :=
  after_does (o := .ble c) (f := id) fun _ _ => rfl

theorem after_quiet (hμ : Quiet μ) {o : MainOp} (hq : (Op.main o).quiet = true) {k : o.Resp → AppM α} :
    wpAfter (firmware bus) μ es g h (own o >>= k) Q l ↔
      ∀ r l₁, o.step r l = some l₁ → wpAfter (firmware bus) μ es g h (k r) Q l₁ :=
  wpAfter_ignored (owned_main o) (hμ _ hq)

/-- The bit of the reset cause that matters is known. -/
theorem after_resetCause (hμ : Quiet μ) {k : UInt32 → AppM α} :
    wpAfter (firmware bus) μ es g h (own .RMU_ResetCauseGet >>= k) Q l ↔
      ∀ r, decide (r &&& EMU_RSTCAUSE_EM4 ≠ 0) = l.em4Reset →
        wpAfter (firmware bus) μ es g h (k r) Q l := by
  refine (after_quiet hμ rfl).trans (forall_congr' fun r => ?_)
  simp only [MainOp.step, Option.ite_none_right_eq_some, Option.some.injEq]
  constructor
  · intro H hr
    exact H l ⟨hr, rfl⟩
  · rintro H l₁ ⟨hr, rfl⟩
    exact H hr

theorem after_shr {o : ShrOp} {k : o.Resp → AppM α} :
    wpAfter (firmware bus) μ es g h (shr o >>= k) Q l ↔
      ∀ g₁ h₁, Calls (firmware bus) μ es g h g₁ h₁ → ∀ r l₁ h₂, o.step r l h₁ = some (l₁, h₂) →
        wpAfter (firmware bus) μ [] (μ g₁ (.call (.shr o) r l h₁)) h₂ (k r) Q l₁ := wpAfter_call

/-- Call `o` answers `v` of the shared state and changes nothing. -/
def ShrOp.Reads (D : Type) (o : ShrOp) (v : Shared → o.Resp) : Prop :=
  ∀ (r : o.Resp) (l l' : Local D) (h h' : Shared), o.step r l h = some (l', h') ↔ r = v h ∧ l' = l ∧ h' = h

theorem reads_of_step {o : ShrOp} [DecidableEq o.Resp] {v : Shared → o.Resp}
    (ho : ∀ r (l : Local D) h, o.step r l h = if r = v h then some (l, h) else none) : o.Reads D v := by
  intro r l l' h h'
  rw [ho]
  simp only [Option.ite_none_right_eq_some, Option.some.injEq, Prod.mk.injEq]
  rw [eq_comm (a := l), eq_comm (a := h)]

theorem reads_flag {f : SharedFlag} : (ShrOp.rd f).Reads D fun h => h.get f :=
  reads_of_step fun _ _ _ => rfl

theorem reads_timer_running : ShrOp.sl_sleeptimer_is_timer_running.Reads D Shared.timerRunning :=
  reads_of_step fun _ _ _ => rfl

theorem reads_wakeupTimer : ShrOp.rd_wakeupTimer.Reads D Shared.wakeupTimer :=
  reads_of_step fun _ _ _ => rfl

/-- A read of shared state sees the handlers before it. -/
theorem after_reads {o : ShrOp} {v : Shared → o.Resp} (ho : o.Reads D v) {k : o.Resp → AppM α} :
    wpAfter (firmware bus) μ es g h (shr o >>= k) Q l ↔
      ∀ g₁ h₁, Calls (firmware bus) μ es g h g₁ h₁ →
        wpAfter (firmware bus) μ [] (μ g₁ (.call (.shr o) (v h₁) l h₁)) h₁ (k (v h₁)) Q l := by
  rw [after_shr]
  constructor
  · intro H g₁ h₁ hc
    exact H g₁ h₁ hc (v h₁) l h₁ ((ho _ _ _ _ _).2 ⟨rfl, rfl, rfl⟩)
  · intro H g₁ h₁ hc r l₁ h₂ hs
    obtain ⟨rfl, rfl, rfl⟩ := (ho _ _ _ _ _).1 hs
    exact H g₁ h₂ hc

theorem after_rd (hμ : Quiet μ) {f : SharedFlag} {k : UInt8 → AppM α} :
    wpAfter (firmware bus) μ es g h (shr (.rd f) >>= k) Q l ↔
      ∀ g₁ h₁, Calls (firmware bus) μ es g h g₁ h₁ →
        wpAfter (firmware bus) μ [] g₁ h₁ (k (h₁.get f)) Q l := by
  refine (after_reads reads_flag).trans ?_
  simp only [hμ (.shr (.rd f)) rfl _ _ _ _]

theorem after_timer_running (hμ : Quiet μ) {k : Bool → AppM α} :
    wpAfter (firmware bus) μ es g h (shr .sl_sleeptimer_is_timer_running >>= k) Q l ↔
      ∀ g₁ h₁, Calls (firmware bus) μ es g h g₁ h₁ →
        wpAfter (firmware bus) μ [] g₁ h₁ (k h₁.timerRunning) Q l := by
  refine (after_reads reads_timer_running).trans ?_
  simp only [hμ (.shr .sl_sleeptimer_is_timer_running) rfl _ _ _ _]

theorem after_rd_wakeupTimer {k : Int → AppM α} :
    wpAfter (firmware bus) μ es g h (shr .rd_wakeupTimer >>= k) Q l ↔
      ∀ g₁ h₁, Calls (firmware bus) μ es g h g₁ h₁ → wpAfter (firmware bus) μ []
        (μ g₁ (.call (.shr .rd_wakeupTimer) h₁.wakeupTimer l h₁)) h₁ (k h₁.wakeupTimer) Q l :=
  after_reads reads_wakeupTimer

theorem after_ads1220 (hμ : Quiet μ) {p : DrvM β} {k : β → AppM α} :
    wpAfter (firmware bus) μ es g h (ads1220 p >>= k) Q l ↔
      ∀ b d, Ends (DrvOp.step bus) p l.driver b d →
        wpAfter (firmware bus) μ es g h (k b) Q { l with driver := d } :=
  wpAfter_embed (driver bus) hμ.drv

theorem after_pure {a : α} : wpAfter (firmware bus) μ es g h (pure a) Q l ↔
    ∀ g' h', Calls (firmware bus) μ es g h g' h' → Q a g' l h' := wpAfter_ret

/-- A call on shared state that ends in one state, whatever the answer. -/
theorem after_shr_does {o : ShrOp} {f : Shared → Shared}
    (ho : ∀ r (l : Local D) h, o.step r l h = some (l, f h)) {k : o.Resp → AppM α} :
    wpAfter (firmware bus) μ es g h (shr o >>= k) Q l ↔
      ∀ g₁ h₁, Calls (firmware bus) μ es g h g₁ h₁ → ∀ r,
        wpAfter (firmware bus) μ [] (μ g₁ (.call (.shr o) r l h₁)) (f h₁) (k r) Q l := by
  simp only [after_shr, ho _ _ _, Option.some.injEq, Prod.mk.injEq]
  constructor
  · intro H g₁ h₁ hc r
    exact H g₁ h₁ hc r l (f h₁) ⟨rfl, rfl⟩
  · rintro H g₁ h₁ hc r _ _ ⟨rfl, rfl⟩
    exact H g₁ h₁ hc r

theorem after_wr {f : SharedFlag} {v : UInt8} :
    wpAfter (firmware bus) μ es g h (do shr (.wr f v); p) Q l ↔
      ∀ g₁ h₁, Calls (firmware bus) μ es g h g₁ h₁ →
        wpAfter (firmware bus) μ [] (μ g₁ (.call (.shr (.wr f v)) () l h₁)) (h₁.set v f) p Q l :=
  (after_shr_does (o := .wr f v) (f := fun h => h.set v f) fun _ _ _ => rfl).trans
    (forall₂_congr fun _ _ => imp_congr_right fun _ => Unique.forall_iff)

theorem after_wr_wakeupTimer {v : Int} :
    wpAfter (firmware bus) μ es g h (do shr (.wr_wakeupTimer v); p) Q l ↔
      ∀ g₁ h₁, Calls (firmware bus) μ es g h g₁ h₁ → wpAfter (firmware bus) μ []
        (μ g₁ (.call (.shr (.wr_wakeupTimer v)) () l h₁)) { h₁ with wakeupTimer := v } p Q l :=
  (after_shr_does (o := .wr_wakeupTimer v) (f := fun h => { h with wakeupTimer := v })
    fun _ _ _ => rfl).trans (forall₂_congr fun _ _ => imp_congr_right fun _ => Unique.forall_iff)

theorem after_stop {k : sl_status_t → AppM α} :
    wpAfter (firmware bus) μ es g h (shr .sl_sleeptimer_stop_timer >>= k) Q l ↔
      ∀ g₁ h₁, Calls (firmware bus) μ es g h g₁ h₁ → ∀ sc,
        wpAfter (firmware bus) μ [] (μ g₁ (.call (.shr .sl_sleeptimer_stop_timer) sc l h₁))
          { h₁ with timerRunning := false } (k sc) Q l :=
  after_shr_does (o := .sl_sleeptimer_stop_timer) (f := fun h => { h with timerRunning := false })
    fun _ _ _ => rfl

theorem after_EM4 {k : ads1220_t → AppM α} :
    wpAfter (firmware bus) μ es g h (shr .EMU_EnterEM4 >>= k) Q l ↔
      ∀ g₁ h₁, Calls (firmware bus) μ es g h g₁ h₁ → ∀ ads, wpAfter (firmware bus) μ []
        (μ g₁ (.call (.shr .EMU_EnterEM4) ads l h₁))
        (new_app_fsm l.user.nConnections l.em4PinWakeup true ads l.driver.dev).2 (k ads) Q
        (new_app_fsm l.user.nConnections l.em4PinWakeup true ads l.driver.dev).1 := by
  refine after_shr.trans ?_
  simp only [ShrOp.step, Option.some.injEq]
  constructor
  · intro H g₁ h₁ hc ads
    exact H g₁ h₁ hc ads _ _ rfl
  · intro H g₁ h₁ hc ads l₁ h₂ hs
    cases hs
    exact H g₁ h₁ hc ads

theorem may_own {o : MainOp} {k : o.Resp → AppM α} :
    may (firmware bus) μ (own o >>= k) Q g l h ↔
      ∃ r l₁, o.step r l = some l₁ ∧ may (firmware bus) μ (k r) Q (μ g (.call (.main o) r l h)) l₁ h :=
  may_owned (owned_main o)

theorem may_shr {o : ShrOp} {k : o.Resp → AppM α} :
    may (firmware bus) μ (shr o >>= k) Q g l h ↔
      ∃ r l₁ h₁, o.step r l h = some (l₁, h₁) ∧
        may (firmware bus) μ (k r) Q (μ g (.call (.shr o) r l h)) l₁ h₁ := Iff.rfl

theorem may_reads {o : ShrOp} {v : Shared → o.Resp} (ho : o.Reads D v) {k : o.Resp → AppM α} :
    may (firmware bus) μ (shr o >>= k) Q g l h ↔
      may (firmware bus) μ (k (v h)) Q (μ g (.call (.shr o) (v h) l h)) l h := by
  rw [may_shr]
  constructor
  · rintro ⟨r, l₁, h₁, hs, H⟩
    obtain ⟨rfl, rfl, rfl⟩ := (ho _ _ _ _ _).1 hs
    exact H
  · intro H
    exact ⟨v h, l, h, (ho _ _ _ _ _).2 ⟨rfl, rfl, rfl⟩, H⟩

theorem may_rd (hμ : Quiet μ) {f : SharedFlag} {k : UInt8 → AppM α} :
    may (firmware bus) μ (shr (.rd f) >>= k) Q g l h ↔ may (firmware bus) μ (k (h.get f)) Q g l h := by
  refine (may_reads reads_flag).trans ?_
  rw [hμ (.shr (.rd f)) rfl]

theorem may_timer_running (hμ : Quiet μ) {k : Bool → AppM α} :
    may (firmware bus) μ (shr .sl_sleeptimer_is_timer_running >>= k) Q g l h ↔
      may (firmware bus) μ (k h.timerRunning) Q g l h := by
  refine (may_reads reads_timer_running).trans ?_
  rw [hμ (.shr .sl_sleeptimer_is_timer_running) rfl]

theorem may_ads1220 (hμ : Quiet μ) {p : DrvM β} {k : β → AppM α} :
    may (firmware bus) μ (ads1220 p >>= k) Q g l h ↔
      ∃ b d, Ends (DrvOp.step bus) p l.driver b d ∧
        may (firmware bus) μ (k b) Q g { l with driver := d } h :=
  may_embed (driver bus) hμ.drv

theorem may_pure {a : α} : may (firmware bus) μ (pure a) Q g l h ↔ Q a g l h := Iff.rfl

theorem ite_bind {p : Prop} [Decidable p] {a b : AppM β} {k : β → AppM α} :
    ((if p then a else b) >>= k) = if p then a >>= k else b >>= k := apply_ite (· >>= k) p a b

end M20Strain
