import M20Strain.Model.App

/-!
# The flags in every state

`Inv` says, for each state of the state machine, what the flags, the sample
counter and the sleep timer are at the boundary between two tasks. It holds
after `app_init` (`Boot.inv`) and no handler breaks it (`Inv.handle`).
-/

namespace M20Strain

variable {D : Type}

/-- The sleep timer is stopped and its flag clear. -/
def Idle (h : Shared) : Prop := h.tmr_flag = 0 ∧ h.timerRunning = false

/-- The sleep timer runs, or it has expired and its flag says so. -/
def Armed (h : Shared) : Prop :=
  h.tmr_flag = 0 ∧ h.timerRunning = true ∨ h.tmr_flag = 1 ∧ h.timerRunning = false

/-- How far the sample counter goes in a state. -/
def states.samples : states → Int
  | ASKING_FOR_DATA => 4
  | RETRIEVING_DATA => 3
  | _ => 0

/-- The flags that state `s` comes with. -/
structure Fits (s : states) (u : app_fsm_t) (h : Shared) : Prop where
  wakeup_timer : u.wakeup_timer_flag = if s = .SLEEPING then 1 else 0
  wakeup_completed : u.wakeup_completed_flag = if s = .WAKING_UP then 1 else 0
  sleep_possible : u.sleep_possible_flag = if s = .TO_SLEEP then 1 else 0
  data_sent : u.data_sent_flag = 0 ∨ s = .SENDING_DATA ∧ u.data_sent_flag = 1
  num_nonneg : 0 ≤ u.num_data_retrieved
  num_le : u.num_data_retrieved ≤ s.samples
  timer : if s = .TO_SLEEP then Armed h else Idle h

/-- **The flags fit the state.** -/
def Inv (l : Local D) (h : Shared) : Prop := ∃ s : states, l.current_state = s ∧ Fits s l.user h

/-- A state `app_init` can leave: after power-up, or after EM4. -/
def Boot (l : Local D) (h : Shared) : Prop :=
  ∃ nConnections em4PinWakeup em4Reset ads dev,
    (l, h) = new_app_fsm nConnections em4PinWakeup em4Reset ads dev

theorem states.val_inj {s t : states} (hst : (s : Int) = t) : s = t := by
  cases s <;> cases t <;> first | rfl | exact absurd hst (by decide)

theorem not_at {s t : states} {l : Local D} (hs : l.current_state = s) (hne : s ≠ t) :
    l.current_state ≠ t := by
  intro ht
  exact hne (states.val_inj (hs.symm.trans ht))

theorem Inv.fits {s : states} {l : Local D} {h : Shared} (hI : Inv l h) (hs : l.current_state = s) :
    Fits s l.user h := by
  obtain ⟨t, ht, hf⟩ := hI
  have hst : s = t := states.val_inj (hs.symm.trans ht)
  rw [hst]
  exact hf

theorem new_app_fsm_inv {nConnections : RamAddr} {em4PinWakeup em4Reset : Bool} {ads : ads1220_t}
    {dev : D} : Inv (new_app_fsm nConnections em4PinWakeup em4Reset ads dev).1
      (new_app_fsm nConnections em4PinWakeup em4Reset ads dev).2 := by
  refine ⟨.SLEEPING, rfl, ?_⟩
  -- every flag is clear but the one that wakes the state machine up
  exact ⟨rfl, rfl, rfl, .inl rfl, le_refl _, le_refl _, rfl, rfl⟩

/-- What holds of everything `new_app_fsm` returns holds after the boot. -/
@[elab_as_elim]
theorem Boot.elim {l : Local D} {h : Shared} {P : Local D → Prop} (hb : Boot l h)
    (hP : ∀ nConnections em4PinWakeup em4Reset ads dev,
      P (new_app_fsm nConnections em4PinWakeup em4Reset ads dev).1) : P l := by
  obtain ⟨nConnections, em4PinWakeup, em4Reset, ads, dev, heq⟩ := hb
  obtain ⟨rfl, -⟩ := Prod.mk.inj heq
  exact hP nConnections em4PinWakeup em4Reset ads dev

theorem Boot.inv {l : Local D} {h : Shared} (hb : Boot l h) : Inv l h := by
  obtain ⟨nConnections, em4PinWakeup, em4Reset, ads, dev, heq⟩ := hb
  obtain ⟨rfl, rfl⟩ := Prod.mk.inj heq
  exact new_app_fsm_inv

/-- A handler leaves flag and timer alone, or is the timer's and finds it running. -/
theorem handle_timer {i : Irq} {h h' : Shared} (hi : handle i h = some h') :
    (h'.tmr_flag = h.tmr_flag ∧ h'.timerRunning = h.timerRunning) ∨
      (i = .sleeptimer ∧ h.timerRunning = true ∧ h'.tmr_flag = 1 ∧ h'.timerRunning = false) := by
  cases i with
  | sleeptimer =>
    simp only [handle] at hi
    split at hi
    · rename_i hr
      cases hi
      exact .inr ⟨rfl, hr, rfl, rfl⟩
    · cases hi
  | change_mode | data_ready | burtc =>
    cases hi
    exact .inl ⟨rfl, rfl⟩

theorem Idle.handle {i : Irq} {h h' : Shared} (hi : handle i h = some h') (hd : Idle h) : Idle h' := by
  rcases handle_timer hi with ⟨h1, h2⟩ | ⟨-, hr, -⟩
  · exact ⟨h1.trans hd.1, h2.trans hd.2⟩
  · -- the timer does not run
    rw [hd.2] at hr
    cases hr

theorem Armed.handle {i : Irq} {h h' : Shared} (hi : M20Strain.handle i h = some h') (hd : Armed h) :
    Armed h' := by
  rcases handle_timer hi with ⟨h1, h2⟩ | ⟨-, -, h1, h2⟩
  · unfold Armed
    rw [h1, h2]
    exact hd
  · exact .inr ⟨h1, h2⟩

theorem Fits.handle {s : states} {u : app_fsm_t} {i : Irq} {h h' : Shared} (hf : Fits s u h)
    (hi : M20Strain.handle i h = some h') : Fits s u h' := by
  refine { hf with timer := ?_ }
  have ht := hf.timer
  split at ht
  · rename_i hs
    rw [if_pos hs]
    exact ht.handle hi
  · rename_i hs
    rw [if_neg hs]
    exact ht.handle hi

theorem Inv.handle {i : Irq} {l : Local D} {h h' : Shared} (hI : Inv l h)
    (hi : M20Strain.handle i h = some h') : Inv l h' := by
  obtain ⟨s, hs, hf⟩ := hI
  exact ⟨s, hs, hf.handle hi⟩

end M20Strain
