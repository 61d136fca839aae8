import M20Strain.Proof.Bench
import M20Strain.Proof.Emits

/-!
# The two ways into EM4

`restored_iff`: at every call of `EMU_EnterEM4`, the sleep timer is stopped, every
recorded connection has been closed in the same transition and pin wake-up is
armed exactly when the transition is `reset_timer_sleep`. The other way,
`reset_no_timer`, closes nothing and leaves the pin unarmed.
-/

namespace M20Strain

open Interrupt Prog

variable {D : Type} {bus : SpiBus D} {l₀ l l' : Local D} {h₀ h h' : Shared} {tr evs : List (Event D)}

/-- The routine entered last, and the connections closed since. -/
structure Transition where
  routine : Option Routine
  closed : List UInt8

def transition (g : Transition) : Event D → Transition
  | .call (.main (.enter f)) _ _ _ => ⟨some f, []⟩
  | .call (.main (.ble (.sl_bt_connection_close c))) _ _ _ => { g with closed := c :: g.closed }
  | _ => g

/-- What both ways into EM4 are there to restore: the timer is stopped, the recorded
connections are closed, and the pin is armed. -/
def Restored (g : Transition) (l : Local D) (h : Shared) : Prop :=
  h.timerRunning = false ∧ (∀ i : Fin 10, i < l.nConnections → l.connections i ∈ g.closed) ∧
    l.em4PinWakeup = true

/-- At `EMU_EnterEM4`, what is to be restored is, exactly on the way through `reset_timer_sleep`. -/
def RestoredByTimer (g : Transition) : Event D → Prop
  | .call (.shr .EMU_EnterEM4) _ l h => Restored g l h ↔ g.routine = some .reset_timer_sleep
  | _ => True

theorem blind_transition : Blind (transition (D := D)) where
  quiet o ho g r l h := by
    unfold transition
    split <;> first | rfl | (rename_i heq; cases heq; cases ho)
  irq _ _ _ := rfl
  main g o r l h h' ho := by
    rcases o with o | o | o <;> cases ho
    cases o <;> first | rfl | (rename_i c; cases c <;> rfl)

theorem blind_restored : Blind (watch transition (RestoredByTimer (D := D))) := by
  refine blind_transition.watch ?_ (fun _ _ _ => trivial) ?_
  · intro o ho g r l h
    unfold RestoredByTimer
    split <;> first | trivial | (rename_i heq; cases heq; cases ho)
  · intro g o r l h h' ho
    rcases o with o | o | o <;> cases ho
    rfl

/-- The loop of `reset_timer_sleep` closes the connections in its range, and nothing reopens them. -/
theorem Closes.closed {n i : ℕ} {es : List (Made Op.Resp (Local D))} (hes : Closes l n i es) (g : Transition) :
    ((entries es h).foldl transition g).routine = g.routine ∧
      (∀ c ∈ g.closed, c ∈ ((entries es h).foldl transition g).closed) ∧
      ∀ k : Fin 10, i ≤ k → k < i + n → l.connections k ∈ ((entries es h).foldl transition g).closed := by
  induction n generalizing i es g with
  | zero =>
    rw [show es = [] from hes]
    exact ⟨rfl, fun _ hc => hc, fun k h1 h2 => by omega⟩
  | succ n ih =>
    obtain ⟨c, sc, es', hc, rfl, hes⟩ := hes
    obtain ⟨h1, h2, h3⟩ := ih hes { g with closed := c :: g.closed }
    refine ⟨h1, fun b hb => h2 b (List.mem_cons_of_mem _ hb), fun k hi hk => ?_⟩
    rcases hi.lt_or_eq with hi | hi
    · exact h3 k hi (by omega)
    · obtain rfl : c = l.connections k := by rw [hc (hi ▸ k.isLt)]; congr 1; exact Fin.ext hi
      exact h2 _ List.mem_cons_self

/-- The pin is armed only between a restart and the next `wake_up`. -/
def Unarmed (l : Local D) : Prop := l.current_state ≠ states.SLEEPING → l.em4PinWakeup = false

theorem Emits.restored {g : Transition} (he : Emits l h evs l') (hu : Unarmed l) :
    Checked transition RestoredByTimer g evs ∧ Unarmed l' := by
  have awake {s : states} (hs : l.current_state = s) (hne : s ≠ .SLEEPING) : l.em4PinWakeup = false :=
    hu (not_at hs hne)
  cases he with
  | stay s hs ht => exact ⟨trivial, hu⟩
  | reset_timer_sleep hs hes hr =>
    refine ⟨?_, fun h => absurd rfl h⟩
    simp only [start, entries, Made.entry, List.map_cons, List.map_nil, List.cons_append, List.nil_append, Checked,
      RestoredByTimer, checked_append, transition, and_true, true_and]
    refine ⟨hes.checked fun _ _ _ _ _ => trivial, ?_⟩
    obtain ⟨h1, -, h3⟩ := hes.closed (h := h) ⟨some .reset_timer_sleep, []⟩
    -- the loop runs as often as the address of the counter says
    refine iff_of_true ⟨hr, fun k _ => h3 k (Nat.zero_le _) ?_, rfl⟩ h1
    have := l.user.nConnections.le
    omega
  | reset_no_timer hs hr =>
    refine ⟨?_, fun h => absurd rfl h⟩
    simp only [start, entries, Made.entry, List.map_cons, List.map_nil, List.cons_append, List.nil_append, Checked,
      RestoredByTimer, transition, and_true, true_and]
    refine iff_of_false ?_ (by simp)
    -- the pin is as `wake_up` left it
    rintro ⟨-, -, harmed⟩
    exact absurd harmed (by simp [resetting, awake hs (by decide)])
  | power_up hs | pin_wake hs | timer_wake hs =>
    exact ⟨by simp [start, entries, Made.entry, Checked, RestoredByTimer], fun _ => rfl⟩
  | ask hs hn =>
    refine ⟨by simp [start, entries, Made.entry, Checked, RestoredByTimer], fun _ => ?_⟩
    obtain ⟨hs, rfl⟩ | ⟨hs, rfl⟩ := hs <;> exact awake hs (by decide)
  | retrieve hs hn hw =>
    refine ⟨by simp [start, entries, Made.entry, Checked, RestoredByTimer], fun _ => ?_⟩
    obtain ⟨s, rfl⟩ := stored hw
    exact awake hs (by decide)
  | ask_all hs | send_ok _ hs | send_failed _ hs | ask_again hs | try_to_sleep hs =>
    exact ⟨by simp [start, published, entries, Made.entry, Checked, RestoredByTimer], fun _ => awake hs (by decide)⟩

/-- **What EM4 finds.** In every run, at every call of `EMU_EnterEM4`: the sleep timer is
stopped, every recorded connection has been closed since the transition began
and pin wake-up is armed, exactly when the transition is `reset_timer_sleep`. -/
theorem restored_iff (hb : Boot l₀ h₀) (hr : Runs bus l₀ h₀ tr l h) :
    Checked transition RestoredByTimer ⟨none, []⟩ tr := by
  refine (run_blind_checked (J := fun _ => Unarmed) blind_restored hb ?_ (fun _ _ _ _ _ _ hu he => he.restored hu)
    (fun _ _ _ _ _ _ _ hu => ⟨trivial, hu⟩) (fun _ _ _ _ _ hu => hu) hr).1
  exact hb.elim fun _ _ _ _ _ h => absurd rfl h

/-- What is to be restored at every call of `EMU_EnterEM4`. -/
def RestoredAlways (g : Transition) : Event D → Prop
  | .call (.shr .EMU_EnterEM4) _ l h => Restored g l h
  | _ => True

instance {g : Transition} : Decidable (Restored g l h) := inferInstanceAs (Decidable (_ ∧ _ ∧ _))

instance RestoredAlways.decidable {g : Transition} : ∀ e : Event D, Decidable (RestoredAlways g e)
  | .irq _ _ | .call (.drv _) _ _ _ | .call (.main _) _ _ _ => instDecidableTrue
  | .call (.shr o) r l h => by
    unfold RestoredAlways
    split <;> infer_instance

/-- A client connects, and the button is pressed while the device waits to sleep. -/
def pressedToSleep : Script :=
  [.task (.sl_bt_on_event (.connection_opened 1))] ++ fires 1 ++ measurement ++ fires 1 ++
    [.irq .change_mode] ++ fires 1

theorem restored_iff_pressed : ∃ tr l h, Runs anyBus (booted false false).1 (booted false false).2 tr l h ∧
    l.em4Reset = true ∧ Checked transition RestoredByTimer ⟨none, []⟩ tr := by
  obtain ⟨tr, l, h, hr, hP⟩ := bench_run quietBench pressedToSleep
    (P := fun _ l _ => l.em4Reset = true) (by decide +kernel)
  exact ⟨tr, l, h, hr, hP, restored_iff booted_boot hr⟩

/-- `reset_no_timer` enters EM4 with the client connected and the pin unarmed. -/
theorem not_restored : ∃ tr l h, Runs anyBus (booted false false).1 (booted false false).2 tr l h ∧
    ¬ Checked transition RestoredAlways ⟨none, []⟩ tr := by
  refine bench_run quietBench pressedToSleep
    (P := fun tr _ _ => ¬ Checked transition RestoredAlways ⟨none, []⟩ tr) ?_
  decide +kernel

end M20Strain
