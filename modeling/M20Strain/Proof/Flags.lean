import M20Strain.Proof.Alone
import M20Strain.Proof.Bench
import M20Strain.Proof.Emits

/-!
# Flags and states

`flags_fit`: what the flags are in every reachable state, that `WAKING_UP` is
always followed by a conversion start, and that the row of `app_fsm_tt` from
`TO_SLEEP` to itself is never taken.
-/

namespace M20Strain

open Interrupt Prog

variable {D : Type} {bus : SpiBus D} {l₀ l l' : Local D} {h₀ h h' : Shared} {tr : List (Event D)}

/-- Entering `start_conv`. -/
def isStart : Event D → Bool
  | .call (.main (.enter .start_conv)) _ _ _ => true
  | _ => false

theorem isStart_iff {e : Event D} :
    isStart e = true ↔ ∃ l h, e = .call (.main (.enter .start_conv)) () l h := by
  constructor
  · intro he
    unfold isStart at he
    split at he
    · exact ⟨_, _, rfl⟩
    · cases he
  · rintro ⟨l, h, rfl⟩; rfl

theorem quiet_seen_start : Quiet (seen (isStart (D := D))) := by
  refine .seen fun o ho r l h => ?_
  unfold isStart
  split
  · cases ‹Entry.call _ _ _ _ = _›
    cases ho
  · rfl

/-- From `WAKING_UP`, one `fsm_fire` asks for a sample and starts its conversion. -/
theorem Fired.of_waking_up {G : Type} {μ : G → Event D → G} {g g' : G} (hf : Fired bus μ g l h g' l' h')
    (hs : l.current_state = states.WAKING_UP) : ∃ d g₁ h₁,
      Calls (firmware bus) μ (start .ASKING_FOR_DATA .ask_for_next_data l) g h g₁ h₁ ∧
      Calls (firmware bus) μ [did (.enter .start_conv) () (asked l d)]
        (μ g₁ (.call (.shr (.wr .data_ready_flag 0)) () (asking l) h₁)) { h₁ with data_ready_flag := 0 } g' h' := by
  have no {s : states} (h1 : l.current_state = s) (hne : s ≠ .WAKING_UP) : False := not_at h1 hne hs
  cases hf with
  | ask hs' hn hd₁ hd₂ hc hc' =>
    rcases hs' with ⟨-, hl⟩ | ⟨hs', -⟩
    · subst hl
      exact ⟨_, _, _, hc, hc'⟩
    · exact (no hs' (by decide)).elim
  | stay s h1 ht hi => exact (no h1 (by rintro rfl; simp at ht)).elim
  | power_up h1 | pin_wake h1 | timer_wake h1 | ask_all h1 | retrieve h1 | send_ok s h1 | send_failed s h1
  | ask_again h1 | try_to_sleep h1 | reset_timer_sleep h1 | reset_no_timer h1 =>
    exact (no h1 (by decide)).elim

/-- From `WAKING_UP`, an `fsm_fire` can always end. -/
theorem waking_up_ends (hI : Inv l h) (hs : l.current_state = states.WAKING_UP) :
    ∃ tr l' h', Exec (firmware bus) app_process_action l h tr () l' h' := by
  obtain ⟨⟨⟩, d₁, hd₁⟩ := drv_ends bus temp_sense_on l.driver
  obtain ⟨⟨⟩, d₂, hd₂⟩ := drv_ends bus start_conv d₁
  have hn : l.user.num_data_retrieved < 4 := Int.lt_of_le_of_lt (hI.fits hs).num_le (by decide)
  have hc := can_ask (h := h) (.inl ⟨hs, (hI.fits hs).wakeup_completed, rfl⟩) hn hd₁ hd₂
  obtain ⟨tr, ⟨⟩, l', h', he, -, -⟩ := may_iff.1 hc
  exact ⟨tr, l', h', he⟩

/-- `TO_SLEEP` is entered from `SENDING_DATA`. -/
def Leaves : Event D → Prop
  | .call (.main (.wr_current_state s)) _ l _ => s = states.TO_SLEEP → l.current_state = states.SENDING_DATA
  | _ => True

theorem blind_leaves : Blind (watch blind fun _ => Leaves (D := D)) := by
  refine Blind.blind.watch (fun o ho g r l h => ?_) (fun _ _ _ => trivial) fun g o r l h h' ho => by
    rcases o with o | o | o <;> first | rfl | (cases o <;> rfl)
  unfold Leaves
  split
  · rename_i heq; cases heq; cases ho
  · trivial

theorem Emits.leaves {evs : List (Event D)} (he : Emits l h evs l') :
    Checked blind (fun _ => Leaves) () evs := by
  cases he with
  | try_to_sleep hs hd => simp [start, entries, Made.entry, Checked, Leaves, hs]
  | reset_timer_sleep hs hes hr =>
    simp only [start, entries, Made.entry, List.map_cons, List.map_nil, List.cons_append, List.nil_append,
      Checked, Leaves, checked_append, and_true, true_and]
    refine ⟨fun h => absurd h (by decide), checked_of_forall fun e he _ => ?_⟩
    obtain ⟨c, sc, rfl⟩ := hes.mem_entries e he
    trivial
  | _ => simp [start, published, entries, Made.entry, Checked, Leaves]

theorem run_leaves (hb : Boot l₀ h₀) (hr : Runs bus l₀ h₀ tr l h) : Checked blind (fun _ => Leaves) () tr := by
  have H := run_blind_checked (J := fun _ _ => True) (g := ()) blind_leaves hb trivial ?_ ?_ ?_ hr
  · exact H.1
  · exact fun _ _ _ _ _ _ _ he => ⟨he.leaves, trivial⟩
  · exact fun _ _ _ _ _ _ _ _ => ⟨trivial, trivial⟩
  · exact fun _ _ _ _ _ _ => trivial

theorem ite_one {p : Prop} [Decidable p] {v : UInt8} (hv : v = if p then 1 else 0) : v = 1 ↔ p := by
  rw [hv]; split <;> simp_all

/-- **Flags and states.** In every reachable state each flag says which state the
machine is in. Every `fsm_fire` from `WAKING_UP` starts a conversion, and whenever
`TO_SLEEP` is entered the machine was in `SENDING_DATA`. -/
theorem flags_fit (hb : Boot l₀ h₀) (hr : Runs bus l₀ h₀ tr l h) :
    ((l.user.wakeup_timer_flag = 1 ↔ l.current_state = states.SLEEPING) ∧
      (l.user.wakeup_completed_flag = 1 ↔ l.current_state = states.WAKING_UP) ∧
      (l.user.data_sent_flag = 1 → l.current_state = states.SENDING_DATA) ∧
      (l.user.sleep_possible_flag = 1 ↔ l.current_state = states.TO_SLEEP) ∧
      (h.tmr_flag = 1 → l.current_state = states.TO_SLEEP) ∧
      (l.current_state ≠ states.ASKING_FOR_DATA → l.current_state ≠ states.RETRIEVING_DATA →
        l.user.num_data_retrieved = 0)) ∧
    (l.current_state = states.WAKING_UP →
      (∃ tr₁ l₁ h₁, Exec (firmware bus) app_process_action l h tr₁ () l₁ h₁) ∧
      ∀ tr₁ l₁ h₁, Exec (firmware bus) app_process_action l h tr₁ () l₁ h₁ →
        ∃ l₂ h₂, .call (.main (.enter .start_conv)) () l₂ h₂ ∈ tr₁) ∧
    ∀ (l₁ : Local D) h₁, .call (.main (.wr_current_state states.TO_SLEEP)) () l₁ h₁ ∈ tr →
      l₁.current_state ≠ states.TO_SLEEP := by
  have hI := run_inv hb hr
  refine ⟨?_, fun hs => ⟨waking_up_ends hI hs, fun tr₁ l₁ h₁ he => ?_⟩, fun l₁ h₁ he => ?_⟩
  · obtain ⟨s, hs, hf⟩ := hI
    have at_iff (t : states) : l.current_state = t ↔ s = t := by
      rw [hs]; exact ⟨states.val_inj, fun h => h ▸ rfl⟩
    refine ⟨?_, ?_, fun h1 => ?_, ?_, fun h1 => ?_, fun h1 h2 => ?_⟩
    · rw [at_iff]; exact ite_one hf.wakeup_timer
    · rw [at_iff]; exact ite_one hf.wakeup_completed
    · rw [at_iff]
      rcases hf.data_sent with h0 | ⟨hs, -⟩
      · rw [h0] at h1; exact absurd h1 (by decide)
      · exact hs
    · rw [at_iff]; exact ite_one hf.sleep_possible
    · rw [at_iff]
      by_contra hne
      have ht := hf.timer
      rw [if_neg hne] at ht
      rw [ht.1] at h1
      exact absurd h1 (by decide)
    · -- in the four other states the counter is bounded by 0 on both sides
      rw [Ne, at_iff] at h1 h2
      have hz : s.samples = 0 := by cases s <;> first | rfl | contradiction
      have hle := hf.num_le
      rw [hz] at hle
      exact le_antisymm hle hf.num_nonneg
  · have hw : wp (firmware bus) (seen isStart) app_process_action (fun _ g _ _ => g = true) false l h := by
      refine wp_mono (fun _ g' l' h' hf => ?_) (wp_fired quiet_seen_start hI)
      obtain ⟨d, g₁, h₁, -, hc⟩ := hf.of_waking_up hs
      exact hc.seen_of_mem List.mem_cons_self fun _ => rfl
    obtain ⟨e, he, hp⟩ := exists_of_wp_seen hw he
    obtain ⟨l₂, h₂, rfl⟩ := isStart_iff.1 hp
    exact ⟨l₂, h₂, he⟩
  · obtain ⟨pre, post, rfl⟩ := List.append_of_mem he
    have := checked_iff.1 (run_leaves hb hr) pre _ post rfl rfl
    rw [this]; decide

/-- After a wake-up. -/
theorem flags_fit_woken : ∃ tr l h, Runs anyBus (booted false false).1 (booted false false).2 tr l h ∧
    l.current_state = states.WAKING_UP ∧
    (l.user.wakeup_completed_flag = 1 ↔ l.current_state = states.WAKING_UP) ∧
    ∀ tr₁ l₁ h₁, Exec (firmware anyBus) app_process_action l h tr₁ () l₁ h₁ →
      ∃ l₂ h₂, .call (.main (.enter .start_conv)) () l₂ h₂ ∈ tr₁ := by
  obtain ⟨tr, l, h, hr, hs⟩ := bench_run quietBench (fires 1)
    (P := fun _ l _ => l.current_state = states.WAKING_UP) (by decide +kernel)
  have hf := flags_fit booted_boot hr
  exact ⟨tr, l, h, hr, hs, hf.1.2.1, (hf.2.1 hs).2⟩

end M20Strain
