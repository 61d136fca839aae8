import M20Strain.Proof.Bench
import M20Strain.Proof.Runs

/-!
# The mode after EM4

`mode_follows`: after a restart from EM4 the mode is what the wake-up source says,
whatever it was before: slow after the BURTC compare, continuous otherwise. Without
another press of the button, the cycle then ends accordingly.
-/

namespace M20Strain

open Interrupt Prog

variable {D : Type} {bus : SpiBus D} {l₀ l l' : Local D} {h₀ h h' : Shared} {tr : List (Event D)}

/-- The wake-up from EM4 whose cycle is going on: `burtc` says that the BURTC handler ran
before `wake_up` looked. -/
inductive Wake where
  | none -- after power-up, after a press of the button, or when the cycle is over
  | asleep (burtc : Bool) -- since the restart
  | looked (burtc : Bool) -- `wake_up` has looked at `wakeupTimer`
  | decided (burtc : Bool) -- and has set the mode
  deriving DecidableEq

def wake (g : Wake) : Event D → Wake
  | .call (.shr .EMU_EnterEM4) _ _ _ => .asleep false
  | .irq .burtc _ => match g with
    | .asleep _ => .asleep true
    | g => g
  | .call (.shr .rd_wakeupTimer) _ _ _ => match g with
    | .asleep burtc => .looked burtc
    | g => g
  | .call (.shr (.wr .change_mode_flag _)) _ _ _ => match g with
    | .looked burtc => .decided burtc
    | g => g
  | .irq .change_mode _ => match g with
    | .decided _ => .none
    | g => g
  | .call (.main (.enter .ask_again)) _ _ _ | .call (.main (.enter .try_to_sleep)) _ _ _ => .none
  | _ => g

/-- The value of `change_mode_flag` that a wake-up asks for. -/
def modeAfter (burtc : Bool) : UInt8 := if burtc then 0 else 1

/-- When `wake_up` is over the mode is decided, and the cycle ends as it says. -/
def EndsAs (g : Wake) : Event D → Prop
  | .call (.main (.enter .ask_for_next_data)) _ _ _ => g = .none ∨ ∃ burtc, g = .decided burtc
  | .call (.main (.enter .ask_again)) _ _ _ => g ≠ .decided true
  | .call (.main (.enter .try_to_sleep)) _ _ _ => g ≠ .decided false
  | _ => True

/-- Once decided, the mode stays. -/
def Decided (g : Wake) (h : Shared) : Prop := ∀ burtc, g = .decided burtc → h.change_mode_flag = modeAfter burtc

/-- What the wake-up from EM4 decides, at every entry of a trace. -/
def Follows (g : Wake) (e : Event D) : Prop := EndsAs g e ∧ Decided g e.shared

/-- `Follows` without the flag at quiet calls. -/
def LoudFollows (g : Wake) (e : Event D) : Prop := EndsAs g e ∧ (e.loud Op.quiet = true → Decided g e.shared)

theorem quiet_wake : Quiet (wake (D := D)) := by
  intro o ho g r l h
  unfold wake
  split <;> first | rfl | (rename_i heq; cases heq <;> cases ho)

theorem quiet_follows : Quiet (watch wake (LoudFollows (D := D))) := by
  refine quiet_wake.watch fun o ho g r l h => ⟨?_, fun hl => absurd hl (by simp [Entry.loud, ho])⟩
  unfold EndsAs
  split <;> first | trivial | (rename_i heq; cases heq; cases ho)

variable {k k' : Wake × Prop} {burtc : Bool} {e : Event D} {es : List (Made Op.Resp (Local D))}

/-- A wake-up that decided on this mode, if any. -/
def In (burtc : Bool) (g : Wake) (h : Shared) : Prop :=
  g = .none ∨ g = .decided burtc ∧ h.change_mode_flag = modeAfter burtc

theorem In.decided {g : Wake} (hg : In burtc g h) : Decided g h := by
  intro b hb
  rcases hg with rfl | ⟨rfl, hc⟩
  · cases hb
  · cases hb; exact hc

/-- An entry that is not about the mode. -/
def Neutral (e : Event D) : Prop := ∀ g, g = .none ∨ (∃ burtc, g = .decided burtc) → wake g e = g ∧ EndsAs g e

theorem In.step (hk : k.2 ∧ In burtc k.1 e.shared) (he : Neutral e)
    (hc : h'.change_mode_flag = e.shared.change_mode_flag) :
    (watch wake LoudFollows k e).2 ∧ In burtc (watch wake LoudFollows k e).1 h' := by
  obtain ⟨hp, hg⟩ := hk
  obtain ⟨h1, h2⟩ := he k.1 (hg.imp id fun hg => ⟨burtc, hg.1⟩)
  refine ⟨⟨hp, h2, fun _ => hg.decided⟩, ?_⟩
  simpa only [watch, h1, In, hc] using hg

/-- Only the button changes the mode. -/
theorem handle_mode {i : Irq} (hi : handle i h = some h') (hne : i ≠ .change_mode) :
    h'.change_mode_flag = h.change_mode_flag := by
  cases i with
  | change_mode => exact absurd rfl hne
  | sleeptimer =>
    simp only [handle] at hi
    split at hi <;> cases hi
    rfl
  | data_ready | burtc => cases hi; rfl

theorem In.calls (hes : ∀ e ∈ es, ∀ h, Neutral (e.entry h))
    (hc : Calls (firmware bus) (watch wake LoudFollows) es k h k' h') :
    k.2 ∧ In burtc k.1 h → k'.2 ∧ In burtc k'.1 h' := by
  refine hc.stable (P := fun k h => k.2 ∧ In burtc k.1 h) (fun i k h h' hi hk => ?_) fun e he k h hk => ?_
  · refine ⟨⟨hk.1, trivial, fun _ => hk.2.decided⟩, ?_⟩
    by_cases hne : i = .change_mode
    · subst hne
      rcases hk.2 with hg | ⟨hg, -⟩ <;> exact .inl (by simp only [watch, hg]; rfl)
    · rcases hk.2 with hg | ⟨hg, h1⟩
      · exact .inl (by simp only [watch, hg]; cases i <;> rfl)
      · refine .inr ⟨?_, (handle_mode hi hne).trans h1⟩
        simp only [watch, hg]; cases i <;> first | rfl | exact absurd rfl hne
  · exact In.step (e := e.entry h) hk (hes e he h) rfl

theorem In.irqs (hi : Irqs (firmware bus) (watch wake LoudFollows) k h k' h') :
    k.2 ∧ In burtc k.1 h → k'.2 ∧ In burtc k'.1 h' :=
  In.calls (List.forall_mem_nil _) hi.calls

theorem In.then_calls {h₁ : Shared}
    (hc : Calls (firmware bus) (watch wake LoudFollows) es (watch wake LoudFollows k e) h₁ k' h')
    (hk : k.2 ∧ In burtc k.1 e.shared) (he : Neutral e) (hm : h₁.change_mode_flag = e.shared.change_mode_flag)
    (hes : ∀ e ∈ es, ∀ h, Neutral (e.entry h)) : k'.2 ∧ In burtc k'.1 h' :=
  In.calls hes hc (In.step hk he hm)

theorem In.then {h₁ : Shared} (hi : Irqs (firmware bus) (watch wake LoudFollows) (watch wake LoudFollows k e) h₁ k' h')
    (hk : k.2 ∧ In burtc k.1 e.shared) (he : Neutral e) (hm : h₁.change_mode_flag = e.shared.change_mode_flag) :
    k'.2 ∧ In burtc k'.1 h' :=
  In.then_calls hi.calls hk he hm (List.forall_mem_nil _)

/-- The mode tells a wake-up by BURTC from one by the pin. -/
theorem In.of_mode {b : Bool} {g : Wake} (hg : In burtc g h) (hb : h.change_mode_flag = 0 ↔ b = true) : In b g h := by
  refine hg.imp_right fun ⟨h1, h2⟩ => ?_
  obtain rfl : burtc = b := by
    rw [h2] at hb
    cases burtc <;> cases b <;> simp_all [modeAfter]
  exact ⟨h1, h2⟩

/-- Between a restart and `wake_up`, the source of the wake-up is known. -/
def Asleep (l : Local D) (g : Wake) (h : Shared) : Prop :=
  g = .none ∨ ∃ burtc, g = .asleep burtc ∧ l.em4Reset = true ∧ h.wakeupTimer = if burtc then 1 else 0

/-- What the wake-up is at the boundary between two tasks. -/
def Awake (l : Local D) (g : Wake) (h : Shared) : Prop :=
  if l.current_state = states.SLEEPING then Asleep l g h
  else if l.current_state = states.TO_SLEEP then g = .none
  else ∃ burtc, In burtc g h

/-- Only BURTC sets `wakeupTimer`. -/
theorem handle_burtc {i : Irq} (hi : handle i h = some h') :
    i = .burtc ∧ h'.wakeupTimer = 1 ∨ i ≠ .burtc ∧ h'.wakeupTimer = h.wakeupTimer := by
  cases i with
  | burtc => cases hi; exact .inl ⟨rfl, rfl⟩
  | sleeptimer =>
    simp only [handle] at hi
    split at hi <;> cases hi
    exact .inr ⟨by decide, rfl⟩
  | change_mode | data_ready => cases hi; exact .inr ⟨by decide, rfl⟩

theorem Asleep.calls (hes : ∀ e ∈ es, ∀ g h, wake g (e.entry h) = g ∧ EndsAs g (e.entry h))
    (hc : Calls (firmware bus) (watch wake LoudFollows) es k h k' h') :
    k.2 ∧ Asleep l k.1 h → k'.2 ∧ Asleep l k'.1 h' := by
  have hd {g : Wake} {h : Shared} (hg : Asleep l g h) : Decided g h := by
    rintro b rfl
    rcases hg with hg | ⟨b, hg, -⟩ <;> cases hg
  refine watch_stable (fun i g h h' hi hg => ⟨⟨trivial, fun _ => hd hg⟩, ?_⟩) (fun e he g h hg => ?_) hc
  · rcases hg with rfl | ⟨b, rfl, hr, hw⟩
    · exact .inl (by cases i <;> rfl)
    · rcases handle_burtc hi with ⟨rfl, h1⟩ | ⟨hne, h1⟩
      · exact .inr ⟨true, rfl, hr, h1⟩
      · exact .inr ⟨b, by cases i <;> first | rfl | exact absurd rfl hne, hr, h1.trans hw⟩
  · obtain ⟨h1, h2⟩ := hes e he g h
    exact ⟨⟨h2, fun _ => hd hg⟩, h1.symm ▸ hg⟩

theorem neutral_start {s : states} {f : Routine} (hf : f ≠ .ask_again ∧ f ≠ .try_to_sleep) :
    ∀ e ∈ start s f l, ∀ h, Neutral (e.entry h) := by
  intro e he h g hg
  rcases List.mem_pair.1 he with rfl | rfl
  · exact ⟨rfl, trivial⟩
  · cases f <;> first | exact ⟨rfl, trivial⟩ | exact ⟨rfl, hg⟩ | exact absurd rfl hf.1 | exact absurd rfl hf.2

theorem neutral_send {s : Fin 8 → sl_status_t} {l' : Local D} (hes : ∀ e ∈ es, ∀ h, Neutral (e.entry h)) :
    ∀ e ∈ start .SENDING_DATA .power_down_interface_send_data l ++ published (samples l) s l' ++ es,
      ∀ h, Neutral (e.entry h) := by
  refine List.forall_mem_append.2 ⟨List.forall_mem_append.2 ⟨neutral_start (by decide), fun e he h => ?_⟩, hes⟩
  rcases mem_published e he with rfl | ⟨c, sc, rfl⟩ <;> exact fun _ _ => ⟨rfl, trivial⟩

theorem neutral_data_sent {v : UInt8} : ∀ e ∈ [did (.wr .data_sent_flag v) () l], ∀ h, Neutral (e.entry h) :=
  List.forall_mem_singleton.2 fun _ _ _ => ⟨rfl, trivial⟩

/-- Without a wake-up to follow, nothing has to be checked. -/
theorem none_calls (hes : ∀ e ∈ es, ∀ h, Neutral (e.entry h))
    (hc : Calls (firmware bus) (watch wake LoudFollows) es k h k' h') :
    k.2 ∧ k.1 = .none → k'.2 ∧ k'.1 = .none := by
  rintro ⟨hp, hg⟩
  obtain ⟨h1, h2⟩ := In.calls hes hc ⟨hp, (.inl hg : In true _ _)⟩
  obtain ⟨-, h3⟩ := In.calls hes hc ⟨hp, (.inl hg : In false _ _)⟩
  refine ⟨h1, ?_⟩
  rcases h2 with h2 | ⟨h2, -⟩
  · exact h2
  rcases h3 with h3 | ⟨h3, -⟩
  · exact h3
  · rw [h2] at h3; cases h3

theorem none_then {h₁ : Shared}
    (hc : Calls (firmware bus) (watch wake LoudFollows) es (watch wake LoudFollows k e) h₁ k' h')
    (hk : k.2 ∧ k.1 = .none) (he : Neutral e) (hes : ∀ e ∈ es, ∀ h, Neutral (e.entry h)) :
    k'.2 ∧ k'.1 = .none := by
  obtain ⟨hp, hg⟩ := hk
  obtain ⟨h1, h2⟩ := he k.1 (.inl hg)
  refine none_calls hes hc ⟨⟨hp, h2, fun _ b hb => ?_⟩, h1.trans hg⟩
  rw [hg] at hb; cases hb

/-- EM4, after a visit to `TO_SLEEP`. -/
theorem sleep_irqs {ads : ads1220_t} {l₁ : Local D} (hk : k.2 ∧ k.1 = .none) (hl : l₁.em4Reset = true)
    {h₁ : Shared} (hw : h₁.wakeupTimer = 0) (hi : Irqs (firmware bus) (watch wake LoudFollows)
      (watch wake LoudFollows k (.call (.shr .EMU_EnterEM4) ads l h)) h₁ k' h') : k'.2 ∧ Asleep l₁ k'.1 h' := by
  refine Asleep.calls (List.forall_mem_nil _) hi.calls ⟨⟨hk.1, trivial, fun _ b hb => ?_⟩, .inr ⟨false, rfl, hl, hw⟩⟩
  rw [hk.2] at hb; cases hb

/-- `wake_up` has looked, and found that the wake-up was by BURTC or not. -/
def Looked (burtc : Bool) (g : Wake) : Prop := g = .none ∨ g = .looked burtc

theorem Looked.loud {g : Wake} (hg : Looked burtc g) : Decided g h := by
  rintro b rfl
  rcases hg with hg | hg <;> cases hg

/-- `wake_up` looks at `wakeupTimer`. -/
theorem look_irqs (burtc : Bool) {v : Int} (hk : k.2 ∧ Asleep l₀ k.1 h) (hb : h.wakeupTimer = 1 ↔ burtc = true)
    (hi : Irqs (firmware bus) (watch wake LoudFollows)
      (watch wake LoudFollows k (.call (.shr .rd_wakeupTimer) v l h)) h k' h') : k'.2 ∧ Looked burtc k'.1 := by
  refine watch_stable (S := fun g _ => Looked burtc g) (fun i g h h' _ hg => ⟨⟨trivial, fun _ => hg.loud⟩, ?_⟩)
    (List.forall_mem_nil _) hi ⟨⟨hk.1, trivial, fun _ => ?_⟩, ?_⟩
  · rcases hg with rfl | rfl <;> cases i <;> simp [Looked, wake]
  · rintro b hb
    rcases hk.2 with hg | ⟨b, hg, -⟩ <;> rw [hg] at hb <;> cases hb
  · rcases hk.2 with hg | ⟨b, hg, -, hw⟩
    · exact .inl (by simp only [watch, hg]; rfl)
    · refine .inr ?_
      simp only [watch, hg, wake, Wake.looked.injEq]
      cases b <;> cases burtc <;> simp_all

/-- `wake_up` sets the mode. -/
theorem decide_irqs (hk : k.2 ∧ Looked burtc k.1) (hi : Irqs (firmware bus) (watch wake LoudFollows)
      (watch wake LoudFollows k (.call (.shr (.wr .change_mode_flag (modeAfter burtc))) () l h))
      { h with change_mode_flag := modeAfter burtc } k' h') : k'.2 ∧ In burtc k'.1 h' := by
  refine In.irqs hi ⟨⟨hk.1, trivial, fun _ => hk.2.loud⟩, ?_⟩
  rcases hk.2 with hg | hg
  · exact .inl (by simp only [watch, hg]; rfl)
  · exact .inr ⟨by simp only [watch, hg]; rfl, rfl⟩

theorem Awake.calls (hes : ∀ e ∈ es, ∀ g h, wake g (e.entry h) = g ∧ EndsAs g (e.entry h))
    (hc : Calls (firmware bus) (watch wake LoudFollows) es k h k' h') :
    k.2 ∧ Awake l k.1 h → k'.2 ∧ Awake l k'.1 h' := by
  have hes' : ∀ e ∈ es, ∀ h, Neutral (e.entry h) := fun e he h g _ => hes e he g h
  unfold Awake
  split
  · exact Asleep.calls hes hc
  split
  · exact none_calls hes' hc
  · rintro ⟨hp, b, hb⟩
    exact (In.calls hes' hc ⟨hp, hb⟩).imp_right fun hb => ⟨b, hb⟩

theorem Fired.follows (hf : Fired bus (watch wake LoudFollows) k l h k' l' h') (hk : k.2 ∧ Awake l k.1 h) :
    k'.2 ∧ Awake l' k'.1 h' := by
  obtain ⟨hp, ha⟩ := hk
  have asleep (hs : l.current_state = states.SLEEPING) : Asleep l k.1 h := by rwa [Awake, if_pos hs] at ha
  have drowsy (hs : l.current_state = states.TO_SLEEP) : k.1 = .none := by
    rwa [Awake, if_neg (by rw [hs]; decide), if_pos hs] at ha
  have active {s : states} (hs : l.current_state = s) (hne : s ≠ .SLEEPING ∧ s ≠ .TO_SLEEP) :
      ∃ burtc, In burtc k.1 h := by
    rwa [Awake, if_neg (not_at hs hne.1), if_neg (not_at hs hne.2)] at ha
  have awake {l' : Local D} (s : states) (hs : l'.current_state = s) (hne : s ≠ .SLEEPING ∧ s ≠ .TO_SLEEP)
      {burtc : Bool} (H : k'.2 ∧ In burtc k'.1 h') : k'.2 ∧ Awake l' k'.1 h' := by
    rw [Awake, if_neg (not_at hs hne.1), if_neg (not_at hs hne.2)]
    exact ⟨H.1, burtc, H.2⟩
  have to_sleep {l' : Local D} (hs : l'.current_state = states.TO_SLEEP) (H : k'.2 ∧ k'.1 = .none) :
      k'.2 ∧ Awake l' k'.1 h' := by
    rwa [Awake, if_neg (by rw [hs]; decide), if_pos hs]
  have sleeping {l' : Local D} (hs : l'.current_state = states.SLEEPING) (H : k'.2 ∧ Asleep l' k'.1 h') :
      k'.2 ∧ Awake l' k'.1 h' := by
    rwa [Awake, if_pos hs]
  cases hf with
  | stay s hs ht hi => exact Awake.calls (List.forall_mem_nil _) hi.calls ⟨hp, ha⟩
  | power_up hs hr hd hc =>
    have hn : k.1 = .none := by
      -- without EM4 there is no wake-up to follow
      rcases asleep hs with hn | ⟨b, -, hem4, -⟩
      · exact hn
      · rw [hr] at hem4
        cases hem4
    exact awake .WAKING_UP rfl (by decide) (In.calls (neutral_start (by decide)) hc ⟨hp, (.inl hn : In true _ _)⟩)
  | pin_wake hs hr hd hc hw hi hi' =>
    have h1 := Asleep.calls (by simp [start, Made.entry, wake, EndsAs]) hc ⟨hp, asleep hs⟩
    have h2 := look_irqs false h1 (by simpa using hw) hi
    exact awake .WAKING_UP rfl (by decide) (decide_irqs h2 hi')
  | timer_wake hs hr hd hc hw hi hi₂ hi₃ =>
    have h1 := Asleep.calls (by simp [start, Made.entry, wake, EndsAs]) hc ⟨hp, asleep hs⟩
    have h2 := look_irqs true h1 (by simpa using hw) hi
    exact awake .WAKING_UP rfl (by decide) (In.then hi₃ (decide_irqs h2 hi₂) (fun _ _ => ⟨rfl, trivial⟩) rfl)
  | ask hs hn hd₁ hd₂ hc hc' =>
    obtain ⟨b, hb⟩ : ∃ burtc, In burtc k.1 h := by
      obtain ⟨hs, -⟩ | ⟨hs, -⟩ := hs <;> exact active hs (by decide)
    have h1 := In.calls (neutral_start (by decide)) hc ⟨hp, hb⟩
    exact awake .ASKING_FOR_DATA rfl (by decide) (In.then_calls hc' h1 (fun _ _ => ⟨rfl, trivial⟩) rfl
      (List.forall_mem_singleton.2 fun _ _ _ => ⟨rfl, trivial⟩))
  | ask_all hs hn hc hi =>
    obtain ⟨b, hb⟩ := active hs (by decide)
    have h1 := In.calls (neutral_start (by decide)) hc ⟨hp, hb⟩
    exact awake .ASKING_FOR_DATA rfl (by decide) (In.then hi h1 (fun _ _ => ⟨rfl, trivial⟩) rfl)
  | retrieve hs hn hi hr hc hd hw hc' =>
    obtain ⟨b, hb⟩ := active hs (by decide)
    have h1 := In.calls (neutral_start (by decide)) hc (In.irqs hi ⟨hp, hb⟩)
    obtain ⟨s, rfl⟩ := stored hw
    exact awake .RETRIEVING_DATA rfl (by decide) (In.then_calls hc' h1 (fun _ _ => ⟨rfl, trivial⟩) rfl
      (List.forall_mem_singleton.2 fun _ _ _ => ⟨rfl, trivial⟩))
  | send_ok s hs hn hd hk hc =>
    obtain ⟨b, hb⟩ := active hs (by decide)
    exact awake .SENDING_DATA rfl (by decide) (In.calls (neutral_send neutral_data_sent) hc ⟨hp, hb⟩)
  | send_failed s hs hn hd hk hc =>
    obtain ⟨b, hb⟩ := active hs (by decide)
    exact awake .SENDING_DATA rfl (by decide)
      (In.calls (by simpa using neutral_send (List.forall_mem_nil _)) hc ⟨hp, hb⟩)
  | ask_again hs hd hi hm hc =>
    obtain ⟨b, hb⟩ := active hs (by decide)
    obtain ⟨h1, h2⟩ := In.irqs hi ⟨hp, hb⟩
    have h2 := h2.of_mode (b := false) (by simpa using hm)
    obtain ⟨k₂, h₂, hi₂, k₃, h₃, hi₃, hc⟩ := hc
    obtain ⟨h1, h2⟩ := In.then hi₃ (In.irqs hi₂ ⟨h1, h2⟩) (fun _ _ => ⟨rfl, trivial⟩) rfl
    have hne : k₃.1 ≠ .decided true := by rcases h2 with h | ⟨h, -⟩ <;> rw [h] <;> decide
    have H := none_calls neutral_data_sent hc ⟨⟨h1, hne, fun _ => h2.decided⟩, rfl⟩
    exact awake .WAKING_UP rfl (by decide) ⟨H.1, (.inl H.2 : In true _ _)⟩
  | try_to_sleep hs hd hi hm hc hr hi' =>
    obtain ⟨b, hb⟩ := active hs (by decide)
    obtain ⟨h1, h2⟩ := In.irqs hi ⟨hp, hb⟩
    have h2 := h2.of_mode (b := true) (by simpa using hm)
    obtain ⟨k₂, h₂, hi₂, k₃, h₃, hi₃, hc⟩ := hc
    obtain ⟨h1, h2⟩ := In.then hi₃ (In.irqs hi₂ ⟨h1, h2⟩) (fun _ _ => ⟨rfl, trivial⟩) rfl
    have hne : k₃.1 ≠ .decided false := by rcases h2 with h | ⟨h, -⟩ <;> rw [h] <;> decide
    have H := none_calls neutral_data_sent hc ⟨⟨h1, hne, fun _ => h2.decided⟩, rfl⟩
    exact to_sleep rfl (none_then hi'.calls H (fun _ _ => ⟨rfl, trivial⟩) (List.forall_mem_nil _))
  | reset_timer_sleep hs hi₁ hm hi₂ ht hc hi₃ hes hc' hi =>
    have h1 := none_calls (List.forall_mem_nil _) (hi₁.trans hi₂).calls ⟨hp, drowsy hs⟩
    have h2 := none_calls (neutral_start (by decide)) hc h1
    have h3 := none_then hi₃.calls h2 (fun _ _ => ⟨rfl, trivial⟩) (List.forall_mem_nil _)
    have h4 := none_then hc' h3 (fun _ _ => ⟨rfl, trivial⟩) fun e he h => by
      obtain ⟨c, sc, rfl⟩ := hes.mem e he
      exact fun _ _ => ⟨rfl, trivial⟩
    exact sleeping rfl (sleep_irqs h4 rfl rfl hi)
  | reset_no_timer hs hi₁ hm hc hi₂ hi₃ hi =>
    have h1 := none_calls (List.forall_mem_nil _) hi₁.calls ⟨hp, drowsy hs⟩
    have h2 := none_calls (neutral_start (by decide)) hc h1
    have h3 := none_then hi₂.calls h2 (fun _ _ => ⟨rfl, trivial⟩) (List.forall_mem_nil _)
    have h4 := none_then hi₃.calls h3 (fun _ _ => ⟨rfl, trivial⟩) (List.forall_mem_nil _)
    exact sleeping rfl (sleep_irqs h4 rfl rfl hi)

theorem Reacted.follows {evt : sl_bt_evt} (hr : Reacted bus (watch wake LoudFollows) k l h evt k' l' h')
    (hk : k.2 ∧ Awake l k.1 h) : k'.2 ∧ Awake l' k'.1 h' := by
  have calls {es : List (Made Op.Resp (Local D))} (hes : Advertises es)
      (hc : Calls (firmware bus) (watch wake LoudFollows) es k h k' h') : k'.2 ∧ Awake l k'.1 h' := by
    refine Awake.calls (fun e he g h => ?_) hc hk
    obtain ⟨b, sc, l, -, rfl⟩ := hes e he
    exact ⟨rfl, trivial⟩
  cases hr with
  | system_boot hes hc => exact calls hes hc
  | connection_opened hn hi => exact calls .nil hi
  | connection_closed hes hc => exact calls hes hc
  | other hi => exact calls .nil hi

theorem Awake.decided {g : Wake} (ha : Awake l g h) : Decided g h := by
  rintro b rfl
  unfold Awake at ha
  split at ha
  · rcases ha with h1 | ⟨_, h1, -⟩ <;> cases h1
  split at ha
  · cases ha
  · obtain ⟨b, hb⟩ := ha
    exact hb.decided _ rfl

theorem awake_booted (hb : Boot l₀ h₀) : Awake l₀ .none h₀ :=
  hb.elim fun _ _ _ _ _ => .inl rfl

theorem Awake.irq (bus : SpiBus D) {i : Irq} {g : Wake} (hi : handle i h = some h') (ha : Awake l g h) :
    LoudFollows g (.irq i h : Event D) ∧ Awake l (wake g (.irq i h : Event D)) h' := by
  have hi : Irqs (firmware bus) (watch wake LoudFollows) (g, True) h _ h' := .single hi
  have hcalls := Awake.calls (List.forall_mem_nil _) hi.calls ⟨trivial, ha⟩
  exact ⟨⟨trivial, fun _ => ha.decided⟩, hcalls.2⟩

theorem run_follows (hb : Boot l₀ h₀) (hr : Runs bus l₀ h₀ tr l h) :
    Checked wake Follows .none tr ∧ Awake l (tr.foldl wake .none) h := by
  obtain ⟨hf, ha⟩ := run_checked (J := fun g l h => Awake l g h) quiet_follows hb (awake_booted hb)
    (fun _ _ _ _ _ _ hi ha => ha.irq bus hi) (fun _ _ _ _ _ _ _ hk hf => hf.follows hk)
    (fun _ _ _ _ _ _ _ _ hk hr => hr.follows hk) hr
  obtain ⟨hends, hdec⟩ := checked_and.1 hf
  refine ⟨checked_and.2 ⟨hends, ?_⟩, ha⟩
  exact hr.fill quiet_wake (fun _ _ _ _ _ _ ho hs => quiet_shared ho hs) ha.decided hdec

/-- A press of the button, or the row that ends a cycle in the mode. -/
def isEnd (burtc : Bool) : Event D → Bool
  | .irq .change_mode _ => true
  | .call (.main (.enter .ask_again)) _ _ _ => !burtc
  | .call (.main (.enter .try_to_sleep)) _ _ _ => burtc
  | _ => false

theorem quiet_isEnd : Quiet (seen (isEnd (D := D) burtc)) := by
  refine .seen fun o ho r l h => ?_
  unfold isEnd
  split <;> first | rfl | (rename_i heq; cases heq <;> cases ho)

/-- Taking a row enters its function. -/
theorem row_enters {p : Event D → Bool} {s : states} {f : Routine} {out : AppM Unit} {g : Bool}
    (hp : ∀ l h, p (.call (.main (.enter f)) () l h) = true) :
    wp (firmware bus) (seen p) (row s (do own (.enter f); out)) (fun _ g _ _ => g = true) g l h := by
  rw [row, own, Prog.op, call_bind]
  refine wp_call.2 ?_
  intro g₁ h₁ _ _ l₁ h₂ _
  rw [ret_bind, bind_assoc, own, Prog.op, call_bind]
  refine wp_call.2 ?_
  intro g₂ h₃ _ _ l₂ h₄ _
  -- from here on the entry has been seen, and stays so
  refine wp_of_forall (fun g e hg => by rw [seen, hg, Bool.true_or]) ?_
  rw [seen, hp, Bool.or_true]

/-- Once the packet was sent, the next `fsm_fire` ends the cycle, unless the button is pressed. -/
theorem fire_ends (hs : l.current_state = states.SENDING_DATA) (hd : l.user.data_sent_flag ≠ 0)
    (hm : h.change_mode_flag = modeAfter burtc) :
    wp (firmware bus) (seen (isEnd burtc)) app_process_action (fun _ g _ _ => g = true) false l h := by
  have kept {g g' : Bool} {h h' : Shared} (hi : Irqs (firmware bus) (seen (isEnd burtc)) g h g' h') :
      g = true ∨ h.change_mode_flag = modeAfter burtc → g' = true ∨ h'.change_mode_flag = modeAfter burtc := by
    refine Irqs.stable (P := fun g h => g = true ∨ h.change_mode_flag = modeAfter burtc) ?_ hi
    intro i g h h' hi hg
    by_cases hne : i = .change_mode
    · subst hne
      exact .inl (Bool.or_true g)
    · rcases hg with hg | hm
      · exact .inl (by rw [seen, hg, Bool.true_or])
      · exact .inr ((handle_mode hi hne).trans hm)
  have pressed {p : AppM Unit} {g : Bool} {h : Shared} (hg : g = true) :
      wp (firmware bus) (seen (isEnd burtc)) p (fun _ g _ _ => g = true) g l h :=
    wp_of_forall (fun g e hg => by rw [seen, hg, Bool.true_or]) hg
  refine ((fire_sending hs hd).wp quiet_isEnd _ _ _).2 (wp_iff_wpAfter.2 ((after_rd quiet_isEnd).2 ?_))
  intro g₁ h₁ hi₁
  rw [← wp_iff_wpAfter]
  -- the button may come before either read of the mode
  rcases kept hi₁ (.inr hm) with hg | hm₁
  · exact pressed hg
  split
  · rename_i hne
    obtain rfl : burtc = false := by
      cases burtc
      · rfl
      · exact absurd hm₁ hne
    exact row_enters fun _ _ => rfl
  · rename_i hne
    obtain rfl : burtc = true := by
      cases burtc
      · exact absurd (hm₁.trans_ne (by decide)) hne
      · rfl
    refine wp_iff_wpAfter.2 ((after_rd quiet_isEnd).2 fun g₂ h₂ hi₂ => ?_)
    rw [← wp_iff_wpAfter]
    rcases kept hi₂ (.inr hm₁) with hg | hm₂
    · exact pressed hg
    rw [if_pos (by exact hm₂)]
    exact row_enters fun _ _ => rfl

/-- **The wake-up decides the mode.** In every run, whatever the mode was before EM4: after
`wake_up` it is slow when BURTC woke the device and continuous otherwise, it stays so
until the button is pressed, and the cycle ends with `try_to_sleep` or `ask_again`
accordingly, with the first `fsm_fire` after the packet was sent. -/
theorem mode_follows (hb : Boot l₀ h₀) (hr : Runs bus l₀ h₀ tr l h) : Checked wake Follows .none tr ∧
    ∀ burtc, tr.foldl wake .none = .decided burtc → l.current_state = states.SENDING_DATA →
      l.user.data_sent_flag ≠ 0 → ∀ tr₁ l₁ h₁, Exec (firmware bus) app_process_action l h tr₁ () l₁ h₁ →
      (∀ h₂, .irq .change_mode h₂ ∉ tr₁) → ∃ l₂ h₂,
        .call (.main (.enter (if burtc then .try_to_sleep else .ask_again))) () l₂ h₂ ∈ tr₁ := by
  obtain ⟨hf, ha⟩ := run_follows hb hr
  refine ⟨hf, fun burtc hg hs hd tr₁ l₁ h₁ he hp => ?_⟩
  obtain ⟨e, he, hend⟩ := exists_of_wp_seen (fire_ends hs hd (ha.decided burtc hg)) he
  unfold isEnd at hend
  split at hend
  · exact absurd he (hp _)
  · obtain rfl : burtc = false := by simpa using hend
    exact ⟨_, _, he⟩
  · obtain rfl : burtc = true := hend
    exact ⟨_, _, he⟩
  · cases hend

/-- EM4 was entered in continuous mode, and the button was not pressed since. -/
def request (g : Bool) : Event D → Bool
  | .call (.shr .EMU_EnterEM4) _ _ h => h.change_mode_flag = 1
  | .call (.main (.enter .ask_again)) _ _ _ | .irq .change_mode _ => false
  | _ => g

/-- The request survives: `wake_up` leaves the mode continuous and the cycle does not end in `TO_SLEEP`. -/
def Survives (g : Bool) : Event D → Prop
  | .call (.main (.enter .ask_for_next_data)) _ _ h => g = true → h.change_mode_flag = 1
  | .call (.main (.enter .try_to_sleep)) _ _ _ => g = false
  | _ => True

instance {g : Bool} {e : Event D} : Decidable (Survives g e) := by
  unfold Survives
  split <;> infer_instance

/-- A measurement in slow mode, a press of the button in `TO_SLEEP`, EM4 in continuous mode,
a wake-up by BURTC and another measurement. -/
def wokenByTimer : Script :=
  fires 1 ++ measurement ++ fires 1 ++ [.irq .change_mode] ++ fires 1 ++ [.irq .burtc] ++ fires 1 ++ measurement

theorem mode_follows_timer : ∃ tr l h, Runs anyBus (booted false false).1 (booted false false).2 tr l h ∧
    (tr.foldl wake .none = .decided true ∧ l.current_state = states.SENDING_DATA ∧ l.user.data_sent_flag ≠ 0) ∧
    Checked wake Follows .none tr := by
  obtain ⟨tr, l, h, hr, hP⟩ := bench_run quietBench wokenByTimer
    (P := fun tr l h => tr.foldl wake .none = .decided true ∧ l.current_state = states.SENDING_DATA ∧
      l.user.data_sent_flag ≠ 0) (by decide +kernel)
  exact ⟨tr, l, h, hr, hP, (mode_follows booted_boot hr).1⟩

/-- A request is lost: BURTC wakes the device, and its cycle ends in `TO_SLEEP`. -/
theorem request_lost : ∃ tr l h, Runs anyBus (booted false false).1 (booted false false).2 tr l h ∧
    ¬ Checked request Survives false tr := by
  refine bench_run quietBench (wokenByTimer ++ fires 1)
    (P := fun tr _ _ => ¬ Checked request Survives false tr) ?_
  decide +kernel

end M20Strain
