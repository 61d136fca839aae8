import M20Strain.Proof.Bench
import M20Strain.Proof.Runs

/-!
# Data-ready interrupts and samples

`ask_for_next_data` clears `data_ready_flag` before it switches the temperature
sensor and starts the conversion. An interrupt in between belongs to no conversion
of this slot, and the flag it sets lets the next `fsm_fire` read an old sample.
`fresh_iff`: reads are fresh, and interrupts last until the read, exactly when
no data-ready interrupt is delivered in that window.
-/

namespace M20Strain

open Interrupt Prog

variable {D : Type} {bus : SpiBus D} {l₀ l l' : Local D} {h₀ h h' : Shared} {tr : List (Event D)}

/-- How far the next sample is. -/
inductive Conversion where
  | none
  | asking -- `ask_for_next_data` was entered
  | cleared -- it has cleared the flag, and will start a conversion
  | started (k : Int) -- the conversion for slot `k` was started
  | ready (k : Int) -- and a data-ready interrupt was delivered since
  deriving DecidableEq

def conversion (g : Conversion) : Event D → Conversion
  | .call (.main (.enter .ask_for_next_data)) _ _ _ => .asking
  | .call (.shr (.wr .data_ready_flag _)) _ l _ =>
    if g = .asking then (if l.user.num_data_retrieved < 4 then .cleared else .none) else g
  | .call (.main (.enter .start_conv)) _ l _ => .started l.user.num_data_retrieved
  | .call (.main (.enter .retrieve_data)) _ _ _ => .none
  | .call (.shr .EMU_EnterEM4) _ _ _ => .none
  | .irq .data_ready _ => match g with
    | .started k => .ready k
    | g => g
  | _ => g

/-- `retrieve_data` reads slot `k` after a data-ready interrupt that was delivered after the
conversion for slot `k` was started. -/
def ReadFresh (g : Conversion) : Event D → Prop
  | .call (.main (.enter .retrieve_data)) _ l _ => g = .ready l.user.num_data_retrieved
  | _ => True

/-- No interrupt from before the start of the conversion enables the read. -/
def NotStale : Event D → Prop
  | .call (.main (.enter .start_conv)) _ _ h => h.data_ready_flag = 0
  | _ => True

/-- An interrupt after the start of the conversion has set the flag, and it is still set. -/
def Kept (g : Conversion) (h : Shared) : Prop := ∀ k, g = .ready k → h.data_ready_flag = 1

/-- What a read of a sample relies on, at every entry of a trace. -/
def Fresh (g : Conversion) (e : Event D) : Prop := ReadFresh g e ∧ NotStale e ∧ Kept g e.shared

/-- No data-ready interrupt between the clear and the start of the conversion. -/
def Undisturbed (g : Conversion) : Event D → Prop
  | .irq .data_ready _ => g ≠ .cleared
  | _ => True

/-- `Fresh` without the flag at quiet calls, which neither change nor show it. -/
def LoudFresh (g : Conversion) (e : Event D) : Prop :=
  ReadFresh g e ∧ NotStale e ∧ (e.loud Op.quiet = true → Kept g e.shared)

theorem quiet_conversion : Quiet (conversion (D := D)) := by
  intro o ho g r l h
  unfold conversion
  split <;> first | rfl | (rename_i heq; cases heq <;> cases ho)

theorem quiet_fresh : Quiet (watch (watch conversion (LoudFresh (D := D))) fun k => Undisturbed k.1) := by
  refine (quiet_conversion.watch ?_).watch fun _ _ _ _ _ _ => trivial
  intro o ho g r l h
  refine ⟨?_, ?_, fun hl => absurd hl (by simp [Entry.loud, ho])⟩
  · unfold ReadFresh
    split <;> first | trivial | (rename_i heq; cases heq; cases ho)
  · unfold NotStale
    split <;> first | trivial | (rename_i heq; cases heq; cases ho)

/-- The two monitors, over `conversion`. -/
abbrev both : (Conversion × Prop) × Prop → Event D → (Conversion × Prop) × Prop :=
  watch (watch conversion LoudFresh) fun k => Undisturbed k.1

variable {k k' : (Conversion × Prop) × Prop} {S T : Conversion → Shared → Prop} {e : Event D}
  {es : List (Made Op.Resp (Local D))}

/-- So far both checks agree, and if they hold, so does `S`. -/
def Agree (S : Conversion → Shared → Prop) (k : (Conversion × Prop) × Prop) (h : Shared) : Prop :=
  (k.1.2 ↔ k.2) ∧ (k.2 → S k.1.1 h)

theorem Agree.step (ha : Agree S k h) (H : S k.1.1 h →
    LoudFresh k.1.1 e ∧ Undisturbed k.1.1 e ∧ T (conversion k.1.1 e) h') : Agree T (both k e) h' := by
  obtain ⟨h1, h2⟩ := ha
  refine ⟨and_congr_left' h1 |>.trans (and_congr_right fun hk => ?_), fun hk => (H (h2 hk.1)).2.2⟩
  exact iff_of_true (H (h2 hk)).1 (H (h2 hk)).2.1

theorem Agree.mono (ha : Agree S k h) (H : S k.1.1 h → T k.1.1 h) : Agree T k h := ⟨ha.1, fun hk => H (ha.2 hk)⟩

/-- `S` is about the time between two calls: handlers preserve it and pass the check. -/
structure Steady (S : Conversion → Shared → Prop) : Prop where
  kept : ∀ {g h}, S g h → Kept g h
  irq : ∀ {i g h h'}, handle i h = some h' → S g h →
    Undisturbed g (.irq i h : Event Unit) ∧ S (conversion g (.irq i h : Event Unit)) h'

/-- An entry that is not about the conversion. -/
def Aside (e : Event D) : Prop := ∀ g, conversion g e = g ∧ ReadFresh g e ∧ NotStale e ∧ Undisturbed g e

theorem Agree.aside (ha : Agree S k e.shared) (hS : Steady S) (he : Aside e)
    (H : S k.1.1 e.shared → S k.1.1 h') : Agree S (both k e) h' := by
  obtain ⟨h1, h2, h3, h4⟩ := he k.1.1
  exact ha.step fun hs => ⟨⟨h2, h3, fun _ => hS.kept hs⟩, h4, h1.symm ▸ H hs⟩

theorem Agree.calls (ha : Agree S k h) (hS : Steady S) (hes : ∀ e ∈ es, ∀ h, Aside (e.entry h))
    (hc : Calls (firmware bus) both es k h k' h') : Agree S k' h' := by
  refine hc.stable (P := Agree S) (fun i k h h' hi ha => ?_) (fun e he k h ha => ?_) ha
  · refine ha.step fun hs => ⟨⟨trivial, trivial, fun _ => hS.kept hs⟩, ?_⟩
    have := hS.irq hi hs
    cases i <;> exact this
  · exact Agree.aside (e := e.entry h) ha hS (hes e he h) id

theorem Agree.irqs (ha : Agree S k h) (hS : Steady S) (hi : Irqs (firmware bus) both k h k' h') : Agree S k' h' :=
  ha.calls hS (List.forall_mem_nil _) hi.calls

/-- Only its own handler sets the flag. -/
theorem handle_ready {i : Irq} (hi : handle i h = some h') :
    i = .data_ready ∧ h'.data_ready_flag = 1 ∨ i ≠ .data_ready ∧ h'.data_ready_flag = h.data_ready_flag := by
  cases i with
  | data_ready => cases hi; exact .inl ⟨rfl, rfl⟩
  | sleeptimer =>
    simp only [handle] at hi
    split at hi <;> cases hi
    exact .inr ⟨by decide, rfl⟩
  | change_mode | burtc => cases hi; exact .inr ⟨by decide, rfl⟩

theorem conversion_irq {i : Irq} {g : Conversion} (hi : i ≠ .data_ready) :
    Undisturbed g (.irq i h : Event D) ∧ conversion g (.irq i h : Event D) = g := by
  cases i <;> first | exact ⟨trivial, rfl⟩ | exact absurd rfl hi

/-- No conversion is going on. -/
def Resting (g : Conversion) (_ : Shared) : Prop := g = .none

/-- `ask_for_next_data` was entered. -/
def Asking (g : Conversion) (_ : Shared) : Prop := g = .asking

/-- The conversion for slot `n` was started, and the flag says whether it is done. -/
def Pending (n : Int) (g : Conversion) (h : Shared) : Prop :=
  g = .started n ∧ h.data_ready_flag = 0 ∨ g = .ready n ∧ h.data_ready_flag = 1

/-- The conversion for slot `n` is done, and the flag says so. -/
def Done (n : Int) (g : Conversion) (h : Shared) : Prop := g = .ready n ∧ h.data_ready_flag = 1

theorem steady_resting : Steady Resting where
  kept hs k hk := by subst hk; cases hs
  irq {i g h h'} _ hs := by obtain rfl : g = .none := hs; cases i <;> simp [Undisturbed, conversion, Resting]

theorem steady_asking : Steady Asking where
  kept hs k hk := by subst hk; cases hs
  irq {i g h h'} _ hs := by obtain rfl : g = .asking := hs; cases i <;> simp [Undisturbed, conversion, Asking]

theorem steady_pending {n : Int} : Steady (Pending n) where
  kept hs k hk := by
    rcases hs with ⟨rfl, -⟩ | ⟨-, h1⟩
    · cases hk
    · exact h1
  irq {i g h h'} hi hs := by
    rcases handle_ready hi with ⟨rfl, h1⟩ | ⟨hne, h1⟩
    · rcases hs with ⟨rfl, -⟩ | ⟨rfl, -⟩ <;> exact ⟨Conversion.noConfusion, .inr ⟨rfl, h1⟩⟩
    · refine ⟨(conversion_irq hne).1, ?_⟩
      rw [(conversion_irq hne).2, Pending, h1]; exact hs

theorem steady_done {n : Int} : Steady (Done n) where
  kept hs _ _ := hs.2
  irq {i g h h'} hi hs := by
    obtain ⟨rfl, h1⟩ := hs
    rcases handle_ready hi with ⟨rfl, h2⟩ | ⟨hne, h2⟩
    · exact ⟨Conversion.noConfusion, rfl, h2⟩
    · exact ⟨(conversion_irq hne).1, (conversion_irq hne).2, h2.trans h1⟩

/-- In the window between clear and start, the flag is set by an interrupt only. -/
theorem window_irqs (hi : Irqs (firmware bus) both k h k' h') (hg : k.1.1 = .cleared)
    (hk : k.2 ↔ k.1.2 ∧ h.data_ready_flag = 0) : k'.1.1 = .cleared ∧ (k'.2 ↔ k'.1.2 ∧ h'.data_ready_flag = 0) := by
  refine hi.stable (P := fun k h => k.1.1 = .cleared ∧ (k.2 ↔ k.1.2 ∧ h.data_ready_flag = 0)) ?_ ⟨hg, hk⟩
  rintro i ⟨⟨g, p⟩, q⟩ h h' hi ⟨rfl, hk : q ↔ p ∧ h.data_ready_flag = 0⟩
  have hp : LoudFresh (D := D) .cleared (.irq i h) := ⟨trivial, trivial, fun _ k hk => by cases hk⟩
  rcases handle_ready hi with ⟨rfl, h1⟩ | ⟨hne, h1⟩
  · refine ⟨rfl, iff_of_false (fun hq => hq.2 rfl) fun hp => ?_⟩
    rw [h1] at hp; exact absurd hp.2 (by decide)
  · refine ⟨(conversion_irq hne).2, ?_⟩
    simp only [both, watch, hk, hp, (conversion_irq hne).1, h1, and_true]

/-- What the conversion is at the boundary between two tasks. -/
def Between (l : Local D) : Conversion → Shared → Prop :=
  if l.current_state = states.ASKING_FOR_DATA ∧ l.user.num_data_retrieved < 4 then Pending l.user.num_data_retrieved
  else Resting

theorem steady_between : Steady (Between l) := by
  unfold Between; split
  · exact steady_pending
  · exact steady_resting

theorem between_of_ne {s : states} (hs : l.current_state = s) (hne : s ≠ .ASKING_FOR_DATA) : Between l = Resting :=
  if_neg fun h => not_at hs hne h.1

theorem between_all (hn : l.user.num_data_retrieved = 4) : Between l = Resting := if_neg fun h => by omega

theorem between_pending (hs : l.current_state = states.ASKING_FOR_DATA) (hn : l.user.num_data_retrieved < 4) :
    Between l = Pending l.user.num_data_retrieved := if_pos ⟨hs, hn⟩

theorem aside_start {s : states} {f : Routine} (hf : f ∉ [.ask_for_next_data, .start_conv, .retrieve_data]) :
    ∀ e ∈ start s f l, ∀ h, Aside (e.entry h) := by
  intro e he h g
  rcases List.mem_pair.1 he with rfl | rfl
  · exact ⟨rfl, trivial, trivial, trivial⟩
  · cases f <;> first | exact ⟨rfl, trivial, trivial, trivial⟩ | exact absurd (by decide) hf

theorem aside_published {p : List UInt8} {s : Fin 8 → sl_status_t} :
    ∀ e ∈ published p s l, ∀ h, Aside (e.entry h) := by
  intro e he h g
  rcases mem_published e he with rfl | ⟨c, sc, rfl⟩ <;> exact ⟨rfl, trivial, trivial, trivial⟩

theorem step_irqs {h₁ : Shared} (hi : Irqs (firmware bus) both (both k e) h₁ k' h') (ha : Agree S k h)
    (hS : Steady T) (H : S k.1.1 h → LoudFresh k.1.1 e ∧ Undisturbed k.1.1 e ∧ T (conversion k.1.1 e) h₁) :
    Agree T k' h' :=
  (ha.step H).irqs hS hi

/-- Where no conversion is going on, the shared state does not matter. -/
theorem rest_calls {h₁ : Shared} (hc : Calls (firmware bus) both es (both k e) h₁ k' h') (ha : Agree Resting k h)
    (he : Aside e) (hes : ∀ e ∈ es, ∀ h, Aside (e.entry h)) : Agree Resting k' h' := by
  have h1 : Agree Resting (both k e) h₁ := .aside (by exact ha) steady_resting he id
  exact h1.calls steady_resting hes hc

theorem rest_irqs {h₁ : Shared} (hi : Irqs (firmware bus) both (both k e) h₁ k' h') (ha : Agree Resting k h)
    (he : Aside e) : Agree Resting k' h' :=
  rest_calls hi.calls ha he (List.forall_mem_nil _)

theorem aside_data_sent {v : UInt8} : ∀ e ∈ [did (.wr .data_sent_flag v) () l], ∀ h, Aside (e.entry h) :=
  List.forall_mem_singleton.2 fun _ _ => ⟨rfl, trivial, trivial, trivial⟩

theorem aside_send {s : Fin 8 → sl_status_t} {l' : Local D} (hes : ∀ e ∈ es, ∀ h, Aside (e.entry h)) :
    ∀ e ∈ start .SENDING_DATA .power_down_interface_send_data l ++ published (samples l) s l' ++ es,
      ∀ h, Aside (e.entry h) :=
  List.forall_mem_append.2 ⟨List.forall_mem_append.2 ⟨aside_start (by decide), aside_published⟩, hes⟩

/-- The start of a conversion: the check that nothing stale is left, and the window agree. -/
theorem agree_start {r : Unit} (hg : k.1.1 = .cleared) (hk : k.2 ↔ k.1.2 ∧ h.data_ready_flag = 0) :
    Agree (Pending l.user.num_data_retrieved) (both k (.call (.main (.enter .start_conv)) r l h)) h := by
  obtain ⟨⟨g, p⟩, q⟩ := k
  obtain rfl : g = .cleared := hg
  have hkept : Kept .cleared h := fun _ hk => by cases hk
  refine ⟨?_, fun hq => .inl ⟨rfl, (hk.1 hq.1).2⟩⟩
  simp only [both, watch, LoudFresh, ReadFresh, NotStale, Undisturbed, Entry.shared, hkept, implies_true, true_and,
    and_true]
  exact hk.symm

/-- `ask_for_next_data` with a conversion. -/
theorem agree_ask {g₁ : (Conversion × Prop) × Prop} {h₁ : Shared} {d : Driver D} (ha : Agree Resting k h)
    (hn : l.user.num_data_retrieved < 4)
    (hc : Calls (firmware bus) both (start .ASKING_FOR_DATA .ask_for_next_data l) k h g₁ h₁)
    (hc' : Calls (firmware bus) both [did (.enter .start_conv) () (asked l d)]
      (both g₁ (.call (.shr (.wr .data_ready_flag 0)) () (asking l) h₁)) { h₁ with data_ready_flag := 0 } k' h') :
    Agree (Pending l.user.num_data_retrieved) k' h' := by
  obtain ⟨k₂, h₂, hi₂, k₃, h₃, hi₃, hi₄⟩ := hc
  have h1 := rest_irqs hi₃ (ha.irqs steady_resting hi₂) fun _ => ⟨rfl, trivial, trivial, trivial⟩
  have h3 := step_irqs hi₄ h1 steady_asking
    fun hs => ⟨⟨trivial, trivial, fun _ => steady_resting.kept hs⟩, trivial, rfl⟩
  have hg : g₁.1.1 = .asking := Irqs.stable (P := fun k _ => k.1.1 = .asking)
    (fun i k h h' hi hk => by simp only [both, watch, hk]; cases i <;> rfl) hi₄ rfl
  have hcl : conversion .asking (.call (.shr (.wr .data_ready_flag 0)) () (asking l) h₁) = .cleared :=
    by simp [conversion, asking, hn]
  have h4 : Agree (fun _ h => h.data_ready_flag = 0)
      (both g₁ (.call (.shr (.wr .data_ready_flag 0)) () (asking l) h₁)) { h₁ with data_ready_flag := 0 } :=
    h3.step fun hs => ⟨⟨trivial, trivial, fun _ => steady_asking.kept hs⟩, trivial, rfl⟩
  obtain ⟨k₅, h₅, hi₅, hi₆⟩ := hc'
  obtain ⟨hg₅, hk₅⟩ := window_irqs hi₅ (by simp only [both, watch, hg, hcl]) (by simp [h4.1])
  exact (agree_start (l := asked l d) hg₅ hk₅).irqs steady_pending hi₆

theorem Fired.agree (hf : Fired bus both k l h k' l' h') (ha : Agree (Between l) k h) :
    Agree (Between l') k' h' := by
  have rest {s : states} (hs : l.current_state = s) (hne : s ≠ .ASKING_FOR_DATA) : Agree Resting k h :=
    between_of_ne hs hne ▸ ha
  cases hf with
  | stay s hs ht hi => exact ha.irqs steady_between hi
  | power_up hs hr hd hc =>
    rw [between_of_ne (s := .WAKING_UP) rfl (by decide)]
    exact (rest hs (by decide)).calls steady_resting (aside_start (by decide)) hc
  | pin_wake hs hr hd hc hw hi hi' =>
    rw [between_of_ne (s := .WAKING_UP) rfl (by decide)]
    have h1 := (rest hs (by decide)).calls steady_resting (aside_start (by decide)) hc
    have h2 := rest_irqs hi h1 fun _ => ⟨rfl, trivial, trivial, trivial⟩
    exact rest_irqs hi' h2 fun _ => ⟨rfl, trivial, trivial, trivial⟩
  | timer_wake hs hr hd hc hw hi hi₂ hi₃ =>
    rw [between_of_ne (s := .WAKING_UP) rfl (by decide)]
    have h1 := (rest hs (by decide)).calls steady_resting (aside_start (by decide)) hc
    have h2 := rest_irqs hi h1 fun _ => ⟨rfl, trivial, trivial, trivial⟩
    have h3 := rest_irqs hi₂ h2 fun _ => ⟨rfl, trivial, trivial, trivial⟩
    exact rest_irqs hi₃ h3 fun _ => ⟨rfl, trivial, trivial, trivial⟩
  | @ask l₀ d₁ d₂ _ _ _ _ hs hn hd₁ hd₂ hc hc' =>
    have h0 : Agree Resting k h := by
      obtain ⟨hs, -⟩ | ⟨hs, -⟩ := hs <;> exact rest hs (by decide)
    rw [between_pending (l := asked l₀ d₂) rfl hn]
    exact agree_ask h0 hn hc hc'
  | ask_all hs hn hc hi =>
    rw [between_all (l := asking (counted l)) (by simp only [asking, counted, hn]; rfl)]
    obtain ⟨k₂, h₂, hi₂, k₃, h₃, hi₃, hi₄⟩ := hc
    have h1 := rest_irqs hi₃ ((rest hs (by decide)).irqs steady_resting hi₂) fun _ => ⟨rfl, trivial, trivial, trivial⟩
    have h2 := step_irqs hi₄ h1 steady_asking
      fun hs => ⟨⟨trivial, trivial, fun _ => steady_resting.kept hs⟩, trivial, rfl⟩
    refine step_irqs hi h2 steady_resting fun hs => ⟨⟨trivial, trivial, fun _ => steady_asking.kept hs⟩, trivial, ?_⟩
    -- all four samples are there, so no conversion follows
    exact (if_pos hs).trans (if_neg (by simp [asking, counted, hn]))
  | retrieve hs hn hi hr hc hd hw hc' =>
    obtain ⟨s, rfl⟩ := stored hw
    rw [between_of_ne (s := .RETRIEVING_DATA) rfl (by decide)]
    rw [between_pending hs hn] at ha
    have h1 := (ha.irqs steady_pending hi).mono (T := Done _) fun hs => hs.resolve_left fun h => hr h.2
    obtain ⟨k₂, h₂, hi₂, k₃, h₃, hi₃, hi₄⟩ := hc
    have h2 := step_irqs hi₃ (h1.irqs steady_done hi₂) steady_done
      fun hs => ⟨⟨trivial, trivial, fun _ => steady_done.kept hs⟩, trivial, hs⟩
    -- the read of the sample ends the conversion
    have h3 := step_irqs hi₄ h2 steady_resting
      fun hs => ⟨⟨hs.1, trivial, fun _ => steady_done.kept hs⟩, trivial, rfl⟩
    obtain ⟨k₅, h₅, hi₅, hi₆⟩ := hc'
    have h4 := step_irqs hi₅ h3 steady_resting fun hs =>
      ⟨⟨trivial, trivial, fun _ => steady_resting.kept hs⟩, trivial, (if_neg (by rw [hs]; decide)).trans hs⟩
    exact rest_irqs hi₆ h4 fun _ => ⟨rfl, trivial, trivial, trivial⟩
  | send_ok s hs hn hd hk hc =>
    rw [between_all hn] at ha
    rw [between_of_ne (s := .SENDING_DATA) rfl (by decide)]
    exact ha.calls steady_resting (aside_send aside_data_sent) hc
  | send_failed s hs hn hd hk hc =>
    rw [between_all hn] at ha
    rw [between_of_ne (s := .SENDING_DATA) rfl (by decide)]
    exact ha.calls steady_resting (by simpa using aside_send (List.forall_mem_nil _)) hc
  | ask_again hs hd hi hm hc =>
    rw [between_of_ne (s := .WAKING_UP) rfl (by decide)]
    exact ((rest hs (by decide)).irqs steady_resting hi).calls steady_resting
      (List.forall_mem_append.2 ⟨aside_start (by decide), aside_data_sent⟩) hc
  | try_to_sleep hs hd hi hm hc hr hi' =>
    rw [between_of_ne (s := .TO_SLEEP) rfl (by decide)]
    have h1 := ((rest hs (by decide)).irqs steady_resting hi).calls steady_resting
      (List.forall_mem_append.2 ⟨aside_start (by decide), aside_data_sent⟩) hc
    exact rest_irqs hi' h1 fun _ => ⟨rfl, trivial, trivial, trivial⟩
  | reset_timer_sleep hs hi₁ hm hi₂ ht hc hi₃ hes hc' hi =>
    rw [between_of_ne (s := .SLEEPING) rfl (by decide)]
    have h1 := ((rest hs (by decide)).irqs steady_resting (hi₁.trans hi₂)).calls steady_resting
      (aside_start (by decide)) hc
    have h2 := rest_irqs hi₃ h1 fun _ => ⟨rfl, trivial, trivial, trivial⟩
    have h3 := rest_calls hc' h2 (fun _ => ⟨rfl, trivial, trivial, trivial⟩) fun e he h => by
      obtain ⟨c, sc, rfl⟩ := hes.mem e he
      exact fun _ => ⟨rfl, trivial, trivial, trivial⟩
    exact step_irqs hi h3 steady_resting
      fun hs => ⟨⟨trivial, trivial, fun _ => steady_resting.kept hs⟩, trivial, rfl⟩
  | reset_no_timer hs hi₁ hm hc hi₂ hi₃ hi =>
    rw [between_of_ne (s := .SLEEPING) rfl (by decide)]
    have h1 := ((rest hs (by decide)).irqs steady_resting hi₁).calls steady_resting (aside_start (by decide)) hc
    have h2 := rest_irqs hi₂ h1 fun _ => ⟨rfl, trivial, trivial, trivial⟩
    have h3 := rest_irqs hi₃ h2 fun _ => ⟨rfl, trivial, trivial, trivial⟩
    exact step_irqs hi h3 steady_resting
      fun hs => ⟨⟨trivial, trivial, fun _ => steady_resting.kept hs⟩, trivial, rfl⟩

theorem Reacted.agree {evt : sl_bt_evt} (hr : Reacted bus both k l h evt k' l' h') (ha : Agree (Between l) k h) :
    Agree (Between l') k' h' := by
  have calls {es : List (Made Op.Resp (Local D))} (hes : Advertises es)
      (hc : Calls (firmware bus) both es k h k' h') : Agree (Between l) k' h' := by
    refine ha.calls steady_between (fun e he h => ?_) hc
    obtain ⟨b, sc, l, -, rfl⟩ := hes e he
    exact fun _ => ⟨rfl, trivial, trivial, trivial⟩
  cases hr with
  | system_boot hes hc => exact calls hes hc
  | connection_opened hn hi => exact ha.irqs steady_between hi
  | connection_closed hes hc => exact calls hes hc
  | other hi => exact ha.irqs steady_between hi

/-- **When reads are fresh.** In every run: each read of a sample comes after a data-ready
interrupt from its own conversion, no earlier interrupt is left to enable it, and
interrupts last until the read, exactly when no data-ready interrupt is delivered
between the clear in `ask_for_next_data` and the start of the conversion. -/
theorem fresh_iff (hb : Boot l₀ h₀) (hr : Runs bus l₀ h₀ tr l h) :
    Checked conversion Fresh .none tr ↔ Checked conversion Undisturbed .none tr := by
  have H : Agree (Between l) _ h := (run_invariant (J := fun k l h => Agree (Between l) k h)
    (g := ((.none, True), True)) quiet_fresh hb ?_
    (fun i k l h h' _ hi ha => ha.irqs steady_between (Irqs.single (M := firmware bus) hi))
    (fun k l h k' l' h' _ ha hf => hf.agree ha) (fun evt k l h k' l' h' _ ha hr => hr.agree ha) hr).2
  · rw [foldl_watch, foldl_watch, checked_watch] at H
    obtain ⟨h1, h2⟩ := H
    simp only [true_and] at h1 h2
    refine ⟨fun hf => h1.1 (hf.imp fun g e h => ⟨h.1, h.2.1, fun _ => h.2.2⟩), fun hu => ?_⟩
    obtain ⟨hread, hrest⟩ := checked_and.1 (h1.2 hu)
    obtain ⟨hstale, hkept⟩ := checked_and.1 hrest
    refine checked_and.2 ⟨hread, checked_and.2 ⟨hstale, ?_⟩⟩
    exact hr.fill quiet_conversion (fun _ _ _ _ _ _ ho hs => quiet_shared ho hs) (steady_between.kept (h2 hu)) hkept
  · exact hb.elim fun _ _ _ _ _ =>
      ⟨Iff.rfl, fun _ => by rw [between_of_ne (s := .SLEEPING) rfl (by decide)]; rfl⟩

theorem fresh_iff_bench : ∃ tr l h, Runs anyBus (booted false false).1 (booted false false).2 tr l h ∧
    l.user.data_sent_flag = 1 ∧ (Checked conversion Fresh .none tr ↔ Checked conversion Undisturbed .none tr) := by
  obtain ⟨tr, l, h, hr, hP⟩ := bench_run quietBench (fires 1 ++ measurement)
    (P := fun _ l _ => l.user.data_sent_flag = 1) (by decide +kernel)
  exact ⟨tr, l, h, hr, hP, fresh_iff booted_boot hr⟩

instance ReadFresh.decidable {g : Conversion} : ∀ e : Event D, Decidable (ReadFresh g e)
  | .irq _ _ => instDecidableTrue
  | .call o r l h => by
    unfold ReadFresh
    split <;> infer_instance

/-- An interrupt in the window lets `retrieve_data` read before the conversion is done. -/
theorem stale_read : ∃ tr l h, Runs anyBus (booted false false).1 (booted false false).2 tr l h ∧
    ¬ Checked conversion ReadFresh .none tr := by
  refine bench_run earlyReady (fires 3) (P := fun tr _ _ => ¬ Checked conversion ReadFresh .none tr) ?_
  decide +kernel

end M20Strain
