import M20Strain.Proof.Converter

/-!
# Where the published values come from

The monitor `sources` keeps the settings under which each conversion was started, and
for each sample the conversion it was read from. `named_iff`: every packet consists
of four samples of the temperature sensor with the bridge off, so a run in which each
characteristic carries the quantity it is named after is one that publishes nothing.
-/

namespace M20Strain

open Interrupt Prog

variable {D : Type} {bus : SpiBus D} {regs : D → ads1220_settings_t} {l₀ l l' : Local D} {h₀ h h' : Shared}
  {tr evs : List (Event D)}

/-- The settings a conversion was started with: the input multiplexer, the
temperature-sensor bit and the supply pin of the bridge. -/
structure Setup where
  mux : UInt8
  ts : Bool
  bridge : Bool
  deriving DecidableEq, Repr

def setup (regs : D → ads1220_settings_t) (l : Local D) : Setup where
  mux := (regs l.driver.dev).reg0 &&& REG_CONFIG0_MUX_MASK
  ts := ts_bit (regs l.driver.dev).reg1
  bridge := l.bridgeOn

/-- The conversion started last, and for each slot the one its sample was read from. -/
structure Sources where
  last : Option Setup
  slots : Fin 4 → Option Setup

def Sources.none : Sources := ⟨.none, fun _ => .none⟩

def sources (regs : D → ads1220_settings_t) (g : Sources) : Event D → Sources
  | .call (.main (.enter .start_conv)) _ l _ => { g with last := some (setup regs l) }
  | .call (.main (.wr_sensor_data k _)) _ _ _ =>
    { g with slots := fun i => if (i.val : Int) = k then g.last else g.slots i }
  | .call (.shr .EMU_EnterEM4) _ _ _ => .none
  | _ => g

/-- Each slot comes from a conversion of the quantity its characteristic is named after:
three inputs of the bridge, powered, and the temperature sensor. -/
def Named (g : Sources) : Prop :=
  ∃ c : Fin 4 → Setup, (∀ k, g.slots k = some (c k)) ∧
    (∀ k, k.val < 3 → (c k).ts = false ∧ (c k).bridge = true ∧
      ∀ k', k'.val < 3 → k ≠ k' → (c k).mux ≠ (c k').mux) ∧
    ∀ k, k.val = 3 → (c k).ts = true

/-- A conversion of the temperature sensor with the bridge off. -/
def Unpowered (c : Option Setup) : Prop := ∃ c', c = some c' ∧ c'.ts = true ∧ c'.bridge = false

theorem not_named {g : Sources} (hg : ∀ k, Unpowered (g.slots k)) : ¬ Named g := by
  rintro ⟨c, hc, hstrain, -⟩
  obtain ⟨c', h1, hts, -⟩ := hg 0
  have h0 := (hstrain 0 (by decide)).1
  rw [hc 0] at h1
  rw [Option.some.inj h1, hts] at h0
  cases h0

theorem blind_sources : Blind (sources regs) where
  quiet o ho g r l h := by
    unfold sources
    split <;> first | rfl | (rename_i heq; cases heq; cases ho)
  irq _ _ _ := rfl
  main g o r l h h' ho := by
    rcases o with o | o | o <;> cases ho
    cases o <;> first | rfl | (rename_i f; cases f <;> rfl)

theorem blind_unpowered :
    Blind (watch (sources regs) fun g e => isPacket e = true → ∀ k, Unpowered (g.slots k)) := by
  refine blind_sources.watch ?_ (fun _ _ _ hp => absurd hp Bool.false_ne_true) ?_
  · intro o ho g r l h hp
    unfold isPacket at hp
    split at hp
    · rename_i heq
      cases heq
      cases ho
    · cases hp
  · intro g o r l h h' ho
    rcases o with o | o | o <;> cases ho
    cases o <;> first | rfl | (rename_i f; cases f <;> rfl)

theorem ts_bit_on (reg1 : UInt8) : ts_bit (ts_value reg1 0x02) = true := by
  unfold ts_bit ts_value
  rw [decide_eq_true_iff]
  intro hz
  -- bit 1 of what is written
  have h1 := congrArg (fun b : UInt8 => b.toBitVec.getLsbD 1) hz
  simp only [UInt8.toBitVec_and, UInt8.toBitVec_or, BitVec.getLsbD_and, BitVec.getLsbD_or] at h1
  rw [show (2 : UInt8).toBitVec.getLsbD 1 = true from by decide, Bool.or_true, Bool.true_and] at h1
  exact absurd h1 (by decide)

/-- Only `ask_for_next_data` leads to `ASKING_FOR_DATA` with samples to come, and it
starts a conversion. -/
theorem Fired.asks {G : Type} {μ : G → Event D → G} {g g' : G} (hf : Fired bus μ g l h g' l' h')
    (hs : l.current_state ≠ states.ASKING_FOR_DATA) (hs' : l'.current_state = states.ASKING_FOR_DATA)
    (hn : l'.user.num_data_retrieved < 4) :
    ∃ l₀ d₁ d₂ g₁ h₁, (l.current_state = states.WAKING_UP ∧ l₀ = l ∨
        l.current_state = states.RETRIEVING_DATA ∧ l₀ = counted l) ∧
      Returns bus temp_sense_on l.driver () d₁ ∧ l' = asked l₀ d₂ ∧
      Calls (firmware bus) μ (start .ASKING_FOR_DATA .ask_for_next_data l₀) g h g₁ h₁ ∧
      Calls (firmware bus) μ [did (.enter .start_conv) () (asked l₀ d₁)]
        (μ g₁ (.call (.shr (.wr .data_ready_flag 0)) () (asking l₀) h₁)) { h₁ with data_ready_flag := 0 }
        g' h' := by
  cases hf with
  | ask hs₀ hn₀ hd₁ hd₂ hc hc' => exact ⟨_, _, _, _, _, hs₀, hd₁, rfl, hc, hc'⟩
  | stay s hs₀ ht hi => exact absurd hs' hs
  | ask_all hs₀ hn₀ hc hi =>
    simp only [asking, counted, hn₀] at hn
    omega
  | retrieve hs₀ => exact absurd hs₀ hs
  | _ => simp [woken, roused, sending, again, sleepy, drowsy, new_app_fsm] at hs'

/-- The conversion that runs, and the samples stored so far, are of the temperature sensor
with the bridge off. -/
structure Traced (g : Sources) (l : Local D) (m : ℕ) : Prop where
  count : m = l.user.num_data_retrieved + (if l.current_state = states.RETRIEVING_DATA then 1 else 0)
  last : l.current_state = states.ASKING_FOR_DATA → l.user.num_data_retrieved < 4 → Unpowered g.last
  slots : ∀ k : Fin 4, k.val < m → Unpowered (g.slots k)

variable {g : Sources}

/-- Outside of `ASKING_FOR_DATA` nothing waits for a conversion. -/
theorem Traced.elsewhere {s : states} {m : ℕ} (hs : l.current_state = s) (hne : s ≠ .ASKING_FOR_DATA)
    (hc : m = l.user.num_data_retrieved + (if s = .RETRIEVING_DATA then 1 else 0))
    (hslots : ∀ k : Fin 4, k.val < m → Unpowered (g.slots k)) : Traced g l m := by
  refine ⟨?_, fun hs' => absurd hs' (not_at hs hne), hslots⟩
  rw [hc]
  by_cases hr : s = .RETRIEVING_DATA
  · rw [if_pos hr, if_pos (by rw [hs, hr])]
  · rw [if_neg hr, if_neg (not_at hs hr)]

/-- Before the first sample. -/
theorem Traced.zero {s : states} (hs : l.current_state = s) (hne : s ≠ .ASKING_FOR_DATA)
    (hne' : s ≠ .RETRIEVING_DATA) (hn : l.user.num_data_retrieved = 0) : Traced g l 0 := by
  refine .elsewhere hs hne ?_ fun k hk => absurd hk (Nat.not_lt_zero _)
  rw [hn, if_neg hne']
  rfl

/-- A fire that starts no conversion. -/
theorem Emits.traced {m : ℕ} (he : Emits l h evs l')
    (hne : l.current_state ≠ states.ASKING_FOR_DATA → l'.current_state = states.ASKING_FOR_DATA →
      ¬ l'.user.num_data_retrieved < 4) (hg : Traced g l m) :
    Checked (sources regs) (fun g e => isPacket e = true → ∀ k, Unpowered (g.slots k)) g evs ∧
    ∃ m', Traced (evs.foldl (sources regs) g) l' m' := by
  have hc := hg.count
  cases he with
  | stay s hs ht => exact ⟨trivial, m, hg⟩
  | power_up hs | pin_wake hs | timer_wake hs =>
    rw [if_neg (not_at hs (by decide))] at hc
    refine ⟨by simp [entries, start, Made.entry, Checked, isPacket], m, ?_⟩
    refine .elsewhere (s := .WAKING_UP) rfl (by decide) hc ?_
    simpa [entries, start, Made.entry, sources] using hg.slots
  | @ask l₀ _ _ _ hs hn =>
    have hs' : l.current_state ≠ states.ASKING_FOR_DATA := by
      rcases hs with ⟨hs, -⟩ | ⟨hs, -⟩
      · exact not_at hs (by decide)
      · exact not_at hs (by decide)
    exact absurd hn (hne hs' rfl)
  | ask_all hs hn =>
    rw [if_pos hs] at hc
    refine ⟨by simp [entries, start, Made.entry, Checked, isPacket], m, ?_, ?_, ?_⟩
    · rw [hc, if_neg (not_at (s := .ASKING_FOR_DATA) rfl (by decide)), add_zero]
      rfl
    · intro _ hlt
      exact absurd hlt (hne (not_at hs (by decide)) rfl)
    · simpa [entries, start, Made.entry, sources] using hg.slots
  | retrieve hs hn hw =>
    rw [if_neg (not_at hs (by decide)), add_zero] at hc
    have hlast := hg.last hs hn
    obtain ⟨s, rfl⟩ := M20Strain.stored hw
    refine ⟨by simp [entries, start, Made.entry, Checked, isPacket], m + 1, ?_⟩
    refine .elsewhere (s := .RETRIEVING_DATA) rfl (by decide) (by push_cast; rw [hc]; rfl) ?_
    intro k hlt
    simp only [entries, start, Made.entry, List.map_cons, List.map_nil, List.cons_append, List.nil_append,
      List.foldl_cons, List.foldl_nil, sources, ← hc]
    rcases Nat.lt_or_eq_of_le (Nat.le_of_lt_succ hlt) with hlt | heq
    · -- a slot stored before
      rw [if_neg (by omega)]
      exact hg.slots k hlt
    · rw [if_pos (by omega)]
      exact hlast
  | send_ok s hs hn hk | send_failed s hs hn hk =>
    rw [if_neg (not_at hs (by decide)), hn] at hc
    have hall : ∀ k, Unpowered (g.slots k) := fun k => hg.slots k (by omega)
    refine ⟨?_, 0, .zero (s := .SENDING_DATA) rfl (by decide) (by decide) rfl⟩
    simp only [entries, start, published, Made.entry, List.map_cons, List.map_nil, List.cons_append,
      List.nil_append, Checked, isPacket, sources, Bool.false_eq_true, false_imp_iff, true_imp_iff, and_true, true_and]
    exact hall
  | reset_timer_sleep hs hes hr =>
    refine ⟨?_, 0, .zero (s := .SLEEPING) rfl (by decide) (by decide) rfl⟩
    simp only [checked_append, Checked, isPacket, Bool.false_eq_true, false_imp_iff, and_true]
    refine ⟨by simp [entries, start, Made.entry, Checked], trivial, trivial, ?_⟩
    exact hes.checked fun _ _ _ _ _ hp => absurd hp Bool.false_ne_true
  | reset_no_timer hs =>
    refine ⟨by simp [entries, start, Made.entry, Checked, isPacket], 0, ?_⟩
    exact .zero (s := .SLEEPING) rfl (by decide) (by decide) rfl
  | ask_again hs =>
    rw [if_neg (not_at hs (by decide))] at hc
    refine ⟨by simp [entries, start, Made.entry, Checked, isPacket], m, ?_⟩
    refine .elsewhere (s := .WAKING_UP) rfl (by decide) hc ?_
    simpa [entries, start, Made.entry, sources] using hg.slots
  | try_to_sleep hs =>
    rw [if_neg (not_at hs (by decide))] at hc
    refine ⟨by simp [entries, start, Made.entry, Checked, isPacket], m, ?_⟩
    refine .elsewhere (s := .TO_SLEEP) rfl (by decide) hc ?_
    simpa [entries, start, Made.entry, sources] using hg.slots

/-- **Every conversion is of the temperature sensor with the bridge off.** -/
theorem Fired.traced (hi : Implements bus regs) (hr : Reliable bus) {k k' : Sources × Prop}
    (hk : k.2 ∧ ∃ m, Traced k.1 l m)
    (hf : Fired bus (watch (sources regs) fun g e => isPacket e = true → ∀ k, Unpowered (g.slots k)) k l h k' l' h') :
    k'.2 ∧ ∃ m, Traced k'.1 l' m := by
  obtain ⟨g, p⟩ := k
  obtain ⟨hp, m, hg⟩ := hk
  by_cases hask : l.current_state ≠ states.ASKING_FOR_DATA ∧ l'.current_state = states.ASKING_FOR_DATA ∧
      l'.user.num_data_retrieved < 4
  · obtain ⟨hs, hs', hn⟩ := hask
    obtain ⟨l₀, d₁, d₂, g₁, h₁, hl₀, hd, rfl, hc, hc'⟩ := hf.asks hs hs' hn
    obtain rfl := blind_unpowered.calls (by simp [start, Op.isMain]) h hc
    obtain rfl := blind_unpowered.calls (by simp [Op.isMain]) h hc'
    -- the switch writes the bit whatever the shadow held
    have hts : (setup regs (asked l₀ d₁)).ts = true := by
      obtain ⟨h1, -⟩ := temp_sense_registers hi hr hd
      change ts_bit (regs d₁.dev).reg1 = true
      rw [h1]
      exact ts_bit_on _
    have hcount := hg.count
    refine ⟨?_, m, ?_, ?_, ?_⟩
    · simpa [entries, start, Made.entry, watch, isPacket] using hp
    · rw [if_neg (not_at (l := asked l₀ d₂) (s := .ASKING_FOR_DATA) rfl (by decide)), add_zero, hcount]
      rcases hl₀ with ⟨hs₀, rfl⟩ | ⟨hs₀, rfl⟩
      · rw [if_neg (not_at hs₀ (by decide)), add_zero]
        rfl
      · rw [if_pos hs₀]
        rfl
    · intro _ _
      exact ⟨setup regs (asked l₀ d₁), rfl, hts, rfl⟩
    · simpa [entries, start, Made.entry, watch, sources] using hg.slots
  · obtain ⟨evs, he, rfl⟩ := hf.emits blind_unpowered
    obtain ⟨h1, h2⟩ := he.traced (fun hs hs' hn => hask ⟨hs, hs', hn⟩) hg
    rw [foldl_watch]
    exact ⟨⟨hp, h1⟩, h2⟩

theorem packets_unpowered (hi : Implements bus regs) (hr : Reliable bus) (hb : Boot l₀ h₀)
    (hrun : Runs bus l₀ h₀ tr l h) :
    Checked (sources regs) (fun g e => isPacket e = true → ∀ k, Unpowered (g.slots k)) .none tr := by
  have hstart : ∃ m, Traced .none l₀ m :=
    hb.elim fun _ _ _ _ _ => ⟨0, .zero (s := .SLEEPING) rfl (by decide) (by decide) rfl⟩
  refine (run_checked (J := fun g l _ => ∃ m, Traced g l m) blind_unpowered.quiet hb hstart ?_ ?_ ?_ hrun).1
  · intro i g l h h' _ _ hg
    exact ⟨fun hp => absurd hp Bool.false_ne_true, hg⟩
  · intro k l h k' l' h' _ hk hf
    exact hf.traced hi hr hk
  · intro evt k l h k' l' h' _ hk hr
    refine hr.blind (J := fun k l => k.2 ∧ ∃ m, Traced k.1 l m) blind_unpowered ?_ ?_ hk
    · rintro k l b sc l₁ h - ⟨hp, hg⟩
      exact ⟨⟨hp, fun hp => absurd hp Bool.false_ne_true⟩, hg⟩
    · rintro k l set n cs ⟨hp, m, hg⟩
      exact ⟨hp, m, hg.count, hg.last, hg.slots⟩

theorem not_named_of_packet (hi : Implements bus regs) (hr : Reliable bus) (hb : Boot l₀ h₀)
    (hrun : Runs bus l₀ h₀ tr l h) (hp : ∃ e ∈ tr, isPacket e = true) :
    ¬ Checked (sources regs) (fun g e => isPacket e = true → Named g) .none tr := by
  obtain ⟨e, he, hp⟩ := hp
  obtain ⟨pre, post, heq⟩ := List.append_of_mem he
  intro hc
  have hun := checked_iff.1 (packets_unpowered hi hr hb hrun) pre e post heq hp
  exact not_named hun (checked_iff.1 hc pre e post heq hp)

/-- **No packet carries what its characteristics are named after.** Its four samples all
come from conversions of the temperature sensor with the bridge off, so the runs in
which every packet is as named are those without a packet. -/
theorem named_iff (hi : Implements bus regs) (hr : Reliable bus) (hb : Boot l₀ h₀)
    (hrun : Runs bus l₀ h₀ tr l h) :
    Checked (sources regs) (fun g e => isPacket e = true → ∀ k, Unpowered (g.slots k)) .none tr ∧
    (Checked (sources regs) (fun g e => isPacket e = true → Named g) .none tr ↔ ∀ e ∈ tr, isPacket e = false) := by
  refine ⟨packets_unpowered hi hr hb hrun, ?_, ?_⟩
  · intro hc e he
    cases hp : isPacket e with
    | false => rfl
    | true => exact absurd hc (not_named_of_packet hi hr hb hrun ⟨e, he, hp⟩)
  · intro hno
    refine checked_of_forall fun e he g hp => ?_
    rw [hno e he] at hp
    cases hp

/-- A run with a packet. -/
theorem chip_packet : ∃ tr l h, Runs chipBus chipBooted.1 chipBooted.2 tr l h ∧ ∃ e ∈ tr, isPacket e = true :=
  chip_run (fires 1 ++ measurement) (P := fun tr _ _ => ∃ e ∈ tr, isPacket e = true) (by decide +kernel)

theorem named_iff_chip : ∃ tr l h, Runs chipBus chipBooted.1 chipBooted.2 tr l h ∧ (∃ e ∈ tr, isPacket e = true) ∧
    Checked (sources id) (fun g e => isPacket e = true → ∀ k, Unpowered (g.slots k)) .none tr := by
  obtain ⟨tr, l, h, hr, hp⟩ := chip_packet
  exact ⟨tr, l, h, hr, hp, (named_iff chipBus_implements chipBus_reliable ⟨_, _, _, _, _, rfl⟩ hr).1⟩

/-- One measurement: the values of the strain characteristics are temperatures. -/
theorem misnamed : ∃ tr l h, Implements chipBus id ∧ Reliable chipBus ∧
    Runs chipBus chipBooted.1 chipBooted.2 tr l h ∧
    ¬ Checked (sources id) (fun g e => isPacket e = true → Named g) .none tr := by
  obtain ⟨tr, l, h, hr, hp⟩ := chip_packet
  exact ⟨tr, l, h, chipBus_implements, chipBus_reliable, hr,
    not_named_of_packet chipBus_implements chipBus_reliable ⟨_, _, _, _, _, rfl⟩ hr hp⟩

end M20Strain
