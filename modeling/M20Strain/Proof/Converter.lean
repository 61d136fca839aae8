import M20Strain.Proof.Bench
import M20Strain.Proof.Device
import M20Strain.Proof.Emits
import M20Strain.Proof.Samples

/-!
# The converter and the bridge along a run

`Tuned` relates the state of the state machine to the registers of the converter, the
driver's shadow and the supply pin of the bridge. It holds from the first `wake_up` on
(`run_tuned`), so the registers keep what `begin` wrote but for the temperature-sensor bit,
which is set while a conversion is asked for or retrieved, and `EMU_EnterEM4` finds pin
and bit low (`converter_configured`).
-/

namespace M20Strain

open Interrupt Prog

variable {D : Type} {bus : SpiBus D} {regs : D → ads1220_settings_t} {l₀ l l' : Local D} {h₀ h h' : Shared}
  {tr evs : List (Event D)}

/-- The states in which the temperature sensor is selected. -/
def states.measuring : states → Bool
  | ASKING_FOR_DATA | RETRIEVING_DATA => true
  | _ => false

/-- The temperature-sensor bit of a value of register 1. -/
def ts_bit (reg1 : UInt8) : Bool := reg1 &&& REG_CONFIG1_TS_MASK ≠ 0

/-- The registers hold what `begin` wrote, and the temperature-sensor bit is set in the
states that measure. -/
def Configured (regs : ads1220_settings_t) (s : states) : Prop :=
  regs.reg0 = initial_settings.reg0 ∧ regs.reg2 = initial_settings.reg2 ∧ regs.reg3 = initial_settings.reg3 ∧
  regs.reg1 &&& ~~~REG_CONFIG1_TS_MASK = initial_settings.reg1 &&& ~~~REG_CONFIG1_TS_MASK ∧
  (ts_bit regs.reg1 = true ↔ s = .ASKING_FOR_DATA ∨ s = .RETRIEVING_DATA)

/-- `wake_up` was entered. -/
def isWakeUp : Event D → Bool
  | .call (.main (.enter .wake_up)) _ _ _ => true
  | _ => false

/-- EM4 is entered with the supply pin of the bridge low and the bit clear. -/
def PoweredDown (regs : D → ads1220_settings_t) : Event D → Prop
  | .call (.shr .EMU_EnterEM4) _ l _ => l.bridgeOn = false ∧ ts_bit (regs l.driver.dev).reg1 = false
  | _ => True

/-- The settings in the device, with the temperature-sensor bit `ts`. -/
def settings_with (ts : Bool) : ads1220_settings_t :=
  { initial_settings with reg1 := ts_value initial_settings.reg1 (if ts then 0x02 else 0x00) }

/-- Device, shadow and supply pin fit state `s`. After a restart the shadow is not yet
known, and `wake_up` raises the pin. -/
structure Tuned (regs : D → ads1220_settings_t) (s : states) (l : Local D) : Prop where
  state : l.current_state = s
  device : regs l.driver.dev = settings_with s.measuring
  shadow : s ≠ .SLEEPING → l.driver.ads.settingsR = settings_with s.measuring
  bridge : s ≠ .WAKING_UP → l.bridgeOn = false

theorem Tuned.configured {s : states} (hs : Tuned regs s l) : Configured (regs l.driver.dev) s := by
  rw [hs.device]
  cases s <;> exact ⟨rfl, rfl, rfl, by decide, by decide⟩

/-- In `TO_SLEEP` pin and bit are low. -/
theorem Tuned.powered_down (hs : Tuned regs .TO_SLEEP l) :
    l.bridgeOn = false ∧ ts_bit (regs l.driver.dev).reg1 = false := by
  refine ⟨hs.bridge (by decide), ?_⟩
  rw [hs.device]
  decide

/-- Switching the bit, whatever it was. -/
theorem settings_switch (b ts : Bool) : { settings_with b with
    reg1 := ts_value (settings_with b).reg1 (if ts then 0x02 else 0x00) } = settings_with ts := by
  cases b <;> cases ts <;> decide

section Reliable

variable (hi : Implements bus regs) (hr : Reliable bus)

include hi hr

/-- A temperature switch sets device and shadow. -/
theorem Tuned.switch {s : states} {d : Driver D} (ts : Bool) (hs : Tuned regs s l) (hne : s ≠ .SLEEPING)
    (he : Returns bus (temp_sense (if ts then 0x02 else 0x00)) l.driver () d) :
    regs d.dev = settings_with ts ∧ d.ads.settingsR = settings_with ts := by
  obtain ⟨h1, h2⟩ := temp_sense_registers hi hr he
  rw [hs.device, hs.shadow hne, settings_switch] at h1
  refine ⟨h1, ?_⟩
  rw [h2]
  simp only [hs.shadow hne, settings_switch]

theorem begin_tuned {d d' : Driver D} {r : Int} (he : Returns bus begin d r d') :
    regs d'.dev = settings_with false ∧ d'.ads.settingsR = settings_with false := by
  obtain ⟨-, h1, h2⟩ := begin_registers hi hr he
  rw [h1, h2]
  exact ⟨rfl, rfl⟩

/-- **One `fsm_fire`**, from `SLEEPING` or where everything is set. -/
theorem Fired.tuned {G : Type} {μ : G → Event D → G} {g g' : G} (hf : Fired bus μ g l h g' l' h')
    (hs₀ : l.current_state = states.SLEEPING ∨ ∃ s, Tuned regs s l) : ∃ s, Tuned regs s l' := by
  have awake {s : states} (hs : l.current_state = s) (hne : s ≠ .SLEEPING) : Tuned regs s l := by
    rcases hs₀ with h0 | ⟨t, ht⟩
    · exact absurd (states.val_inj (hs.symm.trans h0)) hne
    · rw [← states.val_inj (ht.state.symm.trans hs)]
      exact ht
  cases hf with
  | stay s hs ht hi' =>
    refine ⟨s, awake hs ?_⟩
    rintro rfl
    simp at ht
  | power_up hs _ hd _ | pin_wake hs _ hd _ _ _ _ | timer_wake hs _ hd _ _ _ _ _ =>
    obtain ⟨h1, h2⟩ := begin_tuned hi hr hd
    exact ⟨.WAKING_UP, rfl, h1, fun _ => h2, fun hne => absurd rfl hne⟩
  | ask hs hn hd₁ hd₂ hc hc' =>
    have hset : ∃ s, s ≠ .SLEEPING ∧ Tuned regs s l := by
      rcases hs with ⟨hs, -⟩ | ⟨hs, -⟩
      · exact ⟨_, by decide, awake hs (by decide)⟩
      · exact ⟨_, by decide, awake hs (by decide)⟩
    obtain ⟨s, hne, hset⟩ := hset
    -- the shadow agrees with the device, so the switch changes one bit only
    obtain ⟨h1, h2⟩ := hset.switch hi hr true hne hd₁
    obtain ⟨h3, h4⟩ := start_conv_registers hi hr hd₂
    refine ⟨.ASKING_FOR_DATA, rfl, h3.trans h1, fun _ => ?_, fun _ => rfl⟩
    exact (congrArg ads1220_t.settingsR h4).trans h2
  | ask_all hs hn hc hi' =>
    have hset := awake hs (by decide)
    exact ⟨.ASKING_FOR_DATA, rfl, hset.device, fun _ => hset.shadow (by decide), fun _ => hset.bridge (by decide)⟩
  | retrieve hs hn hi' hr' hc hd hw hc' =>
    have hset := awake hs (by decide)
    obtain ⟨h1, h2⟩ := read_data_samples_registers hi hr hd
    obtain ⟨sd, rfl⟩ := stored hw
    refine ⟨.RETRIEVING_DATA, rfl, h1.trans hset.device, fun _ => ?_, fun _ => hset.bridge (by decide)⟩
    exact (congrArg ads1220_t.settingsR h2).trans (hset.shadow (by decide))
  | send_ok s hs hn hd hk hc | send_failed s hs hn hd hk hc =>
    have hset := awake hs (by decide)
    obtain ⟨h1, h2⟩ := hset.switch hi hr false (by decide) hd
    exact ⟨.SENDING_DATA, rfl, h1, fun _ => h2, fun _ => hset.bridge (by decide)⟩
  | ask_again hs hd hi' hm hc =>
    have hset := awake hs (by decide)
    exact ⟨.WAKING_UP, rfl, hset.device, fun _ => hset.shadow (by decide), fun hne => absurd rfl hne⟩
  | try_to_sleep hs hd hi' hm hc hr' hi₂ =>
    have hset := awake hs (by decide)
    exact ⟨.TO_SLEEP, rfl, hset.device, fun _ => hset.shadow (by decide), fun _ => hset.bridge (by decide)⟩
  | reset_timer_sleep hs | reset_no_timer hs =>
    have hset := awake hs (by decide)
    exact ⟨.SLEEPING, rfl, hset.device, fun hne => absurd rfl hne, fun _ => rfl⟩

end Reliable

theorem blind_woken : Blind (watch (seen (isWakeUp (D := D))) fun _ => PoweredDown regs) := by
  refine (Blind.seen ?_ (fun _ _ => rfl) ?_).watch ?_ (fun _ _ _ => trivial) ?_
  · intro o ho r l h
    rcases o with o | o | o
    · rfl
    · cases o <;> first | rfl | cases ho
    · rfl
  · intro o r l h h' ho
    rcases o with o | o | o <;> cases ho
    cases o <;> first | rfl | (rename_i f; cases f <;> rfl)
  · intro o ho g r l h
    rcases o with o | o | o
    · trivial
    · trivial
    · cases o <;> trivial
  · intro g o r l h h' ho
    rcases o with o | o | o <;> cases ho
    rfl

/-- The first `wake_up` is the start of what can be said of the converter. -/
def Known (regs : D → ads1220_settings_t) (woken : Bool) (l : Local D) : Prop :=
  if woken then ∃ s, Tuned regs s l else l.current_state = states.SLEEPING

theorem Emits.known {woken : Bool} (he : Emits l h evs l') (hk : Known regs woken l) :
    Checked (seen isWakeUp) (fun _ => PoweredDown regs) woken evs ∧ evs.foldl (seen isWakeUp) woken = true := by
  -- only a fire from `SLEEPING` can be the first
  have later {s : states} (hs : l.current_state = s) (hne : s ≠ .SLEEPING) : woken = true ∧ Tuned regs s l := by
    unfold Known at hk
    split at hk
    · rename_i hw
      obtain ⟨t, ht⟩ := hk
      rw [← states.val_inj (ht.state.symm.trans hs)]
      exact ⟨hw, ht⟩
    · exact absurd (states.val_inj (hs.symm.trans hk)) hne
  cases he with
  | stay s hs ht =>
    refine ⟨trivial, (later hs ?_).1⟩
    rintro rfl
    simp at ht
  | power_up hs | pin_wake hs | timer_wake hs =>
    simp [entries, start, Made.entry, Checked, PoweredDown, seen, isWakeUp]
  | ask hs hn =>
    have hw : woken = true := by
      rcases hs with ⟨hs, -⟩ | ⟨hs, -⟩
      · exact (later hs (by decide)).1
      · exact (later hs (by decide)).1
    rw [foldl_seen, hw]
    exact ⟨by simp [entries, start, Made.entry, Checked, PoweredDown], rfl⟩
  | send_ok s hs hn hk | send_failed s hs hn hk =>
    rw [foldl_seen, (later hs (by decide)).1]
    exact ⟨by simp [entries, start, published, Made.entry, Checked, PoweredDown], rfl⟩
  | ask_all hs | retrieve hs | ask_again hs | try_to_sleep hs =>
    rw [foldl_seen, (later hs (by decide)).1]
    exact ⟨by simp [entries, start, Made.entry, Checked, PoweredDown], rfl⟩
  | reset_timer_sleep hs hes hr =>
    obtain ⟨hw, hset⟩ := later hs (by decide)
    rw [foldl_seen, hw]
    refine ⟨?_, rfl⟩
    simp only [checked_append, Checked, and_true]
    refine ⟨?_, trivial, trivial, ?_, hset.powered_down⟩
    · simp [entries, start, Made.entry, Checked, PoweredDown]
    · exact hes.checked fun _ _ _ _ _ => trivial
  | reset_no_timer hs hr =>
    obtain ⟨hw, hset⟩ := later hs (by decide)
    rw [foldl_seen, hw]
    refine ⟨?_, rfl⟩
    simp only [checked_append, Checked, and_true]
    refine ⟨?_, trivial, trivial, hset.powered_down⟩
    simp [entries, start, Made.entry, Checked, PoweredDown]

theorem run_tuned (hi : Implements bus regs) (hr : Reliable bus) (hb : Boot l₀ h₀) (hrun : Runs bus l₀ h₀ tr l h) :
    Checked (seen isWakeUp) (fun _ => PoweredDown regs) false tr ∧ Known regs (tr.foldl (seen isWakeUp) false) l := by
  have hstart : Known regs false l₀ :=
    hb.elim fun _ _ _ _ _ => rfl
  refine run_checked (J := fun g l _ => Known regs g l) blind_woken.quiet hb hstart ?_ ?_ ?_ hrun
  · intro i g l h h' _ _ hk
    refine ⟨trivial, ?_⟩
    rw [seen, show isWakeUp (.irq i h : Event _) = false from rfl, Bool.or_false]
    exact hk
  · rintro ⟨g, p⟩ l h k' l' h' hI ⟨hp, hk⟩ hf
    have hset : l.current_state = states.SLEEPING ∨ ∃ s, Tuned regs s l := by
      unfold Known at hk
      split at hk
      · exact .inr hk
      · exact .inl hk
    have hset' := hf.tuned hi hr hset
    -- what the check sees of the fire are its calls
    obtain ⟨evs, he, rfl⟩ := hf.emits blind_woken
    obtain ⟨h1, h2⟩ := he.known hk
    rw [foldl_watch, h2]
    exact ⟨⟨hp, h1⟩, hset'⟩
  · intro evt k l h k' l' h' _ hk hr
    refine hr.blind (J := fun k l => k.2 ∧ Known regs k.1 l) blind_woken ?_ ?_ hk
    · rintro k l b sc l₁ h hb ⟨hp, hg⟩
      refine ⟨⟨hp, trivial⟩, ?_⟩
      rw [show (watch (seen isWakeUp) (fun _ => PoweredDown regs) k (.call (.main (.ble b)) sc l₁ h)).1 = k.1 from
        Bool.or_false _]
      exact hg
    · rintro k l set n cs ⟨hp, hk⟩
      refine ⟨hp, ?_⟩
      unfold Known at hk ⊢
      split
      · rename_i hw
        rw [if_pos hw] at hk
        obtain ⟨s, hs⟩ := hk
        exact ⟨s, hs.state, hs.device, hs.shadow, hs.bridge⟩
      · rename_i hw
        rw [if_neg hw] at hk
        exact hk

/-- **The converter fits the state machine.** On a device that implements the commands,
with every transfer successful: from the first `wake_up` on, the registers hold what
`begin` wrote, with the temperature-sensor bit set exactly in `ASKING_FOR_DATA` and
`RETRIEVING_DATA`, and EM4 is only entered with the supply pin and the bit low. -/
theorem converter_configured (hi : Implements bus regs) (hr : Reliable bus) (hb : Boot l₀ h₀)
    (hrun : Runs bus l₀ h₀ tr l h) :
    ((∃ e ∈ tr, isWakeUp e = true) → ∃ s : states, l.current_state = s ∧ Configured (regs l.driver.dev) s) ∧
    ∀ e ∈ tr, PoweredDown regs e := by
  obtain ⟨h1, h2⟩ := run_tuned hi hr hb hrun
  refine ⟨?_, ?_⟩
  · intro hw
    rw [foldl_seen, Bool.false_or, List.any_eq_true.2 hw] at h2
    obtain ⟨s, hs⟩ := h2
    exact ⟨s, hs.state, hs.configured⟩
  · intro e he
    obtain ⟨pre, post, heq⟩ := List.append_of_mem he
    exact checked_iff.1 h1 pre e post heq

/-- The answers of the chip, and of the bench to everything else. -/
def chipBench : Env Op.Resp Irq (Local ads1220_settings_t) Shared where
  answer
    | .drv (.SPIDRV_MTransferB tx), l, _ =>
      (ECODE_OK, fun i => ((exchange l.driver.dev .command tx).2[i.val]?.join).getD 0)
    | o, l, h => quietBench.answer o (l.map fun _ => ()) h
  before _ _ _ := []

/-- The state `app_init` leaves after power-up, with the chip. -/
def chipBooted : Local ads1220_settings_t × Shared :=
  new_app_fsm nConnections_addr false false ⟨defaults, defaults⟩ defaults

theorem chip_run (script : Script) {P : List (Event ads1220_settings_t) → Local ads1220_settings_t → Shared → Prop}
    [∀ tr l h, Decidable (P tr l h)]
    (hr : (replay (firmware chipBus) Task.body chipBench script chipBooted.1 chipBooted.2).any
      (fun r => decide (P r.1 r.2.1 r.2.2)) = true) :
    ∃ tr l h, Runs chipBus chipBooted.1 chipBooted.2 tr l h ∧ P tr l h :=
  exists_run hr

/-- A measurement in slow mode, and a press of the button that sends the device to EM4. -/
theorem converter_configured_chip : ∃ tr l h, Runs chipBus chipBooted.1 chipBooted.2 tr l h ∧
    l.current_state = states.SLEEPING ∧ (∃ e ∈ tr, isWakeUp e = true) ∧
    ((∃ e ∈ tr, isWakeUp e = true) → ∃ s : states, l.current_state = s ∧ Configured l.driver.dev s) := by
  obtain ⟨tr, l, h, hr, hs, hw⟩ := chip_run (fires 1 ++ measurement ++ fires 1 ++ [.irq .change_mode] ++ fires 1)
    (P := fun tr l _ => l.current_state = states.SLEEPING ∧ ∃ e ∈ tr, isWakeUp e = true) (by decide +kernel)
  exact ⟨tr, l, h, hr, hs, hw,
    (converter_configured chipBus_implements chipBus_reliable ⟨_, _, _, _, _, rfl⟩ hr).1⟩

end M20Strain
