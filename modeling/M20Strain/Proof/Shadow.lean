import M20Strain.Proof.Device

/-!
# The shadow of the registers

`settingsR` is the driver's copy of the device's registers, and every setter of a bit
field trusts it. `coherent_iff`: on a device that implements the commands, with
every transfer successful, the copy agrees with the registers along a sequence of
operations after `begin` exactly when `ads1220_reset` is not among them and `set_config_reg`
only ever gives the device what the copy says already.
-/

namespace M20Strain

open Interrupt Prog

variable {D : Type} {bus : SpiBus D} {regs : D → ads1220_settings_t} {d₀ d d' : Driver D} {u : Unit}

/-- The public operations after `begin`. -/
inductive Operation where
  | ads1220_reset
  | start_conv
  | pga_on
  | pga_off
  | set_conv_mode_continuous
  | set_conv_mode_single_shot
  | set_data_rate (datarate : BitVec 32)
  | select_mux_channels (channels_conf : BitVec 32)
  | set_pga_gain (pgagain : BitVec 32)
  | temp_sense_on
  | temp_sense_off
  | get_config_reg (settings : ads1220_settings_t)
  | set_config_reg (settings : ads1220_settings_t)
  | read_data_samples
  deriving DecidableEq, Repr

def Operation.body : Operation → DrvM Unit
  | ads1220_reset => M20Strain.ads1220_reset
  | start_conv => M20Strain.start_conv
  | pga_on => M20Strain.pga_on
  | pga_off => M20Strain.pga_off
  | set_conv_mode_continuous => M20Strain.set_conv_mode_continuous
  | set_conv_mode_single_shot => M20Strain.set_conv_mode_single_shot
  | set_data_rate datarate => M20Strain.set_data_rate datarate
  | select_mux_channels channels_conf => M20Strain.select_mux_channels channels_conf
  | set_pga_gain pgagain => M20Strain.set_pga_gain pgagain
  | temp_sense_on => M20Strain.temp_sense_on
  | temp_sense_off => M20Strain.temp_sense_off
  | get_config_reg settings => do
    let _ ← M20Strain.get_config_reg settings
  | set_config_reg settings => M20Strain.set_config_reg settings
  | read_data_samples => do
    let _ ← M20Strain.read_data_samples

/-- A sequence of operations from driver `d`, each with the state of the driver before it. -/
inductive Uses (bus : SpiBus D) (d : Driver D) : List (Operation × Driver D) → Driver D → Prop where
  | nil : Uses bus d [] d
  | snoc {us d₁ d₂} (op : Operation) : Uses bus d us d₁ → Returns bus op.body d₁ () d₂ →
      Uses bus d (us ++ [(op, d₁)]) d₂

/-- The shadow agrees with the registers. -/
def Coherent (regs : D → ads1220_settings_t) (d : Driver D) : Prop := d.ads.settingsR = regs d.dev

/-- What the operation writes behind the shadow's back is what the shadow holds. For a reset it
never is: `begin` sets register 2, and no operation changes it. -/
def Operation.Remembers : Operation → Driver D → Prop
  | ads1220_reset, _ => False
  | set_config_reg settings, d => d.ads.settingsR = settings
  | _, _ => True

section Reliable

variable (hi : Implements bus regs) (hr : Reliable bus)

include hi hr

/-- A change of register 0 of the shadow reaches the device. -/
theorem write_reg0_coherent (hs : d.ads.settingsR = { regs d.dev with reg0 := d.ads.settingsR.reg0 })
    (he : Returns bus write_reg0 d u d') : Coherent regs d' := by
  obtain ⟨dev, h0, rfl⟩ := returns_write_reg0 hi hr he
  exact hs.trans h0.symm

theorem write_reg1_coherent (hs : d.ads.settingsR = { regs d.dev with reg1 := d.ads.settingsR.reg1 })
    (he : Returns bus write_reg1 d u d') : Coherent regs d' := by
  obtain ⟨dev, h1, rfl⟩ := returns_write_reg1 hi hr he
  exact hs.trans h1.symm

theorem set_field0_coherent {mask value : UInt8} (hc : Coherent regs d)
    (he : Returns bus (set_field0 mask value) d u d') : Coherent regs d' := by
  unfold Coherent at hc
  refine write_reg0_coherent hi hr ?_ (returns_update.1 (returns_update.1 he))
  simp only [hc]

theorem set_field1_coherent {mask value : UInt8} (hc : Coherent regs d)
    (he : Returns bus (set_field1 mask value) d u d') : Coherent regs d' := by
  unfold Coherent at hc
  refine write_reg1_coherent hi hr ?_ (returns_update.1 (returns_update.1 he))
  simp only [hc]

/-- No operation changes register 2 of the shadow. -/
theorem Operation.reg2_kept {op : Operation} (hc : Coherent regs d) (he : Returns bus op.body d u d') :
    d'.ads.settingsR.reg2 = d.ads.settingsR.reg2 := by
  cases op with
  | ads1220_reset =>
    rw [← bind_pure (Operation.body _)] at he
    obtain ⟨dev, -, he⟩ := returns_reset hi hr he
    obtain ⟨-, rfl⟩ := returns_pure.1 he
    rfl
  | set_config_reg settings => rw [(set_config_reg_registers hi hr he).2]
  | start_conv => rw [(start_conv_registers hi hr he).2]
  | read_data_samples =>
    simp only [body] at he
    obtain ⟨v, d₁, he, hp⟩ := Ends.bind_iff.1 he
    obtain ⟨-, rfl⟩ := returns_pure.1 hp
    rw [(read_data_samples_registers hi hr he).2]
  | get_config_reg settings =>
    -- the shadow is read from the device, which it agrees with
    simp only [body, M20Strain.get_config_reg, bind_assoc, pure_bind] at he
    obtain ⟨dev, -, he⟩ := returns_read_settingsR hi hr he
    obtain ⟨-, rfl⟩ := returns_pure.1 ((returns_rd_settingsR (k := fun _ => pure ())).1 he)
    rw [show d.ads.settingsR = regs d.dev from hc]
  | pga_on | pga_off =>
    obtain ⟨dev, -, rfl⟩ := returns_write_reg0 hi hr (returns_update.1 he)
    rfl
  | set_conv_mode_continuous | set_conv_mode_single_shot =>
    obtain ⟨dev, -, rfl⟩ := returns_write_reg1 hi hr (returns_update.1 he)
    rfl
  | set_data_rate | temp_sense_on | temp_sense_off =>
    obtain ⟨dev, -, rfl⟩ := returns_write_reg1 hi hr (returns_update.1 (returns_update.1 he))
    rfl
  | select_mux_channels | set_pga_gain =>
    obtain ⟨dev, -, rfl⟩ := returns_write_reg0 hi hr (returns_update.1 (returns_update.1 he))
    rfl

/-- **One operation keeps the shadow coherent exactly when it remembers it.** -/
theorem Operation.remembers_iff {op : Operation} (hc : Coherent regs d) (h2 : d.ads.settingsR.reg2 = 0x40)
    (he : Returns bus op.body d u d') : Coherent regs d' ↔ op.Remembers d := by
  cases op with
  | ads1220_reset =>
    -- the registers are reset, and the shadow is not
    rw [← bind_pure (Operation.body _)] at he
    obtain ⟨dev, h, he⟩ := returns_reset hi hr he
    obtain ⟨-, rfl⟩ := returns_pure.1 he
    refine iff_of_false (fun hc => ?_) id
    have hreset : d.ads.settingsR = defaults := hc.trans h
    rw [hreset] at h2
    cases h2
  | set_config_reg settings =>
    -- the registers are written, and the shadow is not
    obtain ⟨h1, h2⟩ := set_config_reg_registers hi hr he
    unfold Coherent Remembers
    rw [h1, h2]
  | start_conv =>
    obtain ⟨h1, h2⟩ := start_conv_registers hi hr he
    refine iff_of_true ?_ trivial
    unfold Coherent
    rw [h1, h2]
    exact hc
  | read_data_samples =>
    simp only [body] at he
    obtain ⟨v, d₁, he, hp⟩ := Ends.bind_iff.1 he
    obtain ⟨-, rfl⟩ := returns_pure.1 hp
    obtain ⟨h1, h2⟩ := read_data_samples_registers hi hr he
    refine iff_of_true ?_ trivial
    unfold Coherent
    rw [h1, h2]
    exact hc
  | get_config_reg settings =>
    simp only [body, M20Strain.get_config_reg, bind_assoc, pure_bind] at he
    obtain ⟨dev, h, he⟩ := returns_read_settingsR hi hr he
    obtain ⟨-, rfl⟩ := returns_pure.1 ((returns_rd_settingsR (k := fun _ => pure ())).1 he)
    exact iff_of_true h.symm trivial
  | pga_on | pga_off =>
    unfold Coherent at hc
    refine iff_of_true (write_reg0_coherent hi hr ?_ (returns_update.1 he)) trivial
    simp only [hc]
  | set_conv_mode_continuous | set_conv_mode_single_shot =>
    unfold Coherent at hc
    refine iff_of_true (write_reg1_coherent hi hr ?_ (returns_update.1 he)) trivial
    simp only [hc]
  | set_data_rate | temp_sense_on | temp_sense_off => exact iff_of_true (set_field1_coherent hi hr hc he) trivial
  | select_mux_channels | set_pga_gain => exact iff_of_true (set_field0_coherent hi hr hc he) trivial

/-- As long as the shadow is coherent, register 2 is as `begin` has set it. -/
theorem Uses.reg2_kept {us : List (Operation × Driver D)} (h2 : d.ads.settingsR.reg2 = 0x40) (hu : Uses bus d us d')
    (hc : ∀ x ∈ us, Coherent regs x.2) : d'.ads.settingsR.reg2 = 0x40 := by
  induction hu with
  | nil => exact h2
  | snoc op _ he ih =>
    obtain ⟨hus, h1⟩ := List.forall_mem_append.1 hc
    exact (op.reg2_kept hi hr (h1 _ List.mem_cons_self) he).trans (ih hus)

/-- Along a sequence of operations. -/
theorem Uses.remember_iff {us : List (Operation × Driver D)} (hc : Coherent regs d)
    (hreg : d.ads.settingsR.reg2 = 0x40) (hu : Uses bus d us d') :
    (∀ x ∈ us, Coherent regs x.2) ∧ Coherent regs d' ↔ ∀ x ∈ us, x.1.Remembers x.2 := by
  induction hu with
  | nil => simp [hc]
  | @snoc us d₁ d₂ op hu he ih =>
    simp only [List.forall_mem_append, List.forall_mem_singleton]
    constructor
    · rintro ⟨⟨hus, h1⟩, h2⟩
      exact ⟨ih.1 ⟨hus, h1⟩, (op.remembers_iff hi hr h1 (hu.reg2_kept hi hr hreg hus) he).1 h2⟩
    · rintro ⟨hus, hop⟩
      obtain ⟨hus, h1⟩ := ih.2 hus
      exact ⟨⟨hus, h1⟩, (op.remembers_iff hi hr h1 (hu.reg2_kept hi hr hreg hus) he).2 hop⟩

end Reliable

/-- **Coherence of the shadow.** After `begin` and along every sequence of operations the
shadow agrees with the registers, in every state reached, if and only if there is no reset
and each `set_config_reg` is called with the shadow's value. -/
theorem coherent_iff (hi : Implements bus regs) (hr : Reliable bus) {r : Int} (hb : Returns bus begin d₀ r d)
    {us : List (Operation × Driver D)} (hu : Uses bus d us d') :
    (∀ x ∈ us, Coherent regs x.2) ∧ Coherent regs d' ↔ ∀ x ∈ us, x.1.Remembers x.2 := by
  obtain ⟨-, h1, h2⟩ := begin_registers hi hr hb
  refine hu.remember_iff hi hr ?_ (by rw [h2]; rfl)
  unfold Coherent
  rw [h1, h2]

/-- A driver of which nothing is known. -/
def fresh_driver : Driver ads1220_settings_t := ⟨⟨defaults, defaults⟩, fun _ => 0, defaults⟩

/-- The driver and the chip after `begin`. -/
def begun : Driver ads1220_settings_t := ⟨⟨initial_settings, initial_settings⟩, fun _ => 0, initial_settings⟩

/-- The temperature sensor is switched on, the shadow's value is written back, and the gain is set. -/
theorem coherent_iff_written_back : ∃ d d₁ d₂ d', Uses chipBus d
    [(.temp_sense_on, d), (.set_config_reg d₁.ads.settingsR, d₁), (.set_pga_gain 0x0C, d₂)] d' ∧
      Coherent id d₁ ∧ Coherent id d₂ ∧ Coherent id d' := by
  obtain ⟨r, d, hb⟩ := drv_ends chipBus begin fresh_driver
  obtain ⟨⟨⟩, d₁, h1⟩ := drv_ends chipBus Operation.temp_sense_on.body d
  obtain ⟨⟨⟩, d₂, h2⟩ := drv_ends chipBus (Operation.set_config_reg d₁.ads.settingsR).body d₁
  obtain ⟨⟨⟩, d', h3⟩ := drv_ends chipBus (Operation.set_pga_gain 0x0C).body d₂
  have hu : Uses chipBus d [(.temp_sense_on, d), (.set_config_reg d₁.ads.settingsR, d₁), (.set_pga_gain 0x0C, d₂)] d' :=
    .snoc _ (.snoc _ (.snoc _ .nil h1) h2) h3
  have hiff := coherent_iff chipBus_implements chipBus_reliable hb hu
  obtain ⟨hall, hc⟩ := hiff.2 (by simp [Operation.Remembers])
  simp only [List.forall_mem_cons] at hall
  exact ⟨d, d₁, d₂, d', hu, hall.2.1, hall.2.2.1, hc⟩

/-- **A setter undoes `set_config_reg`.** Register 0 is set to 0, and `pga_on`, which only
clears bit 0, writes back what the shadow held since `begin`. -/
theorem change_undone : ∃ r d d₁ d', Implements chipBus id ∧ Reliable chipBus ∧
    Returns chipBus begin fresh_driver r d ∧
    Uses chipBus d [(.set_config_reg { initial_settings with reg0 := 0 }, d), (.pga_on, d₁)] d' ∧
    d₁.dev = { initial_settings with reg0 := 0 } ∧ ¬ Coherent id d₁ ∧ d'.dev = initial_settings := by
  obtain ⟨r, d, hb⟩ := drv_ends chipBus begin fresh_driver
  obtain ⟨⟨⟩, d₁, h1⟩ := drv_ends chipBus (set_config_reg { initial_settings with reg0 := 0 }) d
  obtain ⟨⟨⟩, d', h2⟩ := drv_ends chipBus pga_on d₁
  obtain ⟨-, -, hads⟩ := begin_registers chipBus_implements chipBus_reliable hb
  obtain ⟨hdev₁, hads₁⟩ := set_config_reg_registers chipBus_implements chipBus_reliable h1
  obtain ⟨dev, hdev, heq⟩ := returns_write_reg0 chipBus_implements chipBus_reliable (returns_update.1 h2)
  have hshadow : d₁.ads.settingsR = initial_settings := by rw [hads₁, hads]
  refine ⟨r, d, d₁, d', chipBus_implements, chipBus_reliable, hb, ?_, hdev₁, ?_, ?_⟩
  · exact .snoc .pga_on (.snoc (.set_config_reg _) .nil h1) h2
  · unfold Coherent
    rw [hshadow, hdev₁]
    decide
  · simp only [hshadow, hdev₁] at hdev
    rw [heq]
    exact hdev

end M20Strain
