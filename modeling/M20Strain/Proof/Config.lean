import M20Strain.Proof.Shadow

/-!
# Whole configurations

* `round_trip_iff`: `get_config_reg` fills the caller's record with register 3 only, in
  `reg0`, so what `set_config_reg` wrote comes back exactly when the record fits already.
* `bulk_never`: `writeAllRegister` writes what four `writeRegister` write, but
  `readAllRegister` stores the registers one byte too far, the last one past the record.
-/

namespace M20Strain

open Interrupt Prog

variable {D : Type} {bus : SpiBus D} {regs : D → ads1220_settings_t} {d d' d₁ d₂ : Driver D} {u : Unit}
  {s t t₀ : ads1220_settings_t}

/-- The record `t₀` has the registers `s` already, but for register 0, which is the same as
register 3. -/
def RoundTrips (t₀ s : ads1220_settings_t) : Prop :=
  s.reg0 = s.reg3 ∧ t₀.reg1 = s.reg1 ∧ t₀.reg2 = s.reg2 ∧ t₀.reg3 = s.reg3

theorem roundTrips_iff : { t₀ with reg0 := s.reg3 } = s ↔ RoundTrips t₀ s := by
  obtain ⟨r0, r1, r2, r3⟩ := s
  simp only [RoundTrips, ads1220_settings_t.mk.injEq]
  rw [eq_comm]

section Reliable

variable (hi : Implements bus regs) (hr : Reliable bus)

include hi hr

theorem get_config_reg_registers (he : Returns bus (get_config_reg t₀) d t d') :
    regs d'.dev = regs d.dev ∧ t = { t₀ with reg0 := (regs d.dev).reg3 } := by
  obtain ⟨dev, h, he⟩ := returns_read_settingsR hi hr he
  have he := (returns_rd_settingsR (k := fun settingsR => pure { t₀ with reg0 := settingsR.reg3 })).1 he
  obtain ⟨rfl, rfl⟩ := returns_pure.1 he
  exact ⟨h, rfl⟩

end Reliable

/-- **A configuration comes back exactly when the record fits it.** -/
theorem round_trip_iff (hi : Implements bus regs) (hr : Reliable bus) (d : Driver D) (t₀ : ads1220_settings_t) :
    (∀ s t d', Returns bus (do set_config_reg s; get_config_reg t₀) d t d' → (t = s ↔ RoundTrips t₀ s)) ∧
    ∀ d', Returns bus (do let t ← get_config_reg t₀; set_config_reg t) d () d' →
      (regs d'.dev = regs d.dev ↔ RoundTrips t₀ (regs d.dev)) := by
  constructor
  · intro s t d' he
    obtain ⟨⟨⟩, d₁, h1, h2⟩ := Ends.bind_iff.1 he
    obtain ⟨hset, -⟩ := set_config_reg_registers hi hr h1
    obtain ⟨-, rfl⟩ := get_config_reg_registers hi hr h2
    rw [hset, roundTrips_iff]
  · intro d' he
    obtain ⟨t, d₁, h1, h2⟩ := Ends.bind_iff.1 he
    obtain ⟨-, rfl⟩ := get_config_reg_registers hi hr h1
    obtain ⟨hset, -⟩ := set_config_reg_registers hi hr h2
    rw [hset, roundTrips_iff]

/-- A configuration that fits itself. -/
theorem round_trip_iff_chip : ∃ s d', s ≠ defaults ∧
    Returns chipBus (do set_config_reg s; get_config_reg s) begun s d' := by
  obtain ⟨t, d', he⟩ := drv_ends chipBus (do set_config_reg ⟨1, 2, 3, 1⟩; get_config_reg ⟨1, 2, 3, 1⟩) begun
  have hiff := (round_trip_iff chipBus_implements chipBus_reliable begun ⟨1, 2, 3, 1⟩).1 _ _ _ he
  obtain rfl : t = ⟨1, 2, 3, 1⟩ := hiff.2 ⟨rfl, rfl, rfl, rfl⟩
  exact ⟨_, d', by decide, he⟩

/-- Three of the registers of `begin` do not come back, and the fourth is in the place of
another. -/
theorem registers_lost : ∃ d', Implements chipBus id ∧ Reliable chipBus ∧
    Returns chipBus (do set_config_reg initial_settings; get_config_reg ⟨1, 2, 3, 4⟩) begun ⟨0, 2, 3, 4⟩ d' ∧
    ⟨0, 2, 3, 4⟩ ≠ initial_settings := by
  obtain ⟨t, d', he⟩ := drv_ends chipBus
    (do set_config_reg initial_settings; get_config_reg ⟨1, 2, 3, 4⟩) begun
  obtain ⟨⟨⟩, d₁, h1, h2⟩ := Ends.bind_iff.1 he
  obtain ⟨hset, -⟩ := set_config_reg_registers chipBus_implements chipBus_reliable h1
  obtain ⟨-, rfl⟩ := get_config_reg_registers chipBus_implements chipBus_reliable h2
  rw [hset] at he
  exact ⟨d', chipBus_implements, chipBus_reliable, he, by decide⟩

/-- Memory, once the stores are made. -/
def afterStores (mem : ℕ → UInt8) (st : List (ℕ × UInt8)) : ℕ → UInt8 :=
  st.foldl (fun mem x => Function.update mem x.1 x.2) mem

/-- The record at the beginning of `mem`. -/
def recordAt (mem : ℕ → UInt8) : ads1220_settings_t := ⟨mem 0, mem 1, mem 2, mem 3⟩

/-- Its size in bytes. -/
def sizeof_settings : ℕ := 4

/-- What four `readRegister` return. -/
def readRegisters : DrvM ads1220_settings_t := do
  let reg0 ← readRegister CONFIG_REG0_ADDRESS
  let reg1 ← readRegister CONFIG_REG1_ADDRESS
  let reg2 ← readRegister CONFIG_REG2_ADDRESS
  let reg3 ← readRegister CONFIG_REG3_ADDRESS
  pure ⟨reg0, reg1, reg2, reg3⟩

/-- The stores `st` put into the record what four `readRegister` return, and nothing beside it. -/
def ReadsAlike (bus : SpiBus D) (d : Driver D) (mem : ℕ → UInt8) (st : List (ℕ × UInt8)) : Prop :=
  (∀ s d', Returns bus readRegisters d s d' → recordAt (afterStores mem st) = s) ∧ ∀ x ∈ st, x.1 < sizeof_settings

section Reliable

variable (hi : Implements bus regs) (hr : Reliable bus)

include hi hr

theorem readRegisters_registers (he : Returns bus readRegisters d s d') : s = regs d.dev := by
  unfold readRegisters at he
  obtain ⟨dev₀, h0, he⟩ := returns_read_register hi hr 0 he
  obtain ⟨dev₁, h1, he⟩ := returns_read_register hi hr 1 he
  obtain ⟨dev₂, h2, he⟩ := returns_read_register hi hr 2 he
  obtain ⟨dev₃, -, he⟩ := returns_read_register hi hr 3 he
  obtain ⟨rfl, -⟩ := returns_pure.1 he
  simp only [h2, h1, h0]
  rfl

theorem writeAllRegister_registers (he : Returns bus (writeAllRegister s) d u d') :
    regs d'.dev = s ∧ d'.ads = d.ads := by
  obtain ⟨ec, dev, ht, he⟩ := returns_transmit.1 he
  obtain rfl := hr.transmit _ _ _ _ ht
  obtain ⟨-, rfl⟩ := returns_pure.1 he
  exact ⟨hi.transmit _ _ _ ht, rfl⟩

/-- **One byte too far**: the first byte came back with the command. -/
theorem readAllRegister_stores {st : List (ℕ × UInt8)} (he : Returns bus readAllRegister d st d') :
    regs d'.dev = regs d.dev ∧ ∃ b, st = [(0, b), (1, (regs d.dev).reg0), (2, (regs d.dev).reg1),
      (3, (regs d.dev).reg2), (4, (regs d.dev).reg3)] := by
  obtain ⟨ec, rx, dev, ht, he⟩ := returns_transfer.1 he
  obtain rfl := hr.transfer _ _ _ _ _ ht
  obtain ⟨rfl, rfl⟩ := returns_pure.1 he
  obtain ⟨h1, h2⟩ := hi.transfer _ _ _ _ ht
  have back (i : Fin 4) : rx i.succ = (regs d.dev).reg i := by
    refine h2 i.succ _ ?_
    fin_cases i <;> rfl
  refine ⟨h1, rx 0, ?_⟩
  rw [List.ofFn_succ]
  simp only [List.ofFn_succ, back]
  rfl

end Reliable

/-- **All registers at once.** Writing them in one transmission does what four
`writeRegister` do. Reading them in one transfer never does what four `readRegister` do:
each register lands one byte after its own, and register 3 past the end of the record. -/
theorem bulk_never (hi : Implements bus regs) (hr : Reliable bus) (d : Driver D) (mem : ℕ → UInt8) :
    (∀ s d₁ d₂, Returns bus (writeAllRegister s) d () d₁ → Returns bus (set_config_reg s) d () d₂ →
      regs d₁.dev = regs d₂.dev ∧ d₁.ads = d₂.ads) ∧
    (∃ st d₁ s d₂, Returns bus readAllRegister d st d₁ ∧ Returns bus readRegisters d s d₂) ∧
    ∀ st d₁ s d₂, Returns bus readAllRegister d st d₁ → Returns bus readRegisters d s d₂ →
      ¬ ReadsAlike bus d mem st ∧ ∃ b, recordAt (afterStores mem st) = ⟨b, s.reg0, s.reg1, s.reg2⟩ ∧
        afterStores mem st sizeof_settings = s.reg3 := by
  refine ⟨?_, ?_, ?_⟩
  · intro s d₁ d₂ h1 h2
    obtain ⟨hbulk, hads₁⟩ := writeAllRegister_registers hi hr h1
    obtain ⟨hsingle, hads₂⟩ := set_config_reg_registers hi hr h2
    exact ⟨hbulk.trans hsingle.symm, hads₁.trans hads₂.symm⟩
  · obtain ⟨st, d₁, h1⟩ := drv_ends bus readAllRegister d
    obtain ⟨s, d₂, h2⟩ := drv_ends bus readRegisters d
    exact ⟨st, d₁, s, d₂, h1, h2⟩
  · intro st d₁ s d₂ h1 h2
    obtain ⟨-, b, rfl⟩ := readAllRegister_stores hi hr h1
    obtain rfl := readRegisters_registers hi hr h2
    refine ⟨?_, b, rfl, rfl⟩
    rintro ⟨-, hsize⟩
    have hpast : 4 < sizeof_settings := hsize (4, (regs d.dev).reg3) (by simp)
    exact absurd hpast (lt_irrefl _)

/-- After `begin`, the records read in the two ways. -/
theorem bulk_never_begun : ∃ st d', Returns chipBus readAllRegister begun st d' ∧
    ¬ ReadsAlike chipBus begun (fun _ => 0) st := by
  obtain ⟨-, ⟨st, d₁, s, d₂, h1, h2⟩, hnever⟩ :=
    bulk_never chipBus_implements chipBus_reliable begun fun _ => 0
  exact ⟨st, d₁, h1, (hnever st d₁ s d₂ h1 h2).1⟩

/-- After `begin`, register 1 gets the value of register 0, and the byte past the record the
value of register 3. -/
theorem registers_shifted : ∃ st d₁ d₂, Implements chipBus id ∧ Reliable chipBus ∧
    Returns chipBus readAllRegister begun st d₁ ∧ Returns chipBus readRegisters begun initial_settings d₂ ∧
    (recordAt (afterStores (fun _ => 0xAA) st)).reg1 = 0x6E ∧ initial_settings.reg1 = 0xD0 ∧
    afterStores (fun _ => 0xAA) st sizeof_settings = 0x00 := by
  obtain ⟨st, d₁, h1⟩ := drv_ends chipBus readAllRegister begun
  obtain ⟨s, d₂, h2⟩ := drv_ends chipBus readRegisters begun
  obtain ⟨-, b, rfl⟩ := readAllRegister_stores chipBus_implements chipBus_reliable h1
  obtain rfl := readRegisters_registers chipBus_implements chipBus_reliable h2
  exact ⟨_, d₁, d₂, chipBus_implements, chipBus_reliable, h1, h2, rfl, rfl, rfl⟩

end M20Strain
