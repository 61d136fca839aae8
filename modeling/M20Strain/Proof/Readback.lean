import M20Strain.Binary.Fields
import M20Strain.Proof.Sources

/-!
# What `begin` reads back

`begin` compares nothing: it always returns 0, and leaves in `settingsR` the bytes that came
back for its four RREG frames. `readback_iff`: so it returns 0 with the settings read back
exactly on a bus that echoes them (`Echoes`), and in a run a conversion starts on these settings
exactly if the values last read from the registers (`readback`) agree with them.
-/

namespace M20Strain

open Interrupt Prog

variable {D : Type} {bus : SpiBus D} {d d' : Driver D} {u : Unit}

/-- The frames are transmitted one after the other, with any status. -/
def SpiBus.Transmits (bus : SpiBus D) : List (List UInt8) → D → D → Prop
  | [], dev, dev' => dev' = dev
  | tx :: txs, dev, dev' => ∃ ec dev₁, bus.transmit tx ec dev = some dev₁ ∧ bus.Transmits txs dev₁ dev'

/-- The registers at these addresses are read one after the other, with these bytes brought
back, and any status. -/
def SpiBus.Reads (bus : SpiBus D) : List (UInt8 × UInt8) → D → D → Prop
  | [], dev, dev' => dev' = dev
  | x :: xs, dev, dev' => ∃ ec rx dev₁, bus.transfer (readFrame x.1) ec rx dev = some dev₁ ∧
      x.2 = rx ⟨1, readFrame_length⟩ ∧ bus.Reads xs dev₁ dev'

/-- The four registers with their addresses. -/
def contents (s : ads1220_settings_t) : List (UInt8 × UInt8) :=
  [(CONFIG_REG0_ADDRESS, s.reg0), (CONFIG_REG1_ADDRESS, s.reg1), (CONFIG_REG2_ADDRESS, s.reg2),
    (CONFIG_REG3_ADDRESS, s.reg3)]

/-- The frame that writes a register. -/
def writeFrame (x : UInt8 × UInt8) : List UInt8 := [WREG ||| (x.1 <<< 2), x.2]

/-- What `begin` transmits: the reset, and the initial settings. -/
def begin_frames : List (List UInt8) := [0x00, RESET] :: (contents initial_settings).map writeFrame

theorem returns_transmits {α : Type} {a : α} {s : ads1220_settings_t} {p : DrvM α} : Returns bus (do
      writeRegister CONFIG_REG0_ADDRESS s.reg0
      writeRegister CONFIG_REG1_ADDRESS s.reg1
      writeRegister CONFIG_REG2_ADDRESS s.reg2
      writeRegister CONFIG_REG3_ADDRESS s.reg3
      p) d a d' ↔
    ∃ dev, bus.Transmits ((contents s).map writeFrame) d.dev dev ∧ Returns bus p { d with dev } a d' := by
  constructor
  · intro he
    obtain ⟨ec₀, dev₀, ht₀, he⟩ := returns_writeRegister.1 he
    obtain ⟨ec₁, dev₁, ht₁, he⟩ := returns_writeRegister.1 he
    obtain ⟨ec₂, dev₂, ht₂, he⟩ := returns_writeRegister.1 he
    obtain ⟨ec₃, dev₃, ht₃, he⟩ := returns_writeRegister.1 he
    exact ⟨dev₃, ⟨ec₀, dev₀, ht₀, ec₁, dev₁, ht₁, ec₂, dev₂, ht₂, ec₃, dev₃, ht₃, rfl⟩, he⟩
  · rintro ⟨_, ⟨ec₀, dev₀, ht₀, ec₁, dev₁, ht₁, ec₂, dev₂, ht₂, ec₃, dev₃, ht₃, rfl⟩, he⟩
    refine returns_writeRegister.2 ⟨ec₀, dev₀, ht₀, ?_⟩
    refine returns_writeRegister.2 ⟨ec₁, dev₁, ht₁, ?_⟩
    refine returns_writeRegister.2 ⟨ec₂, dev₂, ht₂, ?_⟩
    exact returns_writeRegister.2 ⟨ec₃, _, ht₃, he⟩

theorem returns_reads {α : Type} {a : α} {p : DrvM α} : Returns bus (do read_settingsR; p) d a d' ↔
    ∃ dev s, bus.Reads (contents s) d.dev dev ∧
      Returns bus p { d with ads := { d.ads with settingsR := s }, dev } a d' := by
  simp only [read_settingsR, bind_assoc]
  constructor
  · intro he
    obtain ⟨ec₀, rx₀, dev₀, hr₀, he⟩ := returns_readRegister.1 he
    obtain ⟨ec₁, rx₁, dev₁, hr₁, he⟩ := returns_readRegister.1 (returns_update.1 he)
    obtain ⟨ec₂, rx₂, dev₂, hr₂, he⟩ := returns_readRegister.1 (returns_update.1 he)
    obtain ⟨ec₃, rx₃, dev₃, hr₃, he⟩ := returns_readRegister.1 (returns_update.1 he)
    refine ⟨dev₃, ⟨_, _, _, _⟩, ?_, returns_update.1 he⟩
    exact ⟨ec₀, rx₀, dev₀, hr₀, rfl, ec₁, rx₁, dev₁, hr₁, rfl, ec₂, rx₂, dev₂, hr₂, rfl, ec₃, rx₃, dev₃, hr₃, rfl,
      rfl⟩
  · rintro ⟨_, ⟨r0, r1, r2, r3⟩, ⟨ec₀, rx₀, dev₀, hr₀, h0, ec₁, rx₁, dev₁, hr₁, h1, ec₂, rx₂, dev₂, hr₂, h2,
      ec₃, rx₃, dev₃, hr₃, h3, rfl⟩, he⟩
    refine returns_readRegister.2 ⟨ec₀, rx₀, dev₀, hr₀, returns_update.2 ?_⟩
    refine returns_readRegister.2 ⟨ec₁, rx₁, dev₁, hr₁, returns_update.2 ?_⟩
    refine returns_readRegister.2 ⟨ec₂, rx₂, dev₂, hr₂, returns_update.2 ?_⟩
    refine returns_readRegister.2 ⟨ec₃, rx₃, _, hr₃, returns_update.2 ?_⟩
    simp only [← h0, ← h1, ← h2, ← h3]
    exact he

/-- **What `begin` does on any bus.** -/
theorem returns_begin {r : Int} : Returns bus begin d r d' ↔ r = 0 ∧ ∃ dev s, bus.Transmits begin_frames d.dev dev ∧
    bus.Reads (contents s) dev d'.dev ∧ d' = { d with ads := ⟨initial_settings, s⟩, dev := d'.dev } := by
  rw [begin]
  constructor
  · intro he
    obtain ⟨ec, dev, ht, he⟩ := returns_spi_command.1 (returns_delay.1 he)
    have he := returns_rd_settings.1 (returns_wr_settings.1 (returns_delay.1 he))
    obtain ⟨dev₁, ht₁, he⟩ := returns_transmits.1 he
    obtain ⟨dev₂, s, hr, he⟩ := returns_reads.1 (returns_delay.1 he)
    obtain ⟨rfl, rfl⟩ := returns_pure.1 (returns_delay.1 he)
    exact ⟨rfl, dev₁, s, ⟨ec, dev, ht, ht₁⟩, hr, rfl⟩
  · rintro ⟨rfl, dev₁, s, ⟨ec, dev, ht, ht₁⟩, hr, hd⟩
    refine returns_delay.2 (returns_spi_command.2 ⟨ec, dev, ht, returns_delay.2 ?_⟩)
    refine returns_wr_settings.2 (returns_rd_settings.2 ?_)
    refine returns_transmits.2 ⟨dev₁, ht₁, returns_delay.2 ?_⟩
    exact returns_reads.2 ⟨d'.dev, s, hr, returns_delay.2 (returns_pure.2 ⟨rfl, hd⟩)⟩

/-- Whatever the bus answers to the frames of `begin`, the bytes read back are those written. -/
def Echoes (bus : SpiBus D) (dev : D) : Prop :=
  ∀ dev₁ dev₂ s, bus.Transmits begin_frames dev dev₁ → bus.Reads (contents s) dev₁ dev₂ → s = initial_settings

theorem begin_iff : (∀ r d', Returns bus begin d r d' → r = 0 → d'.ads.settingsR = d'.ads.settings) ↔
    Echoes bus d.dev := by
  constructor
  · intro H dev₁ dev₂ s ht hr
    exact H 0 { d with ads := ⟨initial_settings, s⟩, dev := dev₂ } (returns_begin.2 ⟨rfl, dev₁, s, ht, hr, rfl⟩) rfl
  · intro H r d' he _
    obtain ⟨-, dev, s, ht, hr, heq⟩ := returns_begin.1 he
    rw [heq]
    exact H dev d'.dev s ht hr

theorem echoes_of_implements {regs : D → ads1220_settings_t} (hi : Implements bus regs) (hr : Reliable bus)
    (dev : D) : Echoes bus dev := by
  refine begin_iff (d := ⟨⟨defaults, defaults⟩, fun _ => 0, dev⟩).1 ?_
  intro r d' he _
  obtain ⟨-, -, hads⟩ := begin_registers hi hr he
  rw [hads]

/-- If `tx` asks for a register, the second byte received is what `begin` writes to it. -/
def Echo (tx rx : List UInt8) : Prop :=
  ∀ x ∈ contents initial_settings, tx = readFrame x.1 → rx[1]? = some x.2

/-- The value last read from the register at `address`, after one more transfer. -/
def latest (tx rx : List UInt8) (address value : UInt8) : UInt8 :=
  if tx = readFrame address then rx[1]?.getD value else value

/-- The values last read, after one more transfer. -/
def reread (s : ads1220_settings_t) (tx rx : List UInt8) : ads1220_settings_t where
  reg0 := latest tx rx CONFIG_REG0_ADDRESS s.reg0
  reg1 := latest tx rx CONFIG_REG1_ADDRESS s.reg1
  reg2 := latest tx rx CONFIG_REG2_ADDRESS s.reg2
  reg3 := latest tx rx CONFIG_REG3_ADDRESS s.reg3

/-- The record of what was last read from each register. -/
def lastRead : Recorder ads1220_settings_t :=
  ⟨fun s _ _ => s, fun s tx _ rx => reread s tx (List.ofFn rx), fun s _ _ => s⟩

/-- What was last read from each register (for one not read yet, what `begin` writes). -/
def readback (tr : List (Event D)) : ads1220_settings_t := tr.foldl (record lastRead.calls) initial_settings

/-- The bytes sent and received, if the call is a transfer. -/
def transferred : Event D → Option (List UInt8 × List UInt8)
  | .call (.drv (.SPIDRV_MTransferB tx)) r _ _ => some (tx, List.ofFn r.2)
  | _ => none

def Echoed (e : Event D) : Prop := ∀ x ∈ transferred e, Echo x.1 x.2

theorem Echo.latest {tx rx : List UInt8} (he : Echo tx rx) {x : UInt8 × UInt8} (hx : x ∈ contents initial_settings) :
    latest tx rx x.1 x.2 = x.2 := by
  unfold M20Strain.latest
  split
  · rename_i htx
    rw [he x hx htx]
    rfl
  · rfl

theorem Echo.reread {tx rx : List UInt8} (he : Echo tx rx) :
    reread initial_settings tx rx = initial_settings := by
  have h0 := he.latest (x := (CONFIG_REG0_ADDRESS, initial_settings.reg0)) (by simp [contents])
  have h1 := he.latest (x := (CONFIG_REG1_ADDRESS, initial_settings.reg1)) (by simp [contents])
  have h2 := he.latest (x := (CONFIG_REG2_ADDRESS, initial_settings.reg2)) (by simp [contents])
  have h3 := he.latest (x := (CONFIG_REG3_ADDRESS, initial_settings.reg3)) (by simp [contents])
  simp only [M20Strain.reread, h0, h1, h2, h3]

theorem record_lastRead {s : ads1220_settings_t} {e : Event D} :
    record lastRead.calls s e = (transferred e).elim s fun x => reread s x.1 x.2 := by
  cases e with
  | call o r l h =>
    rcases o with o | o | o
    · cases o <;> rfl
    · rfl
    · rfl
  | irq i h => rfl

/-- Echoes bring back what `begin` writes. -/
theorem readback_echoed {tr : List (Event D)} (he : ∀ e ∈ tr, Echoed e) : readback tr = initial_settings := by
  unfold readback
  induction tr with
  | nil => rfl
  | cons e tr ih =>
    obtain ⟨h1, htr⟩ := List.forall_mem_cons.1 he
    have hstep : record lastRead.calls initial_settings e = initial_settings := by
      rw [record_lastRead]
      cases hx : transferred e with
      | none => rfl
      | some x => exact (h1 x hx).reread
    rw [List.foldl_cons, hstep]
    exact ih htr

theorem latest_read {a b value : UInt8} {rx : Fin (readFrame a).length → UInt8} :
    latest (readFrame a) (List.ofFn rx) b value =
      if readFrame a = readFrame b then rx ⟨1, readFrame_length⟩ else value := by
  unfold latest
  rw [List.getElem?_ofFn, dif_pos readFrame_length]
  rfl

/-- The four registers read are those last read. -/
theorem reads_lastRead {s : ads1220_settings_t} {dev dev' : D × ads1220_settings_t}
    (hr : (bus.keeping lastRead).Reads (contents s) dev dev') : dev'.2 = s := by
  obtain ⟨ec₀, rx₀, dev₀, hr₀, h0, ec₁, rx₁, dev₁, hr₁, h1, ec₂, rx₂, dev₂, hr₂, h2,
    ec₃, rx₃, dev₃, hr₃, h3, rfl⟩ := hr
  rw [(transfer_keeping.1 hr₃).2, (transfer_keeping.1 hr₂).2, (transfer_keeping.1 hr₁).2, (transfer_keeping.1 hr₀).2]
  simp only [lastRead, reread, latest_read, ← h0, ← h1, ← h2, ← h3]
  rfl

/-- The settings with the temperature-sensor bit as it is switched. -/
def switched (s : ads1220_settings_t) (ts : Bool) : ads1220_settings_t :=
  { s with reg1 := ts_value s.reg1 (if ts then 0x02 else 0x00) }

/-- **The values read are those written by `begin`**, but for the temperature-sensor bit, which
the firmware sets anew for each conversion. -/
def AsWritten (s : ads1220_settings_t) : Prop := switched s false = initial_settings

theorem switched_switched (s : ads1220_settings_t) (b ts : Bool) : switched (switched s b) ts = switched s ts := by
  have hb : (if b then 0x02 else 0x00 : UInt8) &&& ~~~REG_CONFIG1_TS_MASK = 0 := by cases b <;> decide
  have hreg : ts_value (ts_value s.reg1 (if b then 0x02 else 0x00)) (if ts then 0x02 else 0x00) =
      ts_value s.reg1 (if ts then 0x02 else 0x00) :=
    UInt8.toBitVec_inj.1 (Binary.insertBits_insertBits (congrArg UInt8.toBitVec hb) s.reg1.toBitVec)
  simp only [switched, hreg]

/-- With the bit on. -/
theorem asWritten_iff {s : ads1220_settings_t} : switched s true = settings_with true ↔ AsWritten s := by
  constructor
  · intro hs
    have hoff := congrArg (switched · false) hs
    rw [switched_switched] at hoff
    exact hoff.trans (by decide)
  · intro hs
    have hon := congrArg (switched · true) hs
    rwa [switched_switched] at hon

theorem asWritten_initial : AsWritten initial_settings := by
  unfold AsWritten
  decide

/-- What the shadow holds when `s` was read: the bit is on while the sensor measures; else it is
as it was read, or off again. -/
def Mirrors (measuring : Bool) (s settingsR : ads1220_settings_t) : Prop :=
  if measuring then settingsR = switched s true else settingsR = s ∨ settingsR = switched s false

theorem Mirrors.switch {b : Bool} {s settingsR : ads1220_settings_t} (hs : Mirrors b s settingsR) (ts : Bool) :
    switched settingsR ts = switched s ts := by
  cases b with
  | true =>
    obtain rfl : settingsR = switched s true := hs
    exact switched_switched s true ts
  | false =>
    rcases hs with rfl | rfl
    · rfl
    · exact switched_switched s false ts

section Driver

variable {d d' : Driver (D × ads1220_settings_t)}

theorem begin_lastRead {r : Int} (he : Returns (bus.keeping lastRead) begin d r d') :
    d'.ads = ⟨initial_settings, d'.dev.2⟩ := by
  obtain ⟨-, dev, s, -, hr, heq⟩ := returns_begin.1 he
  rw [reads_lastRead hr, heq]

/-- The temperature switches make no transfer, and set the bit of the shadow. -/
theorem temp_sense_lastRead {ts : UInt8} (he : Returns (bus.keeping lastRead) (temp_sense ts) d u d') :
    d'.dev.2 = d.dev.2 ∧ d'.ads = { d.ads with settingsR :=
      { d.ads.settingsR with reg1 := ts_value d.ads.settingsR.reg1 ts } } := by
  rw [← bind_pure (temp_sense ts)] at he
  simp only [temp_sense, set_field1, write_reg1, bind_assoc] at he
  have he := returns_rd_settingsR.1 (returns_update.1 (returns_update.1 he))
  obtain ⟨ec, dev, ht, he⟩ := returns_writeRegister.1 he
  obtain ⟨-, rfl⟩ := returns_pure.1 he
  exact ⟨(transmit_keeping.1 ht).2, rfl⟩

theorem start_conv_lastRead (he : Returns (bus.keeping lastRead) start_conv d u d') :
    d'.dev.2 = d.dev.2 ∧ d'.ads = d.ads := by
  rw [← bind_pure start_conv] at he
  obtain ⟨ec, dev, ht, he⟩ := returns_spi_command.1 he
  obtain ⟨-, rfl⟩ := returns_pure.1 he
  exact ⟨(transmit_keeping.1 ht).2, rfl⟩

theorem read_data_samples_lastRead {v : BitVec 32} (he : Returns (bus.keeping lastRead) read_data_samples d v d') :
    d'.dev.2 = d.dev.2 ∧ d'.ads = d.ads := by
  obtain ⟨t, dev, hts, rfl, -⟩ := returns_read_data_samples.1 he
  refine ⟨?_, rfl⟩
  obtain ⟨dev₀, h0, dev₁, h1, dev₂, h2, hdev⟩ := hts
  change dev.2 = d.dev.2
  rw [hdev, (receive_keeping.1 h2).2, (receive_keeping.1 h1).2, (receive_keeping.1 h0).2]
  rfl

end Driver

/-- Settings and shadow fit state `s` and what was read. After a restart they are not yet known. -/
structure Copied (s : states) (l : Local (D × ads1220_settings_t)) : Prop where
  state : l.current_state = s
  settings : s ≠ .SLEEPING → l.driver.ads.settings = initial_settings
  shadow : s ≠ .SLEEPING → Mirrors s.measuring l.record l.driver.ads.settingsR

/-- **A temperature switch** sets the bit of what was read. -/
theorem Copied.switch {s : states} {l : Local (D × ads1220_settings_t)} {d : Driver (D × ads1220_settings_t)}
    (hs : Copied s l) (ts : Bool) (hne : s ≠ .SLEEPING)
    (he : Returns (bus.keeping lastRead) (temp_sense (if ts then 0x02 else 0x00)) l.driver u d) :
    d.ads = ⟨initial_settings, switched d.dev.2 ts⟩ := by
  obtain ⟨h1, h2⟩ := temp_sense_lastRead he
  have hbit : switched l.driver.ads.settingsR ts = switched d.dev.2 ts := by
    rw [h1]
    exact (hs.shadow hne).switch ts
  rw [h2, ← hbit, ← hs.settings hne]
  rfl

section Run

variable {G : Type} {μ : G → Event (D × ads1220_settings_t) → G} {g g' : G}
  {l l' : Local (D × ads1220_settings_t)} {h h' : Shared}

/-- **One `fsm_fire`**: only `begin` makes transfers, and it fills the shadow with what it reads. -/
theorem Fired.copied (hf : Fired (bus.keeping lastRead) μ g l h g' l' h') (hl : ∃ s, Copied s l) :
    ∃ s, Copied s l' := by
  have awake {s : states} (hs : l.current_state = s) : Copied s l := by
    obtain ⟨t, ht⟩ := hl
    obtain rfl : t = s := states.val_inj (ht.state.symm.trans hs)
    exact ht
  cases hf with
  | stay s hs ht hi => exact hl
  | power_up hs _ hd _ | pin_wake hs _ hd _ _ _ _ | timer_wake hs _ hd _ _ _ _ _ =>
    have hads := begin_lastRead hd
    exact ⟨.WAKING_UP, rfl, fun _ => congrArg ads1220_t.settings hads,
      fun _ => .inl (congrArg ads1220_t.settingsR hads)⟩
  | ask hs hn hd₁ hd₂ hc hc' =>
    obtain ⟨h2, h3⟩ := start_conv_lastRead hd₂
    have hset : ∃ s, s ≠ .SLEEPING ∧ Copied s l := by
      rcases hs with ⟨hs, -⟩ | ⟨hs, -⟩
      · exact ⟨_, by decide, awake hs⟩
      · exact ⟨_, by decide, awake hs⟩
    obtain ⟨t, hne, ht⟩ := hset
    have hon := ht.switch true hne hd₁
    rw [← h3, ← h2] at hon
    exact ⟨.ASKING_FOR_DATA, rfl, fun _ => congrArg ads1220_t.settings hon,
      fun _ => congrArg ads1220_t.settingsR hon⟩
  | ask_all hs hn hc hi =>
    exact ⟨.ASKING_FOR_DATA, rfl, fun _ => (awake hs).settings (by decide), fun _ => (awake hs).shadow (by decide)⟩
  | retrieve hs hn hi hr hc hd hw hc' =>
    obtain ⟨h1, h2⟩ := read_data_samples_lastRead hd
    obtain ⟨sd, rfl⟩ := stored hw
    have hshadow : Mirrors true _ _ := (awake hs).shadow (by decide)
    refine ⟨.RETRIEVING_DATA, rfl, fun _ => ?_, fun _ => ?_⟩
    · exact (congrArg ads1220_t.settings h2).trans ((awake hs).settings (by decide))
    · change Mirrors true _ _
      rw [Local.record] at hshadow ⊢
      rw [← h1, ← h2] at hshadow
      exact hshadow
  | send_ok s hs hn hd hk hc | send_failed s hs hn hd hk hc =>
    have hads := (awake hs).switch false (by decide) hd
    exact ⟨.SENDING_DATA, rfl, fun _ => congrArg ads1220_t.settings hads,
      fun _ => .inr (congrArg ads1220_t.settingsR hads)⟩
  | ask_again hs hd hi hm hc =>
    exact ⟨.WAKING_UP, rfl, fun _ => (awake hs).settings (by decide), fun _ => (awake hs).shadow (by decide)⟩
  | try_to_sleep hs hd hi hm hc hr hi' =>
    exact ⟨.TO_SLEEP, rfl, fun _ => (awake hs).settings (by decide), fun _ => (awake hs).shadow (by decide)⟩
  | reset_timer_sleep hs | reset_no_timer hs =>
    exact ⟨.SLEEPING, rfl, fun hne => absurd rfl hne, fun hne => absurd rfl hne⟩

/-- The main loop's state in which a conversion is started. -/
def starting {D : Type} : Event D → Option (Local D)
  | .call (.main (.enter .start_conv)) _ l _ => some l
  | _ => none

/-- A conversion is started with the settings read back, and the temperature sensor on. -/
def Verified {D : Type} (e : Event D) : Prop :=
  ∀ l ∈ starting e, l.driver.ads = ⟨initial_settings, settings_with true⟩

theorem starting_call {D : Type} {o : Op} {r : o.Resp} {l l₁ : Local D} {h : Shared}
    (hs : l₁ ∈ starting (.call o r l h)) : o = .main (.enter .start_conv) ∧ l₁ = l := by
  unfold starting at hs
  split at hs
  · rename_i heq
    cases heq
    exact ⟨rfl, (Option.mem_some.1 hs).symm⟩
  · cases hs

/-- The check, with the values last read in the state of the main loop. -/
def VerifiedOf (e : Event (D × ads1220_settings_t)) : Prop :=
  reading Local.record (Local.map Prod.fst) initial_settings
    (fun s e => (starting e).isSome → (Verified (D := D) e ↔ AsWritten s)) e

theorem verifiedOf_call {o : Op} {r : o.Resp} (hs : o = .main (.enter .start_conv) →
    (l.driver.ads = ⟨initial_settings, settings_with true⟩ ↔ AsWritten l.record)) : VerifiedOf (.call o r l h) := by
  intro he
  obtain ⟨l₁, hl₁⟩ := Option.isSome_iff_exists.1 he
  obtain ⟨ho, -⟩ := starting_call hl₁
  subst ho
  rw [← hs rfl]
  exact ⟨fun hv => hv _ rfl, fun hads l₂ hl₂ => by rw [← Option.some.inj hl₂]; exact hads⟩

theorem verifiedOf_of_none {e : Event (D × ads1220_settings_t)} (he : starting e = none) : VerifiedOf e := by
  cases e with
  | call o r l h =>
    refine verifiedOf_call ?_
    rintro rfl
    cases he
  | irq i h =>
    intro hs
    cases hs

theorem blind_verified : Blind (watch blind fun _ => VerifiedOf (D := D)) := by
  refine Blind.blind.watch ?_ ?_ ?_
  · rintro o ho - r l h
    refine verifiedOf_call ?_
    rintro rfl
    cases ho
  · exact fun _ _ _ => verifiedOf_of_none rfl
  · intro _ o r l h h' ho
    rcases o with o | o | o <;> cases ho
    cases o <;> first | rfl | (rename_i f; cases f <;> rfl)

/-- A fire that starts no conversion. -/
theorem Emits.not_starting {l l' : Local D} {evs : List (Event D)} (he : Emits l h evs l')
    (hne : l.current_state ≠ states.ASKING_FOR_DATA → l'.current_state = states.ASKING_FOR_DATA →
      ¬ l'.user.num_data_retrieved < 4) : ∀ e ∈ evs, starting e = none := by
  cases he with
  | stay s hs ht => exact fun _ he => absurd he List.not_mem_nil
  | ask hs hn =>
    have hs' : l.current_state ≠ states.ASKING_FOR_DATA := by
      rcases hs with ⟨hs, -⟩ | ⟨hs, -⟩
      · exact not_at hs (by decide)
      · exact not_at hs (by decide)
    exact absurd hn (hne hs' rfl)
  | reset_timer_sleep hs hes hr =>
    intro e he
    simp only [List.mem_append, List.mem_cons, List.not_mem_nil, or_false] at he
    rcases he with he | rfl | rfl | he | rfl
    · simp only [entries, start, Made.entry, List.map_cons, List.map_nil, List.mem_cons, List.not_mem_nil,
        or_false] at he
      rcases he with rfl | rfl <;> rfl
    · rfl
    · rfl
    · obtain ⟨c, sc, rfl⟩ := hes.mem_entries e he
      rfl
    · rfl
  | _ => simp [entries, start, published, Made.entry, starting]

theorem Fired.verified {k k' : Unit × Prop}
    (hf : Fired (bus.keeping lastRead) (watch blind fun _ => VerifiedOf) k l h k' l' h')
    (hk : k.2) (hl : ∃ s, Copied s l) : k'.2 := by
  obtain ⟨⟨⟩, p⟩ := k
  by_cases hask : l.current_state ≠ states.ASKING_FOR_DATA ∧ l'.current_state = states.ASKING_FOR_DATA ∧
      l'.user.num_data_retrieved < 4
  · obtain ⟨hs, hs', hn⟩ := hask
    obtain ⟨l₀, d₁, d₂, g₁, h₁, hl₀, hd, rfl, hc, hc'⟩ := hf.asks hs hs' hn
    obtain rfl := blind_verified.calls (by simp [start, Op.isMain]) h hc
    obtain rfl := blind_verified.calls (by simp [Op.isMain]) h hc'
    simp only [entries, start, Made.entry, List.map_cons, List.map_nil, List.foldl_cons, List.foldl_nil, watch]
    refine ⟨⟨⟨⟨hk, verifiedOf_of_none rfl⟩, verifiedOf_of_none rfl⟩, verifiedOf_of_none rfl⟩, verifiedOf_call ?_⟩
    intro _
    -- the switch before it has set the bit in what was read back
    obtain ⟨t, ht⟩ := hl
    have hne : t ≠ .SLEEPING := by
      rintro rfl
      rcases hl₀ with ⟨hs₀, -⟩ | ⟨hs₀, -⟩
      · exact absurd (states.val_inj (ht.state.symm.trans hs₀)) (by decide)
      · exact absurd (states.val_inj (ht.state.symm.trans hs₀)) (by decide)
    have hon : d₁.ads = ⟨initial_settings, switched d₁.dev.2 true⟩ := ht.switch true hne hd
    change d₁.ads = _ ↔ AsWritten d₁.dev.2
    rw [hon, ← asWritten_iff]
    exact ⟨fun he => congrArg ads1220_t.settingsR he, fun he => congrArg (ads1220_t.mk initial_settings) he⟩
  · obtain ⟨evs, he, rfl⟩ := hf.emits blind_verified
    have hno := he.not_starting fun hs hs' hn => hask ⟨hs, hs', hn⟩
    rw [foldl_watch]
    exact ⟨hk, checked_of_forall fun e he _ => verifiedOf_of_none (hno e he)⟩

theorem verified_keeping {l₀ l : Local (D × ads1220_settings_t)} {h₀ h : Shared}
    {tr : List (Event (D × ads1220_settings_t))} (hb : Boot l₀ h₀) (hr : Runs (bus.keeping lastRead) l₀ h₀ tr l h) :
    Checked blind (fun _ => VerifiedOf) () tr ∧ ∃ s, Copied s l := by
  have hstart : ∃ s, Copied s l₀ :=
    hb.elim fun _ _ _ _ _ => ⟨.SLEEPING, rfl, fun hne => absurd rfl hne, fun hne => absurd rfl hne⟩
  refine run_checked (J := fun _ l _ => ∃ s, Copied s l) blind_verified.quiet hb hstart ?_ ?_ ?_ hr
  · exact fun i g l h h' _ _ hl => ⟨verifiedOf_of_none rfl, hl⟩
  · exact fun k l h k' l' h' _ hk hf => ⟨hf.verified hk.1 hk.2, hf.copied hk.2⟩
  · intro evt k l h k' l' h' _ hk hr
    refine hr.blind (J := fun k l => k.2 ∧ ∃ s, Copied s l) blind_verified ?_ ?_ hk
    · rintro k l b sc l₁ h - ⟨hp, hl⟩
      exact ⟨⟨hp, verifiedOf_of_none rfl⟩, hl⟩
    · rintro k l set n cs ⟨hp, s, hs⟩
      exact ⟨hp, s, hs.state, hs.settings, hs.shadow⟩

end Run

variable {l₀ l : Local D} {h₀ h : Shared} {tr : List (Event D)}

/-- The run as one with the record. -/
theorem run_lastRead (hb : Boot l₀ h₀) (hr : Runs bus l₀ h₀ tr l h) :
    Checked (fun k e => (record lastRead.calls k.1 e, blind k.2 e))
      (fun k e => (starting e).isSome → (Verified e ↔ AsWritten k.1)) (initial_settings, ()) tr ∧
    ∃ s : states, l.current_state = s ∧ (s ≠ .SLEEPING → l.driver.ads.settings = initial_settings ∧
      Mirrors s.measuring (readback tr) l.driver.ads.settingsR) := by
  obtain ⟨l₁, tr₁, l₂, hb₁, hr₁, rfl, rfl, hrec, hshows⟩ := run_keeping lastRead initial_settings hb hr
  obtain ⟨hc, s, hs⟩ := verified_keeping hb₁ hr₁
  refine ⟨(checked_history (γ := fun _ k e => blind k e) (fun _ _ _ _ => rfl) ?_ hshows).2 hc, s, hs.state, ?_⟩
  · intro n k i h
    exact iff_of_true (fun he => by cases he) (fun he => by cases he)
  · intro hne
    have hshadow := hs.shadow hne
    rw [hrec] at hshadow
    exact ⟨hs.settings hne, hshadow⟩

/-- **What is read back counts only on a device that echoes.** `begin` returns 0 with the shadow
equal to the settings if and only if the bus brings back the bytes written, as it does on a device
that implements the commands with every transfer successful. In a run, a conversion starts with the
settings read back if and only if the values last read from the registers agree with what `begin`
wrote. While `wakeup_completed_flag` stands, the shadow is equal to the settings if these values are
what `begin` wrote, as they are while every register read echoes, and only if they agree. -/
theorem readback_iff (bus : SpiBus D) :
    (∀ d, (∀ r d', Returns bus begin d r d' → r = 0 → d'.ads.settingsR = d'.ads.settings) ↔ Echoes bus d.dev) ∧
    (∀ regs, Implements bus regs → Reliable bus → ∀ dev, Echoes bus dev) ∧
    (∀ tr : List (Event D), (∀ x ∈ tr, Echoed x) → readback tr = initial_settings) ∧
    ∀ l₀ h₀ tr l h, Boot l₀ h₀ → Runs bus l₀ h₀ tr l h →
      (∀ pre e post, tr = pre ++ e :: post → ((starting e).isSome → (Verified e ↔ AsWritten (readback pre))) ∧
        ((∀ x ∈ pre, Echoed x) → Verified e)) ∧
      (l.user.wakeup_completed_flag ≠ 0 →
        (readback tr = initial_settings → l.driver.ads.settingsR = l.driver.ads.settings) ∧
        (l.driver.ads.settingsR = l.driver.ads.settings → AsWritten (readback tr))) := by
  refine ⟨fun d => begin_iff, fun regs hi hr dev => echoes_of_implements hi hr dev,
    fun tr he => readback_echoed he, ?_⟩
  intro l₀ h₀ tr l h hb hrun
  obtain ⟨hc, s, hs, hl⟩ := run_lastRead hb hrun
  refine ⟨?_, ?_⟩
  · intro pre e post heq
    have hfst : (pre.foldl (fun (k : ads1220_settings_t × Unit) e => (record lastRead.calls k.1 e, blind k.2 e))
        (initial_settings, ())).1 = readback pre := (List.foldl_hom Prod.fst fun _ _ => rfl).symm
    have hv : (starting e).isSome → (Verified e ↔ AsWritten (readback pre)) := by
      have h1 := checked_iff.1 hc pre e post heq
      rwa [hfst] at h1
    refine ⟨hv, fun hpre => ?_⟩
    cases hst : starting e with
    | none => intro l₁ hl₁; rw [hst] at hl₁; cases hl₁
    | some l₁ =>
      refine (hv (by rw [hst]; rfl)).2 ?_
      rw [readback_echoed hpre]
      exact asWritten_initial
  · intro hw
    -- the flag is set in `WAKING_UP` only
    have hf := ((run_inv hb hrun).fits hs).wakeup_completed
    split at hf
    · rename_i hs'
      subst hs'
      obtain ⟨hset, hshadow | hshadow⟩ := hl (by decide)
      · rw [hset, hshadow]
        refine ⟨id, fun heq => ?_⟩
        rw [heq]
        exact asWritten_initial
      · rw [hset, hshadow]
        refine ⟨fun heq => ?_, id⟩
        rw [heq]
        exact asWritten_initial
    · exact absurd hf hw

instance {tx rx : List UInt8} : Decidable (Echo tx rx) :=
  List.decidableBAll (fun x : UInt8 × UInt8 => tx = readFrame x.1 → rx[1]? = some x.2) (contents initial_settings)

instance {e : Event D} : Decidable (Echoed e) := inferInstanceAs (Decidable (∀ x ∈ transferred e, Echo x.1 x.2))

instance {e : Event D} : Decidable (Verified e) :=
  inferInstanceAs (Decidable (∀ l ∈ starting e, l.driver.ads = ⟨initial_settings, settings_with true⟩))

/-- On the chip, a measurement in continuous mode. -/
theorem readback_iff_chip : (∀ dev, Echoes chipBus dev) ∧
    ∃ tr l h, Runs chipBus chipBooted.1 chipBooted.2 tr l h ∧ l.user.wakeup_completed_flag ≠ 0 ∧
      l.driver.ads.settingsR = l.driver.ads.settings ∧ ∃ e ∈ tr, (starting e).isSome ∧ Verified e := by
  obtain ⟨-, hechoes, hread, hrun⟩ := readback_iff chipBus
  refine ⟨hechoes id chipBus_implements chipBus_reliable, ?_⟩
  obtain ⟨tr, l, h, hr, hecho, hw, e, he, hs⟩ := chip_run (fires 1 ++ [.irq .change_mode] ++ measurement ++ fires 1)
    (P := fun tr l _ => (∀ e ∈ tr, Echoed e) ∧ l.user.wakeup_completed_flag ≠ 0 ∧ ∃ e ∈ tr, (starting e).isSome)
    (by decide +kernel)
  obtain ⟨hpre, hend⟩ := hrun _ _ tr l h ⟨_, _, _, _, _, rfl⟩ hr
  obtain ⟨pre, post, heq⟩ := List.append_of_mem he
  refine ⟨tr, l, h, hr, hw, (hend hw).1 (hread tr hecho), e, he, hs, (hpre pre e post heq).2 ?_⟩
  intro x hx
  exact hecho x (by rw [heq]; exact List.mem_append_left _ hx)

/-- A device that answers every byte with 0: `begin` returns 0, the flag is set and a
conversion starts, with nothing in the shadow. -/
theorem silent_device_trusted :
    (∃ d d', Returns anyBus begin d 0 d' ∧ d'.ads.settingsR ≠ d'.ads.settings) ∧
    (∃ tr l h, Runs anyBus (booted false false).1 (booted false false).2 tr l h ∧
      l.user.wakeup_completed_flag = 1 ∧ l.driver.ads.settingsR ≠ l.driver.ads.settings) ∧
    ∃ tr l h, Runs anyBus (booted false false).1 (booted false false).2 tr l h ∧ ∃ e ∈ tr, ¬ Verified e := by
  refine ⟨?_, ?_, ?_⟩
  · let d : Driver Unit := ⟨⟨defaults, defaults⟩, fun _ => 0, ()⟩
    have ht : anyBus.Transmits begin_frames () () :=
      ⟨ECODE_OK, (), rfl, ECODE_OK, (), rfl, ECODE_OK, (), rfl, ECODE_OK, (), rfl, ECODE_OK, (), rfl, rfl⟩
    have hr : anyBus.Reads (contents defaults) () () :=
      ⟨ECODE_OK, fun _ => 0, (), rfl, rfl, ECODE_OK, fun _ => 0, (), rfl, rfl,
        ECODE_OK, fun _ => 0, (), rfl, rfl, ECODE_OK, fun _ => 0, (), rfl, rfl, rfl⟩
    exact ⟨d, { d with ads := ⟨initial_settings, defaults⟩ }, returns_begin.2 ⟨rfl, (), defaults, ht, hr, rfl⟩,
      by decide⟩
  · exact bench_run quietBench (fires 1) (P := fun _ l _ => l.user.wakeup_completed_flag = 1 ∧
      l.driver.ads.settingsR ≠ l.driver.ads.settings) (by decide +kernel)
  · exact bench_run quietBench (fires 2) (P := fun tr _ _ => ∃ e ∈ tr, ¬ Verified e) (by decide +kernel)

end M20Strain
