import M20Strain.Binary.Fields
import M20Strain.Proof.Shadow

/-!
# The bit fields of the registers

Nine operations of the driver set a field of a register (`Operation.sets`): they put its
bits into the shadow and send the register (`sends_setter`).
-/

namespace M20Strain

open Interrupt Prog Binary

variable {D : Type} {bus : SpiBus D} {regs : D → ads1220_settings_t} {α : Type} {a : α} {d d' : Driver D} {u : Unit}

/-- The bit fields that have a setter. -/
inductive Field where
  | MUX
  | PGA_GAIN
  | PGA_BYPASS
  | DR
  | CONV_MODE
  | TS
  deriving DecidableEq, Repr

def Field.register : Field → Fin 4
  | MUX | PGA_GAIN | PGA_BYPASS => ⟨0, Nat.zero_lt_succ 3⟩
  | DR | CONV_MODE | TS => ⟨1, Nat.one_lt_succ_succ 2⟩

def Field.mask : Field → UInt8
  | MUX => REG_CONFIG0_MUX_MASK
  | PGA_GAIN => REG_CONFIG0_PGA_GAIN_MASK
  | PGA_BYPASS => _BV 0
  | DR => REG_CONFIG1_DR_MASK
  | CONV_MODE => _BV 2
  | TS => REG_CONFIG1_TS_MASK

theorem reg_setReg (s : ads1220_settings_t) (v : UInt8) (r r' : Fin 4) :
    (s.setReg v r).reg r' = if r' = r then v else s.reg r' := by
  fin_cases r <;> fin_cases r' <;> rfl

theorem setReg_reg (s : ads1220_settings_t) (r : Fin 4) : s.setReg (s.reg r) r = s := by
  fin_cases r <;> rfl

theorem setReg_setReg (s : ads1220_settings_t) (v v' : UInt8) (r : Fin 4) :
    (s.setReg v r).setReg v' r = s.setReg v' r := by
  fin_cases r <;> rfl

theorem setReg_comm (s : ads1220_settings_t) (v v' : UInt8) {r r' : Fin 4} (hne : r ≠ r') :
    (s.setReg v' r').setReg v r = (s.setReg v r).setReg v' r' := by
  fin_cases r <;> fin_cases r' <;> first | rfl | exact absurd rfl hne

/-- The registers, as fields of the settings. -/
def registers : Fields (Fin 4) (BitVec 8) ads1220_settings_t where
  Fits _ _ := True
  get r s := (s.reg r).toBitVec
  put r v s := s.setReg (.ofBitVec v) r
  get_put {r v} s _ := by rw [reg_setReg, if_pos rfl]
  get_put_of_ne s _ hne := by rw [reg_setReg, if_neg hne]
  put_get r s := setReg_reg s r
  put_put v' s _ := setReg_setReg s _ _ _
  put_comm s _ _ hne := setReg_comm s _ _ hne

/-- **The bit fields**, cut out of the registers by their masks. -/
def fields : Fields Field (BitVec 8) ads1220_settings_t :=
  registers.masked Field.register (fun f => f.mask.toBitVec) (fun _ _ => trivial) <| by
    intro f g
    cases f <;> cases g <;> decide

theorem low_byte_inside {x : BitVec 32} {m : UInt8} (hx : x &&& ~~~m.toBitVec.setWidth 32 = 0) :
    (low_byte x).toBitVec &&& ~~~m.toBitVec = 0 := by
  ext i hi
  have h0 : (x &&& ~~~m.toBitVec.setWidth 32).getLsbD i = false := by simp [hx]
  have h32 : i < 32 := by omega
  simpa [low_byte, hi, h32, BitVec.getLsbD_eq_getElem] using h0

/-- An argument `x` inside the mask of its field, as a write of its low byte. -/
def argument (f : Field) (x : BitVec 32) : Option fields.Write :=
  if hx : x &&& ~~~f.mask.toBitVec.setWidth 32 = 0 then some ⟨f, (low_byte x).toBitVec, low_byte_inside hx⟩
  else none

/-- The field an operation sets, with the value, if it is a setter whose argument is inside
the mask of the field. -/
def Operation.sets : Operation → Option fields.Write
  | pga_on => argument .PGA_BYPASS 0
  | pga_off => argument .PGA_BYPASS 1
  | set_conv_mode_continuous => argument .CONV_MODE 4
  | set_conv_mode_single_shot => argument .CONV_MODE 0
  | set_data_rate datarate => argument .DR datarate
  | select_mux_channels channels_conf => argument .MUX channels_conf
  | set_pga_gain pgagain => argument .PGA_GAIN pgagain
  | temp_sense_on => argument .TS 0x02
  | temp_sense_off => argument .TS 0
  | _ => none

/-- The driver's calls, where every transmission is answered with a status in `ok`. -/
def DrvOp.stepIf (bus : SpiBus D) (ok : Ecode_t → Bool) : (o : DrvOp) → o.Resp → Driver D → Option (Driver D)
  | .SPIDRV_MTransmitB tx, ec, d => if ok ec = true then DrvOp.step bus (.SPIDRV_MTransmitB tx) ec d else none
  | o, r, d => o.step bus r d

/-- **`p` returns `a`, and what it transmits on the way is answered in `ok`.** -/
abbrev Sends (ok : Ecode_t → Bool) (bus : SpiBus D) (p : DrvM α) (d : Driver D) (a : α) (d' : Driver D) : Prop :=
  Ends (DrvOp.stepIf bus ok) p d a d'

/-- A transmission that succeeds. -/
def succeeds (ec : Ecode_t) : Bool := ec == ECODE_OK

/-- A transmission that fails. -/
def fails (ec : Ecode_t) : Bool := ec != ECODE_OK

variable {ok : Ecode_t → Bool}

theorem Reliable.sends_iff (hr : Reliable bus) {p : DrvM α} :
    Sends succeeds bus p d a d' ↔ Returns bus p d a d' := by
  suffices DrvOp.stepIf bus succeeds = DrvOp.step bus by unfold Sends; rw [this]
  funext o r d
  cases o with
  | SPIDRV_MTransmitB tx =>
    simp only [DrvOp.stepIf]
    split
    · rfl
    · rename_i hec
      cases ht : bus.transmit tx r d.dev with
      | none => rw [DrvOp.step, ht]; rfl
      | some dev => exact absurd (beq_iff_eq.2 (hr.transmit _ _ _ _ ht)) hec
  | _ => rfl

theorem sends_rd_settingsR {k : ads1220_settings_t → DrvM α} :
    Sends ok bus (drv .rd_settingsR >>= k) d a d' ↔ Sends ok bus (k d.ads.settingsR) d a d' :=
  Ends.read_iff (o := DrvOp.rd_settingsR) fun _ => rfl

theorem sends_update {f : ads1220_settings_t → ads1220_settings_t} {p : DrvM α} :
    Sends ok bus (do update_settingsR f; p) d a d' ↔
      Sends ok bus p { d with ads := { d.ads with settingsR := f d.ads.settingsR } } a d' := by
  simp only [update_settingsR, bind_assoc]
  exact sends_rd_settingsR.trans (Ends.write_iff fun _ => rfl)

/-- Sending register `r` of the shadow. -/
theorem sends_write (r : Fin 4) : Sends ok bus (do
      let settingsR ← drv .rd_settingsR
      writeRegister (reg_address r) (settingsR.reg r)) d u d' ↔
    ∃ ec dev, ok ec = true ∧
      bus.transmit [WREG ||| (reg_address r <<< 2), d.ads.settingsR.reg r] ec d.dev = some dev ∧
      d' = { d with dev } := by
  refine sends_rd_settingsR.trans ?_
  constructor
  · intro he
    obtain ⟨ec, d₁, hs, he⟩ := Ends.call_iff.1 he
    obtain ⟨hec, hs⟩ := Option.ite_none_right_eq_some.1 hs
    obtain ⟨dev, ht, rfl⟩ := Option.map_eq_some_iff.1 hs
    obtain ⟨-, rfl⟩ := Ends.ret_iff.1 he
    exact ⟨ec, dev, hec, ht, rfl⟩
  · rintro ⟨ec, dev, hec, ht, rfl⟩
    have hs : DrvOp.stepIf bus ok (.SPIDRV_MTransmitB [WREG ||| (reg_address r <<< 2), d.ads.settingsR.reg r]) ec d =
        some { d with dev } := by
      simp only [DrvOp.stepIf, if_pos hec, DrvOp.step, ht]
      rfl
    exact Ends.call hs .ret

/-- What a write does to the settings, in the words of the driver. -/
theorem apply_eq {x : fields.Write} {f : Field} {v : UInt8} (hf : x.field = f) (hv : x.value = v.toBitVec)
    (s : ads1220_settings_t) :
    x.apply s = s.setReg ((s.reg f.register &&& ~~~f.mask) ||| v) f.register := by
  subst hf
  obtain ⟨f, v', hx⟩ := x
  obtain rfl : v' = v.toBitVec := hv
  rfl

/-- Only its register is written. -/
theorem apply_setReg (x : fields.Write) (s : ads1220_settings_t) :
    s.setReg ((x.apply s).reg x.field.register) x.field.register = x.apply s := by
  rw [apply_eq rfl (v := .ofBitVec x.value) rfl, reg_setReg, if_pos rfl]

theorem argument_eq {f : Field} {v : BitVec 32} {x : fields.Write} (hx : argument f v = some x) :
    x.field = f ∧ x.value = (low_byte v).toBitVec := by
  unfold argument at hx
  obtain ⟨h, hx⟩ := Option.dite_none_right_eq_some.1 hx
  obtain rfl := Option.some.inj hx
  exact ⟨rfl, rfl⟩

theorem clear_bits (v m : UInt8) : (v &&& ~~~m) ||| 0 = v &&& ~~~m := UInt8.or_zero

theorem set_bits (v m : UInt8) : (v &&& ~~~m) ||| m = v ||| m := by
  rw [← UInt8.toBitVec_inj]
  ext i hi
  simp
  grind

/-- The driver once write `x` is in its shadow. -/
def Driver.shadowed (d : Driver D) (x : fields.Write) : Driver D :=
  { d with ads := { d.ads with settingsR := x.apply d.ads.settingsR } }

/-- **A setter puts its field into the shadow and sends the register.** -/
theorem sends_setter {op : Operation} {x : fields.Write} (hop : op.sets = some x) :
    Sends ok bus op.body d u d' ↔ ∃ ec dev, ok ec = true ∧
      bus.transmit [WREG ||| (reg_address x.field.register <<< 2),
        (x.apply d.ads.settingsR).reg x.field.register] ec d.dev = some dev ∧
      d' = { d.shadowed x with dev } := by
  suffices Sends ok bus op.body d u d' ↔ Sends ok bus (do
      let settingsR ← drv .rd_settingsR
      writeRegister (reg_address x.field.register) (settingsR.reg x.field.register)) (d.shadowed x) u d' from
    this.trans (sends_write _)
  cases op with
  | set_data_rate | select_mux_channels | set_pga_gain | temp_sense_on | temp_sense_off =>
    obtain ⟨hf, hv⟩ := argument_eq hop
    rw [hf, Driver.shadowed, apply_eq hf hv]
    exact sends_update.trans sends_update
  | pga_on | set_conv_mode_single_shot =>
    -- an AND that clears the field
    obtain ⟨hf, hv⟩ := argument_eq hop
    rw [hf, Driver.shadowed, apply_eq hf hv, show low_byte 0 = 0 from rfl, clear_bits]
    exact sends_update
  | pga_off =>
    -- an OR that sets it
    obtain ⟨hf, hv⟩ := argument_eq hop
    have hv : x.value = (_BV 0).toBitVec := hv
    rw [hf, Driver.shadowed, apply_eq hf hv]
    simp only [Field.mask, set_bits]
    exact sends_update
  | set_conv_mode_continuous =>
    obtain ⟨hf, hv⟩ := argument_eq hop
    have hv : x.value = (_BV 2).toBitVec := hv
    rw [hf, Driver.shadowed, apply_eq hf hv]
    simp only [Field.mask, set_bits]
    exact sends_update
  | ads1220_reset | start_conv | get_config_reg | set_config_reg | read_data_samples => cases hop

section Implements

variable (hi : Implements bus regs)

include hi

/-- The device after a setter that succeeds. -/
theorem setter_registers {op : Operation} {x : fields.Write} (hop : op.sets = some x)
    (he : Sends succeeds bus op.body d u d') : d'.ads = (d.shadowed x).ads ∧
    regs d'.dev = (regs d.dev).setReg ((x.apply d.ads.settingsR).reg x.field.register) x.field.register := by
  obtain ⟨ec, dev, hec, ht, rfl⟩ := (sends_setter hop).1 he
  obtain rfl := beq_iff_eq.1 hec
  exact ⟨rfl, (hi.transmit _ _ _ ht).trans (exchange_write _ _ _)⟩

/-- From coherence, a setter does the same to the shadow and to the registers. -/
theorem setter_coherent {op : Operation} {x : fields.Write} (hop : op.sets = some x) (hc : Coherent regs d)
    (he : Sends succeeds bus op.body d u d') : Coherent regs d' ∧ regs d'.dev = x.apply (regs d.dev) := by
  obtain ⟨h1, h2⟩ := setter_registers hi hop he
  unfold Coherent at hc
  rw [hc, apply_setReg] at h2
  refine ⟨?_, h2⟩
  unfold Coherent
  rw [h1, h2, Driver.shadowed, hc]

end Implements

/-- The bits of a register that belong to a field. -/
def covered : Fin 4 → UInt8 :=
  ![REG_CONFIG0_MUX_MASK ||| REG_CONFIG0_PGA_GAIN_MASK ||| _BV 0, REG_CONFIG1_DR_MASK ||| _BV 2 ||| REG_CONFIG1_TS_MASK,
    0, 0]

/-- After the writes `ws`, every field has the value of the last of them, or that of `begin`,
and every other bit is that of `begin`. -/
structure Isolated (ws : List fields.Write) (s : ads1220_settings_t) : Prop where
  field : ∀ f, fields.get f s = (Fields.lastValue f ws).getD (fields.get f initial_settings)
  rest : ∀ r : Fin 4, s.reg r &&& ~~~covered r = initial_settings.reg r &&& ~~~covered r

theorem run_isolated (ws : List fields.Write) : Isolated ws (Fields.run ws initial_settings) where
  field f := Fields.get_run
  rest r := by
    have hm : ∀ f : Field, f.register = r → f.mask.toBitVec &&& (~~~covered r).toBitVec = 0 := by
      rintro f rfl
      cases f <;> decide
    have hrest := Fields.masked_run_rest hm ws initial_settings
    exact UInt8.toBitVec_inj.1 hrest

/-- The writes of a sequence of setters. -/
theorem Uses.run (hi : Implements bus regs) (hr : Reliable bus) {us : List (Operation × Driver D)}
    (hc : Coherent regs d) (hu : Uses bus d us d') {ws : List fields.Write}
    (hws : us.map (·.1.sets) = ws.map some) :
    Coherent regs d' ∧ regs d'.dev = Fields.run ws (regs d.dev) := by
  induction hu generalizing ws with
  | nil =>
    obtain rfl := List.map_eq_nil_iff.1 hws.symm
    exact ⟨hc, rfl⟩
  | @snoc us d₁ d₂ op _ he ih =>
    rw [List.map_append] at hws
    obtain ⟨ws, xs, rfl, h1, h2⟩ := List.map_eq_append_iff.1 hws.symm
    obtain ⟨x, rfl, hx⟩ := List.map_eq_singleton_iff.1 h2
    obtain ⟨hc₁, heq⟩ := ih h1.symm
    obtain ⟨hc₂, hreg⟩ := setter_coherent hi hx.symm hc₁ (hr.sends_iff.2 he)
    refine ⟨hc₂, ?_⟩
    rw [hreg, heq, Fields.run_concat]

/-- From `d`, programs `p` and `q` leave the same registers and the same shadow. -/
def Alike (bus : SpiBus D) (regs : D → ads1220_settings_t) (p q : DrvM Unit) (d : Driver D) : Prop :=
  ∀ d₁ d₂, Returns bus p d () d₁ → Returns bus q d () d₂ →
    regs d₁.dev = regs d₂.dev ∧ d₁.ads.settingsR = d₂.ads.settingsR

section Two

variable (hi : Implements bus regs) (hr : Reliable bus) {op op' : Operation} {x y : fields.Write}
  (hx : op.sets = some x) (hy : op'.sets = some y) (hc : Coherent regs d)

include hi hr hx hy hc

theorem two_setters (he : Returns bus (do op.body; op'.body) d () d') :
    Coherent regs d' ∧ regs d'.dev = y.apply (x.apply (regs d.dev)) := by
  obtain ⟨⟨⟩, d₁, h1, h2⟩ := Ends.bind_iff.1 he
  obtain ⟨hc₁, heq⟩ := setter_coherent hi hx hc (hr.sends_iff.2 h1)
  obtain ⟨hc₂, heq'⟩ := setter_coherent hi hy hc₁ (hr.sends_iff.2 h2)
  refine ⟨hc₂, ?_⟩
  rw [heq', heq]

/-- Setters of different fields commute. -/
theorem setters_commute (hne : x.field ≠ y.field) :
    Alike bus regs (do op.body; op'.body) (do op'.body; op.body) d := by
  intro d₁ d₂ h1 h2
  obtain ⟨hc₁, heq₁⟩ := two_setters hi hr hx hy hc h1
  obtain ⟨hc₂, heq₂⟩ := two_setters hi hr hy hx hc h2
  have heq : regs d₁.dev = regs d₂.dev := by
    rw [heq₁, heq₂, Fields.Write.apply_comm hne]
  exact ⟨heq, hc₁.trans (heq.trans hc₂.symm)⟩

/-- Of two setters of a field the second counts. -/
theorem setters_overwrite (heq : x.field = y.field) : Alike bus regs (do op.body; op'.body) op'.body d := by
  intro d₁ d₂ h1 h2
  obtain ⟨hc₁, heq₁⟩ := two_setters hi hr hx hy hc h1
  obtain ⟨hc₂, heq₂⟩ := setter_coherent hi hy hc (hr.sends_iff.2 h2)
  have heq : regs d₁.dev = regs d₂.dev := by
    rw [heq₁, heq₂, Fields.Write.apply_apply heq]
  exact ⟨heq, hc₁.trans (heq.trans hc₂.symm)⟩

end Two

/-- **Fields are isolated.** After `begin` and any setters with arguments inside their
masks, each field has the value of its last setter, and every other bit is that of `begin`;
setters of different fields commute, and of two setters of a field the second counts. -/
theorem fields_isolated (hi : Implements bus regs) (hr : Reliable bus) {d₀ : Driver D} {r : Int}
    (hb : Returns bus begin d₀ r d) {us : List (Operation × Driver D)} (hu : Uses bus d us d')
    {ws : List fields.Write} (hws : us.map (·.1.sets) = ws.map some) :
    d'.ads.settingsR = regs d'.dev ∧ Isolated ws (regs d'.dev) ∧
    ∀ (op op' : Operation) (x y : fields.Write), op.sets = some x → op'.sets = some y →
      (x.field ≠ y.field → Alike bus regs (do op.body; op'.body) (do op'.body; op.body) d') ∧
      (x.field = y.field → Alike bus regs (do op.body; op'.body) op'.body d') := by
  obtain ⟨-, hdev, hads⟩ := begin_registers hi hr hb
  have hc : Coherent regs d := by
    unfold Coherent
    rw [hdev, hads]
  obtain ⟨hc', heq⟩ := hu.run hi hr hc hws
  refine ⟨hc', ?_, ?_⟩
  · rw [heq, hdev]
    exact run_isolated ws
  · intro op op' x y hx hy
    exact ⟨setters_commute hi hr hx hy hc', setters_overwrite hi hr hx hy hc'⟩

/-- The gain is set, then the bypass, then the gain again. -/
theorem fields_isolated_chip : ∃ d d₁ d₂ d', Uses chipBus d
      [(.set_pga_gain 0x04, d), (.pga_off, d₁), (.set_pga_gain 0x06, d₂)] d' ∧
    fields.get .PGA_GAIN d'.dev = 0x06 ∧ fields.get .PGA_BYPASS d'.dev = 0x01 ∧
    fields.get .MUX d'.dev = fields.get .MUX initial_settings := by
  obtain ⟨r, d, hb⟩ := drv_ends chipBus begin fresh_driver
  obtain ⟨⟨⟩, d₁, h1⟩ := drv_ends chipBus (Operation.set_pga_gain 0x04).body d
  obtain ⟨⟨⟩, d₂, h2⟩ := drv_ends chipBus Operation.pga_off.body d₁
  obtain ⟨⟨⟩, d', h3⟩ := drv_ends chipBus (Operation.set_pga_gain 0x06).body d₂
  have hu : Uses chipBus d [(.set_pga_gain 0x04, d), (.pga_off, d₁), (.set_pga_gain 0x06, d₂)] d' :=
    .snoc _ (.snoc _ (.snoc _ .nil h1) h2) h3
  let ws : List fields.Write :=
    [⟨.PGA_GAIN, 0x04, rfl⟩, ⟨.PGA_BYPASS, 0x01, rfl⟩, ⟨.PGA_GAIN, 0x06, rfl⟩]
  have hws : [(.set_pga_gain 0x04, d), (.pga_off, d₁), (.set_pga_gain 0x06, d₂)].map (Operation.sets ∘ Prod.fst) =
      ws.map some := rfl
  have hiso := (fields_isolated chipBus_implements chipBus_reliable hb hu hws).2.1
  exact ⟨d, d₁, d₂, d', hu, hiso.field .PGA_GAIN, hiso.field .PGA_BYPASS, hiso.field .MUX⟩

end M20Strain
