import M20Strain.Proof.Fields

/-!
# A setter whose transmission fails

A setter has changed the shadow before it transmits, and no status comes back to it. So a
failed change stays in the shadow, and the next setter of the same register writes it
(`failed_setter_iff`).
-/

namespace M20Strain

open Interrupt Prog Binary

variable {D : Type} {bus : SpiBus D} {regs : D → ads1220_settings_t} {d d₁ d₂ d' : Driver D} {u : Unit}

/-- The operations `ops` one after the other, each with its transmission answered by success. -/
inductive Succeeds (bus : SpiBus D) (d : Driver D) : List Operation → Driver D → Prop where
  | nil : Succeeds bus d [] d
  | snoc {ops d₁ d₂} (op : Operation) : Succeeds bus d ops d₁ → Sends succeeds bus op.body d₁ () d₂ →
      Succeeds bus d (ops ++ [op]) d₂

/-- `ops` are setters of other fields than `f`, and make the writes `ws`. -/
def Sets (f : Field) (ops : List Operation) (ws : List fields.Write) : Prop :=
  ops.map Operation.sets = ws.map some ∧ ∀ y ∈ ws, y.field ≠ f

/-- After setters of other fields than `f`, the registers are the same from `d` and from `d'`. -/
def Unwritten (bus : SpiBus D) (regs : D → ads1220_settings_t) (f : Field) (d d' : Driver D) : Prop :=
  ∀ ops ws d₁ d₂, Sets f ops ws → Succeeds bus d ops d₁ → Succeeds bus d' ops d₂ → regs d₁.dev = regs d₂.dev

/-- A setter that fails has changed the shadow all the same. -/
theorem failed_shadow {op : Operation} {x : fields.Write} (hop : op.sets = some x)
    (he : Sends fails bus op.body d u d') : d'.ads.settingsR = x.apply d.ads.settingsR := by
  obtain ⟨ec, dev, -, -, rfl⟩ := (sends_setter hop).1 he
  rfl

/-- **What setters leave**: the shadow has the writes, and each register written is that of
the shadow. -/
theorem Succeeds.written (hi : Implements bus regs) {ops : List Operation} {ws : List fields.Write}
    (hws : ops.map Operation.sets = ws.map some) (hs : Succeeds bus d ops d') :
    d'.ads.settingsR = Fields.run ws d.ads.settingsR ∧ ∀ r : Fin 4, (regs d'.dev).reg r =
      if ∃ y ∈ ws, y.field.register = r then d'.ads.settingsR.reg r else (regs d.dev).reg r := by
  induction hs generalizing ws with
  | nil =>
    obtain rfl := List.map_eq_nil_iff.1 hws.symm
    refine ⟨rfl, fun r => ?_⟩
    simp
  | @snoc ops d₁ d₂ op _ he ih =>
    rw [List.map_append] at hws
    obtain ⟨ws, xs, rfl, h1, h2⟩ := List.map_eq_append_iff.1 hws.symm
    obtain ⟨x, rfl, hx⟩ := List.map_eq_singleton_iff.1 h2
    obtain ⟨hshadow, hreg⟩ := ih h1.symm
    obtain ⟨hads, hdev⟩ := setter_registers hi hx.symm he
    have hshadow₂ : d₂.ads.settingsR = x.apply d₁.ads.settingsR := by rw [hads]; rfl
    refine ⟨?_, fun r => ?_⟩
    · rw [hshadow₂, hshadow, Fields.run_concat]
    rw [hdev, reg_setReg, hshadow₂]
    by_cases hr : r = x.field.register
    · rw [if_pos hr, if_pos ⟨x, by simp, hr.symm⟩, hr]
    · -- a register of another field: as before in device and shadow
      have hsame : (x.apply d₁.ads.settingsR).reg r = d₁.ads.settingsR.reg r := by
        rw [← apply_setReg, reg_setReg, if_neg hr]
      rw [if_neg hr, hsame, hreg]
      have hex : (∃ y ∈ ws ++ [x], y.field.register = r) ↔ ∃ y ∈ ws, y.field.register = r := by
        simp [Ne.symm hr]
      rw [if_congr hex rfl rfl]

theorem settings_ext {s s' : ads1220_settings_t} (hs : ∀ r : Fin 4, s.reg r = s'.reg r) : s = s' := by
  have h0 := hs 0
  have h1 := hs 1
  have h2 := hs 2
  have h3 := hs 3
  cases s
  cases s'
  simp_all [ads1220_settings_t.reg]

theorem lastValue_none {f : Field} {ws : List fields.Write} (hws : ∀ y ∈ ws, y.field ≠ f) :
    Fields.lastValue f ws = none := by
  unfold Fields.lastValue
  rw [List.filter_eq_nil_iff.2 (by simpa using hws)]
  rfl

/-- A field is read from its register. -/
theorem get_of_reg {f : Field} {s s' : ads1220_settings_t} (hs : s.reg f.register = s'.reg f.register) :
    fields.get f s = fields.get f s' :=
  congrArg (fun v : UInt8 => v.toBitVec &&& f.mask.toBitVec) hs

/-- **A failed change stays in the shadow**, so a failed setter leaves no trace exactly when the
field of the shadow has the value already. Otherwise the next setter of the register writes it. -/
theorem failed_setter_iff (hi : Implements bus regs) {op : Operation} {x : fields.Write} (hop : op.sets = some x)
    (hf : Sends fails bus op.body d () d') (hk : regs d'.dev = regs d.dev) :
    d'.ads.settingsR = x.apply d.ads.settingsR ∧
    (d'.ads.settingsR = d.ads.settingsR ∧ Unwritten bus regs x.field d d' ↔
      fields.get x.field d.ads.settingsR = x.value) ∧
    ∀ ops ws d₁, Sets x.field ops ws → Succeeds bus d' ops d₁ → fields.get x.field (regs d₁.dev) =
      if ∃ y ∈ ws, y.field.register = x.field.register then x.value else fields.get x.field (regs d.dev) := by
  have hshadow := failed_shadow hop hf
  refine ⟨hshadow, ⟨?_, ?_⟩, ?_⟩
  · rintro ⟨hs, -⟩
    rw [hshadow] at hs
    exact Fields.Write.apply_eq_self_iff.1 hs
  · intro hv
    have hs : d'.ads.settingsR = d.ads.settingsR := hshadow.trans (Fields.Write.apply_eq_self_iff.2 hv)
    refine ⟨hs, ?_⟩
    intro ops ws d₁ d₂ hset h1 h2
    obtain ⟨hs₁, hr₁⟩ := h1.written hi hset.1
    obtain ⟨hs₂, hr₂⟩ := h2.written hi hset.1
    refine settings_ext fun r => ?_
    rw [hr₁, hr₂, hs₁, hs₂, hs, hk]
  · intro ops ws d₁ hset hs
    obtain ⟨hs₁, hr₁⟩ := hs.written hi hset.1
    -- nothing after the failed write has touched its field of the shadow
    have hget : fields.get x.field d₁.ads.settingsR = x.value := by
      rw [hs₁, hshadow, Fields.get_run, lastValue_none hset.2]
      exact fields.get_put _ x.fits
    have hreg := hr₁ x.field.register
    split at hreg
    · rename_i hw
      rw [if_pos hw, get_of_reg hreg, hget]
    · rename_i hw
      rw [if_neg hw, ← hk, get_of_reg hreg]

/-- The chip on a bus where a transmission can fail; then the device keeps its registers. -/
def flakyBus : SpiBus ads1220_settings_t :=
  { chipBus with
    transmit tx ec s := some (if ec = ECODE_OK then (exchange s .command tx).1 else s)
    transmit_answers _ _ := ⟨ECODE_OK, _, rfl⟩ }

theorem flakyBus_implements : Implements flakyBus id where
  transmit _ _ _ hs := (Option.some.inj hs).symm
  transfer := chipBus_implements.transfer
  receive := chipBus_implements.receive

/-- What a setter leaves there, when its transmission has status `ec`. -/
def flaky (x : fields.Write) (ec : Ecode_t) (d : Driver ads1220_settings_t) : Driver ads1220_settings_t :=
  let r := x.field.register
  { d.shadowed x with
    dev := if ec = ECODE_OK then d.dev.setReg ((x.apply d.ads.settingsR).reg r) r else d.dev }

theorem flaky_sends {ok : Ecode_t → Bool} {ec : Ecode_t} (hec : ok ec = true) {op : Operation} {x : fields.Write}
    (hop : op.sets = some x) (d : Driver ads1220_settings_t) :
    Sends ok flakyBus op.body d () (flaky x ec d) := by
  refine (sends_setter hop).2 ⟨ec, _, hec, ?_, rfl⟩
  rw [← exchange_write]
  rfl

/-- `pga_off` fails: the shadow has the change, the device gets it with the gain, and not with the data rate. -/
theorem failed_setter_iff_pga_off : ∃ d' d₁ d₂, Sends fails flakyBus pga_off begun () d' ∧
    Succeeds flakyBus d' [.set_pga_gain 0x0C] d₁ ∧ Succeeds flakyBus d' [.set_data_rate 0x20] d₂ ∧
    ¬ (d'.ads.settingsR = begun.ads.settingsR ∧ Unwritten flakyBus id .PGA_BYPASS begun d') ∧
    fields.get .PGA_BYPASS d₁.dev = 1 ∧ fields.get .PGA_BYPASS d₂.dev = 0 := by
  have hop : Operation.pga_off.sets = some ⟨.PGA_BYPASS, 1, rfl⟩ := rfl
  have hgain : (Operation.set_pga_gain 0x0C).sets = some ⟨.PGA_GAIN, 0x0C, rfl⟩ := rfl
  have hrate : (Operation.set_data_rate 0x20).sets = some ⟨.DR, 0x20, rfl⟩ := rfl
  have hfails : fails 1 = true := rfl
  have hsucceeds : succeeds ECODE_OK = true := rfl
  have hf := flaky_sends hfails hop begun
  have h1 := flaky_sends hsucceeds hgain (flaky ⟨.PGA_BYPASS, 1, rfl⟩ 1 begun)
  have h2 := flaky_sends hsucceeds hrate (flaky ⟨.PGA_BYPASS, 1, rfl⟩ 1 begun)
  obtain ⟨-, hiff, hlater⟩ := failed_setter_iff flakyBus_implements hop hf rfl
  have h1 := Succeeds.snoc (.set_pga_gain 0x0C) .nil h1
  have h2 := Succeeds.snoc (.set_data_rate 0x20) .nil h2
  refine ⟨_, _, _, hf, h1, h2, fun hsame => absurd (hiff.1 hsame) (by decide), ?_, ?_⟩
  · exact (hlater _ [⟨.PGA_GAIN, 0x0C, rfl⟩] _ ⟨rfl, by decide⟩ h1).trans (if_pos (by decide))
  · exact (hlater _ [⟨.DR, 0x20, rfl⟩] _ ⟨rfl, by decide⟩ h2).trans (if_neg (by decide))

/-- **A failed change is written later.** `pga_off` fails, and `set_pga_gain`, with the gain
that is set already, switches the amplifier off. -/
theorem failed_change_written : ∃ d' d₁, Implements flakyBus id ∧
    Sends fails flakyBus pga_off begun () d' ∧ d'.dev = begun.dev ∧
    d'.ads.settingsR ≠ begun.ads.settingsR ∧ Succeeds flakyBus d' [.set_pga_gain 0x0E] d₁ ∧
    fields.get .PGA_BYPASS begun.dev = 0 ∧ fields.get .PGA_BYPASS d₁.dev = 1 := by
  have hop : Operation.pga_off.sets = some ⟨.PGA_BYPASS, 1, rfl⟩ := rfl
  have hop' : (Operation.set_pga_gain 0x0E).sets = some ⟨.PGA_GAIN, 0x0E, rfl⟩ := rfl
  have hfails : fails 1 = true := rfl
  have hsucceeds : succeeds ECODE_OK = true := rfl
  have hf := flaky_sends hfails hop begun
  have hs := flaky_sends hsucceeds hop' (flaky ⟨.PGA_BYPASS, 1, rfl⟩ 1 begun)
  exact ⟨_, _, flakyBus_implements, hf, rfl, by decide, .snoc _ .nil hs, by decide, by decide⟩

end M20Strain
