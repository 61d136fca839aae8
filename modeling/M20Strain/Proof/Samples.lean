import M20Strain.Proof.Driver
import M20Strain.Proof.Keeping

/-!
# What `read_data_samples` returns

A bus can keep a record of the bytes it has answered (`SpiBus.recorded`), a record
like any other (`SpiBus.keeping`). The value of three bytes is their big-endian
two's complement number (`sample_value_toInt`), and each call of
`read_data_samples` adds one frame to the record and returns its value if no
transfer failed (`returns_frame`).
-/

namespace M20Strain

open Interrupt Prog

variable {D : Type}

/-- The bus, recording what every receive is answered. -/
def SpiBus.recorded (bus : SpiBus D) : SpiBus (D × List Transfer) where
  transmit tx ec d := (bus.transmit tx ec d.1).map fun dev => (dev, d.2)
  transfer tx ec rx d := (bus.transfer tx ec rx d.1).map fun dev => (dev, d.2)
  receive ec b d := (bus.receive ec b d.1).map fun dev => (dev, d.2 ++ [(ec, b)])
  transmit_answers tx d := by
    obtain ⟨ec, dev, h⟩ := bus.transmit_answers tx d.1
    exact ⟨ec, _, exists_map _ h⟩
  transfer_answers tx d := by
    obtain ⟨ec, rx, dev, h⟩ := bus.transfer_answers tx d.1
    exact ⟨ec, rx, _, exists_map _ h⟩
  receive_answers d := by
    obtain ⟨ec, b, dev, h⟩ := bus.receive_answers d.1
    exact ⟨ec, b, _, exists_map _ h⟩

theorem receives_recorded {bus : SpiBus D} {ts : List Transfer} {dev dev' : D × List Transfer} :
    bus.recorded.Receives ts dev dev' ↔ bus.Receives ts dev.1 dev'.1 ∧ dev'.2 = dev.2 ++ ts := by
  induction ts generalizing dev with
  | nil => simp only [SpiBus.Receives, List.append_nil, Prod.ext_iff]
  | cons t ts ih =>
    simp only [SpiBus.Receives, SpiBus.recorded, Option.map_eq_some_iff]
    constructor
    · rintro ⟨_, ⟨dev₁, hr, rfl⟩, hts⟩
      obtain ⟨h1, h2⟩ := ih.1 hts
      exact ⟨⟨dev₁, hr, h1⟩, by rw [h2, List.append_assoc]; rfl⟩
    · rintro ⟨⟨dev₁, hr, h1⟩, h2⟩
      refine ⟨_, ⟨dev₁, hr, rfl⟩, ih.2 ⟨h1, ?_⟩⟩
      rw [h2, List.append_assoc]
      rfl

/-- The record of the calls: what the receives were answered. -/
def received (ts : List Transfer) : (o : Op) → o.Resp → List Transfer
  | .drv .SPIDRV_MReceiveB, r => ts ++ [r]
  | _, _ => ts

/-- The bus with a record of its receives is a bus that keeps a record. -/
def receives : Recorder (List Transfer) := ⟨fun ts _ _ => ts, fun ts _ _ _ => ts, fun ts ec b => ts ++ [(ec, b)]⟩

theorem received_eq : received = receives.calls := by
  funext ts o r
  rcases o with o | o | o
  · cases o <;> rfl
  · rfl
  · rfl

/-- The number three bytes stand for: big-endian, 24 bits, two's complement. -/
def frame_value (b₀ b₁ b₂ : UInt8) : Int :=
  let n : Int := b₀.toNat * 2 ^ 16 + b₁.toNat * 2 ^ 8 + b₂.toNat
  if n < 2 ^ 23 then n else n - 2 ^ 24

theorem frame_value_range (b₀ b₁ b₂ : UInt8) : -2 ^ 23 ≤ frame_value b₀ b₁ b₂ ∧ frame_value b₀ b₁ b₂ < 2 ^ 23 := by
  have h0 := b₀.toNat_lt
  have h1 := b₁.toNat_lt
  have h2 := b₂.toNat_lt
  unfold frame_value
  dsimp only
  split <;> omega

/-- Shifting left and back fills in the sign. -/
theorem sample_value_eq (b₀ b₁ b₂ : UInt8) :
    sample_value b₀ b₁ b₂ = (b₀.toBitVec ++ b₁.toBitVec ++ b₂.toBitVec).signExtend 32 := by
  unfold sample_value
  ext i hi
  simp only [BitVec.getElem_sshiftRight, BitVec.getElem_signExtend, BitVec.getElem_append,
    BitVec.getElem_shiftLeft, BitVec.getElem_or, BitVec.getElem_setWidth, BitVec.msb_eq_getLsbD_last]
  grind

/-- **A sample is the signed value of its three bytes.** -/
theorem sample_value_toInt (b₀ b₁ b₂ : UInt8) : (sample_value b₀ b₁ b₂).toInt = frame_value b₀ b₁ b₂ := by
  have hcat : (b₀.toBitVec ++ b₁.toBitVec ++ b₂.toBitVec).toNat =
      b₀.toNat * 2 ^ 16 + b₁.toNat * 2 ^ 8 + b₂.toNat := by
    have h1 := b₁.toNat_lt
    have h2 := b₂.toNat_lt
    simp only [BitVec.toNat_append, UInt8.toNat_toBitVec]
    rw [← Nat.shiftLeft_add_eq_or_of_lt h1, ← Nat.shiftLeft_add_eq_or_of_lt h2]
    simp only [Nat.shiftLeft_eq]
    omega
  rw [sample_value_eq, BitVec.toInt_signExtend_of_le (by decide), BitVec.toInt_eq_toNat_cond, hcat]
  unfold frame_value
  dsimp only
  split <;> split <;> omega

/-- The answers of three transfers that succeed. -/
def clean (b₀ b₁ b₂ : UInt8) : List Transfer := [(ECODE_OK, b₀), (ECODE_OK, b₁), (ECODE_OK, b₂)]

/-- `data` is the value of the bytes in `frame`, if they were received without error. -/
def Decodes (frame : List Transfer) (data : BitVec 32) : Prop :=
  ∀ b₀ b₁ b₂, frame = clean b₀ b₁ b₂ → data.toInt = frame_value b₀ b₁ b₂

/-- **A call of `read_data_samples` receives one frame**, and returns its value. -/
theorem returns_frame {bus : SpiBus D} {d d' : Driver (D × List Transfer)} {v : BitVec 32}
    (he : Returns bus.recorded read_data_samples d v d') :
    ∃ frame, frame.length = 3 ∧ d'.dev.2 = d.dev.2 ++ frame ∧ Decodes frame v := by
  obtain ⟨t, dev, hr, rfl, rfl⟩ := returns_read_data_samples.1 he
  refine ⟨[t 0, t 1, t 2], rfl, (receives_recorded.1 hr).2, ?_⟩
  intro b₀ b₁ b₂ ht
  simp only [clean, List.cons.injEq, and_true] at ht
  obtain ⟨h0, h1, h2⟩ := ht
  -- a transfer that succeeds keeps nothing of the buffer
  simp only [h0, h1, h2, Transfer.kept, if_true]
  exact sample_value_toInt b₀ b₁ b₂

end M20Strain
