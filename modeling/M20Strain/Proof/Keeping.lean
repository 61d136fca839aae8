import M20Strain.Interrupt.History
import M20Strain.Proof.Runs

/-!
# A bus that keeps a record

The state of the device can hold a record of the transfers made (`SpiBus.keeping`). Every
run of the firmware is a run with that record, and the record is what the calls of the run
add to it (`run_keeping`).
-/

namespace M20Strain

open Interrupt Prog

variable {D D' N : Type}

/-- What each transfer makes of the record. -/
structure Recorder (N : Type) where
  transmit : N → List UInt8 → Ecode_t → N
  transfer : N → (tx : List UInt8) → Ecode_t → (Fin tx.length → UInt8) → N
  receive : N → Ecode_t → UInt8 → N

/-- The record of the calls. -/
def Recorder.calls (R : Recorder N) (n : N) : (o : Op) → o.Resp → N
  | .drv (.SPIDRV_MTransmitB tx), ec => R.transmit n tx ec
  | .drv (.SPIDRV_MTransferB tx), r => R.transfer n tx r.1 r.2
  | .drv .SPIDRV_MReceiveB, r => R.receive n r.1 r.2
  | _, _ => n

theorem exists_map {α β : Type} {x : Option α} (f : α → β) {y : α} (hx : x = some y) : x.map f = some (f y) := by
  rw [hx]
  rfl

/-- The bus, with a record beside the device. -/
def SpiBus.keeping (bus : SpiBus D) (R : Recorder N) : SpiBus (D × N) where
  transmit tx ec d := (bus.transmit tx ec d.1).map fun dev => (dev, R.transmit d.2 tx ec)
  transfer tx ec rx d := (bus.transfer tx ec rx d.1).map fun dev => (dev, R.transfer d.2 tx ec rx)
  receive ec b d := (bus.receive ec b d.1).map fun dev => (dev, R.receive d.2 ec b)
  transmit_answers tx d := by
    obtain ⟨ec, dev, h⟩ := bus.transmit_answers tx d.1
    exact ⟨ec, _, exists_map _ h⟩
  transfer_answers tx d := by
    obtain ⟨ec, rx, dev, h⟩ := bus.transfer_answers tx d.1
    exact ⟨ec, rx, _, exists_map _ h⟩
  receive_answers d := by
    obtain ⟨ec, b, dev, h⟩ := bus.receive_answers d.1
    exact ⟨ec, b, _, exists_map _ h⟩

variable {bus : SpiBus D} {R : Recorder N}

theorem transmit_keeping {tx : List UInt8} {ec : Ecode_t} {d d' : D × N} :
    (bus.keeping R).transmit tx ec d = some d' ↔
      bus.transmit tx ec d.1 = some d'.1 ∧ d'.2 = R.transmit d.2 tx ec := by
  simp only [SpiBus.keeping, Option.map_eq_some_iff, Prod.ext_iff]
  grind

theorem transfer_keeping {tx : List UInt8} {ec : Ecode_t} {rx : Fin tx.length → UInt8} {d d' : D × N} :
    (bus.keeping R).transfer tx ec rx d = some d' ↔
      bus.transfer tx ec rx d.1 = some d'.1 ∧ d'.2 = R.transfer d.2 tx ec rx := by
  simp only [SpiBus.keeping, Option.map_eq_some_iff, Prod.ext_iff]
  grind

theorem receive_keeping {ec : Ecode_t} {b : UInt8} {d d' : D × N} :
    (bus.keeping R).receive ec b d = some d' ↔ bus.receive ec b d.1 = some d'.1 ∧ d'.2 = R.receive d.2 ec b := by
  simp only [SpiBus.keeping, Option.map_eq_some_iff, Prod.ext_iff]
  grind

def Driver.map (f : D' → D) (d : Driver D') : Driver D := { d with dev := f d.dev }

def Local.map (f : D' → D) (l : Local D') : Local D := { l with driver := l.driver.map f }

theorem step_keeping {o : DrvOp} {r : o.Resp} {d : Driver (D × N)} {d₁ : Driver D}
    (hs : o.step bus r (d.map Prod.fst) = some d₁) :
    ∃ d₂, o.step (bus.keeping R) r d = some d₂ ∧ d₂.map Prod.fst = d₁ := by
  cases o <;> simp only [DrvOp.step, SpiBus.keeping, Option.map_map] at hs ⊢
  case rd_settings | rd_settingsR | rd_rx_buffer =>
    split at hs
    · rename_i hr
      cases hs
      exact ⟨d, if_pos hr, rfl⟩
    · cases hs
  case wr_settings | wr_settingsR | wr_rx_buffer | sl_udelay_wait =>
    cases hs
    exact ⟨_, rfl, rfl⟩
  case SPIDRV_MTransmitB | SPIDRV_MTransferB | SPIDRV_MReceiveB =>
    obtain ⟨dev, h, rfl⟩ := Option.map_eq_some_iff.1 hs
    exact ⟨_, exists_map _ h, rfl⟩

theorem MainOp.step_map (f : D' → D) {o : MainOp} {r : o.Resp} {l : Local D'} :
    o.step r (l.map f) = (o.step r l).map (Local.map f) := by
  cases o <;> simp only [MainOp.step, apply_ite (Option.map (Local.map f)),
    apply_dite (Option.map (Local.map f))] <;> rfl

theorem ShrOp.step_map (f : D' → D) {o : ShrOp} {r : o.Resp} {l : Local D'} {h : Shared} :
    o.step r (l.map f) h = (o.step r l h).map fun s => (s.1.map f, s.2) := by
  cases o <;> simp only [ShrOp.step, apply_ite (Option.map fun s : Local D' × Shared => (s.1.map f, s.2))] <;>
    rfl

/-- **Every run can keep the record.** -/
theorem lifts_keeping : Lifts (firmware bus) (firmware (bus.keeping R)) (Local.map Prod.fst) where
  step o r l h l₁ h₁ hs := by
    cases o with
    | drv o =>
      obtain ⟨d, hd, heq⟩ := Option.map_eq_some_iff.1 hs
      obtain ⟨rfl, rfl⟩ := Prod.mk.inj heq
      obtain ⟨d₂, hd₂, rfl⟩ := step_keeping hd
      exact ⟨{ l with driver := d₂ }, exists_map _ hd₂, rfl⟩
    | main o =>
      obtain ⟨l₂, hl, heq⟩ := Option.map_eq_some_iff.1 hs
      obtain ⟨rfl, rfl⟩ := Prod.mk.inj heq
      rw [MainOp.step_map] at hl
      obtain ⟨l₃, hl₃, rfl⟩ := Option.map_eq_some_iff.1 hl
      exact ⟨l₃, exists_map _ hl₃, rfl⟩
    | shr o =>
      have hs : o.step r (l.map Prod.fst) h = some (l₁, h₁) := hs
      rw [ShrOp.step_map] at hs
      obtain ⟨⟨l₂, h₂⟩, hl, heq⟩ := Option.map_eq_some_iff.1 hs
      obtain ⟨rfl, rfl⟩ := Prod.mk.inj heq
      exact ⟨l₂, hl, rfl⟩
  handle _ _ := rfl

/-- The record in the state of the device. -/
def Local.record (l : Local (D × N)) : N := l.driver.dev.2

/-- **Each call adds itself to the record.** -/
theorem keeps_keeping : Keeps (firmware (bus.keeping R)) Local.record R.calls := by
  intro o r l h l₁ h₁ hs
  rcases o with o | o | o
  · obtain ⟨d, hd, heq⟩ := Option.map_eq_some_iff.1 hs
    obtain ⟨rfl, rfl⟩ := Prod.mk.inj heq
    cases o <;> simp only [DrvOp.step, SpiBus.keeping, Option.map_map] at hd
    case rd_settings | rd_settingsR | rd_rx_buffer => split at hd <;> cases hd; rfl
    case wr_settings | wr_settingsR | wr_rx_buffer | sl_udelay_wait => cases hd; rfl
    case SPIDRV_MTransmitB | SPIDRV_MTransferB | SPIDRV_MReceiveB =>
      obtain ⟨dev, -, rfl⟩ := Option.map_eq_some_iff.1 hd
      rfl
  · obtain ⟨l₂, hl, heq⟩ := Option.map_eq_some_iff.1 hs
    obtain ⟨rfl, rfl⟩ := Prod.mk.inj heq
    rw [Local.record, MainOp.driver_eq hl]
    rfl
  · rw [Local.record, ShrOp.dev_eq hs]
    rfl

/-- **Every run is one with a record**, which starts as `n`. -/
theorem run_keeping (R : Recorder N) (n : N) {l₀ l : Local D} {h₀ h : Shared} {tr : List (Event D)}
    (hb : Boot l₀ h₀) (hr : Runs bus l₀ h₀ tr l h) :
    ∃ l₁ tr₁ l₂, Boot l₁ h₀ ∧ Runs (bus.keeping R) l₁ h₀ tr₁ l₂ h ∧ l₂.map Prod.fst = l ∧
      tr₁.map (Entry.map (Local.map Prod.fst)) = tr ∧ l₂.record = tr.foldl (record R.calls) n ∧
      Checked (record R.calls) (Shows Local.record) n tr₁ := by
  obtain ⟨nConnections, em4PinWakeup, em4Reset, ads, dev, heq⟩ := hb
  obtain ⟨rfl, rfl⟩ := Prod.mk.inj heq
  let l₁ := (new_app_fsm nConnections em4PinWakeup em4Reset ads (dev, n)).1
  have hr : Runs bus (l₁.map Prod.fst) _ tr l h := hr
  obtain ⟨tr₁, l₂, hr₁, hl, rfl⟩ := Run.lift (lifts_keeping (R := R)) hr
  obtain ⟨hrec, hshows⟩ := Run.records keeps_keeping hr₁
  refine ⟨l₁, tr₁, l₂, ⟨_, _, _, _, _, rfl⟩, hr₁, hl, rfl, ?_, hshows⟩
  rw [hrec, foldl_record_map]
  rfl

end M20Strain
