import M20Strain.Proof.Converter
import M20Strain.Proof.Tasks

/-!
# What the firmware asks of its chips

From the calls that the tasks are written with (`Task.proper`), for every run from any
state: what the ADS1220 is sent (`run_commands`), and what the BLE stack is told (`run_fits`).
-/

namespace M20Strain

open Interrupt Prog

variable {D : Type} {bus : SpiBus D} {regs : D → ads1220_settings_t} {l l' : Local D} {h h' : Shared}
  {tr : List (Event D)}

/-- What any task calls. -/
theorem Task.proper_event (t : Task) : AllCalls (Op.Proper true true) t.body :=
  t.proper.imp fun _ => Op.Proper.mono (fun _ => rfl) fun _ => rfl

/-- The bytes of a transfer that sends. -/
def sentTo : (o : Op) → o.Resp → Option (List UInt8)
  | .drv (.SPIDRV_MTransmitB tx), _ | .drv (.SPIDRV_MTransferB tx), _ => some tx
  | _, _ => none

/-- What is sent is a frame. -/
theorem sent_frame {o : Op} {r : o.Resp} {tx : List UInt8} (ho : o.Proper true true) (htx : sentTo o r = some tx) :
    tx ∈ Set.range Command.frame := by
  cases o with
  | main o | shr o => cases htx
  | drv o =>
    rcases ho with ho | ho
    · cases o <;> cases htx <;> exact ho
    · cases ho

theorem run_snoc (cs : List Command) (c : Command) (s : ads1220_settings_t) :
    Command.run (cs ++ [c]) s = c.act (Command.run cs s) := by
  rw [Command.run, List.foldl_append]
  rfl

/-- A driver call that sends nothing leaves the registers alone, and one that sends is a
command for them. -/
theorem drv_registers (hi : Implements bus regs) (hr : Reliable bus) {o : DrvOp} {r : o.Resp} {d d' : Driver D}
    (hs : o.step bus r d = some d') :
    regs d'.dev = match sentTo (.drv o) r with
      | none => regs d.dev
      | some tx => (exchange (regs d.dev) .command tx).1 := by
  cases o with
  | SPIDRV_MTransmitB tx =>
    obtain ⟨dev, ht, rfl⟩ := Option.map_eq_some_iff.1 hs
    obtain rfl := hr.transmit _ _ _ _ ht
    exact hi.transmit _ _ _ ht
  | SPIDRV_MTransferB tx =>
    obtain ⟨dev, ht, rfl⟩ := Option.map_eq_some_iff.1 hs
    obtain ⟨ec, rx⟩ := r
    obtain rfl := hr.transfer _ _ _ _ _ ht
    exact (hi.transfer _ _ _ _ ht).1
  | SPIDRV_MReceiveB =>
    obtain ⟨dev, ht, rfl⟩ := Option.map_eq_some_iff.1 hs
    obtain ⟨ec, b⟩ := r
    obtain rfl := hr.receive _ _ _ _ ht
    exact hi.receive _ _ _ ht
  | rd_settings | rd_settingsR | rd_rx_buffer i =>
    obtain ⟨-, heq⟩ := Option.ite_none_right_eq_some.1 hs
    cases heq
    rfl
  | wr_settings | wr_settingsR | wr_rx_buffer | sl_udelay_wait =>
    cases hs
    rfl

/-- **One call keeps the registers what the commands sent so far make of them.** -/
theorem commands_step (hi : Implements bus regs) (hr : Reliable bus) {s : ads1220_settings_t} {o : Op} {r : o.Resp}
    {txs : List (List UInt8)} (ho : o.Proper true true) (hs : (firmware bus).step o r l h = some (l', h'))
    (hcs : ∃ cs, txs = cs.map Command.frame ∧ regs l.driver.dev = Command.run cs s) :
    ∃ cs, txs ++ (sentTo o r).toList = cs.map Command.frame ∧ regs l'.driver.dev = Command.run cs s := by
  obtain ⟨cs, rfl, hreg⟩ := hcs
  have hsame {dev : D} (hdev : regs dev = regs l.driver.dev) :
      ∃ cs', cs.map Command.frame ++ [] = cs'.map Command.frame ∧ regs dev = Command.run cs' s :=
    ⟨cs, List.append_nil _, hdev.trans hreg⟩
  cases o with
  | main o =>
    obtain ⟨l₁, hl, heq⟩ := Option.map_eq_some_iff.1 hs
    cases heq
    exact hsame (by rw [MainOp.driver_eq hl])
  | shr o => exact hsame (by rw [ShrOp.dev_eq hs])
  | drv o =>
    obtain ⟨d, hd, heq⟩ := Option.map_eq_some_iff.1 hs
    cases heq
    have hdev := drv_registers hi hr hd
    cases htx : sentTo (.drv o) r with
    | none =>
      rw [htx] at hdev
      exact hsame hdev
    | some tx =>
      rw [htx] at hdev
      have hdev : regs d.dev = (exchange (regs l.driver.dev) .command tx).1 := hdev
      obtain ⟨c, rfl⟩ := sent_frame ho htx
      refine ⟨cs ++ [c], ?_, ?_⟩
      · rw [List.map_append]
        rfl
      · rw [hdev, exchange_frame, run_snoc, hreg]

/-- The registers after a run are what the commands sent make of them. -/
theorem run_registers (hi : Implements bus regs) (hr : Reliable bus) (hrun : Runs bus l h tr l' h') :
    ∃ cs, tr.filterMap (ofCalls sentTo) = cs.map Command.frame ∧
      regs l'.driver.dev = Command.run cs (regs l.driver.dev) := by
  have hcs : ∃ cs, tr.foldl (collect (ofCalls sentTo)) [] = cs.map Command.frame ∧
      regs l'.driver.dev = Command.run cs (regs l.driver.dev) := by
    refine Run.preserves (I := fun txs l₁ _ => ∃ cs, txs = cs.map Command.frame ∧
      regs l₁.driver.dev = Command.run cs (regs l.driver.dev)) ?_ ?_ Task.proper_event hrun ⟨[], rfl, rfl⟩
    · intro g o r l₁ h₁ l₂ h₂ ho hs hI
      exact commands_step hi hr ho hs hI
    · intro g i l₁ h₁ h₂ _ hI
      rw [collect_irq]
      exact hI
  rwa [foldl_collect, List.nil_append] at hcs

/-- What is sent in a run is frames. -/
theorem run_frames (hrun : Runs bus l h tr l' h') :
    ∃ cs : List Command, cs.map Command.frame = tr.filterMap (ofCalls sentTo) := by
  refine Set.mem_range.1 (Set.range_list_map Command.frame ▸ fun tx htx => ?_)
  obtain ⟨e, he, hsent⟩ := List.mem_filterMap.1 htx
  cases e with
  | irq i h => cases hsent
  | call o r l h => exact sent_frame (hrun.all_calls Task.proper_event _ he) hsent

/-- **What the ADS1220 is sent** in any run is one command after the other, which a device reads as
such also if all transfers are one; and its registers are what these commands make of them, if it
implements them and no transfer fails. -/
theorem run_commands (hrun : Runs bus l h tr l' h') :
    ∃ cs, (∀ cs', tr.filterMap (ofCalls sentTo) = cs'.map Command.frame ↔ cs' = cs) ∧
      (∀ s, exchange s .command (tr.filterMap (ofCalls sentTo)).flatten =
        (Command.run cs s, Command.answers cs s)) ∧
      ∀ regs : D → ads1220_settings_t, Implements bus regs → Reliable bus →
        regs l'.driver.dev = Command.run cs (regs l.driver.dev) := by
  obtain ⟨cs, hcs⟩ := run_frames hrun
  have hone (cs') : tr.filterMap (ofCalls sentTo) = cs'.map Command.frame ↔ cs' = cs := by
    rw [← hcs]
    exact ⟨fun heq => (List.map_injective_iff.2 frame_injective heq).symm, fun heq => by rw [heq]⟩
  refine ⟨cs, hone, fun s => by rw [← hcs, exchange_frames], fun regs hi hr => ?_⟩
  obtain ⟨cs', heq, hreg⟩ := run_registers hi hr hrun
  obtain rfl := (hone cs').1 heq
  exact hreg

/-- A measurement. -/
theorem run_commands_chip : ∃ tr l h, Runs chipBus chipBooted.1 chipBooted.2 tr l h ∧
    l.current_state = states.SENDING_DATA ∧ ∃ cs,
      (∀ cs', tr.filterMap (ofCalls sentTo) = cs'.map Command.frame ↔ cs' = cs) ∧
      l.driver.dev = Command.run cs defaults := by
  obtain ⟨tr, l, h, hr, hs⟩ := chip_run (fires 1 ++ measurement)
    (P := fun _ l _ => l.current_state = states.SENDING_DATA) (by decide +kernel)
  obtain ⟨cs, hone, -, hregs⟩ := run_commands hr
  exact ⟨tr, l, h, hr, hs, cs, hone, hregs id chipBus_implements chipBus_reliable⟩

/-- A call of the BLE stack. -/
def isBle : Event D → Bool
  | .call (.main (.ble _)) _ _ _ => true
  | _ => false

theorem isBle_iff {e : Event D} : isBle e = true ↔ ∃ c sc l h, e = .call (.main (.ble c)) sc l h := by
  constructor
  · intro he
    unfold isBle at he
    split at he
    · exact ⟨_, _, _, _, rfl⟩
    · cases he
  · rintro ⟨c, sc, l, h, rfl⟩
    rfl

/-- **Every write and notification fits the GATT database.** -/
theorem run_fits (hrun : Runs bus l h tr l' h') {c : BleCall} {sc : sl_status_t} {l₁ : Local D} {h₁ : Shared}
    (hc : .call (.main (.ble c)) sc l₁ h₁ ∈ tr) : c.fits = true := by
  have hp := hrun.all_calls Task.proper_event _ hc
  rcases hp with hp | hp
  · exact hp
  · cases hp

/-- A packet. -/
theorem run_fits_packet : ∃ tr l h c sc l₁ h₁, Runs anyBus (booted false false).1 (booted false false).2 tr l h ∧
    Entry.call (.main (.ble c)) sc l₁ h₁ ∈ tr ∧ c.fits = true := by
  obtain ⟨tr, l, h, hr, hp⟩ := bench_run quietBench (fires 1 ++ measurement)
    (P := fun tr _ _ => tr.any isBle = true) (by decide +kernel)
  obtain ⟨e, he, hb⟩ := List.any_eq_true.1 hp
  obtain ⟨c, sc, l₁, h₁, rfl⟩ := isBle_iff.1 hb
  exact ⟨tr, l, h, c, sc, l₁, h₁, hr, he, run_fits hr he⟩

end M20Strain
