import M20Strain.Model.Gatt
import M20Strain.Proof.Bench
import M20Strain.Proof.Emits
import Mathlib.Data.Fintype.Basic
import Mathlib.Tactic.FinCases

/-!
# What clients read

The four values in the GATT database, as the writes that the stack accepts leave them.
`run_values`: between two tasks each holds its part of one packet, all of them parts of the
last one unless a write of that was refused, and until the next samples come that packet is
the one of the samples in memory.
-/

namespace M20Strain

open Interrupt Prog

variable {D : Type} {bus : SpiBus D} {l l' : Local D} {h h' : Shared} {tr evs : List (Event D)}

/-- The values, the packet last sent since the restart, whether a write of it was refused, and
the packet that each of the four values comes from. -/
structure Served where
  values : Values
  packet : Option (List UInt8)
  refused : Bool
  source : Fin 4 → Option (List UInt8)

def Served.restart : Served := ⟨initial_values, none, false, fun _ => none⟩

def Served.write (g : Served) (attr offset : ℕ) (value : List UInt8) (sc : sl_status_t) : Served :=
  if sc = SL_STATUS_OK then
    { g with
      values := g.values.write attr offset value
      source := fun k => if characteristic k = attr then g.packet else g.source k }
  else { g with refused := g.refused || attr != gattdb_system_id }

def gatt (g : Served) : Event D → Served
  | .call (.main (.enter (.sl_bt_torque_send_data number))) _ _ _ =>
    { g with packet := some number, refused := false }
  | .call (.main (.ble (.sl_bt_gatt_server_write_attribute_value attr offset value))) sc _ _ =>
    g.write attr offset value sc
  | .call (.shr .EMU_EnterEM4) _ _ _ => .restart
  | _ => g

theorem blind_gatt : Blind (gatt (D := D)) where
  quiet o ho g r l h := by
    unfold gatt
    split <;> first | rfl | (rename_i heq; cases heq; cases ho)
  irq _ _ _ := rfl
  main g o r l h h' ho := by
    rcases o with o | o | o <;> cases ho
    cases o <;> first | rfl | (rename_i f; cases f <;> rfl)

/-- Each value is its part of a packet, or what the database starts with. -/
structure Served.Parts (g : Served) : Prop where
  value : ∀ k, g.values (characteristic k) = (g.source k).elim [0, 0, 0, 0] (chunk · k)
  length : ∀ k p, g.source k = some p → p.length = 16

theorem Served.Parts.restart : Served.restart.Parts where
  value k := by fin_cases k <;> rfl
  length k p hp := by cases hp

theorem Served.Parts.value_length {g : Served} (hg : g.Parts) (k : Fin 4) :
    (g.values (characteristic k)).length = 4 := by
  rw [hg.value]
  cases hs : g.source k with
  | none => rfl
  | some p =>
    have hp := hg.length k p hs
    exact chunk_length (by omega)

/-- While packet `p` is sent: the first `n` values are from it, unless a write was refused. -/
structure Served.Sending (p : List UInt8) (n : ℕ) (g : Served) : Prop where
  parts : g.Parts
  packet : g.packet = some p
  length : p.length = 16
  source : g.refused = false → ∀ k : Fin 4, k.val < n → g.source k = some p

/-- One write. -/
theorem Served.Sending.write {p : List UInt8} {g : Served} {k : Fin 4} (hg : g.Sending p k.val)
    (sc : sl_status_t) : (g.write (characteristic k) 0 (chunk p k) sc).Sending p (k.val + 1) := by
  unfold Served.write
  split
  · have hp := hg.length
    -- the new value covers the old one
    have hdrop : (g.values (characteristic k)).drop (0 + (chunk p k).length) = [] := by
      rw [chunk_length (by omega), List.drop_eq_nil_iff, hg.parts.value_length]
    refine ⟨⟨?_, ?_⟩, hg.packet, hp, ?_⟩
    · intro j
      by_cases hj : j = k
      · subst hj
        simp only [Values.write, Function.update_self, hdrop, if_true, hg.packet, List.take_zero, List.nil_append,
          List.append_nil, Option.elim_some]
      · have hne : characteristic j ≠ characteristic k := fun heq => hj (characteristic_injective heq)
        simp only [Values.write, Function.update_of_ne hne, if_neg hne, hg.parts.value]
    · intro j q hq
      by_cases hj : characteristic j = characteristic k
      · simp only [hj, if_true, hg.packet, Option.some.injEq] at hq
        rw [← hq]
        exact hp
      · simp only [hj, if_false] at hq
        exact hg.parts.length j q hq
    · intro hr j hj
      by_cases hjk : characteristic j = characteristic k
      · simp only [hjk, if_true, hg.packet]
      · have hne : j ≠ k := fun heq => hjk (by rw [heq])
        have hlt : j.val < k.val := by omega
        simp only [hjk, if_false]
        exact hg.source hr j hlt
  · refine ⟨⟨hg.parts.value, hg.parts.length⟩, hg.packet, hg.length, ?_⟩
    have hsystem : (characteristic k != gattdb_system_id) = true := by
      fin_cases k <;> rfl
    intro hr
    rw [hsystem, Bool.or_true] at hr
    cases hr

/-- **Sending a packet**, whatever the statuses. -/
theorem sending_packet {p : List UInt8} {s : Fin 8 → sl_status_t} {g : Served} (hg : g.Parts) (hp : p.length = 16) :
    ((entries (published p s l) h).foldl gatt g).Sending p 4 := by
  have h0 : ({ g with packet := some p, refused := false } : Served).Sending p 0 :=
    ⟨⟨hg.value, hg.length⟩, rfl, hp, fun _ k hk => absurd hk (Nat.not_lt_zero _)⟩
  exact Served.Sending.write (k := 3) (Served.Sending.write (k := 2) (Served.Sending.write (k := 1)
    (Served.Sending.write (k := 0) h0 (s 0)) (s 2)) (s 4)) (s 6)

/-- What holds between two tasks. -/
structure Shown (g : Served) (l : Local D) : Prop where
  parts : g.Parts
  whole : g.refused = false → ∀ k, g.source k = g.packet
  memory : l.current_state = states.SENDING_DATA ∨ l.current_state = states.TO_SLEEP → g.packet = some (samples l)

theorem Shown.sent {g : Served} (hg : g.Sending (samples l) 4)
    (hs : samples l' = samples l) : Shown g l' where
  parts := hg.parts
  whole hr k := by rw [hg.source hr k k.isLt, hg.packet]
  memory _ := by rw [hg.packet, hs]

theorem Shown.restart {nConnections : RamAddr} {em4PinWakeup em4Reset : Bool} {ads : ads1220_t} {dev : D} :
    Shown .restart (new_app_fsm nConnections em4PinWakeup em4Reset ads dev).1 where
  parts := .restart
  whole _ _ := rfl
  memory hm := by rcases hm with hm | hm <;> cases hm

/-- **One `fsm_fire`.** -/
theorem Emits.shown {g : Served} (hg : Shown g l) (he : Emits l h evs l') : Shown (evs.foldl gatt g) l' := by
  have elsewhere {l : Local D} {s : states} (hs : l.current_state = s) (h1 : s ≠ .SENDING_DATA) (h2 : s ≠ .TO_SLEEP)
      {p : Prop} (hm : l.current_state = states.SENDING_DATA ∨ l.current_state = states.TO_SLEEP) : p := by
    rcases hm with hm | hm
    · exact absurd hm (not_at hs h1)
    · exact absurd hm (not_at hs h2)
  cases he with
  | stay s hs ht => exact hg
  | power_up hs | pin_wake hs | timer_wake hs =>
    exact ⟨hg.parts, hg.whole, elsewhere (s := .WAKING_UP) rfl (by decide) (by decide)⟩
  | ask hs hn => exact ⟨hg.parts, hg.whole, elsewhere (s := .ASKING_FOR_DATA) rfl (by decide) (by decide)⟩
  | ask_all hs hn => exact ⟨hg.parts, hg.whole, elsewhere (s := .ASKING_FOR_DATA) rfl (by decide) (by decide)⟩
  | retrieve hs hn hw =>
    obtain ⟨s, rfl⟩ := stored hw
    exact ⟨hg.parts, hg.whole, elsewhere (s := .RETRIEVING_DATA) rfl (by decide) (by decide)⟩
  | @send_ok d s hs hn hk =>
    have hsent := sending_packet (h := h) (l := sending l d) (s := s) hg.parts (samples_length (l := l))
    simp only [entries, List.map_append, List.foldl_append] at hsent ⊢
    exact .sent (l := l) hsent rfl
  | @send_failed d s hs hn hk =>
    have hsent := sending_packet (h := h) (l := sending l d) (s := s) hg.parts (samples_length (l := l))
    simp only [entries, List.map_append, List.foldl_append] at hsent ⊢
    exact .sent (l := l) hsent rfl
  | ask_again hs hd => exact ⟨hg.parts, hg.whole, elsewhere (s := .WAKING_UP) rfl (by decide) (by decide)⟩
  | try_to_sleep hs hd => exact ⟨hg.parts, hg.whole, fun _ => hg.memory (.inl hs)⟩
  | reset_timer_sleep hs hes hr =>
    simp only [List.foldl_append, List.foldl_cons]
    exact .restart
  | reset_no_timer hs hr => exact .restart

/-- A write of the event handler is to another attribute. -/
theorem Shown.advertises {g : Served} {b : BleCall} {sc : sl_status_t} {l₁ : Local D} (hb : b.advertises = true)
    (hg : Shown g l) : Shown (gatt g (.call (.main (.ble b)) sc l₁ h)) l := by
  cases b with
  | sl_bt_gatt_server_write_attribute_value attr offset value =>
    obtain rfl : attr = gattdb_system_id := beq_iff_eq.1 hb
    have hne (k : Fin 4) : characteristic k ≠ gattdb_system_id := by decide +revert
    simp only [gatt, Served.write]
    split
    · refine ⟨⟨?_, ?_⟩, ?_, hg.memory⟩
      · intro k
        simp only [Values.write, Function.update_of_ne (hne k), if_neg (hne k), hg.parts.value]
      · simp only [if_neg (hne _)]
        exact hg.parts.length
      · simp only [if_neg (hne _)]
        exact hg.whole
    · refine ⟨⟨hg.parts.value, hg.parts.length⟩, ?_, hg.memory⟩
      intro hr
      exact hg.whole (Bool.or_eq_false_iff.1 hr).1
  | _ => exact hg

theorem run_shown (hb : Boot l h) (hr : Runs bus l h tr l' h') : Shown (tr.foldl gatt .restart) l' := by
  refine run_blind blind_gatt hb ?_ ?_ ?_ ?_ hr
  · obtain ⟨nConnections, em4PinWakeup, em4Reset, ads, dev, heq⟩ := hb
    obtain ⟨rfl, rfl⟩ := Prod.mk.inj heq
    exact .restart
  · exact fun g l h evs l' _ hg he => he.shown hg
  · exact fun g l b sc l₁ h hb hg => hg.advertises hb
  · exact fun g l set n cs hg => ⟨hg.parts, hg.whole, hg.memory⟩

/-- **What clients read between two tasks**, in every run. -/
theorem run_values (hb : Boot l h) (hr : Runs bus l h tr l' h') :
    (∀ k, (tr.foldl gatt .restart).values (characteristic k) =
      ((tr.foldl gatt .restart).source k).elim [0, 0, 0, 0] (chunk · k)) ∧
    ((tr.foldl gatt .restart).refused = false →
      ∀ k, (tr.foldl gatt .restart).source k = (tr.foldl gatt .restart).packet) ∧
    (l'.current_state = states.SENDING_DATA ∨ l'.current_state = states.TO_SLEEP →
      (tr.foldl gatt .restart).packet = some (samples l')) :=
  have hg := run_shown hb hr
  ⟨hg.parts.value, hg.whole, hg.memory⟩

/-- After a measurement clients read the samples. -/
theorem run_values_packet : ∃ tr l h, Runs anyBus (booted false false).1 (booted false false).2 tr l h ∧
    ∀ k, (tr.foldl gatt .restart).values (characteristic k) = chunk (samples l) k := by
  obtain ⟨tr, l, h, hr, hs, hw⟩ := bench_run quietBench (fires 1 ++ measurement)
    (P := fun tr l _ => l.current_state = states.SENDING_DATA ∧ (tr.foldl gatt .restart).refused = false)
    (by decide +kernel)
  obtain ⟨h1, h2, h3⟩ := run_values booted_boot hr
  refine ⟨tr, l, h, hr, ?_⟩
  intro k
  rw [h1, h2 hw, h3 (.inl hs)]
  rfl

end M20Strain
