import M20Strain.Proof.Rules

/-!
# One Bluetooth event under interrupts

`Reacted` is everything `sl_bt_on_event` can do: one constructor for each kind of
event (`wp_reacted`). It changes the table of connections and the advertising
set only, and its BLE calls neither notify nor close a connection.
-/

namespace M20Strain

open Interrupt Prog

variable {D : Type}

/-- Calls of the event handler: neither a notification nor the close of a connection, and
the only attribute written is the system id. -/
def BleCall.advertises : BleCall → Bool
  | .sl_bt_gatt_server_write_attribute_value attr _ _ => attr == gattdb_system_id
  | .sl_bt_gatt_server_notify_all _ _ | .sl_bt_connection_close _ => false
  | _ => true

/-- The calls are BLE calls of the event handler. -/
def Advertises (es : List (Made Op.Resp (Local D))) : Prop :=
  ∀ e ∈ es, ∃ c sc l, c.advertises = true ∧ e = did (.ble c) sc l

variable (bus : SpiBus D) {G : Type} (μ : G → Event D → G)

/-- **What one event can do** from monitor `g` and state `(l, h)`. -/
inductive Reacted (g : G) (l : Local D) (h : Shared) : sl_bt_evt → G → Local D → Shared → Prop where
  | system_boot {es set g' h'} (hes : Advertises es) (hc : Calls (firmware bus) μ es g h g' h') :
      Reacted g l h .system_boot g' { l with advertising_set_handle := set } h'
  | connection_opened {c g' h'} (hn : l.nConnections < 10) (hi : Irqs (firmware bus) μ g h g' h') :
      Reacted g l h (.connection_opened c) g'
        { l with
          nConnections := l.nConnections + 1
          connections := Function.update l.connections ⟨l.nConnections, hn⟩ c } h'
  | connection_closed {c es g' h'} (hes : Advertises es) (hc : Calls (firmware bus) μ es g h g' h') :
      Reacted g l h (.connection_closed c) g' l h'
  | other {g' h'} (hi : Irqs (firmware bus) μ g h g' h') : Reacted g l h .other g' l h'

variable {bus μ} {g : G} {l : Local D} {h : Shared} {Q : Unit → G → Local D → Shared → Prop}
  {es : List (Made Op.Resp (Local D))}

theorem Advertises.nil : Advertises ([] : List (Made Op.Resp (Local D))) := fun _ he => absurd he List.not_mem_nil

theorem Advertises.snoc {c : BleCall} {sc : sl_status_t} (hes : Advertises es) (hc : c.advertises = true) :
    Advertises (es ++ [did (.ble c) sc l]) := by
  intro e he
  rcases List.mem_append.1 he with he | he
  · exact hes e he
  · exact ⟨c, sc, l, hc, List.mem_singleton.1 he⟩

/-- An assertion that fails stops the device. -/
theorem after_assert (hμ : Quiet μ) {sc : sl_status_t} {k : Unit → AppM Unit}
    (H : wpAfter (firmware bus) μ es g h (k ()) Q l) :
    wpAfter (firmware bus) μ es g h (own (.app_assert_status sc) >>= k) Q l := by
  refine (after_quiet hμ rfl).2 fun _ l₁ hs => ?_
  simp only [MainOp.step] at hs
  split at hs
  · cases hs; exact H
  · cases hs

/-- A BLE call of the event handler. -/
theorem after_advertise {c : BleCall} {k : sl_status_t → AppM Unit} (hes : Advertises es)
    (hc : c.advertises = true)
    (H : ∀ sc es', Advertises es' → wpAfter (firmware bus) μ es' g h (k sc) Q l) :
    wpAfter (firmware bus) μ es g h (own (.ble c) >>= k) Q l :=
  after_ble.2 fun sc => H sc _ (hes.snoc hc)

theorem wp_system_boot (hμ : Quiet μ) : wp (firmware bus) μ (sl_bt_on_event .system_boot)
    (fun _ => Reacted bus μ g l h .system_boot) g l h := by
  rw [wp_iff_wpAfter, ← bind_pure (sl_bt_on_event _)]
  simp only [sl_bt_on_event, bind_assoc]
  refine (after_quiet hμ rfl).2 fun r l₁ hs => ?_
  obtain rfl : l = l₁ := Option.some.inj hs
  refine after_assert hμ (after_advertise .nil rfl fun sc es₁ hes₁ => after_assert hμ ?_)
  refine (after_quiet hμ rfl).2 fun r l₁ hs => ?_
  obtain rfl : l = l₁ := Option.some.inj hs
  refine (acts_wr_set.wpAfter hμ).2 (after_assert hμ ((acts_rd_set.wpAfter hμ).2 ?_))
  refine after_advertise hes₁ rfl fun sc es₂ hes₂ => after_assert hμ ((acts_rd_set.wpAfter hμ).2 ?_)
  refine after_advertise hes₂ rfl fun sc es₃ hes₃ => after_assert hμ ((acts_rd_set.wpAfter hμ).2 ?_)
  refine after_advertise hes₃ rfl fun sc es₄ hes₄ => after_assert hμ (after_pure.2 fun g' h' hc => ?_)
  exact .system_boot hes₄ hc

theorem wp_reacted (hμ : Quiet μ) (evt : sl_bt_evt) :
    wp (firmware bus) μ (sl_bt_on_event evt) (fun _ => Reacted bus μ g l h evt) g l h := by
  rw [wp_iff_wpAfter, ← bind_pure (sl_bt_on_event evt)]
  cases evt with
  | system_boot => rw [bind_pure]; exact wp_iff_wpAfter.1 (wp_system_boot hμ)
  | connection_opened c =>
    simp only [sl_bt_on_event, bind_assoc]
    refine (acts_rd_nConnections.wpAfter hμ).2 ((acts_wr_nConnections.wpAfter hμ).2 ?_)
    refine (after_quiet hμ rfl).2 fun _ l₁ hs => after_pure.2 fun g' h' hi => ?_
    simp only [MainOp.step] at hs
    split at hs
    · cases hs; exact .connection_opened ‹_› hi
    · cases hs
  | connection_closed c =>
    simp only [sl_bt_on_event, bind_assoc]
    refine (acts_rd_set.wpAfter hμ).2 (after_advertise .nil rfl fun sc es hes => after_assert hμ ?_)
    refine (acts_rd_set.wpAfter hμ).2 (after_advertise hes rfl fun sc es hes => after_assert hμ ?_)
    exact after_pure.2 fun g' h' hc => .connection_closed hes hc
  | other => exact after_pure.2 fun g' h' hi => .other hi

end M20Strain
