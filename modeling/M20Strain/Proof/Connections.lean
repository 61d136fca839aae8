import M20Strain.Proof.Bench
import M20Strain.Proof.Emits
import Mathlib.Data.List.Induction

/-!
# The table of connections

`sl_bt_on_event` stores the handle of every connection that is opened behind the
last one, and removes none. `tracks_iff`: after a legal sequence of events, the
table holds the open handles exactly when no connection was closed. `serves_iff`:
only ten connections can be opened between two boots.
-/

namespace M20Strain

open Interrupt Prog

variable {D : Type} {bus : SpiBus D} {l₀ l l' : Local D} {h₀ h h' : Shared} {es : List sl_bt_evt}

/-- `SL_BT_CONFIG_MAX_CONNECTIONS`. -/
def SL_BT_CONFIG_MAX_CONNECTIONS : ℕ := 4

/-- A call of `EMU_EnterEM4`. -/
def isEM4 : Event D → Bool
  | .call (.shr .EMU_EnterEM4) _ _ _ => true
  | _ => false

/-- The events `es` have been delivered since the device booted in `(l₀, h₀)`, with
interrupts and calls of `app_process_action` in between, but no EM4. -/
inductive Serves (bus : SpiBus D) (l₀ : Local D) (h₀ : Shared) : List sl_bt_evt → Local D → Shared → Prop where
  | boot : Serves bus l₀ h₀ [] l₀ h₀
  | irq {es l h i h'} : Serves bus l₀ h₀ es l h → handle i h = some h' → Serves bus l₀ h₀ es l h'
  | action {es l h tr l' h'} : Serves bus l₀ h₀ es l h →
      Exec (firmware bus) app_process_action l h tr () l' h' → tr.any isEM4 = false → Serves bus l₀ h₀ es l' h'
  | event {es l h evt tr l' h'} : Serves bus l₀ h₀ es l h →
      Exec (firmware bus) (sl_bt_on_event evt) l h tr () l' h' → Serves bus l₀ h₀ (es ++ [evt]) l' h'

/-- The open handles after one more event. -/
def openAfter (opened : List UInt8) : sl_bt_evt → List UInt8
  | .connection_opened c => opened ++ [c]
  | .connection_closed c => opened.erase c
  | _ => opened

/-- The open handles after a sequence of events. -/
def openHandles (es : List sl_bt_evt) : List UInt8 := es.foldl openAfter []

/-- What the BLE stack may deliver while `opened` are open. -/
def Allowed (opened : List UInt8) : sl_bt_evt → Prop
  | .connection_opened c => c ∉ opened ∧ opened.length < SL_BT_CONFIG_MAX_CONNECTIONS
  | .connection_closed c => c ∈ opened
  | _ => True

/-- Every event of a sequence is allowed when it is delivered, with `opened` open before the first. -/
def Legal : List UInt8 → List sl_bt_evt → Prop
  | _, [] => True
  | opened, evt :: es => Allowed opened evt ∧ Legal (openAfter opened evt) es

instance {opened : List UInt8} : ∀ evt, Decidable (Allowed opened evt)
  | .connection_opened c =>
    inferInstanceAs (Decidable (c ∉ opened ∧ opened.length < SL_BT_CONFIG_MAX_CONNECTIONS))
  | .connection_closed c => inferInstanceAs (Decidable (c ∈ opened))
  | .system_boot | .other => .isTrue trivial

instance Legal.decidable : ∀ opened es, Decidable (Legal opened es)
  | _, [] => .isTrue trivial
  | opened, evt :: es => @instDecidableAnd _ _ _ (Legal.decidable (openAfter opened evt) es)

/-- The table is a list of the open handles, each once. -/
def Tracks (es : List sl_bt_evt) (l : Local D) : Prop :=
  (recorded l).Perm (openHandles es) ∧ (recorded l).Nodup ∧ l.nConnections ≤ SL_BT_CONFIG_MAX_CONNECTIONS

def sl_bt_evt.openedHandle : sl_bt_evt → Option UInt8
  | .connection_opened c => some c
  | _ => none

def sl_bt_evt.isClosed : sl_bt_evt → Bool
  | .connection_closed _ => true
  | _ => false

theorem recorded_snoc {c : UInt8} (hn : l.nConnections < 10) :
    (List.ofFn (Function.update l.connections ⟨l.nConnections, hn⟩ c)).take (l.nConnections + 1) = recorded l ++ [c] := by
  refine List.ext_getElem (by simp [recorded]; omega) fun i h1 h2 => ?_
  have hi : i < l.nConnections + 1 := by simp at h1; omega
  rw [List.getElem_take, List.getElem_ofFn]
  rcases Nat.lt_succ_iff_lt_or_eq.1 hi with hi | rfl
  · rw [List.getElem_append_left (by simp [recorded]; omega), Function.update_of_ne (by simp [Fin.ext_iff]; omega)]
    simp only [recorded, List.getElem_take, List.getElem_ofFn]
  · rw [List.getElem_append_right (by simp [recorded]), Function.update_self]
    simp

theorem blind_isEM4 : Blind (seen (isEM4 (D := D))) where
  quiet := by
    refine .seen fun o ho r l h => ?_
    unfold isEM4
    split
    · cases ‹Entry.call _ _ _ _ = _›
      cases ho
    · rfl
  irq g _ _ := Bool.or_false g
  main g o r l h h' ho := by rcases o with o | o | o <;> first | rfl | cases ho

/-- Without EM4, `app_process_action` leaves the table alone. -/
theorem Emits.table_eq {evs : List (Event D)} (he : Emits l h evs l') (hn : evs.any isEM4 = false) :
    l'.nConnections = l.nConnections ∧ l'.connections = l.connections := by
  cases he with
  | reset_timer_sleep | reset_no_timer => simp [isEM4] at hn
  | ask hs => obtain ⟨-, rfl⟩ | ⟨-, rfl⟩ := hs <;> exact ⟨rfl, rfl⟩
  | retrieve hs hn hw =>
    obtain ⟨s, rfl⟩ := stored hw
    exact ⟨rfl, rfl⟩
  | _ => exact ⟨rfl, rfl⟩

theorem Serves.recorded_eq (hb : Boot l₀ h₀) (hs : Serves bus l₀ h₀ es l h) :
    Inv l h ∧ l.nConnections ≤ 10 ∧ recorded l = es.filterMap sl_bt_evt.openedHandle := by
  induction hs with
  | boot =>
    refine ⟨hb.inv, ?_⟩
    exact hb.elim fun _ _ _ _ _ => ⟨Nat.zero_le _, rfl⟩
  | irq _ hi ih => exact ⟨ih.1.handle hi, ih.2⟩
  | action _ he hn ih =>
    obtain ⟨hI, hle, ht⟩ := ih
    -- no fire but one that enters EM4 touches the table
    have hf := wp_iff.1 (wp_fired (g := false) blind_isEM4.quiet hI) _ _ _ _ he
    obtain ⟨evs, hemits, heq⟩ := hf.emits blind_isEM4
    rw [foldl_seen, foldl_seen, hn] at heq
    obtain ⟨h1, h2⟩ := hemits.table_eq (by simpa using heq.symm)
    exact ⟨hf.inv hI, h1 ▸ hle, by rw [recorded, h1, h2]; exact ht⟩
  | @event es l h evt tr l' h' _ he ih =>
    obtain ⟨hI, hle, ht⟩ := ih
    have hr := wp_iff.1 (wp_reacted (g := ()) .blind evt) _ _ _ _ he
    refine ⟨hr.inv hI, ?_⟩
    rw [List.filterMap_append]
    cases hr with
    | connection_opened hn hi =>
      exact ⟨hn, by rw [recorded, recorded_snoc, ht]; rfl⟩
    | system_boot | connection_closed | other => exact ⟨hle, ht.trans (List.append_nil _).symm⟩

/-- **The store stays inside the array** for the first ten connections opened since boot,
whatever was closed in between, and leaves it at the next. -/
theorem Serves.store_iff (hb : Boot l₀ h₀) (hs : Serves bus l₀ h₀ es l h) (c : UInt8) :
    (∃ tr l' h', Exec (firmware bus) (sl_bt_on_event (.connection_opened c)) l h tr () l' h') ↔
      (es.filterMap sl_bt_evt.openedHandle).length < 10 := by
  obtain ⟨-, hle, ht⟩ := hs.recorded_eq hb
  have hlen : (recorded l).length = l.nConnections := by simp [recorded, hle]
  rw [← ht, hlen]
  constructor
  · rintro ⟨tr, l', h', he⟩
    cases wp_iff.1 (wp_reacted (g := ()) .blind (.connection_opened c)) _ _ _ _ he with
    | connection_opened hn _ => exact hn
  · intro hn
    have hread : (MainOp.rd_nConnections).step l.nConnections l = some l := if_pos rfl
    have hstore : (MainOp.wr_connections l.nConnections c).step () { l with nConnections := l.nConnections + 1 } =
        some { l with
          nConnections := l.nConnections + 1
          connections := Function.update l.connections ⟨l.nConnections, hn⟩ c } := dif_pos hn
    exact ⟨_, _, h, .call (congrArg (Option.map (·, h)) hread)
      (.call (r := ()) rfl (.call (congrArg (Option.map (·, h)) hstore) .ret))⟩

/-- Where the stack answers `SL_STATUS_OK`, no other event stops. -/
theorem event_ends (bus : SpiBus D) (l : Local D) (h : Shared) {evt : sl_bt_evt} (hevt : evt.openedHandle = none) :
    ∃ tr l' h', Exec (firmware bus) (sl_bt_on_event evt) l h tr () l' h' := by
  have hread (l : Local D) : (firmware bus).step (.main .rd_advertising_set_handle) l.advertising_set_handle l h =
      some (l, h) := congrArg (Option.map (·, h)) (if_pos rfl)
  have hble (c : BleCall) (l : Local D) : (firmware bus).step (.main (.ble c)) SL_STATUS_OK l h = some (l, h) := rfl
  have hassert (l : Local D) : (firmware bus).step (.main (.app_assert_status SL_STATUS_OK)) () l h = some (l, h) :=
    rfl
  suffices hm : may (firmware bus) blind (sl_bt_on_event evt) (fun _ _ _ _ => True) () l h by
    obtain ⟨tr, ⟨⟩, l', h', he, -⟩ := may_iff.1 hm
    exact ⟨tr, l', h', he⟩
  cases evt with
  | system_boot =>
    refine ⟨(SL_STATUS_OK, fun _ => 0), _, _, rfl, (), _, _, hassert _, ?_⟩
    refine ⟨_, _, _, hble _ _, (), _, _, hassert _, (SL_STATUS_OK, 0), _, _, rfl, (), _, _, rfl, ?_⟩
    refine ⟨(), _, _, hassert _, ?_⟩
    refine ⟨_, _, _, hread _, _, _, _, hble _ _, (), _, _, hassert _, ?_⟩
    refine ⟨_, _, _, hread _, _, _, _, hble _ _, (), _, _, hassert _, ?_⟩
    exact ⟨_, _, _, hread _, _, _, _, hble _ _, (), _, _, hassert _, trivial⟩
  | connection_opened c => cases hevt
  | connection_closed c =>
    refine ⟨_, _, _, hread _, _, _, _, hble _ _, (), _, _, hassert _, ?_⟩
    exact ⟨_, _, _, hread _, _, _, _, hble _ _, (), _, _, hassert _, trivial⟩
  | other => trivial

/-- **Which events the firmware survives** from one boot to the next: those in which at most ten
connections are opened, however many of them are closed. -/
theorem serves_iff (hb : Boot l₀ h₀) :
    (∃ l h, Serves bus l₀ h₀ es l h) ↔ (es.filterMap sl_bt_evt.openedHandle).length ≤ 10 := by
  constructor
  · rintro ⟨l, h, hs⟩
    obtain ⟨-, hle, ht⟩ := hs.recorded_eq hb
    rw [← ht]
    exact (List.length_take_le ..).trans hle
  · intro hn
    induction es using List.reverseRecOn with
    | nil => exact ⟨l₀, h₀, .boot⟩
    | append_singleton es evt ih =>
      rw [List.filterMap_append, List.length_append] at hn
      obtain ⟨l, h, hs⟩ := ih (by omega)
      cases hevt : evt.openedHandle with
      | none =>
        obtain ⟨tr, l', h', he⟩ := event_ends bus l h hevt
        exact ⟨l', h', .event hs he⟩
      | some c =>
        have hlast : [evt].filterMap sl_bt_evt.openedHandle = [c] := List.filterMap_cons_some hevt
        rw [hlast, List.length_singleton] at hn
        cases evt with
        | connection_opened c' =>
          obtain ⟨tr, l', h', he⟩ := (hs.store_iff hb c').2 (by omega)
          exact ⟨l', h', .event hs he⟩
        | system_boot | connection_closed | other => cases hevt

theorem legal_append {opened : List UInt8} {es' : List sl_bt_evt} :
    Legal opened (es ++ es') ↔ Legal opened es ∧ Legal (es.foldl openAfter opened) es' := by
  induction es generalizing opened with
  | nil => simp [Legal]
  | cons evt es ih => rw [List.cons_append, Legal, Legal, ih, List.foldl_cons, and_assoc]

/-- Every close removes one handle, and at most four are open, each once. -/
theorem Legal.count (hl : Legal [] es) : (openHandles es).length + es.countP sl_bt_evt.isClosed =
      (es.filterMap sl_bt_evt.openedHandle).length ∧ (openHandles es).length ≤ SL_BT_CONFIG_MAX_CONNECTIONS ∧
    (openHandles es).Nodup := by
  induction es using List.reverseRecOn with
  | nil => exact ⟨rfl, Nat.zero_le _, List.nodup_nil⟩
  | append_singleton es evt ih =>
    obtain ⟨hl, ha, -⟩ := legal_append.1 hl
    change Allowed (openHandles es) evt at ha
    obtain ⟨h1, h2, h3⟩ := ih hl
    have heq : openHandles (es ++ [evt]) = openAfter (openHandles es) evt := by simp [openHandles]
    rw [heq, List.countP_append, List.filterMap_append, List.length_append]
    cases evt with
    | connection_opened c =>
      have ho : [sl_bt_evt.connection_opened c].filterMap sl_bt_evt.openedHandle = [c] := rfl
      have hc : [sl_bt_evt.connection_opened c].countP sl_bt_evt.isClosed = 0 := rfl
      rw [openAfter, List.length_append, ho, hc, List.length_singleton]
      refine ⟨by omega, ha.2, List.nodup_append.2 ⟨h3, List.pairwise_singleton _ c, ?_⟩⟩
      rintro a ha' b hb rfl
      exact ha.1 (List.mem_singleton.1 hb ▸ ha')
    | connection_closed c =>
      have ho : [sl_bt_evt.connection_closed c].filterMap sl_bt_evt.openedHandle = [] := rfl
      have hc : [sl_bt_evt.connection_closed c].countP sl_bt_evt.isClosed = 1 := rfl
      have hpos := List.length_pos_of_mem ha
      rw [openAfter, List.length_erase_of_mem ha, ho, hc, List.length_nil]
      exact ⟨by omega, by omega, h3.erase c⟩
    | system_boot | other => exact ⟨h1, h2, h3⟩

/-- Without a close, what is open is what was opened. -/
theorem openHandles_eq (hn : ∀ c, .connection_closed c ∉ es) :
    openHandles es = es.filterMap sl_bt_evt.openedHandle := by
  induction es using List.reverseRecOn with
  | nil => rfl
  | append_singleton es evt ih =>
    have ih := ih fun c hc => hn c (List.mem_append_left _ hc)
    have heq : openHandles (es ++ [evt]) = openAfter (openHandles es) evt := by simp [openHandles]
    rw [heq, List.filterMap_append, ih]
    cases evt with
    | connection_closed c => exact absurd (List.mem_append_right _ List.mem_cons_self) (hn c)
    | connection_opened c => rfl
    | system_boot | other => simp [openAfter, sl_bt_evt.openedHandle]

/-- **What the table holds.** After a legal sequence of events since boot, the table
lists the open handles, each once and at most four, exactly when no connection was
closed. -/
theorem tracks_iff (hb : Boot l₀ h₀) (hs : Serves bus l₀ h₀ es l h) (hl : Legal [] es) :
    Tracks es l ↔ ∀ c, .connection_closed c ∉ es := by
  obtain ⟨-, hle, ht⟩ := hs.recorded_eq hb
  obtain ⟨hcount, hmax, hnodup⟩ := hl.count
  have hlen : (recorded l).length = l.nConnections := by simp [recorded, hle]
  constructor
  · rintro ⟨hp, -⟩ c hc
    have h1 := hp.length_eq
    rw [ht] at h1
    have h2 : 0 < es.countP sl_bt_evt.isClosed := List.countP_pos_iff.2 ⟨_, hc, rfl⟩
    omega
  · intro hn
    have heq : recorded l = openHandles es := ht.trans (openHandles_eq hn).symm
    exact ⟨heq ▸ .refl _, heq ▸ hnodup, by rw [← hlen, heq]; exact hmax⟩

/-- The events of a list, one after the other. -/
def deliver : List sl_bt_evt → Local Unit → Shared → Option (Local Unit × Shared)
  | [], l, h => some (l, h)
  | evt :: es, l, h =>
    (execute (firmware anyBus) quietBench (sl_bt_on_event evt) l h).bind fun r => deliver es r.2.2.1 r.2.2.2

theorem deliver_serves {l₀ l l' : Local Unit} {es' : List sl_bt_evt} (hs : Serves anyBus l₀ h₀ es l h)
    (hd : deliver es' l h = some (l', h')) : Serves anyBus l₀ h₀ (es ++ es') l' h' := by
  induction es' generalizing es l h with
  | nil => cases hd; simpa using hs
  | cons evt es' ih =>
    obtain ⟨⟨tr, ⟨⟩, l₁, h₁⟩, he, hd⟩ := Option.bind_eq_some_iff.1 hd
    simpa using ih (.event hs (execute_exec he)) hd

theorem bench_serves (es : List sl_bt_evt) {P : Local Unit → Prop} [∀ l, Decidable (P l)]
    (hd : (deliver es (booted false false).1 (booted false false).2).any (fun r => decide (P r.1)) = true) :
    ∃ l h, Serves anyBus (booted false false).1 (booted false false).2 es l h ∧ P l := by
  obtain ⟨⟨l, h⟩, hd, hP⟩ := (Option.any_eq_true _ _).1 hd
  exact ⟨l, h, deliver_serves .boot hd, of_decide_eq_true hP⟩

/-- Two clients connect. -/
theorem tracks_iff_opened : ∃ l h, Serves anyBus (booted false false).1 (booted false false).2
    [sl_bt_evt.connection_opened 1, .connection_opened 2] l h ∧ recorded l = [1, 2] ∧
    (Tracks [sl_bt_evt.connection_opened 1, .connection_opened 2] l ↔
      ∀ c, .connection_closed c ∉ [sl_bt_evt.connection_opened 1, .connection_opened 2]) := by
  obtain ⟨l, h, hs, ht⟩ := bench_serves [.connection_opened 1, .connection_opened 2]
    (P := fun l => recorded l = [1, 2]) (by decide +kernel)
  exact ⟨l, h, hs, ht, tracks_iff booted_boot hs (by decide)⟩

/-- A client connects and disconnects, and stays in the table. -/
theorem closed_stays : ∃ l h, Serves anyBus (booted false false).1 (booted false false).2
      [.connection_opened 1, .connection_closed 1] l h ∧
    Legal [] [.connection_opened 1, .connection_closed 1] ∧
      ¬ Tracks [.connection_opened 1, .connection_closed 1] l := by
  obtain ⟨l, h, hs, ht⟩ := bench_serves [.connection_opened 1, .connection_closed 1]
    (P := fun l => recorded l = [1]) (by decide +kernel)
  refine ⟨l, h, hs, by decide, fun hT => ?_⟩
  have hp := hT.1
  rw [ht] at hp
  exact absurd hp.length_eq (by decide)

/-- A client that connects and disconnects `n` times. -/
def reconnects (n : ℕ) : List sl_bt_evt :=
  (List.replicate n [sl_bt_evt.connection_opened 1, .connection_closed 1]).flatten

/-- One client, never connected twice at a time, can do it ten times. -/
theorem serves_iff_reconnects : Legal [] (reconnects 11) ∧
    (∃ l h, Serves anyBus (booted false false).1 (booted false false).2 (reconnects 10) l h) ∧
    ¬ ∃ l h, Serves anyBus (booted false false).1 (booted false false).2 (reconnects 11) l h := by
  refine ⟨by decide, (serves_iff booted_boot).2 (by decide), ?_⟩
  intro hs
  exact absurd ((serves_iff booted_boot).1 hs) (by decide)

end M20Strain
