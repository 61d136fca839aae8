import M20Strain.Proof.Whole

/-!
# The stream of samples

`path_streamed`: along every path of the station the packets hold the samples in their order,
four in each, none of them twice. Between two packets at most four samples wait, and only the
last packet can have failed. `run_notified`: what clients are notified of are the values of the
packets. `life_stream`: so it is for the device, across its restarts.
-/

namespace M20Strain

open Interrupt

variable {w w' : List Act} {s s' : Station} {blocks : List (List (BitVec 32))}

def Act.stored : Act → Option (BitVec 32)
  | .sample v => some v
  | _ => none

def Act.packed : Act → Option (List UInt8)
  | .publish number => some number
  | _ => none

def Act.outcome : Act → Option Bool
  | .published ok => some ok
  | _ => none

/-- The samples that are in no packet yet. -/
def Station.pending : Station → List (BitVec 32)
  | .converting vs | .sampled vs => vs
  | _ => []

/-- The outcome that stops it. -/
def Station.failed : Station → List Bool
  | .unsent => [false]
  | _ => []

/-- The samples of a path, in blocks of four; those of each block were sent in one packet. -/
structure Streamed (w : List Act) (s : Station) (blocks : List (List (BitVec 32))) : Prop where
  four : ∀ vs ∈ blocks, vs.length = 4
  few : s.pending.length ≤ 4
  samples : w.filterMap Act.stored = blocks.flatten ++ s.pending
  packets : w.filterMap Act.packed = blocks.map packet
  outcomes : ∃ n, w.filterMap Act.outcome = List.replicate n true ++ s.failed ∧ blocks.length = n + s.failed.length

/-- A move that takes no sample and sends no packet. -/
theorem Streamed.same (hw : Streamed w s blocks) (h1 : w'.filterMap Act.stored = [])
    (h2 : w'.filterMap Act.packed = []) (h3 : w'.filterMap Act.outcome = []) (hp : s'.pending = s.pending)
    (hf : s'.failed = s.failed) : Streamed (w ++ w') s' blocks := by
  refine ⟨hw.four, hp ▸ hw.few, ?_, ?_, ?_⟩
  · rw [List.filterMap_append, h1, List.append_nil, hw.samples, hp]
  · rw [List.filterMap_append, h2, List.append_nil, hw.packets]
  · rw [List.filterMap_append, h3, List.append_nil, hf]
    exact hw.outcomes

/-- A packet of the samples that wait. -/
theorem Streamed.packet {vs : List (BitVec 32)} {ok : Bool} (k : ℕ) (hw : Streamed w (.sampled vs) blocks)
    (hn : vs.length = 4) (hp : s'.pending = []) (hf : [ok] = List.replicate k true ++ s'.failed) :
    Streamed (w ++ [.publish (packet vs), .published ok]) s' (blocks ++ [vs]) := by
  refine ⟨?_, by rw [hp]; exact Nat.zero_le _, ?_, ?_, ?_⟩
  · intro vs' hmem
    rcases List.mem_append.1 hmem with hmem | hmem
    · exact hw.four vs' hmem
    · rw [List.mem_singleton.1 hmem]
      exact hn
  · have hlast : [.publish (M20Strain.packet vs), .published ok].filterMap Act.stored = [] := rfl
    have hwait : (Station.sampled vs).pending = vs := rfl
    rw [List.filterMap_append, hw.samples, hlast, hwait, hp, List.flatten_append, List.flatten_singleton]
  · rw [List.filterMap_append, hw.packets, List.map_append]
    rfl
  · obtain ⟨n, ho, hlen⟩ := hw.outcomes
    have hone := congrArg List.length hf
    simp only [List.length_append, List.length_replicate, List.length_singleton] at hone
    refine ⟨n + k, ?_, ?_⟩
    · have hlast : [.publish (M20Strain.packet vs), .published ok].filterMap Act.outcome = [ok] := rfl
      have hnone : (Station.sampled vs).failed = [] := rfl
      rw [List.filterMap_append, ho, hnone, hlast, hf, List.append_nil, List.replicate_add, List.append_assoc]
    · have hnone : (Station.sampled vs).failed.length = 0 := rfl
      rw [List.length_append, List.length_singleton, hlen]
      omega

/-- **One move of the station.** -/
theorem Station.Move.streamed (hm : Station.Move s w' s') (hw : Streamed w s blocks) :
    ∃ blocks', Streamed (w ++ w') s' blocks' := by
  cases hm with
  | wake | start | again | rest | sleep => exact ⟨blocks, hw.same rfl rfl rfl rfl rfl⟩
  | convert => exact ⟨blocks, hw.same rfl rfl rfl rfl rfl⟩
  | sample v hn =>
    refine ⟨blocks, hw.four, ?_, ?_, ?_, ?_⟩
    · change (_ ++ [_]).length ≤ 4
      rw [List.length_append, List.length_singleton]
      omega
    · rw [List.filterMap_append, hw.samples, List.append_assoc]
      rfl
    · rw [List.filterMap_append, hw.packets]
      exact List.append_nil _
    · obtain ⟨n, ho, hlen⟩ := hw.outcomes
      refine ⟨n, ?_, hlen⟩
      rw [List.filterMap_append, ho]
      exact List.append_nil _
  | send hn => exact ⟨_, hw.packet 1 hn rfl rfl⟩
  | fail hn => exact ⟨_, hw.packet 0 hn rfl rfl⟩

/-- **No sample is lost, and none is sent twice.** -/
theorem path_streamed (hp : Path Station.Move .asleep w s) : ∃ blocks, Streamed w s blocks := by
  induction hp with
  | nil => exact ⟨[], List.forall_mem_nil _, Nat.zero_le _, rfl, rfl, 0, rfl, rfl⟩
  | snoc _ hm ih =>
    obtain ⟨blocks, hw⟩ := ih
    exact hm.streamed hw

/-- A packet that is handed over, or a value that clients are notified of. -/
def Label.client : Label → Option (List UInt8 ⊕ ℕ × List UInt8)
  | .call (.main (.enter (.sl_bt_torque_send_data number))) _ => some (.inl number)
  | .call (.main (.ble (.sl_bt_gatt_server_notify_all c v))) _ => some (.inr (c, v))
  | _ => none

/-- The value that clients are notified of, and its characteristic. -/
def Label.notified : Label → Option (ℕ × List UInt8)
  | .call (.main (.ble (.sl_bt_gatt_server_notify_all c v))) _ => some (c, v)
  | _ => none

/-- The floats of four samples, most significant byte first, each on its characteristic. -/
def notifications (vs : List (BitVec 32)) : List (ℕ × List UInt8) :=
  (List.ofFn characteristic).zip (vs.map fun v => (float_bytes (convertToMicroVTemp v)).reverse)

/-- The values of a packet. -/
def chunks (p : List UInt8) : List (ℕ × List UInt8) :=
  List.ofFn fun k : Fin 4 => (characteristic k, chunk p k)

/-- A packet, and its values. -/
def delivery (p : List UInt8) : List (List UInt8 ⊕ ℕ × List UInt8) := .inl p :: (chunks p).map .inr

theorem chunks_packet {vs : List (BitVec 32)} (hn : vs.length = 4) : chunks (packet vs) = notifications vs := by
  match vs, hn with
  | [_, _, _, _], _ => rfl

variable {D : Type} {bus : SpiBus D} {l l' l₀ : Local D} {h h₀ : Shared} {tr evs : List (Event D)}

theorem blind_client : Blind (collect fun e : Event D => (label e).client) := by
  refine .collect ?_ (fun _ _ => rfl) fun _ _ _ _ _ _ => rfl
  intro o ho r l h
  rcases o with o | o | o
  · rfl
  · cases o <;> first | rfl | cases ho
  · rfl

/-- One `fsm_fire` delivers a packet, or nothing. -/
theorem Emits.delivers (he : Emits l h evs l') : evs.filterMap (fun e => (label e).client) = [] ∨
    ∃ p, evs.filterMap (fun e => (label e).client) = delivery p := by
  cases he with
  | send_ok | send_failed => exact .inr ⟨samples l, rfl⟩
  | reset_timer_sleep hs hes hr =>
    left
    rw [List.filterMap_append, List.filterMap_cons_none rfl, List.filterMap_cons_none rfl, List.filterMap_append,
      hes.filterMap fun _ _ => rfl]
    rfl
  | _ => exact .inl rfl

/-- **What a run sends is whole packets**, each one before the next. -/
theorem run_delivers (hb : Boot l₀ h₀) (hr : Runs bus l₀ h₀ tr l h) :
    ∃ ps : List (List UInt8), (tr.map label).filterMap Label.client = ps.flatMap delivery := by
  have H := run_blind (g := []) (J := fun g (_ : Local D) => ∃ ps : List (List UInt8), g = ps.flatMap delivery)
    blind_client hb ⟨[], rfl⟩ ?_ ?_ (fun _ _ _ _ _ hJ => hJ) hr
  · rw [List.filterMap_map]
    rwa [foldl_collect, List.nil_append] at H
  · rintro g l h evs l' - ⟨ps, rfl⟩ he
    rw [foldl_collect]
    rcases he.delivers with hno | ⟨p, hp⟩
    · exact ⟨ps, by rw [hno, List.append_nil]⟩
    · exact ⟨ps ++ [p], by rw [hp, List.flatMap_append, List.flatMap_singleton]⟩
  · rintro g l b sc l₁ h hb ⟨ps, rfl⟩
    refine ⟨ps, ?_⟩
    cases b <;> first | exact List.append_nil _ | cases hb

/-- `Label.client` tells both. -/
theorem client_eq (x : Label) :
    x.act.bind Act.packed = x.client.bind Sum.getLeft? ∧ x.notified = x.client.bind Sum.getRight? := by
  cases x with
  | irq i => exact ⟨rfl, rfl⟩
  | call o r =>
    cases o with
    | drv o => exact ⟨rfl, rfl⟩
    | shr o => cases o <;> exact ⟨rfl, rfl⟩
    | main o =>
      cases o with
      | enter f => cases f <;> exact ⟨rfl, rfl⟩
      | ble b =>
        cases b with
        | sl_bt_gatt_server_notify_all c v =>
          refine ⟨?_, rfl⟩
          dsimp only [Label.act]
          split <;> rfl
        | _ => exact ⟨rfl, rfl⟩
      | _ => exact ⟨rfl, rfl⟩

/-- **Clients are notified of the values of the packets**, in their order. -/
theorem run_notified (hb : Boot l₀ h₀) (hr : Runs bus l₀ h₀ tr l h) :
    (tr.map label).filterMap Label.notified =
      (((tr.map label).filterMap Label.act).filterMap Act.packed).flatMap chunks := by
  obtain ⟨ps, hps⟩ := run_delivers hb hr
  have hleft : (tr.map label).filterMap (fun x => x.act.bind Act.packed) = ps := by
    rw [funext fun x => (client_eq x).1, ← List.filterMap_filterMap, hps, List.filterMap_flatMap]
    exact List.flatMap_singleton' ps
  rw [List.filterMap_filterMap, hleft, funext fun x => (client_eq x).2, ← List.filterMap_filterMap, hps,
    List.filterMap_flatMap]
  rfl

variable {nConnections : RamAddr} {em4PinWakeup em4Reset : Bool} {dev : D} {ads : ads1220_t} {m : Memory}
  {ls : List Label}

/-- **The stream of samples of the device**, across its restarts, and what clients see of it. -/
theorem life_stream
    (hl : Lived bus nConnections (new_app_fsm nConnections em4PinWakeup em4Reset ads dev).1 ls [] l m) :
    ∃ blocks, Streamed (ls.filterMap Label.act) (station l) blocks ∧
      ls.filterMap Label.notified = blocks.flatMap notifications := by
  obtain ⟨blocks, hs⟩ := path_streamed hl.path
  refine ⟨blocks, hs, ?_⟩
  obtain ⟨h, -, ads', tr, hr, rfl⟩ := hl.runsLike
  rw [run_notified ⟨nConnections, em4PinWakeup, em4Reset, ads', dev, rfl⟩ hr, hs.packets, List.flatMap_map]
  exact List.flatMap_congr fun vs hvs => chunks_packet (hs.four vs hvs)

/-- One measurement, from power-up. -/
theorem life_stream_packet : ∃ ls l m, Lived anyBus nConnections_addr (booted false false).1 ls [] l m ∧
    station l = .sent ∧ ∃ blocks, Streamed (ls.filterMap Label.act) (station l) blocks ∧
      ls.filterMap Label.notified = blocks.flatMap notifications := by
  obtain ⟨tr, l, h, hr, hs⟩ := bench_run quietBench (fires 1 ++ measurement)
    (P := fun _ l _ => station l = .sent) (by decide +kernel)
  have hl := (lived_of_run hr).1
  exact ⟨_, l, _, hl, hs, life_stream hl⟩

end M20Strain
