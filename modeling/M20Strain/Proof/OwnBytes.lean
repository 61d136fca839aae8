import M20Strain.Proof.Wire

/-!
# Which bytes a sample is made of

The receive buffer of `read_data_samples` is static. `Own t`: what a call returns depends
on the transfers `t` of that call only, whatever calls came before it. `own_bytes_iff`:
that is so exactly when all three transfers succeed, and in every run a packet has unmixed
samples exactly when the transfers of its own samples have.
-/

namespace M20Strain

open Interrupt Prog

/-- The three transfers of one call of `read_data_samples`. -/
abbrev Transfers := Fin 3 → Transfer

/-- A bus whose receives are answered from a tape; when it is over, anything is possible. -/
def tapeBus : SpiBus (List Transfer) where
  transmit _ _ tape := some tape
  transfer _ _ _ tape := some tape
  receive ec b
    | [] => some []
    | t :: tape => if (ec, b) = t then some tape else none
  transmit_answers _ tape := ⟨ECODE_OK, tape, rfl⟩
  transfer_answers _ tape := ⟨ECODE_OK, fun _ => 0, tape, rfl⟩
  receive_answers tape := by
    cases tape with
    | nil => exact ⟨ECODE_OK, 0, [], rfl⟩
    | cons t tape => exact ⟨t.1, t.2, tape, if_pos rfl⟩

/-- `read_data_samples` after `n` other calls of it. -/
def read_after : ℕ → DrvM (BitVec 32)
  | 0 => read_data_samples
  | n + 1 => do
    let _ ← read_data_samples
    read_after n

/-- The tape of some calls. -/
def tapeOf (ts : List Transfers) : List Transfer := ts.flatMap List.ofFn

/-- After the calls `past` since the start, a call with transfers `t` can return `v`. -/
def Result (past : List Transfers) (t : Transfers) (v : BitVec 32) : Prop :=
  ∃ d', Returns tapeBus (read_after past.length)
    { ads := ⟨⟨0, 0, 0, 0⟩, ⟨0, 0, 0, 0⟩⟩, rx_buffer := fun _ => 0, dev := tapeOf (past ++ [t]) } v d'

/-- **A call with transfers `t` returns the same after every history.** -/
def Own (t : Transfers) : Prop :=
  ∀ past past' v v', Result past t v → Result past' t v' → v = v'

/-- The buffer after a call. -/
def keep (b : Fin 3 → UInt8) (t : Transfers) : Fin 3 → UInt8 := fun i => (t i).kept (b i)

/-- The buffer after some calls. -/
def buffer (ts : List Transfers) : Fin 3 → UInt8 := ts.foldl keep fun _ => 0

theorem receives_tape {ts ts' tape tape' : List Transfer} (hlen : ts'.length = ts.length) :
    tapeBus.Receives ts' (ts ++ tape) tape' ↔ ts' = ts ∧ tape' = tape := by
  induction ts generalizing ts' with
  | nil =>
    obtain rfl := List.length_eq_zero_iff.1 hlen
    exact (and_iff_right rfl).symm
  | cons t ts ih =>
    obtain ⟨t', ts', rfl⟩ := List.exists_cons_of_length_eq_add_one hlen
    have hlen : ts'.length = ts.length := Nat.succ.inj hlen
    have ih := ih hlen
    constructor
    · rintro ⟨tape₁, hr, hts⟩
      obtain ⟨ht, hr⟩ := Option.ite_none_right_eq_some.1 hr
      obtain rfl := Option.some.inj hr
      obtain rfl : t' = t := ht
      obtain ⟨rfl, rfl⟩ := ih.1 hts
      exact ⟨rfl, rfl⟩
    · rintro ⟨heq, rfl⟩
      obtain ⟨rfl, rfl⟩ := List.cons.inj heq
      exact ⟨ts' ++ tape', if_pos rfl, ih.2 ⟨rfl, rfl⟩⟩

variable {t : Transfers} {v : BitVec 32} {past : List Transfers}

/-- One call on the tape. -/
theorem returns_tape {ads : ads1220_t} {b : Fin 3 → UInt8} {tape : List Transfer} {d' : Driver (List Transfer)} :
    Returns tapeBus read_data_samples { ads, rx_buffer := b, dev := [t 0, t 1, t 2] ++ tape } v d' ↔
      v = sample_value (keep b t 0) (keep b t 1) (keep b t 2) ∧ d' = { ads, rx_buffer := keep b t, dev := tape } := by
  rw [returns_read_data_samples]
  constructor
  · rintro ⟨t', dev, hr, rfl, rfl⟩
    have hlen : [t' 0, t' 1, t' 2].length = [t 0, t 1, t 2].length := rfl
    obtain ⟨heq, rfl⟩ := (receives_tape hlen).1 hr
    obtain rfl : t' = t := by
      simp only [List.cons.injEq, and_true] at heq
      obtain ⟨h0, h1, h2⟩ := heq
      funext i
      fin_cases i
      · exact h0
      · exact h1
      · exact h2
    exact ⟨rfl, rfl⟩
  · rintro ⟨rfl, rfl⟩
    exact ⟨t, tape, (receives_tape rfl).2 ⟨rfl, rfl⟩, rfl, rfl⟩

/-- **The result is the value of the buffer**, which every call has had its part in. -/
theorem result_iff : Result past t v ↔
    v = sample_value (keep (buffer past) t 0) (keep (buffer past) t 1) (keep (buffer past) t 2) := by
  unfold Result buffer
  generalize (fun _ => 0 : Fin 3 → UInt8) = b
  induction past generalizing b with
  | nil =>
    have htape : tapeOf ([] ++ [t]) = [t 0, t 1, t 2] ++ [] := rfl
    rw [htape]
    simp only [List.length_nil, read_after, returns_tape]
    constructor
    · rintro ⟨d', rfl, -⟩
      rfl
    · rintro rfl
      exact ⟨_, rfl, rfl⟩
  | cons t₁ past ih =>
    -- the first call takes three answers and leaves its bytes in the buffer
    have htape : tapeOf (t₁ :: past ++ [t]) = [t₁ 0, t₁ 1, t₁ 2] ++ tapeOf (past ++ [t]) := rfl
    rw [htape, List.foldl_cons, ← ih]
    simp only [List.length_cons, read_after, Returns, Ends.bind_iff]
    constructor
    · rintro ⟨d', v₁, d₁, h1, h2⟩
      obtain ⟨-, rfl⟩ := returns_tape.1 h1
      exact ⟨d', h2⟩
    · rintro ⟨d', h2⟩
      exact ⟨d', _, _, returns_tape.2 ⟨rfl, rfl⟩, h2⟩

/-- Different bytes have different values. -/
theorem sample_value_injective {b₀ b₁ b₂ c₀ c₁ c₂ : UInt8} (he : sample_value b₀ b₁ b₂ = sample_value c₀ c₁ c₂) :
    b₀ = c₀ ∧ b₁ = c₁ ∧ b₂ = c₂ := by
  have hv := congrArg BitVec.toInt he
  rw [sample_value_toInt, sample_value_toInt] at hv
  unfold frame_value at hv
  dsimp only at hv
  have h0 := b₀.toNat_lt
  have h1 := b₁.toNat_lt
  have h2 := b₂.toNat_lt
  have k0 := c₀.toNat_lt
  have k1 := c₁.toNat_lt
  have k2 := c₂.toNat_lt
  simp only [← UInt8.toNat_inj]
  split at hv <;> split at hv <;> omega

/-- **A result is made of the call's own bytes exactly when no transfer fails.** -/
theorem own_iff : Own t ↔ ∀ i, (t i).1 = ECODE_OK := by
  unfold Own
  simp only [result_iff]
  constructor
  · intro ho i
    by_contra hi
    -- before any call, and after a call that left a 1 in every byte
    have heq := ho [] [fun _ => (ECODE_OK, 1)] _ _ rfl rfl
    obtain ⟨h0, h1, h2⟩ := sample_value_injective heq
    have hkeep : keep (fun _ => 0) t i = keep (keep (fun _ => 0) fun _ => (ECODE_OK, 1)) t i := by
      fin_cases i
      · exact h0
      · exact h1
      · exact h2
    unfold keep Transfer.kept at hkeep
    rw [if_neg hi, if_neg hi, if_pos rfl] at hkeep
    have h01 : (0 : UInt8) ≠ 1 := by decide
    exact h01 hkeep
  · rintro hok past past' v v' rfl rfl
    have hkeep (b : Fin 3 → UInt8) : keep b t = fun i => (t i).2 := by
      funext i
      exact if_pos (hok i)
    rw [hkeep, hkeep]

variable {D : Type} {bus : SpiBus D} {l₀ l : Local D} {h₀ h : Shared} {tr : List (Event D)}

/-- The value sent is that of three bytes received by one call without error. -/
def Intact (frame : List Transfer) (value : List UInt8) : Prop :=
  ∃ b₀ b₁ b₂, frame = clean b₀ b₁ b₂ ∧ client_value value = some (published_value (frame_value b₀ b₁ b₂))

/-- **No sample is mixed**: a packet is computed from samples with the value of one frame
each, and the value sent for a sample is that of the sample's frame. -/
def Unmixed (g : Frames) : Event D → Prop
  | .call (.main (.enter .power_down_interface_send_data)) _ l _ => ∀ k, g.At k fun frame =>
    ∃ b₀ b₁ b₂, frame = clean b₀ b₁ b₂ ∧ (l.user.sensor_data k).toInt = frame_value b₀ b₁ b₂
  | .call (.main (.ble (.sl_bt_gatt_server_write_attribute_value attr _ value))) _ _ _ =>
    ∀ k, attr = characteristic k → g.At k fun frame => Intact frame value
  | .call (.main (.ble (.sl_bt_gatt_server_notify_all attr value))) _ _ _ =>
    ∀ k, attr = characteristic k → g.At k fun frame => Intact frame value
  | _ => True

/-- The entry publishes the sample of slot `k`. -/
def publishes (k : Fin 4) : Event D → Prop
  | .call (.main (.enter .power_down_interface_send_data)) _ _ _ => True
  | .call (.main (.ble (.sl_bt_gatt_server_write_attribute_value attr _ _))) _ _ _ => attr = characteristic k
  | .call (.main (.ble (.sl_bt_gatt_server_notify_all attr _))) _ _ _ => attr = characteristic k
  | _ => False

/-- The transfers of the samples that the entry publishes have all succeeded. -/
def Received (g : Frames) (e : Event D) : Prop :=
  ∀ k, publishes k e → g.At k fun frame => ∀ x ∈ frame, x.1 = ECODE_OK

/-- The frames of a cycle are three transfers each, from the record. -/
def Framed (k : List Transfer × Frames) : Prop :=
  ∀ frame ∈ k.2.cycle, frame.length = 3 ∧ ∀ x ∈ frame, x ∈ k.1

theorem clean_of_ok {frame : List Transfer} (hlen : frame.length = 3) (hok : ∀ x ∈ frame, x.1 = ECODE_OK) :
    ∃ b₀ b₁ b₂, frame = clean b₀ b₁ b₂ := by
  obtain ⟨t₀, t₁, t₂, rfl⟩ := List.length_eq_three.1 hlen
  refine ⟨t₀.2, t₁.2, t₂.2, ?_⟩
  simp only [List.mem_cons, List.not_mem_nil, or_false, forall_eq_or_imp, forall_eq] at hok
  obtain ⟨h0, h1, h2⟩ := hok
  rw [clean, ← h0, Prod.mk.eta, h0, ← h1, Prod.mk.eta, h1, ← h2, Prod.mk.eta]

theorem mem_received {n : List Transfer} {o : Op} {r : o.Resp} {x : Transfer} (hx : x ∈ n) :
    x ∈ received n o r := by
  unfold received
  split
  · exact List.mem_append_left _ hx
  · exact hx

theorem Framed.step {k : List Transfer × Frames} {e : Event D} (hk : Framed k) (he : Faithful k.1 k.2 e) :
    Framed (wire k e) := by
  -- the record only grows
  have hrec (x : Transfer) (hx : x ∈ k.1) : x ∈ record received k.1 e := by
    cases e with
    | call o r l h => exact mem_received hx
    | irq i h => exact hx
  have hold : ∀ frame ∈ k.2.cycle, frame.length = 3 ∧ ∀ x ∈ frame, x ∈ record received k.1 e := by
    intro frame hf
    obtain ⟨hlen, hx⟩ := hk frame hf
    exact ⟨hlen, fun x h => hrec x (hx x h)⟩
  intro frame hf
  simp only [wire, frames] at hf ⊢
  split at hf
  · exact hold frame hf
  · -- a sample is stored: its frame is the end of the record
    rename_i j v _ _ _
    rcases List.mem_append.1 hf with hf | hf
    · split at hf
      · cases hf
      · exact hold frame hf
    · obtain rfl := List.mem_singleton.1 hf
      exact ⟨he.1, fun x hx => hrec x (List.mem_of_mem_drop hx)⟩
  · exact hold frame hf

theorem ok_of_clean {b₀ b₁ b₂ : UInt8} : ∀ x ∈ clean b₀ b₁ b₂, x.1 = ECODE_OK := by
  simp [clean]

/-- **What is published is unmixed** exactly when its own transfers have succeeded. -/
theorem Framed.unmixed_iff {k : List Transfer × Frames} {e : Event D} (hk : Framed k) (he : Faithful k.1 k.2 e) :
    Unmixed k.2 e ↔ Received k.2 e := by
  have hclean {i : Fin 4} {frame : List Transfer} (hf : k.2.cycle[i.val]? = some frame)
      (hok : ∀ x ∈ frame, x.1 = ECODE_OK) : ∃ b₀ b₁ b₂, frame = clean b₀ b₁ b₂ :=
    clean_of_ok (hk frame (List.mem_of_getElem? hf)).1 hok
  have hintact {i : Fin 4} {value : List UInt8} (hi : k.2.At i fun frame => Carries frame value) :
      (k.2.At i fun frame => Intact frame value) ↔ k.2.At i fun frame => ∀ x ∈ frame, x.1 = ECODE_OK := by
    obtain ⟨frame, hf, hc⟩ := hi
    constructor
    · rintro ⟨frame, hf, b₀, b₁, b₂, rfl, -⟩
      exact ⟨_, hf, ok_of_clean⟩
    · rintro ⟨frame', hf', hok⟩
      obtain rfl := Option.some.inj (hf.symm.trans hf')
      obtain ⟨b₀, b₁, b₂, hb⟩ := hclean hf hok
      exact ⟨frame, hf, b₀, b₁, b₂, hb, hc b₀ b₁ b₂ hb⟩
  unfold Unmixed
  split
  · refine forall_congr' fun i => ?_
    obtain ⟨frame, hf, hd⟩ := he.2 i
    constructor
    · rintro ⟨frame, hf, b₀, b₁, b₂, rfl, -⟩ _
      exact ⟨_, hf, ok_of_clean⟩
    · intro hok
      obtain ⟨frame', hf', hok⟩ := hok trivial
      obtain rfl := Option.some.inj (hf.symm.trans hf')
      obtain ⟨b₀, b₁, b₂, hb⟩ := hclean hf hok
      exact ⟨frame, hf, b₀, b₁, b₂, hb, hd b₀ b₁ b₂ hb⟩
  · exact forall_congr' fun i => forall_congr' fun hi => hintact (he i hi)
  · exact forall_congr' fun i => forall_congr' fun hi => hintact (he i hi)
  · rename_i hnone hwrite hnotify
    refine iff_of_true trivial fun i hi => ?_
    unfold publishes at hi
    split at hi
    · exact (hnone _ _ _ rfl).elim
    · exact (hwrite _ _ _ _ _ _ rfl).elim
    · exact (hnotify _ _ _ _ _ rfl).elim
    · exact hi.elim

/-- While no transfer has failed, those of a packet have not. -/
theorem Framed.received {k : List Transfer × Frames} {e : Event D} (hk : Framed k) (he : Faithful k.1 k.2 e)
    (hok : ∀ x ∈ k.1, x.1 = ECODE_OK) : Received k.2 e := by
  have hframe {i : Fin 4} {P : List Transfer → Prop} (hi : k.2.At i P) :
      k.2.At i fun frame => ∀ x ∈ frame, x.1 = ECODE_OK := by
    obtain ⟨frame, hf, -⟩ := hi
    exact ⟨frame, hf, fun x hx => hok x ((hk frame (List.mem_of_getElem? hf)).2 x hx)⟩
  intro i hi
  unfold publishes at hi
  split at hi
  · exact hframe (he.2 i)
  · exact hframe (he i hi)
  · exact hframe (he i hi)
  · exact hi.elim

/-- **A result is made of the call's own bytes exactly when its three transfers succeed**;
and in every run, what is published is not mixed exactly when the transfers of the packet's own
samples have succeeded, so in particular before any transfer has failed. -/
theorem own_bytes_iff (hb : Boot l₀ h₀) (hr : Runs bus l₀ h₀ tr l h) :
    (∀ t, Own t ↔ ∀ i, (t i).1 = ECODE_OK) ∧
    Checked wire (fun k e => (Unmixed k.2 e ↔ Received k.2 e) ∧
      ((∀ x ∈ k.1, x.1 = ECODE_OK) → Unmixed k.2 e)) ([], ⟨0, []⟩) tr := by
  refine ⟨fun t => own_iff, ?_⟩
  have hstart : Framed ([], ⟨0, []⟩) := fun frame hf => by cases hf
  have hc := (wire_checked hb hr).invariant hstart fun k e hk he => hk.step he
  refine hc.imp fun k e ⟨hk, he⟩ => ⟨hk.unmixed_iff he, fun hok => ?_⟩
  exact (hk.unmixed_iff he).2 (hk.received he hok)

/-- A packet of four clean samples. -/
theorem own_bytes_iff_bench : ∃ tr l h, Runs anyBus (booted false false).1 (booted false false).2 tr l h ∧
    l.user.data_sent_flag = 1 ∧
    Checked wire (fun k e => (Unmixed k.2 e ↔ Received k.2 e) ∧
      ((∀ x ∈ k.1, x.1 = ECODE_OK) → Unmixed k.2 e)) ([], ⟨0, []⟩) tr := by
  obtain ⟨tr, l, h, hr, hP⟩ := bench_run (answering 0x80) (fires 1 ++ measurement)
    (P := fun _ l _ => l.user.data_sent_flag = 1) (by decide +kernel)
  exact ⟨tr, l, h, hr, hP, (own_bytes_iff booted_boot hr).2⟩

/-- A call whose three transfers fail: at first it returns 0, and after a call that read
the bytes 1, 2, 3 it returns their value. -/
theorem stale_bytes : Result [] (fun _ => (1, 0)) 0 ∧
    Result [fun i => (ECODE_OK, if i = 0 then 1 else if i = 1 then 2 else 3)] (fun _ => (1, 0)) 0x010203 ∧
    ¬ Own fun _ => (1, 0) := by
  have h0 : Result [] (fun _ => (1, 0)) 0 := result_iff.2 (by decide)
  have h1 : Result [fun i => (ECODE_OK, if i = 0 then 1 else if i = 1 then 2 else 3)] (fun _ => (1, 0)) 0x010203 :=
    result_iff.2 (by decide)
  refine ⟨h0, h1, ?_⟩
  intro ho
  exact absurd (ho _ _ _ _ h0 h1) (by decide)

end M20Strain
