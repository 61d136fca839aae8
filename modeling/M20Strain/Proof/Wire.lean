import M20Strain.Binary.Exact
import M20Strain.Proof.Cycle
import M20Strain.Proof.Samples

/-!
# From the wire to the characteristics

The monitor `wire` keeps the answers of all receives and, for each sample of the
cycle, the frame it was read from. `wire_faithful`: in every run, each sample holds
the value of its frame, and the bytes sent for it decode to `published_value` of it,
provided that the frame was received without error.
-/

namespace M20Strain

open Interrupt Prog Binary

variable {D : Type} {bus : SpiBus D} {l₀ l l' : Local D} {h₀ h h' : Shared} {tr evs : List (Event D)}

/-- The number published for a sample of value `v`. -/
def published_value (v : Int) : ℚ := (⌊(v : ℚ) / 1024⌋ : ℚ) / 32

/-- What a client reads in the value of a characteristic: a big-endian `binary32`. -/
def client_value : List UInt8 → Option ℚ
  | [c₀, c₁, c₂, c₃] => value32 (c₀.toBitVec ++ c₁.toBitVec ++ c₂.toBitVec ++ c₃.toBitVec)
  | _ => none

/-- The code of the temperature sensor: the first 14 bits of a frame. -/
def temp_code (b₀ b₁ : UInt8) : Int := ((b₀.toBitVec ++ b₁.toBitVec).extractLsb' 2 14).toInt

theorem floor_div_1024 (v : Int) : ⌊(v : ℚ) / 1024⌋ = v / 1024 := by
  exact_mod_cast Rat.floor_intCast_div_natCast v 1024

theorem published_value_monotone {v v' : Int} (hv : v ≤ v') : published_value v ≤ published_value v' := by
  unfold published_value
  rw [floor_div_1024, floor_div_1024]
  have hdiv : v / 1024 ≤ v' / 1024 := Int.ediv_le_ediv (by decide) hv
  have hcast : ((v / 1024 : Int) : ℚ) ≤ (v' / 1024 : Int) := by exact_mod_cast hdiv
  exact div_le_div_of_nonneg_right hcast (by norm_num)

theorem published_value_code (b₀ b₁ b₂ : UInt8) :
    32 * published_value (frame_value b₀ b₁ b₂) = temp_code b₀ b₁ := by
  have hcode : frame_value b₀ b₁ b₂ / 1024 = temp_code b₀ b₁ := by
    have h0 := b₀.toNat_lt
    have h1 := b₁.toNat_lt
    have h2 := b₂.toNat_lt
    have hcat : (b₀.toBitVec ++ b₁.toBitVec).toNat = b₀.toNat * 2 ^ 8 + b₁.toNat := by
      simp only [BitVec.toNat_append, UInt8.toNat_toBitVec]
      rw [← Nat.shiftLeft_add_eq_or_of_lt h1, Nat.shiftLeft_eq]
    unfold temp_code frame_value
    rw [BitVec.toInt_eq_toNat_cond, BitVec.extractLsb'_toNat, hcat]
    dsimp only
    split <;> split <;> omega
  unfold published_value
  rw [floor_div_1024, hcode]
  ring

/-- A small integer over a power of two is exact in both formats. -/
theorem exact_div_32 {n : Int} (hn : |n| < 2 ^ 24) :
    binary32.Exact n ∧ binary64.Exact (n * (1 / 32)) ∧ binary32.Exact (n * (1 / 32)) := by
  have h64 : |n| < 2 ^ 53 := hn.trans (by norm_num)
  have hdiv : (n : ℚ) * (1 / 32) = n * 2 ^ (-5 : ℤ) := by norm_num
  refine ⟨⟨n, 0, hn, by decide, by simp⟩, ⟨n, -5, h64, by decide, hdiv⟩, ⟨n, -5, hn, by decide, hdiv⟩⟩

/-- **The conversion is exact.** -/
theorem convertToMicroVTemp_value {data : BitVec 32} (hl : -2 ^ 23 ≤ data.toInt) (hu : data.toInt < 2 ^ 23) :
    value32 (convertToMicroVTemp data) = some (published_value data.toInt) := by
  have hshift : (data.sshiftRight 10).toInt = data.toInt / 1024 := by
    rw [BitVec.toInt_sshiftRight, Int.shiftRight_eq_div_pow]
    norm_num
  have hn : |data.toInt / 1024| < 2 ^ 24 := by
    rw [abs_lt]
    constructor <;> omega
  obtain ⟨h1, h2, h3⟩ := exact_div_32 hn
  unfold convertToMicroVTemp
  simp only [hshift, h1.round_eq, h2.round_eq]
  have hb : |((data.toInt / 1024 : Int) : ℚ) * (1 / 32)| < 2 ^ 128 := by
    have hq : |((data.toInt / 1024 : Int) : ℚ)| < 2 ^ 24 := by exact_mod_cast hn
    rw [abs_mul]
    calc |((data.toInt / 1024 : Int) : ℚ)| * |1 / 32| ≤ |((data.toInt / 1024 : Int) : ℚ)| * 1 := by
          gcongr
          norm_num
      _ < 2 ^ 128 := by linarith
  rw [value32_float32 h3 hb]
  unfold published_value
  rw [floor_div_1024]
  ring_nf

/-- The bytes of a float, most significant first, are read back. -/
theorem client_value_float_bytes (f : BitVec 32) : client_value (float_bytes f).reverse = value32 f := by
  have hcat : f.extractLsb' 24 8 ++ f.extractLsb' 16 8 ++ f.extractLsb' 8 8 ++ f.extractLsb' 0 8 = f := by
    ext i hi
    simp only [BitVec.getElem_append, BitVec.getElem_extractLsb']
    grind
  unfold float_bytes
  simp only [List.reverse_cons, List.reverse_nil, List.nil_append, List.cons_append, client_value]
  exact congrArg value32 hcat

theorem chunk_samples (k : Fin 4) :
    chunk (samples l) k = (float_bytes (convertToMicroVTemp (l.user.sensor_data k))).reverse := by
  fin_cases k <;> rfl

/-- How many answers the record held when `retrieve_data` was entered, and the frames
behind the samples stored since slot 0, in order. -/
structure Frames where
  begun : ℕ
  cycle : List (List Transfer)

/-- `n` is the record of the receives so far. -/
def frames (n : List Transfer) (g : Frames) : Event D → Frames
  | .call (.main (.enter .retrieve_data)) _ _ _ => { g with begun := n.length }
  | .call (.main (.wr_sensor_data k _)) _ _ _ =>
    { g with cycle := (if k = 0 then [] else g.cycle) ++ [n.drop g.begun] }
  | _ => g

/-- The record of the receives, and the frames. -/
def wire (k : List Transfer × Frames) (e : Event D) : List Transfer × Frames :=
  (record received k.1 e, frames k.1 k.2 e)

/-- `value` decodes to the number published for `frame`, if that was received without error. -/
def Carries (frame : List Transfer) (value : List UInt8) : Prop :=
  ∀ b₀ b₁ b₂, frame = clean b₀ b₁ b₂ → client_value value = some (published_value (frame_value b₀ b₁ b₂))

/-- Slot `k` has frame `frame` in the cycle. -/
def Frames.At (g : Frames) (k : Fin 4) (P : List Transfer → Prop) : Prop :=
  ∃ frame, g.cycle[k.val]? = some frame ∧ P frame

/-- A sample is stored with the value of the three bytes received for it; a packet is
computed from such samples; and each value sent carries the frame of its slot. -/
def Faithful (n : List Transfer) (g : Frames) : Event D → Prop
  | .call (.main (.wr_sensor_data k data)) _ _ _ =>
    (n.drop g.begun).length = 3 ∧ Decodes (n.drop g.begun) data ∧ (k = 0 ∨ k = g.cycle.length)
  | .call (.main (.enter .power_down_interface_send_data)) _ l _ =>
    g.cycle.length = 4 ∧ ∀ k, g.At k fun frame => Decodes frame (l.user.sensor_data k)
  | .call (.main (.ble (.sl_bt_gatt_server_write_attribute_value attr _ value))) _ _ _ =>
    ∀ k, attr = characteristic k → g.At k fun frame => Carries frame value
  | .call (.main (.ble (.sl_bt_gatt_server_notify_all attr value))) _ _ _ =>
    ∀ k, attr = characteristic k → g.At k fun frame => Carries frame value
  | _ => True

/-- The monitor and its check, for a main loop that has the record in its state. -/
def framesOf : Frames → Event (D × List Transfer) → Frames :=
  fun g e => reading Local.record (Local.map Prod.fst) [] (fun n => frames n g) e

def FaithfulOf : Frames → Event (D × List Transfer) → Prop :=
  fun g e => reading Local.record (Local.map Prod.fst) [] (fun n => Faithful n g) e

theorem framesOf_blind : Blind (framesOf (D := D)) where
  quiet o ho g r l h := by
    simp only [framesOf, reading, frames]
    split <;> first | rfl | (rename_i heq; cases heq; cases ho)
  irq _ _ _ := rfl
  main g o r l h h' ho := by
    rcases o with o | o | o <;> cases ho
    cases o <;> first | rfl | (rename_i f; cases f <;> rfl)

theorem watch_faithful_blind : Blind (watch framesOf (FaithfulOf (D := D))) := by
  refine framesOf_blind.watch ?_ (fun _ _ _ => trivial) ?_
  · intro o ho g r l h
    simp only [FaithfulOf, reading, Faithful]
    split <;> first | trivial | (rename_i heq; cases heq; cases ho)
  · intro g o r l h h' ho
    rcases o with o | o | o <;> cases ho
    cases o <;> first | rfl | (rename_i c; cases c <;> rfl)

/-- The first `m` samples have the values of their frames. -/
structure Held (g : Frames) (s : Fin 4 → BitVec 32) (m : ℕ) : Prop where
  cycle : m = 0 ∨ g.cycle.length = m
  slots : ∀ k : Fin 4, k.val < m → g.At k fun frame => Decodes frame (s k)

/-- The samples stored so far: those counted, and in `RETRIEVING_DATA` one more. -/
def Stored (g : Frames) (l : Local D) : Prop :=
  ∃ m : ℕ, m = l.user.num_data_retrieved + (if l.current_state = states.RETRIEVING_DATA then 1 else 0) ∧
    Held g l.user.sensor_data m

theorem Held.zero {g : Frames} {s : Fin 4 → BitVec 32} : Held g s 0 :=
  ⟨.inl rfl, fun _ hk => absurd hk (Nat.not_lt_zero _)⟩

/-- Storing the next sample. -/
theorem Held.store {g : Frames} {s : Fin 4 → BitVec 32} {m : ℕ} (hh : Held g s m) (hm : m < 4) {b : ℕ}
    {frame : List Transfer} {v : BitVec 32} (hv : Decodes frame v) :
    Held ⟨b, (if (m : Int) = 0 then [] else g.cycle) ++ [frame]⟩ (Function.update s ⟨m, hm⟩ v) (m + 1) := by
  have hlen : (if (m : Int) = 0 then [] else g.cycle).length = m := by
    split
    · rename_i h0
      exact (Int.natCast_eq_zero.1 h0).symm
    · rename_i h0
      rcases hh.cycle with rfl | hc
      · exact absurd rfl h0
      · exact hc
  refine ⟨.inr (by rw [List.length_append, hlen]; rfl), ?_⟩
  intro k hk
  rcases Nat.lt_or_eq_of_le (Nat.le_of_lt_succ hk) with hlt | heq
  · -- an earlier slot
    obtain ⟨f, hf, hd⟩ := hh.slots k hlt
    have hne : k ≠ ⟨m, hm⟩ := by
      rintro rfl
      exact absurd hlt (Nat.lt_irrefl _)
    refine ⟨f, ?_, by rw [Function.update_of_ne hne]; exact hd⟩
    rw [List.getElem?_append_left (by rw [hlen]; exact hlt), if_neg (by omega)]
    exact hf
  · obtain rfl : k = ⟨m, hm⟩ := Fin.ext heq
    refine ⟨frame, ?_, by rw [Function.update_self]; exact hv⟩
    rw [List.getElem?_append_right (by rw [hlen]), hlen, Nat.sub_self]
    rfl

/-- The value sent for a sample carries the sample's frame. -/
theorem Held.carried {g : Frames} (hh : Held g l.user.sensor_data 4) (i : Fin 4) :
    ∀ k, characteristic i = characteristic k → g.At k fun frame => Carries frame (chunk (samples l) i) := by
  intro k hk
  obtain rfl : i = k := characteristic_injective hk
  obtain ⟨frame, hf, hd⟩ := hh.slots i i.isLt
  refine ⟨frame, hf, ?_⟩
  intro b₀ b₁ b₂ hclean
  have hv := hd b₀ b₁ b₂ hclean
  obtain ⟨hl, hu⟩ := frame_value_range b₀ b₁ b₂
  rw [← hv] at hl hu ⊢
  rw [chunk_samples, client_value_float_bytes]
  exact convertToMicroVTemp_value hl hu

variable {g : Frames} {k k' : Frames × Prop}

/-- A fire that stores no sample. -/
theorem Emits.no_store {l l' : Local (D × List Transfer)} {evs : List (Event (D × List Transfer))}
    (he : Emits l h evs l') (hne : l'.current_state ≠ states.RETRIEVING_DATA) (hI : Inv l h)
    (hg : Stored g l) : Checked framesOf FaithfulOf g evs ∧ Stored (evs.foldl framesOf g) l' := by
  obtain ⟨m, hm, hh⟩ := hg
  cases he with
  | stay s hs ht => exact ⟨trivial, m, hm, hh⟩
  | power_up hs | pin_wake hs | timer_wake hs =>
    refine ⟨by simp [entries, start, Made.entry, Checked, FaithfulOf, reading, Faithful], m, ?_, ?_⟩
    · rw [hm, if_neg (not_at hs (by decide)), if_neg hne]
      rfl
    · simpa [entries, start, Made.entry, framesOf, reading, frames, woken, roused] using hh
  | ask hs hn =>
    refine ⟨by simp [entries, start, Made.entry, Checked, FaithfulOf, reading, Faithful], m, ?_, ?_⟩
    · rw [hm, if_neg hne]
      obtain ⟨hs, rfl⟩ | ⟨hs, rfl⟩ := hs
      · rw [if_neg (not_at hs (by decide))]
        rfl
      · -- the guard has counted the sample that was one more before
        rw [if_pos hs]
        simp [asked, asking, counted]
    · obtain ⟨hs, rfl⟩ | ⟨hs, rfl⟩ := hs <;>
        simpa [entries, start, Made.entry, framesOf, reading, frames, asked, asking, counted] using hh
  | ask_all hs hn =>
    refine ⟨by simp [entries, start, Made.entry, Checked, FaithfulOf, reading, Faithful], m, ?_, ?_⟩
    · rw [hm, if_neg hne, if_pos hs]
      simp [asking, counted]
    · simpa [entries, start, Made.entry, framesOf, reading, frames, asking, counted] using hh
  | retrieve hs hn hw =>
    obtain ⟨s, rfl⟩ := stored hw
    exact absurd rfl hne
  | send_ok s hs hn hk | send_failed s hs hn hk =>
    obtain rfl : m = 4 := by
      rw [if_neg (not_at hs (by decide)), hn] at hm
      omega
    have hlen : g.cycle.length = 4 := by
      rcases hh.cycle with h0 | hc
      · cases h0
      · exact hc
    refine ⟨?_, 0, ?_, .zero⟩
    · simp only [entries, start, published, Made.entry, List.map_cons, List.map_nil, List.cons_append,
        List.nil_append, Checked, FaithfulOf, framesOf, reading, frames, Faithful, and_true, true_and]
      -- two calls for each of the four characteristics
      have hc := hh.carried
      exact ⟨⟨hlen, fun k => hh.slots k k.isLt⟩, hc 0, hc 0, hc 1, hc 1, hc 2, hc 2, hc 3, hc 3⟩
    · rw [if_neg hne]
      rfl
  | reset_timer_sleep hs hes hr =>
    refine ⟨?_, 0, by rw [if_neg hne]; rfl, .zero⟩
    simp only [checked_append, Checked, and_true]
    refine ⟨?_, trivial, trivial, ?_, trivial⟩
    · simp [entries, start, Made.entry, Checked, FaithfulOf, reading, Faithful]
    · exact hes.checked fun _ _ _ _ _ => trivial
  | reset_no_timer hs =>
    refine ⟨?_, 0, by rw [if_neg hne]; rfl, .zero⟩
    simp [entries, start, Made.entry, Checked, FaithfulOf, reading, Faithful]
  | ask_again hs | try_to_sleep hs =>
    refine ⟨by simp [entries, start, Made.entry, Checked, FaithfulOf, reading, Faithful], m, ?_, ?_⟩
    · rw [hm, if_neg (not_at hs (by decide)), if_neg hne]
      rfl
    · simpa [entries, start, Made.entry, framesOf, reading, frames, again, sleepy, drowsy] using hh

/-- Only `retrieve_data` leads to `RETRIEVING_DATA`. -/
theorem Fired.retrieves {G : Type} {μ : G → Event D → G} {g g' : G} (hf : Fired bus μ g l h g' l' h')
    (hs' : l'.current_state = states.RETRIEVING_DATA) :
    ∃ v d g₁ h₁ g₂ h₂, l.current_state = states.ASKING_FOR_DATA ∧ l.user.num_data_retrieved < 4 ∧
      Irqs (firmware bus) μ g h g₁ h₁ ∧
      Calls (firmware bus) μ (start .RETRIEVING_DATA .retrieve_data l) g₁ h₁ g₂ h₂ ∧
      Returns bus read_data_samples l.driver v d ∧
      (MainOp.wr_sensor_data l.user.num_data_retrieved v).step () { retrieving l with driver := d } = some l' ∧
      Calls (firmware bus) μ
        [did (.wr_sensor_data l.user.num_data_retrieved v) () { retrieving l with driver := d }]
        (μ g₂ (.call (.shr (.wr .data_ready_flag 0)) () (moved l .RETRIEVING_DATA) h₂))
        { h₂ with data_ready_flag := 0 } g' h' := by
  cases hf with
  | retrieve hs hn hi hr hc hd hw hc' => exact ⟨_, _, _, _, _, _, hs, hn, hi, hc, hd, hw, hc'⟩
  | stay s hs ht hi =>
    have hst := states.val_inj (hs.symm.trans hs')
    rw [hst] at ht
    simp at ht
  | _ => simp [woken, roused, asked, asking, sending, again, sleepy, drowsy, new_app_fsm] at hs'

theorem Fired.faithful {l l' : Local (D × List Transfer)} (hI : Inv l h) (hk : k.2 ∧ Stored k.1 l)
    (hf : Fired bus.recorded (watch framesOf FaithfulOf) k l h k' l' h') : k'.2 ∧ Stored k'.1 l' := by
  obtain ⟨g, p⟩ := k
  obtain ⟨hp, hg⟩ := hk
  by_cases hne : l'.current_state = states.RETRIEVING_DATA
  · obtain ⟨v, d, g₁, h₁, g₂, h₂, hs, hn, hi, hc, hd, hw, hc'⟩ := hf.retrieves hne
    obtain rfl := watch_faithful_blind.irqs hi
    obtain rfl := watch_faithful_blind.calls (by simp [start, Op.isMain]) h hc
    obtain rfl := watch_faithful_blind.calls (by simp [Op.isMain]) h hc'
    obtain ⟨m, hm, hh⟩ := hg
    rw [if_neg (not_at hs (by decide)), add_zero] at hm
    have hm4 : m < 4 := by omega
    -- the record has grown by one frame since `retrieve_data` was entered
    obtain ⟨frame, hlen, hrec, hv⟩ := returns_frame hd
    rw [← hm] at hw ⊢
    simp only [MainOp.step, Int.toNat_natCast] at hw
    rw [dif_pos ⟨Int.natCast_nonneg m, hm4⟩] at hw
    obtain rfl := Option.some.inj hw
    have hdrop : d.dev.2.drop l.driver.dev.2.length = frame := by
      rw [hrec, List.drop_left]
    have hord : (m : Int) = 0 ∨ (m : Int) = g.cycle.length := by
      rcases hh.cycle with rfl | hc
      · exact .inl rfl
      · exact .inr (congrArg _ hc.symm)
    refine ⟨?_, m + 1, ?_, ?_⟩
    · simp only [entries, start, Made.entry, List.map_cons, List.map_nil, List.foldl_cons, List.foldl_nil, watch,
        FaithfulOf, framesOf, reading, frames, Faithful, and_true]
      refine ⟨hp, ?_⟩
      change (d.dev.2.drop l.driver.dev.2.length).length = 3 ∧
        Decodes (d.dev.2.drop l.driver.dev.2.length) v ∧ ((m : Int) = 0 ∨ (m : Int) = g.cycle.length)
      rw [hdrop]
      exact ⟨hlen, hv, hord⟩
    · rw [if_pos hne]
      change ((m + 1 : ℕ) : Int) = l.user.num_data_retrieved + 1
      rw [← hm]
      rfl
    · change Held ⟨l.driver.dev.2.length,
        (if (m : Int) = 0 then [] else g.cycle) ++ [d.dev.2.drop l.driver.dev.2.length]⟩
        (Function.update l.user.sensor_data ⟨m, hm4⟩ v) (m + 1)
      rw [hdrop]
      exact hh.store hm4 hv
  · obtain ⟨evs, he, rfl⟩ := hf.emits watch_faithful_blind
    obtain ⟨h1, h2⟩ := he.no_store hne hI hg
    rw [foldl_watch]
    exact ⟨⟨hp, h1⟩, h2⟩

/-- The event handler writes no characteristic. -/
theorem advertises_faithful {c : BleCall} {sc : sl_status_t} {l : Local (D × List Transfer)}
    (hc : c.advertises = true) : FaithfulOf g (.call (.main (.ble c)) sc l h) := by
  cases c with
  | sl_bt_gatt_server_write_attribute_value attr offset value =>
    obtain rfl : attr = gattdb_system_id := by simpa [BleCall.advertises] using hc
    intro k hk
    fin_cases k <;> exact absurd hk (by decide)
  | sl_bt_gatt_server_notify_all attr value => cases hc
  | _ => trivial

theorem faithful_recorded {l₀ l : Local (D × List Transfer)} {tr : List (Event (D × List Transfer))}
    (hb : Boot l₀ h₀) (hr : Runs bus.recorded l₀ h₀ tr l h) : Checked framesOf FaithfulOf ⟨0, []⟩ tr := by
  have hstart : Stored ⟨0, []⟩ l₀ :=
    hb.elim fun _ _ _ _ _ => ⟨0, rfl, .zero⟩
  refine (run_checked (J := fun g l _ => Stored g l) watch_faithful_blind.quiet hb hstart ?_ ?_ ?_ hr).1
  · intro i g l h h' _ _ hg
    exact ⟨trivial, hg⟩
  · intro k l h k' l' h' hI hk hf
    exact hf.faithful hI hk
  · intro evt k l h k' l' h' _ hk hr
    refine hr.blind (J := fun k l => k.2 ∧ Stored k.1 l) watch_faithful_blind ?_ ?_ hk
    · rintro k l b sc l₁ h hb ⟨hp, hg⟩
      refine ⟨⟨hp, advertises_faithful hb⟩, ?_⟩
      cases b <;> exact hg
    · intro k l set n cs hk
      exact hk

/-- **Each sample holds the value of its frame, and each value sent carries it.** -/
theorem wire_checked (hb : Boot l₀ h₀) (hr : Runs bus l₀ h₀ tr l h) :
    Checked wire (fun k e => Faithful k.1 k.2 e) ([], ⟨0, []⟩) tr := by
  -- the same run on the bus with a record, which is empty at first
  obtain ⟨l₁, tr₁, l₂, hb₁, hr₁, -, rfl, -, hrec⟩ := run_keeping receives [] hb hr
  rw [← received_eq] at hrec
  have hr₁ : Runs bus.recorded l₁ h₀ tr₁ l₂ h := hr₁
  have hf : Checked framesOf FaithfulOf ⟨0, []⟩ tr₁ := faithful_recorded hb₁ hr₁
  exact (checked_history (fun _ _ _ _ => rfl) (fun _ _ _ _ => Iff.rfl) hrec).2 hf

/-- **From wire to characteristic.** In every run the samples have the values of their
frames, the values sent decode to the numbers published for these frames, and such a
number grows with the sample and determines the code of the temperature sensor. -/
theorem wire_faithful (hb : Boot l₀ h₀) (hr : Runs bus l₀ h₀ tr l h) :
    Checked wire (fun k e => Faithful k.1 k.2 e) ([], ⟨0, []⟩) tr ∧
    (∀ v v', v ≤ v' → published_value v ≤ published_value v') ∧
    ∀ b₀ b₁ b₂, -2 ^ 23 ≤ frame_value b₀ b₁ b₂ ∧ frame_value b₀ b₁ b₂ < 2 ^ 23 ∧
      32 * published_value (frame_value b₀ b₁ b₂) = temp_code b₀ b₁ := by
  refine ⟨wire_checked hb hr, fun _ _ => published_value_monotone, ?_⟩
  intro b₀ b₁ b₂
  obtain ⟨hl, hu⟩ := frame_value_range b₀ b₁ b₂
  exact ⟨hl, hu, published_value_code b₀ b₁ b₂⟩

/-- A device that answers every receive with `b`. -/
def answering (b : UInt8) : Env Op.Resp Irq (Local Unit) Shared where
  answer
    | .drv .SPIDRV_MReceiveB, _, _ => (ECODE_OK, b)
    | o, l, h => quietBench.answer o l h
  before _ _ _ := []

theorem wire_faithful_bench : ∃ tr l h, Runs anyBus (booted false false).1 (booted false false).2 tr l h ∧
    (l.user.data_sent_flag = 1 ∧ ∀ k, (l.user.sensor_data k).toInt = frame_value 0x80 0x80 0x80) ∧
    Checked wire (fun k e => Faithful k.1 k.2 e) ([], ⟨0, []⟩) tr := by
  obtain ⟨tr, l, h, hr, hP⟩ := bench_run (answering 0x80) (fires 1 ++ measurement)
    (P := fun _ l _ => l.user.data_sent_flag = 1 ∧ ∀ k, (l.user.sensor_data k).toInt = frame_value 0x80 0x80 0x80)
    (by decide +kernel)
  exact ⟨tr, l, h, hr, hP, (wire_faithful booted_boot hr).1⟩

end M20Strain
