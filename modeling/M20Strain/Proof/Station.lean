import M20Strain.Interrupt.Moves
import M20Strain.Model.Station
import M20Strain.Proof.Live
import M20Strain.Proof.Samples

/-!
# The firmware is a measuring station

`refines_station`: with every bus, every run from power-up is a path of the station, with the
samples it takes and the packets it publishes. `station_iff`: with a bus that can answer
anything the firmware can show exactly the paths of the station.
-/

namespace M20Strain

open Interrupt Prog

variable {D : Type} {bus : SpiBus D} {l l' : Local D} {h h' : Shared} {tr evs : List (Event D)} {s : Station}
  {w w' : List Act}

namespace Station

/-- A move leaves its state. -/
theorem Move.ne (hm : Move s w s) : False := by cases hm

/-- There is one move between two states. -/
theorem Move.unique {s' : Station} (h1 : Move s w s') (h2 : Move s w' s') : w = w' := by
  generalize hs : s' = t at h2
  cases h1 with
  | sample v hn =>
    cases h2 with
    | sample v' hn' =>
      obtain ⟨-, hv⟩ := List.append_inj (Station.sampled.inj hs) rfl
      rw [List.cons.inj hv |>.1]
  | _ => cases h2 <;> first | rfl | cases hs

end Station

theorem state_eq {s : states} (hs : l.current_state = s) : state l = s := by
  unfold state
  rw [hs]
  cases s <;> rfl

theorem station_eq {s : states} (hs : l.current_state = s) : station l = s.station l.user := by
  unfold station
  rw [state_eq hs]

/-- One more sample. -/
theorem taken_succ {u : app_fsm_t} {n : Int} (h0 : 0 ≤ n) (h4 : n < 4) :
    u.taken (n + 1) = u.taken n ++ [u.sensor_data ⟨n.toNat, by omega⟩] := by
  unfold app_fsm_t.taken
  have hlen : n.toNat < (List.ofFn u.sensor_data).length := by
    rw [List.length_ofFn]
    omega
  rw [show (n + 1).toNat = n.toNat + 1 by omega, List.take_succ_eq_append_getElem hlen, List.getElem_ofFn]

theorem taken_length {u : app_fsm_t} {n : Int} (h4 : n ≤ 4) : (u.taken n).length = n.toNat := by
  unfold app_fsm_t.taken
  rw [List.length_take, List.length_ofFn]
  omega

theorem blind_visible : Blind (collect (visible (D := D))) := by
  refine .collect ?_ (fun _ _ => rfl) ?_
  · intro o ho r l h
    unfold visible
    split <;> first | rfl | (rename_i heq; cases heq; cases ho)
  · intro o r l h h' ho
    rcases o with o | o | o <;> cases ho
    cases o <;> first | rfl | (rename_i f; cases f <;> rfl)

theorem stored_at {k : Int} {v : BitVec 32} (h0 : 0 ≤ k) (h4 : k < 4)
    (hw : (MainOp.wr_sensor_data k v).step () l = some l') :
    l'.current_state = l.current_state ∧ l'.user.num_data_retrieved = l.user.num_data_retrieved ∧
      l'.user.sensor_data = Function.update l.user.sensor_data ⟨k.toNat, by omega⟩ v := by
  simp only [MainOp.step] at hw
  rw [dif_pos ⟨h0, by omega⟩] at hw
  cases hw
  exact ⟨rfl, rfl, rfl⟩

/-- A sample that is stored has 24 bits. -/
theorem Fired.sample {G : Type} {μ : G → Event D → G} {g g' : G} (hf : Fired bus μ g l h g' l' h')
    (hs : l.current_state = states.ASKING_FOR_DATA) (hs' : l'.current_state = states.RETRIEVING_DATA)
    (h0 : 0 ≤ l.user.num_data_retrieved) (h4 : l.user.num_data_retrieved < 4) :
    ∃ v : BitVec 24, l'.user.sensor_data ⟨l.user.num_data_retrieved.toNat, by omega⟩ = v.signExtend 32 := by
  cases hf with
  | @retrieve v d l' g₁ h₁ g₂ h₂ g' h' _ hn hi hr hc hd hw hc' =>
    obtain ⟨t, dev, -, -, hv⟩ := returns_read_data_samples.1 hd
    rw [sample_value_eq] at hv
    rw [(stored_at h0 h4 hw).2.2, Function.update_self]
    exact ⟨_, hv⟩
  | stay s => exact absurd (hs.symm.trans hs') (by decide)
  | ask => exact absurd hs' (not_at (s := .ASKING_FOR_DATA) rfl (by decide))
  | send_ok | send_failed => exact absurd hs' (not_at (s := .SENDING_DATA) rfl (by decide))
  | power_up hs₁ | pin_wake hs₁ | timer_wake hs₁ | ask_all hs₁ | ask_again hs₁ | try_to_sleep hs₁
  | reset_timer_sleep hs₁ | reset_no_timer hs₁ => exact absurd hs (not_at hs₁ (by decide))

/-- The first `n` samples and a new one. -/
theorem taken_store {u u' : app_fsm_t} {n : Int} {v : BitVec 32} (h0 : 0 ≤ n) (h4 : n < 4)
    (hu : u'.sensor_data = Function.update u.sensor_data ⟨n.toNat, by omega⟩ v) :
    u'.taken (n + 1) = u.taken n ++ [v] := by
  have hsame : u'.taken n = u.taken n := by
    unfold app_fsm_t.taken
    rw [hu]
    refine List.ext_getElem (by simp) fun i hi hi' => ?_
    have hin : i < n.toNat := by
      rw [List.length_take] at hi
      omega
    rw [List.getElem_take, List.getElem_take, List.getElem_ofFn, List.getElem_ofFn, Function.update_of_ne]
    exact fun heq => hin.ne (Fin.mk.inj heq)
  rw [taken_succ h0 h4, hsame, hu, Function.update_self]

theorem taken_all {l : Local D} : packet (l.user.taken 4) = samples l := by
  unfold app_fsm_t.taken samples
  rw [List.take_of_length_le (by rw [List.length_ofFn]; decide)]

/-- Another conversion is started, with fewer than four samples. -/
theorem station_asked {d : Driver D} (hn : l.user.num_data_retrieved < 4) :
    station (asked l d) = .converting (l.user.taken l.user.num_data_retrieved) :=
  (station_eq (s := .ASKING_FOR_DATA) rfl).trans (if_pos hn)

/-- With four samples none is started. -/
theorem station_asked_all (hn : l.user.num_data_retrieved = 3) :
    station (asking (counted l)) = .sampled (l.user.taken 4) := by
  refine (station_eq (s := .ASKING_FOR_DATA) rfl).trans (if_neg ?_)
  simp [asking, counted, hn]

/-- A sample is stored after those taken. -/
theorem station_stored {d : Driver D} {v : BitVec 32} (h0 : 0 ≤ l.user.num_data_retrieved)
    (h4 : l.user.num_data_retrieved < 4)
    (hw : (MainOp.wr_sensor_data l.user.num_data_retrieved v).step () { retrieving l with driver := d } = some l') :
    station l' = .sampled (l.user.taken l.user.num_data_retrieved ++ [v]) := by
  obtain ⟨hs, hn, hu⟩ := stored_at h0 h4 hw
  have htaken : l'.user.taken (l'.user.num_data_retrieved + 1) = l.user.taken l.user.num_data_retrieved ++ [v] := by
    rw [hn]
    exact taken_store h0 h4 hu
  exact (station_eq (s := .RETRIEVING_DATA) hs).trans (congrArg Station.sampled htaken)

/-- **One `fsm_fire` is a move**, or cannot be seen. -/
theorem Emits.moves (he : Emits l h evs l') (hI : Inv l h)
    (hv : l.current_state = states.ASKING_FOR_DATA → l'.current_state = states.RETRIEVING_DATA →
      ∀ hn : l.user.num_data_retrieved.toNat < 4,
        ∃ v : BitVec 24, l'.user.sensor_data ⟨l.user.num_data_retrieved.toNat, hn⟩ = v.signExtend 32) :
    Steps Station.Move (station l) (evs.filterMap visible) (station l') := by
  have at_sampled (hs : l.current_state = states.ASKING_FOR_DATA) (hn : l.user.num_data_retrieved = 4) :
      station l = .sampled (l.user.taken 4) := by
    rw [station_eq hs]
    exact if_neg (by omega)
  have full {u : app_fsm_t} : (u.taken 4).length = 4 := taken_length le_rfl
  cases he with
  | stay s hs ht => exact .inl ⟨rfl, rfl⟩
  | power_up hs | pin_wake hs | timer_wake hs =>
    rw [station_eq hs, station_eq (s := .WAKING_UP) rfl]
    exact .inr .wake
  | @ask l₀ d₁ d₂ h₁ hs hn =>
    rw [station_asked hn]
    obtain ⟨hs, rfl⟩ | ⟨hs, rfl⟩ := hs
    · have hf := hI.fits hs
      have hz : l₀.user.num_data_retrieved = 0 := le_antisymm hf.num_le hf.num_nonneg
      rw [station_eq hs, hz]
      exact .inr .start
    · have hf := hI.fits hs
      have h0 := hf.num_nonneg
      rw [station_eq hs]
      refine .inr (.convert ?_)
      rw [taken_length (by exact hn.le)]
      simp only [counted] at hn ⊢
      omega
  | ask_all hs hn =>
    refine .inl ⟨rfl, ?_⟩
    rw [station_asked_all hn, station_eq hs]
    simp only [states.station, hn]
    rfl
  | @retrieve v d _ h₁ hs hn hw =>
    have h0 := (hI.fits hs).num_nonneg
    obtain ⟨hs', -, hu⟩ := stored_at h0 hn hw
    obtain ⟨b, hb⟩ := hv hs hs' (by omega)
    obtain rfl : v = b.signExtend 32 := by rw [← hb, hu, Function.update_self]
    have hfrom : station l = .converting (l.user.taken l.user.num_data_retrieved) :=
      (station_eq hs).trans (if_pos hn)
    rw [hfrom, station_stored h0 hn hw]
    refine .inr (.sample b ?_)
    rw [taken_length (by exact hn.le)]
    omega
  | @send_ok d s hs hn hk =>
    have hw : (entries (start .SENDING_DATA .power_down_interface_send_data l ++
        published (samples l) s (sending l d) ++ [did (.wr .data_sent_flag 1) () (sending l d)]) h).filterMap visible =
          [.publish (packet (l.user.taken 4)), .published true] := by
      simp [List.filterMap_cons, entries, start, published, Made.entry, visible, hk, strain_ne_temp, taken_all]
    rw [at_sampled hs hn, station_eq (s := .SENDING_DATA) rfl, hw]
    exact .inr (.send full)
  | @send_failed d s hs hn hk =>
    have hd := (hI.fits hs).not_sent (by decide)
    have hw : (entries (start .SENDING_DATA .power_down_interface_send_data l ++
        published (samples l) s (sending l d)) h).filterMap visible =
          [.publish (packet (l.user.taken 4)), .published false] := by
      simp [List.filterMap_cons, entries, start, published, Made.entry, visible, hk, strain_ne_temp, taken_all]
    have hto : station (sending l d) = .unsent := (station_eq (s := .SENDING_DATA) rfl).trans (if_pos hd)
    rw [at_sampled hs hn, hto, hw]
    exact .inr (.fail full)
  | ask_again hs hd =>
    rw [station_eq hs, station_eq (s := .WAKING_UP) rfl]
    simp only [states.station, hd, if_false]
    exact .inr .again
  | try_to_sleep hs hd =>
    rw [station_eq hs, station_eq (s := .TO_SLEEP) rfl]
    simp only [states.station, hd, if_false]
    exact .inr .rest
  | reset_timer_sleep hs hes hr =>
    rw [station_eq hs, station_eq (s := .SLEEPING) rfl]
    rw [List.filterMap_append, List.filterMap_cons_none rfl, List.filterMap_cons_none rfl, List.filterMap_append,
      hes.filterMap fun _ _ => rfl]
    exact .inr .sleep
  | reset_no_timer hs hr =>
    rw [station_eq hs, station_eq (s := .SLEEPING) rfl]
    exact .inr .sleep

/-- An event cannot be seen. -/
theorem Reacted.unseen {evt : sl_bt_evt} {g : List Act} (hr : Reacted bus (collect visible) [] l h evt g l' h') :
    g = [] ∧ station l' = station l := by
  refine hr.blind (J := fun g l₁ => g = [] ∧ station l₁ = station l) blind_visible ?_ ?_ ⟨rfl, rfl⟩
  · rintro _ l₁ b sc l₂ h hb ⟨rfl, hJ⟩
    refine ⟨?_, hJ⟩
    cases b <;> first | rfl | cases hb
  · exact fun _ _ _ _ _ hJ => hJ

theorem refines_station (bus : SpiBus D) :
    Refines (firmware bus) Task.body Inv station visible Station.Move where
  irq i l h h' hI hi := ⟨hI.handle hi, rfl⟩
  task t l h tr l' h' hI he := by
    have hg : tr.foldl (collect visible) [] = tr.filterMap visible := by
      rw [foldl_collect, List.nil_append]
    cases t with
    | app_process_action =>
      have hf := wp_iff.1 (wp_fired (g := []) blind_visible.quiet hI) _ _ _ _ he
      refine ⟨hf.inv hI, ?_⟩
      have hv (hs : l.current_state = states.ASKING_FOR_DATA) (hs' : l'.current_state = states.RETRIEVING_DATA)
          (hn : l.user.num_data_retrieved.toNat < 4) :=
        hf.sample hs hs' (hI.fits hs).num_nonneg (by omega)
      obtain ⟨evs, he, hevs⟩ := hf.emits blind_visible
      rw [hg, foldl_collect, List.nil_append] at hevs
      rw [hevs]
      exact he.moves hI hv
    | sl_bt_on_event evt =>
      have hr := wp_iff.1 (wp_reacted (g := []) blind_visible.quiet evt) _ _ _ _ he
      obtain ⟨hw, hs⟩ := hr.unseen
      exact ⟨hr.inv hI, .inl ⟨hg.symm.trans hw, hs⟩⟩

theorem Boot.asleep (hb : Boot l h) : station l = .asleep := hb.elim fun _ _ _ _ _ => station_eq (s := .SLEEPING) rfl

/-- **The firmware is a measuring station**: what every run from power-up shows is a path. -/
theorem run_station (hb : Boot l h) (hr : Runs bus l h tr l' h') :
    Path Station.Move .asleep (tr.filterMap visible) (station l') := by
  rw [← hb.asleep]
  exact (refines_station bus).path hr hb.inv

/-- One measurement, from power-up. -/
theorem run_station_packet : ∃ tr l h, Runs anyBus (booted false false).1 (booted false false).2 tr l h ∧
    station l = .sent ∧ Path Station.Move .asleep (tr.filterMap visible) (station l) := by
  obtain ⟨tr, l, h, hr, hs⟩ := bench_run quietBench (fires 1 ++ measurement)
    (P := fun _ l _ => station l = .sent) (by decide +kernel)
  exact ⟨tr, l, h, hr, hs, run_station booted_boot hr⟩

/-- Some run from `(l, h)` shows `w` and ends in `s'`. -/
def Shows (bus : SpiBus D) (l : Local D) (h : Shared) (w : List Act) (s' : Station) : Prop :=
  ∃ tr l' h', Runs bus l h tr l' h' ∧ tr.filterMap visible = w ∧ station l' = s'

theorem Shows.irq {i : Irq} (hi : handle i h = some h') : Shows bus l h' w s → Shows bus l h w s
  | ⟨tr, l', h'', hr, hw, hs⟩ => by
    have h1 : Runs bus l h ([] ++ [.irq i h]) l h' := .irq i .nil hi
    exact ⟨_, l', h'', h1.append hr, by rw [List.filterMap_append]; exact hw, hs⟩

/-- An `fsm_fire` that ends where a move leads. -/
theorem Shows.fire {s₀ : Station} (hI : Inv l h) (hc : Can bus l h l' h') (hs₀ : station l = s₀)
    (hm : Station.Move s₀ w s) (hs : station l' = s) : Shows bus l h w s := by
  obtain ⟨tr, ⟨⟩, l₁, h₁, he, -, rfl, rfl⟩ := may_iff.1 hc
  subst hs₀ hs
  refine ⟨_, l₁, h₁, .task .app_process_action .nil he, ?_, rfl⟩
  exact (refines_station bus).shows (t := .app_process_action) hI (fun _ _ hm => hm.ne)
    (fun _ _ _ _ h1 h2 => h1.unique h2) he hm

/-- An `fsm_fire` that stays cannot be seen. -/
theorem Shows.silent (hI : Inv l h) (hc : Can bus l h l' h') (hs' : station l' = station l)
    (H : Inv l' h' → Shows bus l' h' w s) : Shows bus l h w s := by
  obtain ⟨tr, ⟨⟩, l₁, h₁, he, -, rfl, rfl⟩ := may_iff.1 hc
  obtain ⟨hI', hsteps⟩ := (refines_station bus).task .app_process_action _ _ _ _ _ hI he
  rw [hs'] at hsteps
  have hnil : tr.filterMap visible = [] := hsteps.elim And.left fun hm => absurd hm fun hm => hm.ne
  obtain ⟨tr', l'', h'', hr, hw, hs⟩ := H hI'
  have h1 : Runs bus l h ([] ++ tr) l₁ h₁ := .task .app_process_action .nil he
  refine ⟨_, l'', h'', h1.append hr, ?_, hs⟩
  rw [List.filterMap_append, List.nil_append, hnil, List.nil_append, hw]

/-- The button can bring about either mode. -/
theorem Shows.mode (on : Prop) (hI : Inv l h)
    (H : ∀ h₁, Inv l h₁ → (h₁.change_mode_flag ≠ 0 ↔ on) → Shows bus l h₁ w s) : Shows bus l h w s := by
  by_cases hm : h.change_mode_flag ≠ 0 ↔ on
  · exact H h hI hm
  · refine .irq (i := .change_mode) rfl (H _ (hI.handle (i := .change_mode) rfl) ?_)
    simp only [change_mode_callback, cnot]
    grind

/-- On a bus that can answer anything every number of 24 bits can be read. -/
theorem read_ends (v : BitVec 24) (d : Driver Unit) :
    ∃ d', Ends (DrvOp.step anyBus) read_data_samples d (v.signExtend 32) d' := by
  let t : Fin 3 → Transfer := fun i => (ECODE_OK, ⟨v.extractLsb' (16 - 8 * i) 8⟩)
  refine ⟨_, returns_read_data_samples.2 ⟨t, (), ⟨(), rfl, (), rfl, (), rfl, rfl⟩, rfl, ?_⟩⟩
  rw [sample_value_eq]
  congr 1
  ext i hi
  simp only [t, Transfer.kept]
  grind

/-- With four samples, the packet is published. -/
theorem shows_full {l : Local Unit} {h : Shared} (hI : Inv l h) (hs : l.current_state = states.ASKING_FOR_DATA)
    (hn : l.user.num_data_retrieved = 4) (hm : Station.Move (.sampled (l.user.taken 4)) w s) :
    Shows anyBus l h w s := by
  have hfrom : station l = .sampled (l.user.taken 4) := (station_eq hs).trans (if_neg (by omega))
  have hlen : (l.user.taken 4).length = 4 := taken_length le_rfl
  have hd := (hI.fits hs).not_sent (by decide)
  obtain ⟨⟨⟩, d, hend⟩ := drv_ends anyBus temp_sense_off l.driver
  generalize hvs : l.user.taken 4 = vs at hm hlen hfrom
  cases hm with
  | convert h4 => omega
  | send h4 => exact .fire hI (can_send_ok hs hn hend) hfrom (.send h4) (station_eq (s := .SENDING_DATA) rfl)
  | fail h4 =>
    have hk : (1 : sl_status_t) ≠ SL_STATUS_OK := by decide
    refine .fire hI (can_send_failed hs hn hend hk) hfrom (.fail h4) ?_
    exact (station_eq (s := .SENDING_DATA) rfl).trans (if_pos hd)

theorem shows_sleeping {l : Local Unit} {h : Shared} (hI : Inv l h) (hs : l.current_state = states.SLEEPING)
    (hm : Station.Move (station l) w s) : Shows anyBus l h w s := by
  have hfrom : station l = .asleep := station_eq hs
  rw [hfrom] at hm
  cases hm with
  | wake =>
    have hw : l.user.wakeup_timer_flag = 1 := (hI.fits hs).wakeup_timer
    obtain ⟨r, d, hd⟩ := drv_ends anyBus begin l.driver
    obtain rfl := begin_ends hd
    have hto : station (woken l d) = .awake := station_eq (s := .WAKING_UP) rfl
    cases hr : l.em4Reset with
    | false => exact .fire hI (can_power_up hs hw hr hd) hfrom .wake hto
    | true =>
      by_cases ht : h.wakeupTimer = 1
      · exact .fire hI (can_timer_wake hs hw hr ht hd) hfrom .wake hto
      · exact .fire hI (can_pin_wake hs hw hr ht hd) hfrom .wake hto

theorem shows_waking_up {l : Local Unit} {h : Shared} (hI : Inv l h) (hs : l.current_state = states.WAKING_UP)
    (hm : Station.Move (station l) w s) : Shows anyBus l h w s := by
  have hfrom : station l = .awake := station_eq hs
  rw [hfrom] at hm
  cases hm with
  | start =>
    have hf := hI.fits hs
    have hz : l.user.num_data_retrieved = 0 := le_antisymm hf.num_le hf.num_nonneg
    obtain ⟨⟨⟩, d₁, hd₁⟩ := drv_ends anyBus temp_sense_on l.driver
    obtain ⟨⟨⟩, d₂, hd₂⟩ := drv_ends anyBus start_conv d₁
    refine .fire hI (can_ask (.inl ⟨hs, hf.wakeup_completed, rfl⟩) (by omega) hd₁ hd₂) hfrom .start ?_
    rw [station_asked (by omega), hz]
    rfl

theorem shows_asking {l : Local Unit} {h : Shared} (hI : Inv l h) (hs : l.current_state = states.ASKING_FOR_DATA)
    (hm : Station.Move (station l) w s) : Shows anyBus l h w s := by
  have hf := hI.fits hs
  have hle : l.user.num_data_retrieved ≤ 4 := hf.num_le
  by_cases hn : l.user.num_data_retrieved = 4
  · rw [station_eq hs, states.station, if_neg (by omega)] at hm
    exact shows_full hI hs hn hm
  · have h4 : l.user.num_data_retrieved < 4 := by omega
    have hfrom : station l = .converting (l.user.taken l.user.num_data_retrieved) :=
      (station_eq hs).trans (if_pos h4)
    rw [hfrom] at hm
    cases hm with
    | sample v hlen =>
      -- the conversion ends, and the bus answers `v`
      have hI' := hI.handle (i := .data_ready) rfl
      have hready : (ready_to_retrieve_callback 2 h).data_ready_flag ≠ 0 := by
        simp [ready_to_retrieve_callback]
      obtain ⟨d, hd⟩ := read_ends v l.driver
      obtain ⟨l₁, hw⟩ := store_ends { retrieving l with driver := d } l.user.num_data_retrieved (v.signExtend 32)
      exact .irq (i := .data_ready) rfl (.fire hI' (can_retrieve hs h4 hready hd hw) hfrom (.sample v hlen)
        (station_stored hf.num_nonneg h4 hw))

theorem shows_retrieving {l : Local Unit} {h : Shared} (hI : Inv l h)
    (hs : l.current_state = states.RETRIEVING_DATA) (hm : Station.Move (station l) w s) : Shows anyBus l h w s := by
  have hf := hI.fits hs
  have hle : l.user.num_data_retrieved ≤ 3 := hf.num_le
  have hpos := hf.num_nonneg
  have hfrom : station l = .sampled (l.user.taken (l.user.num_data_retrieved + 1)) := station_eq hs
  by_cases hn : l.user.num_data_retrieved = 3
  · -- the state in between asks for no sample
    have hsame : station l = .sampled (l.user.taken 4) := by
      rw [hfrom, hn]
      rfl
    refine .silent hI (can_ask_all hs hn) ((station_asked_all hn).trans hsame.symm) fun hI' => ?_
    refine shows_full hI' rfl ?_ (hsame ▸ hm)
    simp [asking, counted, hn]
  · have hlen : (l.user.taken (l.user.num_data_retrieved + 1)).length < 4 := by
      rw [taken_length (by omega)]
      omega
    rw [hfrom] at hm
    generalize hvs : l.user.taken (l.user.num_data_retrieved + 1) = vs at hm hlen hfrom
    cases hm with
    | convert h4 =>
      subst hvs
      obtain ⟨⟨⟩, d₁, hd₁⟩ := drv_ends anyBus temp_sense_on l.driver
      obtain ⟨⟨⟩, d₂, hd₂⟩ := drv_ends anyBus start_conv d₁
      have hn4 : (counted l).user.num_data_retrieved < 4 := by
        simp only [counted]
        omega
      exact .fire hI (can_ask (.inr ⟨hs, rfl⟩) hn4 hd₁ hd₂) hfrom (.convert h4) (station_asked hn4)
    | send h4 | fail h4 => omega

theorem shows_sending {l : Local Unit} {h : Shared} (hI : Inv l h) (hs : l.current_state = states.SENDING_DATA)
    (hm : Station.Move (station l) w s) : Shows anyBus l h w s := by
  by_cases hd : l.user.data_sent_flag = 0
  · have hfrom : station l = .unsent := (station_eq hs).trans (if_pos hd)
    rw [hfrom] at hm
    cases hm
  · have hfrom : station l = .sent := (station_eq hs).trans (if_neg hd)
    rw [hfrom] at hm
    cases hm with
    | again =>
      refine .mode True hI fun h₁ hI₁ hmode => ?_
      exact .fire hI₁ (can_ask_again hs hd (hmode.2 trivial)) hfrom .again (station_eq (s := .WAKING_UP) rfl)
    | rest =>
      refine .mode False hI fun h₁ hI₁ hmode => ?_
      have ht : Idle h₁ := (hI₁.fits hs).timer
      exact .fire hI₁ (can_try_to_sleep hs hd (not_not.1 hmode.1) ht.2) hfrom .rest (station_eq (s := .TO_SLEEP) rfl)

theorem shows_to_sleep {l : Local Unit} {h : Shared} (hI : Inv l h) (hs : l.current_state = states.TO_SLEEP)
    (hm : Station.Move (station l) w s) : Shows anyBus l h w s := by
  have hfrom : station l = .resting := station_eq hs
  rw [hfrom] at hm
  cases hm with
  | sleep =>
    have hp : l.user.sleep_possible_flag ≠ 0 := by
      rw [(hI.fits hs).sleep_possible]
      decide
    refine .mode True hI fun h₁ hI₁ hmode => ?_
    exact .fire hI₁ (can_reset_no_timer l.driver.ads hs hp (hmode.2 trivial)) hfrom .sleep
      (station_eq (s := .SLEEPING) rfl)

/-- **Every move can be made**, when the bus can answer anything. -/
theorem realises_station : Realises (firmware anyBus) Task.body Inv station visible Station.Move := by
  intro l h w s' hI hm
  obtain ⟨s, hs, -⟩ := id hI
  cases s with
  | SLEEPING => exact shows_sleeping hI hs hm
  | WAKING_UP => exact shows_waking_up hI hs hm
  | ASKING_FOR_DATA => exact shows_asking hI hs hm
  | RETRIEVING_DATA => exact shows_retrieving hI hs hm
  | SENDING_DATA => exact shows_sending hI hs hm
  | TO_SLEEP => exact shows_to_sleep hI hs hm

/-- **The firmware can show exactly the paths of the station.** -/
theorem station_iff : (∃ tr l h, Runs anyBus (booted false false).1 (booted false false).2 tr l h ∧
    tr.filterMap visible = w ∧ station l = s) ↔ Path Station.Move .asleep w s := by
  have hb : Boot (booted false false).1 (booted false false).2 := booted_boot
  rw [← hb.asleep]
  exact realises_station.path_iff (refines_station anyBus) hb.inv

end M20Strain
