import M20Strain.Proof.Runs

/-!
# What a blind monitor sees

A monitor is *blind* when it ignores the handlers, the quiet calls and, at the
main loop's own calls, the shared state. For it, one `fsm_fire` is a fixed list
of calls (`Emits`, one constructor for each way through a row), and its
invariants need no case for the handlers (`run_blind`, `run_blind_checked`).
-/

namespace M20Strain

open Interrupt Prog

variable {D : Type}

/-- A call of the main loop on its own state. -/
def Op.isMain : Op → Bool
  | .main _ => true
  | _ => false

structure Blind {G : Type} (μ : G → Event D → G) : Prop where
  quiet : Quiet μ
  irq : ∀ g i h, μ g (.irq i h) = g
  main : ∀ g o r l h h', o.isMain = true → μ g (.call o r l h) = μ g (.call o r l h')

/-- The entries of calls, all in shared state `h`. -/
def entries (es : List (Made Op.Resp (Local D))) (h : Shared) : List (Event D) := es.map (·.entry h)

variable (bus : SpiBus D)

/-- **The calls of one `fsm_fire`** from `(l, h)`, and the main loop's state after it.
The shared state is filled in with `h` where a blind monitor does not look. -/
inductive Emits (l : Local D) (h : Shared) : List (Event D) → Local D → Prop where
  | stay (s : states) (hs : l.current_state = s) (ht : s = .ASKING_FOR_DATA ∨ s = .SENDING_DATA ∨ s = .TO_SLEEP) :
      Emits l h [] l
  | power_up {d} (hs : l.current_state = states.SLEEPING) :
      Emits l h (entries (start .WAKING_UP .wake_up l) h) (woken l d)
  | pin_wake {d v h₁ h₂} (hs : l.current_state = states.SLEEPING) :
      Emits l h (entries (start .WAKING_UP .wake_up l) h ++ [.call (.shr .rd_wakeupTimer) v (roused l) h₁,
        .call (.shr (.wr .change_mode_flag 1)) () (roused l) h₂]) (woken l d)
  | timer_wake {d v h₁ h₂ h₃} (hs : l.current_state = states.SLEEPING) :
      Emits l h (entries (start .WAKING_UP .wake_up l) h ++ [.call (.shr .rd_wakeupTimer) v (roused l) h₁,
        .call (.shr (.wr .change_mode_flag 0)) () (roused l) h₂,
        .call (.shr (.wr_wakeupTimer 0)) () (roused l) h₃]) (woken l d)
  | ask {l₀ d₁ d₂ h₁}
      (hs : l.current_state = states.WAKING_UP ∧ l₀ = l ∨
        l.current_state = states.RETRIEVING_DATA ∧ l₀ = counted l)
      (hn : l₀.user.num_data_retrieved < 4) :
      Emits l h (entries (start .ASKING_FOR_DATA .ask_for_next_data l₀) h ++
        .call (.shr (.wr .data_ready_flag 0)) () (asking l₀) h₁ ::
        entries [did (.enter .start_conv) () (asked l₀ d₁)] h) (asked l₀ d₂)
  | ask_all {h₁} (hs : l.current_state = states.RETRIEVING_DATA) (hn : l.user.num_data_retrieved = 3) :
      Emits l h (entries (start .ASKING_FOR_DATA .ask_for_next_data (counted l)) h ++
        [.call (.shr (.wr .data_ready_flag 0)) () (asking (counted l)) h₁]) (asking (counted l))
  | retrieve {v d l' h₁} (hs : l.current_state = states.ASKING_FOR_DATA) (hn : l.user.num_data_retrieved < 4)
      (hw : (MainOp.wr_sensor_data l.user.num_data_retrieved v).step ()
        { retrieving l with driver := d } = some l') :
      Emits l h (entries (start .RETRIEVING_DATA .retrieve_data l) h ++
        .call (.shr (.wr .data_ready_flag 0)) () (moved l .RETRIEVING_DATA) h₁ ::
        entries [did (.wr_sensor_data l.user.num_data_retrieved v) () { retrieving l with driver := d }] h) l'
  | send_ok {d} (s : Fin 8 → sl_status_t) (hs : l.current_state = states.ASKING_FOR_DATA)
      (hn : l.user.num_data_retrieved = 4) (hk : s 7 = SL_STATUS_OK) :
      Emits l h (entries (start .SENDING_DATA .power_down_interface_send_data l ++
          published (samples l) s (sending l d) ++ [did (.wr .data_sent_flag 1) () (sending l d)]) h)
        { sending l d with user := { (sending l d).user with data_sent_flag := 1 } }
  | send_failed {d} (s : Fin 8 → sl_status_t) (hs : l.current_state = states.ASKING_FOR_DATA)
      (hn : l.user.num_data_retrieved = 4) (hk : s 7 ≠ SL_STATUS_OK) :
      Emits l h (entries (start .SENDING_DATA .power_down_interface_send_data l ++
        published (samples l) s (sending l d)) h) (sending l d)
  | ask_again (hs : l.current_state = states.SENDING_DATA) (hd : l.user.data_sent_flag ≠ 0) :
      Emits l h (entries (start .WAKING_UP .ask_again l ++
        [did (.wr .data_sent_flag 0) () (moved l .WAKING_UP)]) h) (again l)
  | try_to_sleep {h₁} (hs : l.current_state = states.SENDING_DATA) (hd : l.user.data_sent_flag ≠ 0) :
      Emits l h (entries (start .TO_SLEEP .try_to_sleep l ++
        [did (.wr .data_sent_flag 0) () (moved l .TO_SLEEP)]) h ++
        [.call (.shr (.sl_sleeptimer_start_timer 20000)) SL_STATUS_OK (drowsy l) h₁]) (sleepy l)
  | reset_timer_sleep {sc ads es h₁ h₂ h₃} (hs : l.current_state = states.TO_SLEEP)
      (hes : Closes (resetting l) l.user.nConnections.val 0 es) (hr : h₃.timerRunning = false) :
      Emits l h (entries (start .SLEEPING .reset_timer_sleep l) h ++
        .call (.shr (.wr .tmr_flag 0)) () (resetting l) h₁ ::
        .call (.shr .sl_sleeptimer_stop_timer) sc (resetting l) h₂ :: (entries es h ++
        [.call (.shr .EMU_EnterEM4) ads { resetting l with em4PinWakeup := true } h₃]))
        (new_app_fsm l.user.nConnections true true ads l.driver.dev).1
  | reset_no_timer {sc ads h₁ h₂ h₃} (hs : l.current_state = states.TO_SLEEP) (hr : h₃.timerRunning = false) :
      Emits l h (entries (start .SLEEPING .reset_no_timer l) h ++
        [.call (.shr (.wr .tmr_flag 0)) () (resetting l) h₁,
         .call (.shr .sl_sleeptimer_stop_timer) sc (resetting l) h₂,
         .call (.shr .EMU_EnterEM4) ads (resetting l) h₃])
        (new_app_fsm l.user.nConnections l.em4PinWakeup true ads l.driver.dev).1

variable {bus} {G : Type} {μ : G → Event D → G} {g g' : G} {l l' : Local D} {h h' : Shared}
  {es : List (Made Op.Resp (Local D))}

theorem Blind.irqs (hμ : Blind μ) (hi : Irqs (firmware bus) μ g h g' h') : g' = g := hi.ghost_eq hμ.irq

theorem Blind.calls (hμ : Blind μ) (hes : ∀ e ∈ es, e.op.isMain = true) (h₀ : Shared)
    (hc : Calls (firmware bus) μ es g h g' h') : g' = (entries es h₀).foldl μ g := by
  rw [entries, List.foldl_map]
  exact hc.eq_foldl hμ.irq (fun e he g h h' => hμ.main g e.op e.resp e.loc h h' (hes e he)) h₀

theorem Closes.isMain {n i : ℕ} (hes : Closes l n i es) : ∀ e ∈ es, e.op.isMain = true := by
  intro e he
  obtain ⟨c, sc, rfl⟩ := hes.mem e he
  rfl

/-- An entry of the loop of `reset_timer_sleep`. -/
theorem Closes.mem_entries {n i : ℕ} (hes : Closes l n i es) :
    ∀ e ∈ entries es h, ∃ c sc, e = .call (.main (.ble (.sl_bt_connection_close c))) sc l h := by
  intro e he
  obtain ⟨a, ha, rfl⟩ := List.mem_map.1 he
  obtain ⟨c, sc, rfl⟩ := hes.mem a ha
  exact ⟨c, sc, rfl⟩

/-- A monitor that ignores closed connections does not move in the loop. -/
theorem Closes.foldl {n i : ℕ} (hes : Closes l n i es)
    (hμ : ∀ g c sc l h, μ g (.call (.main (.ble (.sl_bt_connection_close c))) sc l h) = g) :
    (entries es h).foldl μ g = g := by
  induction n generalizing i es with
  | zero => rw [show es = [] from hes]; rfl
  | succ n ih =>
    obtain ⟨c, sc, es', -, rfl, hes⟩ := hes
    rw [entries, List.map_cons, List.foldl_cons, Made.entry, hμ]
    exact ih hes

/-- What is read off the loop, by who does not look at closed connections. -/
theorem Closes.filterMap {X : Type} {f : Event D → Option X} {n i : ℕ} (hes : Closes l n i es)
    (hf : ∀ c sc, f (.call (.main (.ble (.sl_bt_connection_close c))) sc l h) = none) :
    (entries es h).filterMap f = [] := by
  refine List.filterMap_eq_nil_iff.2 fun e he => ?_
  obtain ⟨c, sc, rfl⟩ := hes.mem_entries e he
  exact hf c sc

theorem Closes.any {p : Event D → Bool} {n i : ℕ} (hes : Closes l n i es)
    (hp : ∀ c sc, p (.call (.main (.ble (.sl_bt_connection_close c))) sc l h) = false) :
    (entries es h).any p = false := by
  refine List.any_eq_false.2 fun e he => ?_
  obtain ⟨c, sc, rfl⟩ := hes.mem_entries e he
  exact Bool.eq_false_iff.1 (hp c sc)

theorem Closes.checked {n i : ℕ} {c : G → Event D → Prop} (hes : Closes l n i es)
    (hc : ∀ g b sc l h, c g (.call (.main (.ble (.sl_bt_connection_close b))) sc l h)) :
    Checked μ c g (entries es h) := by
  refine checked_of_forall fun e he g => ?_
  obtain ⟨b, sc, rfl⟩ := hes.mem_entries e he
  exact hc _ _ _ _ _

/-- A timer that is stopped stays so. -/
theorem stopped {i : Irq} (hi : handle i h = some h') (hr : h.timerRunning = false) : h'.timerRunning = false := by
  rcases handle_timer hi with ⟨-, h2⟩ | ⟨-, hr', -⟩
  · exact h2.trans hr
  · rw [hr] at hr'; cases hr'

theorem eq_foldl_append {evs evs' : List (Event D)} (hg : evs'.foldl μ (evs.foldl μ g) = g') :
    g' = (evs ++ evs').foldl μ g := by rw [List.foldl_append, hg]

/-- **For a blind monitor, `Fired` is `Emits`.** -/
theorem Fired.emits (hμ : Blind μ) (hf : Fired bus μ g l h g' l' h') :
    ∃ evs, Emits l h evs l' ∧ g' = evs.foldl μ g := by
  have start_main {s : states} {f : Routine} {l : Local D} : ∀ e ∈ start s f l, e.op.isMain = true := by
    simp [start, Op.isMain]
  cases hf with
  | stay s hs ht hi => exact ⟨_, .stay s hs ht, hμ.irqs hi⟩
  | power_up hs hr hd hc => exact ⟨_, .power_up hs, hμ.calls start_main h hc⟩
  | pin_wake hs hr hd hc hw hi hi' =>
    obtain rfl := hμ.calls start_main h hc
    obtain rfl := hμ.irqs hi
    obtain rfl := hμ.irqs hi'
    exact ⟨_, .pin_wake hs, eq_foldl_append rfl⟩
  | timer_wake hs hr hd hc hw hi hi₂ hi₃ =>
    obtain rfl := hμ.calls start_main h hc
    obtain rfl := hμ.irqs hi
    obtain rfl := hμ.irqs hi₂
    obtain rfl := hμ.irqs hi₃
    exact ⟨_, .timer_wake hs, eq_foldl_append rfl⟩
  | ask hs hn hd₁ hd₂ hc hc' =>
    obtain rfl := hμ.calls start_main h hc
    obtain rfl := hμ.calls (by simp [Op.isMain]) h hc'
    exact ⟨_, .ask hs hn, eq_foldl_append rfl⟩
  | ask_all hs hn hc hi =>
    obtain rfl := hμ.calls start_main h hc
    obtain rfl := hμ.irqs hi
    exact ⟨_, .ask_all hs hn, eq_foldl_append rfl⟩
  | retrieve hs hn hi hr hc hd hw hc' =>
    obtain rfl := hμ.irqs hi
    obtain rfl := hμ.calls start_main h hc
    obtain rfl := hμ.calls (by simp [Op.isMain]) h hc'
    exact ⟨_, .retrieve hs hn hw, eq_foldl_append rfl⟩
  | send_ok s hs hn hd hk hc =>
    exact ⟨_, .send_ok s hs hn hk, hμ.calls (by simp [start, published, Op.isMain]) h hc⟩
  | send_failed s hs hn hd hk hc =>
    exact ⟨_, .send_failed s hs hn hk, hμ.calls (by simp [start, published, Op.isMain]) h hc⟩
  | ask_again hs hd hi hm hc =>
    obtain rfl := hμ.irqs hi
    exact ⟨_, .ask_again hs hd, hμ.calls (by simp [start, Op.isMain]) h hc⟩
  | try_to_sleep hs hd hi hm hc hr hi' =>
    obtain rfl := hμ.irqs hi
    obtain rfl := hμ.calls (by simp [start, Op.isMain]) h hc
    obtain rfl := hμ.irqs hi'
    exact ⟨_, .try_to_sleep hs hd, eq_foldl_append rfl⟩
  | @reset_timer_sleep _ _ _ _ _ h₃ _ h₄ _ h₅ _ _ sc ads es hs hi₁ hm hi₂ ht hc hi₃ hes hc' hi =>
    -- the timer was stopped before the connections, and no handler starts it
    have hr := Calls.stable_shared (P := fun h => h.timerRunning = false) (fun i h h' hi hr => stopped hi hr) hc' rfl
    obtain rfl := hμ.irqs hi₁
    obtain rfl := hμ.irqs hi₂
    obtain rfl := hμ.calls start_main h hc
    obtain rfl := hμ.irqs hi₃
    obtain rfl := hμ.calls hes.isMain h hc'
    obtain rfl := hμ.irqs hi
    refine ⟨_, @Emits.reset_timer_sleep D l h sc ads es h₃ h₄ h₅ hs hes hr, ?_⟩
    simp only [List.foldl_append, List.foldl_cons, List.foldl_nil]
  | reset_no_timer hs hi₁ hm hc hi₂ hi₃ hi =>
    have hr := Calls.stable_shared (P := fun h => h.timerRunning = false) (fun i h h' hi hr => stopped hi hr)
      hi₃.calls rfl
    obtain rfl := hμ.irqs hi₁
    obtain rfl := hμ.calls start_main h hc
    obtain rfl := hμ.irqs hi₂
    obtain rfl := hμ.irqs hi₃
    obtain rfl := hμ.irqs hi
    exact ⟨_, .reset_no_timer hs hr, eq_foldl_append rfl⟩

variable {tr : List (Event D)} {J : G → Local D → Prop}

/-- What an event keeps, for a blind monitor: it makes calls that advertise, and changes
the table of connections. -/
theorem Reacted.blind (hμ : Blind μ) {evt : sl_bt_evt}
    (hadv : ∀ g l b sc l₁ h, b.advertises = true → J g l → J (μ g (.call (.main (.ble b)) sc l₁ h)) l)
    (htab : ∀ g l set n cs, J g l →
      J g { l with advertising_set_handle := set, nConnections := n, connections := cs })
    (hJ : J g l) (hr : Reacted bus μ g l h evt g' l' h') : J g' l' := by
  have adv {es : List (Made Op.Resp (Local D))} {h₁ : Shared} (hes : Advertises es)
      (hc : Calls (firmware bus) μ es g h g' h₁) : J g' l := by
    refine hc.stable (P := fun g _ => J g l) ?_ ?_ hJ
    · intro i g h _ _ hJ
      rw [hμ.irq]
      exact hJ
    · intro e he g h hJ
      obtain ⟨b, sc, l₁, hb, rfl⟩ := hes e he
      exact hadv g l b sc l₁ h hb hJ
  cases hr with
  | system_boot hes hc => exact htab _ _ _ _ _ (adv hes hc)
  | connection_opened hn hi =>
    rw [hμ.irqs hi]
    exact htab _ _ _ _ _ hJ
  | connection_closed hes hc => exact adv hes hc
  | other hi =>
    rw [hμ.irqs hi]
    exact hJ

/-- **Invariants of a blind monitor** and the main loop's state. -/
theorem run_blind (hμ : Blind μ) (hb : Boot l h) (h0 : J g l)
    (hfire : ∀ g l h evs l', Inv l h → J g l → Emits l h evs l' → J (evs.foldl μ g) l')
    (hadv : ∀ g l b sc l₁ h, b.advertises = true → J g l → J (μ g (.call (.main (.ble b)) sc l₁ h)) l)
    (htab : ∀ g l set n cs, J g l →
      J g { l with advertising_set_handle := set, nConnections := n, connections := cs })
    (hr : Runs bus l h tr l' h') : J (tr.foldl μ g) l' := by
  refine (run_invariant (J := fun g l _ => J g l) hμ.quiet hb h0 ?_ ?_ ?_ hr).2
  · intro i g l h h' _ _ hJ
    rw [hμ.irq]
    exact hJ
  · intro g l h g' l' h' hI hJ hf
    obtain ⟨evs, he, rfl⟩ := hf.emits hμ
    exact hfire g l h evs l' hI hJ he
  · intro evt g l h g' l' h' _ hJ hr
    exact hr.blind hμ hadv htab hJ

theorem Blind.seen {p : Event D → Bool} (hq : ∀ o : Op, o.quiet = true → ∀ r l h, p (.call o r l h) = false)
    (hi : ∀ i h, p (.irq i h) = false)
    (hm : ∀ o r l h h', o.isMain = true → p (.call o r l h) = p (.call o r l h')) : Blind (seen p) where
  quiet := Quiet.seen hq
  irq g i h := by rw [Interrupt.seen, hi, Bool.or_false]
  main g o r l h h' ho := by rw [Interrupt.seen, Interrupt.seen, hm o r l h h' ho]

theorem Blind.collect {X : Type} {f : Event D → Option X}
    (hq : ∀ o : Op, o.quiet = true → ∀ r l h, f (.call o r l h) = none) (hi : ∀ i h, f (.irq i h) = none)
    (hm : ∀ o r l h h', o.isMain = true → f (.call o r l h) = f (.call o r l h')) : Blind (collect f) where
  quiet o ho g r l h := by rw [Interrupt.collect, hq o ho, Option.toList_none, List.append_nil]
  irq g i h := by rw [Interrupt.collect, hi, Option.toList_none, List.append_nil]
  main g o r l h h' ho := by rw [Interrupt.collect, Interrupt.collect, hm o r l h h' ho]

theorem Blind.watch {c : G → Event D → Prop} (hμ : Blind μ)
    (hq : ∀ o : Op, o.quiet = true → ∀ g r l h, c g (.call o r l h)) (hi : ∀ g i h, c g (.irq i h))
    (hm : ∀ g o r l h h', o.isMain = true → (c g (.call o r l h) ↔ c g (.call o r l h'))) :
    Blind (watch μ c) where
  quiet := hμ.quiet.watch hq
  irq g i h := Prod.ext (hμ.irq g.1 i h) (by simp only [Interrupt.watch, hi, and_true])
  main g o r l h h' ho :=
    Prod.ext (hμ.main g.1 o r l h h' ho) (by simp only [Interrupt.watch, hm g.1 o r l h h' ho])

/-- **Checks of a blind monitor**: it is enough to check the calls of each `fsm_fire`. -/
theorem run_blind_checked {c : G → Event D → Prop} (hμ : Blind (Interrupt.watch μ c)) (hb : Boot l h)
    (h0 : J g l)
    (hfire : ∀ g l h evs l', Inv l h → J g l → Emits l h evs l' → Checked μ c g evs ∧ J (evs.foldl μ g) l')
    (hadv : ∀ g l b sc l₁ h, b.advertises = true → J g l →
      c g (.call (.main (.ble b)) sc l₁ h) ∧ J (μ g (.call (.main (.ble b)) sc l₁ h)) l)
    (htab : ∀ g l set n cs, J g l →
      J g { l with advertising_set_handle := set, nConnections := n, connections := cs })
    (hr : Runs bus l h tr l' h') : Checked μ c g tr ∧ J (tr.foldl μ g) l' := by
  have H := run_blind (J := fun k l => k.2 ∧ J k.1 l) (g := (g, True)) hμ hb ⟨trivial, h0⟩ ?_ ?_ ?_ hr
  · rw [foldl_watch] at H
    exact ⟨H.1.2, H.2⟩
  · rintro ⟨g, p⟩ l h evs l' hI ⟨hp, hJ⟩ he
    obtain ⟨h1, h2⟩ := hfire g l h evs l' hI hJ he
    rw [foldl_watch]
    exact ⟨⟨hp, h1⟩, h2⟩
  · rintro ⟨g, p⟩ l b sc l₁ h hb ⟨hp, hJ⟩
    obtain ⟨h1, h2⟩ := hadv g l b sc l₁ h hb hJ
    exact ⟨⟨hp, h1⟩, h2⟩
  · exact fun g l set n cs hJ => ⟨hJ.1, htab _ _ _ _ _ hJ.2⟩

/-- **Two checks of a blind monitor** that agree on each `fsm_fire` agree on every run. -/
theorem run_blind_iff {c c' : G → Event D → Prop} (hμ : Blind (Interrupt.watch (Interrupt.watch μ c) fun k => c' k.1))
    (hb : Boot l h)
    (hfire : ∀ g l h evs l', Inv l h → Emits l h evs l' → (Checked μ c g evs ↔ Checked μ c' g evs))
    (hadv : ∀ g b sc l₁ h, b.advertises = true →
      (c g (.call (.main (.ble b)) sc l₁ h) ↔ c' g (.call (.main (.ble b)) sc l₁ h)))
    (hr : Runs bus l h tr l' h') : Checked μ c g tr ↔ Checked μ c' g tr := by
  have H := run_blind (J := fun k _ => k.1.2 ↔ k.2) (g := ((g, True), True)) hμ hb Iff.rfl ?_ ?_ ?_ hr
  · rw [foldl_watch, foldl_watch, checked_watch] at H
    simpa using H
  · rintro ⟨⟨g, p⟩, q⟩ l h evs l' hI (hJ : p ↔ q) he
    rw [foldl_watch, foldl_watch, checked_watch]
    exact and_congr hJ (hfire g l h evs l' hI he)
  · rintro ⟨⟨g, p⟩, q⟩ l b sc l₁ h hb (hJ : p ↔ q)
    exact and_congr hJ (hadv g b sc l₁ h hb)
  · exact fun _ _ _ _ _ hJ => hJ

theorem Blind.blind : Blind (blind : Unit → Event D → Unit) :=
  ⟨.blind, fun _ _ _ => rfl, fun _ _ _ _ _ _ _ => rfl⟩

end M20Strain
