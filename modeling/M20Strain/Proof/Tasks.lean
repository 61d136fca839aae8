import M20Strain.Model.Gatt
import M20Strain.Model.Init
import M20Strain.Proof.Commands
import M20Strain.Proof.Publish

/-!
# What the tasks can ever call

`Task.proper`: whatever they are answered, the tasks send frames of commands to the ADS1220
only, write and notify attributes as the GATT database has them, and are written without the
undefined behaviour that the model knows. `Task.last_restart`: a task that enters EM4 does
nothing after it. `connecting_sl_bt_on_event`: events set up and record connections only.
-/

namespace M20Strain

open Interrupt Prog

variable {P : Op → Prop} {α : Type}

theorem all_own {o : MainOp} : AllCalls P (own o) ↔ P (.main o) := AllCalls.op_iff

section Fire

variable {tt : List (fsm_trans_t AppM)}

theorem all_fsm_fire (hrd : P (.main .rd_current_state)) (hwr : ∀ s, P (.main (.wr_current_state s)))
    (hin : ∀ t ∈ tt, ∀ guard ∈ t.input, AllCalls P guard) (hout : ∀ t ∈ tt, ∀ out ∈ t.out, AllCalls P out) :
    AllCalls P (fsm_fire (own .rd_current_state) (fun s => own (.wr_current_state s)) tt) := by
  induction tt with
  | nil => trivial
  | cons t tt ih =>
    have ih := ih (fun t ht => hin t (List.mem_cons_of_mem _ ht)) fun t ht => hout t (List.mem_cons_of_mem _ ht)
    unfold fsm_fire
    split
    · trivial
    refine (all_own.2 hrd).bind fun s => ?_
    split
    · split
      · trivial
      rename_i guard hguard
      refine (hin t List.mem_cons_self guard hguard).bind fun b => ?_
      split
      · refine (all_own.2 (hwr _)).bind fun _ => ?_
        split
        · rename_i out hout'
          exact (hout t List.mem_cons_self out hout').bind fun _ => trivial
        · trivial
      · exact ih
    · exact ih

theorem last_fsm_fire (hrd : ¬ P (.main .rd_current_state)) (hwr : ∀ s, ¬ P (.main (.wr_current_state s)))
    (hin : ∀ t ∈ tt, ∀ guard ∈ t.input, AllCalls (fun o => ¬ P o) guard)
    (hout : ∀ t ∈ tt, ∀ out ∈ t.out, Last P out) :
    Last P (fsm_fire (own .rd_current_state) (fun s => own (.wr_current_state s)) tt) := by
  induction tt with
  | nil => trivial
  | cons t tt ih =>
    have ih := ih (fun t ht => hin t (List.mem_cons_of_mem _ ht)) fun t ht => hout t (List.mem_cons_of_mem _ ht)
    unfold fsm_fire
    split
    · trivial
    refine .after (all_own.2 hrd) fun s => ?_
    split
    · split
      · trivial
      rename_i guard hguard
      refine .after (hin t List.mem_cons_self guard hguard) fun b => ?_
      split
      · refine .after (all_own.2 (hwr _)) fun _ => ?_
        split
        · rename_i out hout'
          exact (hout t List.mem_cons_self out hout').map fun _ => FireEnd.took
        · trivial
      · exact ih
    · exact ih

/-- A trace of calls that satisfy `P`, and then of the action of a row, if any. -/
def Scans {D : Type} (M : Machine Op.Resp Irq (Local D) Shared) (P : Op → Prop) (tt : List (fsm_trans_t AppM))
    (tr : List (Event D)) (l' : Local D) (h' : Shared) : Prop :=
  ∃ tr₁ tr₂, tr = tr₁ ++ tr₂ ∧ (∀ e ∈ tr₁, e.OfCall P) ∧
    (tr₂ = [] ∨ ∃ t ∈ tt, ∃ out ∈ t.out, ∃ l₁ h₁, Exec M out l₁ h₁ tr₂ () l' h')

section Scans

variable {D : Type} {M : Machine Op.Resp Irq (Local D) Shared} {l l' : Local D} {h h' : Shared}
  {tr tr₁ : List (Event D)}

theorem Scans.look (htr : ∀ e ∈ tr, e.OfCall P) : Scans M P tt tr l' h' :=
  ⟨tr, [], (List.append_nil tr).symm, htr, .inl rfl⟩

theorem Scans.after (h1 : ∀ e ∈ tr₁, e.OfCall P) (hs : Scans M P tt tr l' h') : Scans M P tt (tr₁ ++ tr) l' h' := by
  obtain ⟨tr₂, tr₃, rfl, h2, h3⟩ := hs
  exact ⟨tr₁ ++ tr₂, tr₃, (List.append_assoc _ _ _).symm, List.forall_mem_append.2 ⟨h1, h2⟩, h3⟩

theorem Scans.cons {t : fsm_trans_t AppM} (hs : Scans M P tt tr l' h') : Scans M P (t :: tt) tr l' h' := by
  obtain ⟨tr₂, tr₃, rfl, h2, h3⟩ := hs
  refine ⟨tr₂, tr₃, rfl, h2, h3.imp_right ?_⟩
  rintro ⟨t', ht', hout⟩
  exact ⟨t', List.mem_cons_of_mem _ ht', hout⟩

/-- **An execution of `fsm_fire`** looks at the table, and then runs the action of a row, if any. -/
theorem fsm_fire_scans {r : FireEnd} (hrd : P (.main .rd_current_state))
    (hwr : ∀ s, P (.main (.wr_current_state s))) (hin : ∀ t ∈ tt, ∀ guard ∈ t.input, AllCalls P guard)
    (he : Exec M (fsm_fire (own .rd_current_state) (fun s => own (.wr_current_state s)) tt) l h tr r l' h') :
    Scans M P tt tr l' h' := by
  have ret {r r' : FireEnd} {l h tr} (he : Exec M (.ret r) l h tr r' l' h') : ∀ e ∈ tr, e.OfCall P :=
    AllCalls.entries (p := .ret r) trivial he
  induction tt generalizing l h tr with
  | nil => exact .look (ret he)
  | cons t tt ih =>
    have ih {l h tr} := @ih l h tr fun t ht => hin t (List.mem_cons_of_mem _ ht)
    unfold fsm_fire at he
    split at he
    · exact .look (ret he)
    obtain ⟨s, tr₁, l₁, h₁, tr, rfl, h1, he⟩ := he.of_bind
    refine .after ((all_own.2 hrd).entries h1) ?_
    split at he
    · split at he
      · exact .look (ret he)
      rename_i guard hguard
      obtain ⟨b, tr₁, l₂, h₂, tr, rfl, h1, he⟩ := he.of_bind
      refine .after ((hin t List.mem_cons_self guard hguard).entries h1) ?_
      split at he
      · obtain ⟨⟨⟩, tr₁, l₃, h₃, tr, rfl, h1, he⟩ := he.of_bind
        refine .after ((all_own.2 (hwr _)).entries h1) ?_
        split at he
        · rename_i out hout
          obtain ⟨⟨⟩, he⟩ := he.of_map
          exact ⟨[], tr, rfl, List.forall_mem_nil _, .inr ⟨t, List.mem_cons_self, out, hout, l₃, h₃, he⟩⟩
        · exact .look (ret he)
      · exact (ih he).cons
    · exact (ih he).cons

end Scans

end Fire

/-- Calls on single variables, those of `app.c` excepted; of what handlers share, reads only. -/
def Op.Plain : Op → Prop
  | .drv _ | .main (.enter _) | .main (.ble _) | .main (.app_assert_status _) | .main (.wr_connections _ _)
  | .main .rd_nConnections | .main (.rd_connections _) | .main .rd_advertising_set_handle
  | .main .undefined_behaviour => False
  | .main _ | .shr (.rd _) => True
  | .shr _ => False

theorem plain_guards : ∀ t ∈ app_fsm_tt, ∀ guard ∈ t.input, AllCalls Op.Plain guard := by
  simp only [app_fsm_tt, List.forall_mem_cons, Option.mem_def, Option.some.injEq, forall_eq', List.not_mem_nil,
    false_imp_iff, implies_true, and_true, reduceCtorEq]
  refine ⟨?_, ?_, ?_, ?_, ?_, ?_, ?_, ?_, ?_, ?_, ?_⟩
  · exact ⟨trivial, fun _ => trivial⟩
  · exact ⟨trivial, fun _ => trivial⟩
  · exact ⟨trivial, fun _ => trivial⟩
  · exact ⟨trivial, fun _ => trivial⟩
  · exact ⟨trivial, fun _ => .ite ⟨trivial, fun _ => trivial⟩ trivial⟩
  · exact ⟨trivial, fun _ => ⟨trivial, fun _ => ⟨trivial, fun _ => ⟨trivial, fun _ => trivial⟩⟩⟩⟩
  · exact ⟨trivial, fun _ => .ite ⟨trivial, fun _ => trivial⟩ trivial⟩
  · exact ⟨trivial, fun _ => .ite ⟨trivial, fun _ => trivial⟩ trivial⟩
  · exact ⟨trivial, fun _ => .ite ⟨trivial, fun _ => trivial⟩ trivial⟩
  · exact ⟨trivial, fun _ => .ite ⟨trivial, fun _ => .ite ⟨trivial, fun _ => trivial⟩ trivial⟩ trivial⟩
  · exact ⟨trivial, fun _ => trivial⟩

/-- What a task calls before it restarts the device, if it does. Only events are asserted, and
recorded; what they record is read back from the table of connections only (`table`), by
`reset_timer_sleep`. -/
def Op.Steady (event table : Bool) : Op → Prop
  | .drv o => o.Framed
  | .main (.ble c) => c.fits = true
  | .main (.app_assert_status _) | .main (.wr_connections _ _)
  | .main .rd_nConnections | .main .rd_advertising_set_handle => event = true
  | .main (.rd_connections _) | .main (.enter .reset_timer_sleep) => table = true
  | .main .undefined_behaviour | .shr .EMU_EnterEM4 => False
  | .main _ | .shr _ => True

/-- What the tasks call. -/
def Op.Proper (event table : Bool) (o : Op) : Prop := o.Steady event table ∨ o.restarts = true

section Steady

variable {event table : Bool} {o : Op}

theorem Op.Plain.steady (ho : o.Plain) : o.Steady event table := by
  cases o with
  | drv o => cases ho
  | shr o => cases o <;> trivial
  | main o => cases o <;> trivial

theorem Op.Steady.not_restarts (ho : o.Steady event table) : ¬ o.restarts = true := by
  cases o with
  | drv o | main o => exact Bool.false_ne_true
  | shr o => cases o <;> first | exact Bool.false_ne_true | cases ho

/-- Others may do more. -/
theorem Op.Proper.mono {event' table' : Bool} (he : event = true → event' = true) (ht : table = true → table' = true)
    (ho : o.Proper event table) : o.Proper event' table' := by
  rcases ho with ho | ho
  · refine .inl ?_
    cases o with
    | drv o => exact ho
    | shr o => cases o <;> exact ho
    | main o =>
      cases o with
      | enter f => cases f <;> first | exact ho | exact ht ho
      | _ => first | exact ho | exact he ho | exact ht ho
  · exact .inr ho

end Steady

theorem all_ads1220 {p : DrvM α} (hp : AllCalls (fun o => P (.drv o)) p) : AllCalls P (ads1220 p) := hp.embed

theorem steady_ads1220 {p : DrvM α} (hp : AllCalls DrvOp.Framed p) : AllCalls (Op.Steady false false) (ads1220 p) :=
  all_ads1220 (hp.imp fun _ ho => ho)

theorem steady_set_mode (resetCause : UInt32) : AllCalls (Op.Steady false false) (set_mode resetCause) := by
  refine .ite ⟨trivial, fun _ => .ite ?_ ?_⟩ trivial
  · exact ⟨trivial, fun _ => ⟨trivial, fun _ => trivial⟩⟩
  · exact ⟨trivial, fun _ => trivial⟩

theorem steady_wake_up : AllCalls (Op.Steady false false) wake_up := by
  refine ⟨trivial, fun _ => ⟨trivial, fun _ => ⟨trivial, fun _ => ⟨trivial, fun _ => ⟨trivial, fun cause => ?_⟩⟩⟩⟩⟩
  refine ⟨trivial, fun _ => (steady_set_mode cause).bind fun _ => ⟨trivial, fun _ => ?_⟩⟩
  exact (steady_ads1220 framed_begin).bind fun _ => .ite ⟨trivial, fun _ => trivial⟩ trivial

theorem steady_ask_for_sample : AllCalls (Op.Steady false false) ask_for_sample := by
  refine ⟨trivial, fun _ => (steady_ads1220 (Operation.framed .temp_sense_on)).bind fun _ => ⟨trivial, fun _ => ?_⟩⟩
  exact steady_ads1220 (Operation.framed .start_conv)

theorem steady_ask_for_next_data : AllCalls (Op.Steady false false) ask_for_next_data := by
  refine ⟨trivial, fun _ => ⟨trivial, fun _ => ⟨trivial, fun _ => ⟨trivial, fun _ => ⟨trivial, fun n => ?_⟩⟩⟩⟩⟩
  exact .ite steady_ask_for_sample (.ite steady_ask_for_sample trivial)

theorem steady_retrieve_data : AllCalls (Op.Steady false false) retrieve_data := by
  refine ⟨trivial, fun _ => ⟨trivial, fun _ => ⟨trivial, fun _ => ⟨trivial, fun n => ?_⟩⟩⟩⟩
  exact (steady_ads1220 framed_read_data_samples).bind fun _ => ⟨trivial, fun _ => trivial⟩

theorem write_fits (i : Fin 4) {value : List UInt8} (hv : value.length = 4) :
    (BleCall.sl_bt_gatt_server_write_attribute_value (characteristic i) 0 value).fits = true := by
  match value, hv with
  | [_, _, _, _], _ => fin_cases i <;> rfl

theorem notify_fits (i : Fin 4) {value : List UInt8} (hv : value.length = 4) :
    (BleCall.sl_bt_gatt_server_notify_all (characteristic i) value).fits = true := by
  match value, hv with
  | [_, _, _, _], _ => fin_cases i <;> rfl

theorem steady_send_value (i : Fin 4) {number rebmun : List UInt8} (hn : 4 ≤ number.length) (hr : rebmun.length = 4)
    {k : sl_status_t × List UInt8 → AppM α}
    (hk : ∀ sc rebmun, rebmun.length = 4 → AllCalls (Op.Steady false false) (k (sc, rebmun))) :
    AllCalls (Op.Steady false false) (send_value (characteristic i) number 16 rebmun >>= k) := by
  rw [send_value_eq hn (by omega) hr]
  have hlen : (number.take (16 / 4)).reverse.length = 4 := by simp [hn]
  exact ⟨write_fits i hlen, fun _ => ⟨notify_fits i hlen, fun sc => hk sc _ hlen⟩⟩

theorem steady_send_data {number : List UInt8} (hn : number.length = 16) :
    AllCalls (Op.Steady false false) (sl_bt_torque_send_data number 16) := by
  have hlen (n : ℕ) (hd : n ≤ 12) : 4 ≤ (number.drop n).length := by
    rw [List.length_drop]
    omega
  refine ⟨trivial, fun _ => steady_send_value 0 (by omega) rfl fun _ _ hr => ?_⟩
  refine steady_send_value 1 (hlen 4 (by decide)) hr fun _ _ hr => ?_
  rw [List.drop_drop]
  refine steady_send_value 2 (hlen 8 (by decide)) hr fun _ _ hr => ?_
  rw [List.drop_drop]
  exact steady_send_value 3 (hlen 12 (by decide)) hr fun _ _ _ => trivial

theorem packet_length (d₀ d₁ d₂ d₃ : BitVec 32) : (packet [d₀, d₁, d₂, d₃]).length = 16 := rfl

theorem steady_power_down : AllCalls (Op.Steady false false) power_down_interface_send_data := by
  refine ⟨trivial, fun _ => ⟨trivial, fun _ => ?_⟩⟩
  refine (steady_ads1220 (Operation.framed .temp_sense_off)).bind fun _ => ?_
  refine ⟨trivial, fun d₀ => ⟨trivial, fun d₁ => ⟨trivial, fun d₂ => ⟨trivial, fun d₃ => ?_⟩⟩⟩⟩
  exact (steady_send_data (packet_length d₀ d₁ d₂ d₃)).bind fun _ => .ite ⟨trivial, fun _ => trivial⟩ trivial

theorem steady_start_timer (aux : Bool) : AllCalls (Op.Steady false false) (start_timer aux) :=
  .ite trivial ⟨trivial, fun _ => trivial⟩

theorem steady_try_to_sleep : AllCalls (Op.Steady false false) try_to_sleep := by
  refine ⟨trivial, fun _ => ⟨trivial, fun _ => ⟨trivial, fun aux => ?_⟩⟩⟩
  exact (steady_start_timer aux).bind fun _ => ⟨trivial, fun _ => trivial⟩

theorem steady_close (n i : ℕ) : AllCalls (Op.Steady false true) (close_connections n i) := by
  induction n generalizing i with
  | zero => trivial
  | succ n ih => exact ⟨rfl, fun c => ⟨rfl, fun _ => ih (i + 1)⟩⟩

section Last

variable {event table : Bool}

/-- The actions that restart the device do it last. -/
theorem restarts_last {p : AppM Unit} (hp : AllCalls (Op.Steady event table) p) :
    Last (fun o => o.restarts = true) (p >>= fun _ => shr .EMU_EnterEM4 >>= fun _ => pure ()) ∧
      AllCalls (Op.Proper event table) (p >>= fun _ => shr .EMU_EnterEM4 >>= fun _ => pure ()) := by
  constructor
  · exact .after (hp.imp fun _ => Op.Steady.not_restarts) fun _ => ⟨fun _ _ => ⟨(), rfl⟩, fun _ => trivial⟩
  · exact (hp.imp fun _ => .inl).bind fun _ => ⟨.inr rfl, fun _ => trivial⟩

theorem steady_last {p : AppM α} (hp : AllCalls (Op.Steady event table) p) :
    Last (fun o => o.restarts = true) p ∧ AllCalls (Op.Proper event table) p :=
  ⟨.of_not (hp.imp fun _ => Op.Steady.not_restarts), hp.imp fun _ => .inl⟩

end Last

theorem reset_timer_sleep_last :
    Last (fun o => o.restarts = true) reset_timer_sleep ∧ AllCalls (Op.Proper false true) reset_timer_sleep := by
  have hp : AllCalls (Op.Steady false true) (do
      own (.enter .reset_timer_sleep)
      own (.wr .sleep_possible_flag 0)
      shr (.wr .tmr_flag 0)
      let _ ← shr .sl_sleeptimer_stop_timer
      let nConnections ← own .rd_nConnections_ptr
      close_connections nConnections.val 0
      own .GPIO_EM4EnablePinWakeup) := by
    refine ⟨rfl, fun _ => ⟨trivial, fun _ => ⟨trivial, fun _ => ⟨trivial, fun _ => ⟨trivial, fun n => ?_⟩⟩⟩⟩⟩
    exact (steady_close n.val 0).bind fun _ => ⟨trivial, fun _ => trivial⟩
  have heq := restarts_last hp
  simp only [bind_assoc] at heq
  exact heq

theorem reset_no_timer_last :
    Last (fun o => o.restarts = true) reset_no_timer ∧ AllCalls (Op.Proper false false) reset_no_timer := by
  have hp : AllCalls (Op.Steady false false) (do
      own (.enter .reset_no_timer)
      own (.wr .sleep_possible_flag 0)
      shr (.wr .tmr_flag 0)
      let _ ← shr .sl_sleeptimer_stop_timer) :=
    ⟨trivial, fun _ => ⟨trivial, fun _ => ⟨trivial, fun _ => ⟨trivial, fun _ => trivial⟩⟩⟩⟩
  have heq := restarts_last hp
  simp only [bind_assoc, pure_bind] at heq
  exact heq

/-- Only `reset_timer_sleep` reads the table of connections. -/
theorem actions_last : ∀ t ∈ app_fsm_tt, ∀ out ∈ t.out, Last (fun o => o.restarts = true) out ∧
    (out = reset_timer_sleep ∨ AllCalls (Op.Proper false false) out) := by
  have hlast {p : AppM Unit} (hp : AllCalls (Op.Steady false false) p) : Last (fun o => o.restarts = true) p ∧
      (p = reset_timer_sleep ∨ AllCalls (Op.Proper false false) p) :=
    ⟨(steady_last hp).1, .inr (steady_last hp).2⟩
  simp only [app_fsm_tt, List.forall_mem_cons, Option.mem_def, Option.some.injEq, forall_eq', List.not_mem_nil,
    false_imp_iff, implies_true, and_true, reduceCtorEq]
  refine ⟨hlast steady_wake_up, hlast steady_wake_up, hlast steady_ask_for_next_data, hlast steady_power_down,
    hlast steady_retrieve_data, hlast steady_ask_for_next_data, hlast ?_, hlast steady_try_to_sleep,
    hlast steady_try_to_sleep, ⟨reset_timer_sleep_last.1, .inl trivial⟩,
    ⟨reset_no_timer_last.1, .inr reset_no_timer_last.2⟩⟩
  exact ⟨trivial, fun _ => ⟨trivial, fun _ => ⟨trivial, fun _ => trivial⟩⟩⟩

/-- Calls that set up and record connections. -/
def BleCall.connecting : BleCall → Bool
  | .sl_bt_gatt_server_write_attribute_value attr _ _ => attr = gattdb_system_id
  | .sl_bt_legacy_advertiser_generate_data _ | .sl_bt_advertiser_set_timing _ _ _ _ _
  | .sl_bt_legacy_advertiser_start _ => true
  | .sl_bt_gatt_server_notify_all _ _ | .sl_bt_connection_close _ => false

def Op.connecting : Op → Bool
  | .main .rd_nConnections | .main (.wr_nConnections _) | .main (.rd_connections _)
  | .main (.wr_connections _ _) | .main .rd_advertising_set_handle | .main (.wr_advertising_set_handle _)
  | .main .sl_bt_system_get_identity_address | .main .sl_bt_advertiser_create_set
  | .main (.app_assert_status _) => true
  | .main (.ble c) => c.connecting
  | _ => false

theorem connecting_sl_bt_on_event (evt : sl_bt_evt) :
    AllCalls (fun o => o.connecting = true) (sl_bt_on_event evt) := by
  cases evt with
  | system_boot =>
    refine ⟨rfl, fun _ => ⟨rfl, fun _ => ⟨rfl, fun _ => ⟨rfl, fun _ => ⟨rfl, fun _ => ?_⟩⟩⟩⟩⟩
    refine ⟨rfl, fun _ => ⟨rfl, fun _ => ⟨rfl, fun _ => ⟨rfl, fun _ => ⟨rfl, fun _ => ?_⟩⟩⟩⟩⟩
    refine ⟨rfl, fun _ => ⟨rfl, fun _ => ⟨rfl, fun _ => ?_⟩⟩⟩
    exact ⟨rfl, fun _ => ⟨rfl, fun _ => ⟨rfl, fun _ => trivial⟩⟩⟩
  | connection_opened c => exact ⟨rfl, fun _ => ⟨rfl, fun _ => ⟨rfl, fun _ => trivial⟩⟩⟩
  | connection_closed c =>
    refine ⟨rfl, fun _ => ⟨rfl, fun _ => ⟨rfl, fun _ => ?_⟩⟩⟩
    exact ⟨rfl, fun _ => ⟨rfl, fun _ => ⟨rfl, fun _ => trivial⟩⟩⟩
  | other => trivial

theorem steady_sl_bt_on_event (evt : sl_bt_evt) : AllCalls (Op.Steady true false) (sl_bt_on_event evt) := by
  cases evt with
  | system_boot =>
    refine ⟨trivial, fun _ => ⟨rfl, fun _ => ⟨rfl, fun _ => ⟨rfl, fun _ => ⟨trivial, fun _ => ?_⟩⟩⟩⟩⟩
    refine ⟨trivial, fun _ => ⟨rfl, fun _ => ⟨rfl, fun _ => ⟨rfl, fun _ => ⟨rfl, fun _ => ?_⟩⟩⟩⟩⟩
    refine ⟨rfl, fun _ => ⟨rfl, fun _ => ⟨rfl, fun _ => ?_⟩⟩⟩
    exact ⟨rfl, fun _ => ⟨rfl, fun _ => ⟨rfl, fun _ => trivial⟩⟩⟩
  | connection_opened c => exact ⟨rfl, fun _ => ⟨trivial, fun _ => ⟨rfl, fun _ => trivial⟩⟩⟩
  | connection_closed c =>
    refine ⟨rfl, fun _ => ⟨rfl, fun _ => ⟨rfl, fun _ => ?_⟩⟩⟩
    exact ⟨rfl, fun _ => ⟨rfl, fun _ => ⟨rfl, fun _ => trivial⟩⟩⟩
  | other => trivial

/-- The task is an event. -/
def Task.event : Task → Bool
  | .app_process_action => false
  | .sl_bt_on_event _ => true

/-- **What the tasks can ever call.** -/
theorem Task.proper (t : Task) : AllCalls (Op.Proper t.event !t.event) t.body := by
  cases t with
  | app_process_action =>
    have hguard : ∀ t ∈ app_fsm_tt, ∀ guard ∈ t.input, AllCalls (Op.Proper false true) guard :=
      fun t ht guard hg => (plain_guards t ht guard hg).imp fun _ ho => .inl ho.steady
    refine AllCalls.bind (all_fsm_fire (.inl trivial) (fun _ => .inl trivial) hguard ?_) fun _ => trivial
    intro t ht out ho
    rcases (actions_last t ht out ho).2 with rfl | hout
    · exact reset_timer_sleep_last.2
    · exact hout.imp fun _ => Op.Proper.mono id fun _ => rfl
  | sl_bt_on_event evt => exact (steady_sl_bt_on_event evt).imp fun _ => .inl

/-- **A task that restarts the device does nothing after it.** -/
theorem Task.last_restart (t : Task) : Last (fun o => o.restarts = true) t.body := by
  cases t with
  | app_process_action =>
    have hplain {o : Op} (ho : o.Plain) : ¬ o.restarts = true :=
      Op.Steady.not_restarts (@Op.Plain.steady false false o ho)
    have hguard : ∀ t ∈ app_fsm_tt, ∀ guard ∈ t.input, AllCalls (fun o => ¬ o.restarts = true) guard :=
      fun t ht guard hg => (plain_guards t ht guard hg).imp fun _ => hplain
    refine Last.map (last_fsm_fire Bool.false_ne_true (fun _ => Bool.false_ne_true) hguard ?_) _
    exact fun t ht out ho => (actions_last t ht out ho).1
  | sl_bt_on_event evt => exact (steady_last (steady_sl_bt_on_event evt)).1

end M20Strain
