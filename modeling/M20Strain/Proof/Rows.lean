import M20Strain.Interrupt.Look
import M20Strain.Proof.Alone
import M20Strain.Proof.Bench

/-!
# The order of the rows

Without interrupts, a guard is evaluated to a number (`looked`), and `fsm_fire` takes the
first row that `chosen` accepts (`may_scan`). In every state all rows accepted agree
(`chosen_next`), so any order of the rows is as good (`rows_commute`).
-/

namespace M20Strain

open Interrupt Prog

variable {D : Type} {bus : SpiBus D} {l l' : Local D} {h h' : Shared}

/-- The memory accesses of the guards and of `fsm_fire`. -/
def Op.look : (o : Op) → Local D → Shared → Option (o.Resp × Local D × Shared)
  | .main .rd_current_state, l, h => some (l.current_state, l, h)
  | .main (.rd f), l, h => some (l.user.get f, l, h)
  | .main (.wr f v), l, h => some ((), { l with user := l.user.set v f }, h)
  | .main .rd_num_data_retrieved, l, h => some (l.user.num_data_retrieved, l, h)
  | .main (.wr_num_data_retrieved n), l, h => some ((), { l with user := { l.user with num_data_retrieved := n } }, h)
  | .shr (.rd f), l, h => some (h.get f, l, h)
  | _, _, _ => none

theorem step_det {o : MainOp} {r : o.Resp} {l₁ : Local D} (hd : o.Det l r l₁) (r' : o.Resp) (l' : Local D)
    (h' : Shared) : (firmware bus).step (.main o) r' l h = some (l', h') ↔ r' = r ∧ l' = l₁ ∧ h' = h := by
  change (o.step r' l).map (·, h) = some (l', h') ↔ _
  rw [Option.map_eq_some_iff, ← and_assoc, ← hd r' l']
  constructor
  · rintro ⟨l₂, hs, heq⟩
    obtain ⟨rfl, rfl⟩ := Prod.mk.inj heq
    exact ⟨hs, rfl⟩
  · rintro ⟨hs, rfl⟩
    exact ⟨l', hs, rfl⟩

theorem looks : Looks (firmware bus) Op.look := by
  intro o l h r l₁ h₁ ho
  rcases o with o | o | o
  · cases ho
  · cases o with
    | rd_current_state =>
      cases ho
      exact step_det (o := .rd_current_state) (det_read fun _ => rfl)
    | rd f =>
      cases ho
      exact step_det (o := .rd f) (det_read fun _ => rfl)
    | wr f v =>
      cases ho
      exact step_det (o := .wr f v) (det_write fun _ => rfl)
    | rd_num_data_retrieved =>
      cases ho
      exact step_det (o := .rd_num_data_retrieved) (det_read fun _ => rfl)
    | wr_num_data_retrieved n =>
      cases ho
      exact step_det (o := .wr_num_data_retrieved n) (det_write fun _ => rfl)
    | _ => cases ho
  · cases o with
    | rd f =>
      cases ho
      intro r' l' h'
      exact reads_flag r' _ l' _ h'
    | _ => cases ho

/-- The vendor functions: hardware and Bluetooth stack. The rest is memory. -/
def Op.vendor : Op → Bool
  | .drv (.SPIDRV_MTransmitB _) | .drv (.SPIDRV_MTransferB _) | .drv .SPIDRV_MReceiveB
  | .drv (.sl_udelay_wait _) => true
  | .main .GPIO_EM4DisablePinWakeup | .main .GPIO_EM4EnablePinWakeup | .main .EMU_UnlatchPinRetention
  | .main .RMU_ResetCauseGet | .main .RMU_ResetCauseClear | .main .GPIO_PinOutSet | .main .GPIO_PinOutClear
  | .main (.ble _) | .main .sl_bt_system_get_identity_address | .main .sl_bt_advertiser_create_set => true
  | .shr .sl_sleeptimer_is_timer_running | .shr (.sl_sleeptimer_start_timer _)
  | .shr .sl_sleeptimer_stop_timer | .shr .EMU_EnterEM4 => true
  | _ => false

/-- A vendor function that was called, with its answer. -/
abbrev VendorCall := (o : Op) × o.Resp

def vendorCall (o : Op) (r : o.Resp) : Option VendorCall := if o.vendor then some ⟨o, r⟩ else none

theorem vendor_ignores {o : Op} {l : Local D} {h : Shared} (ho : (o.look l h).isSome) :
    Ignores (collect (ofCalls vendorCall) : List VendorCall → Event D → List VendorCall) o := by
  have hv : o.vendor = false := by
    rcases o with o | o | o
    · cases ho
    · cases o <;> first | rfl | cases ho
    · cases o <;> first | rfl | cases ho
  intro g r l h
  simp [collect, ofCalls, vendorCall, hv]

/-- Target and action of row `t` if its guard holds in the state `(l, h)`, and what the
guard leaves of `l`. -/
def chosen (l : Local D) (h : Shared) (t : fsm_trans_t AppM) : Option (Int × Option (AppM Unit) × Local D) :=
  if t.orig_state = l.current_state then
    t.input.bind fun guard => (looked Op.look guard l h).bind fun x =>
      if x.1 ≠ 0 then some (t.dest_state, t.out, x.2.1) else none
  else none

/-- A row that is not the sentinel, whose guard in its state is a value: it leaves the shared
state alone, and all of the state if it does not hold. -/
def Evaluates (l : Local D) (h : Shared) (t : fsm_trans_t AppM) : Prop :=
  0 ≤ t.orig_state ∧ (t.orig_state = l.current_state →
    ∃ guard b l₁, t.input = some guard ∧ looked Op.look guard l h = some (b, l₁, h) ∧ (b = 0 → l₁ = l))

/-- The last row of the table. -/
def sentinel : fsm_trans_t AppM := ⟨-1, none, -1, none⟩

/-- `fsm_fire` with table `tt`. -/
def fire (tt : List (fsm_trans_t AppM)) : AppM FireEnd :=
  fsm_fire (own .rd_current_state) (fun s => own (.wr_current_state s)) tt

variable {G : Type} {μ : G → Event D → G} {g : G} {Q : FireEnd → G → Local D → Shared → Prop}
  {tt : List (fsm_trans_t AppM)}

/-- **The first row chosen is taken**, or none and nothing has happened. -/
theorem may_scan (hμ : ∀ o (l : Local D) h, (Op.look o l h).isSome → Ignores μ o)
    (htt : ∀ t ∈ tt, Evaluates l h t) : may (firmware bus) μ (fire (tt ++ [sentinel])) Q g l h ↔
      match tt.findSome? (chosen l h) with
      | some (d, out, l₁) => may (firmware bus) μ (take (fun s => own (.wr_current_state s)) ⟨0, none, d, out⟩) Q g l₁ h
      | none => Q .sentinel g l h := by
  induction tt with
  | nil => exact Iff.rfl
  | cons t tt ih =>
    obtain ⟨h0, hguard⟩ := htt t List.mem_cons_self
    have ih := ih fun t ht => htt t (List.mem_cons_of_mem _ ht)
    simp only [fire, List.cons_append, fsm_fire, if_neg (Int.not_lt.2 h0)]
    have hlook : looked Op.look (own .rd_current_state) l h = some (l.current_state, l, h) := rfl
    rw [may_looked looks hμ hlook, List.findSome?_cons]
    unfold chosen
    by_cases hs : t.orig_state = l.current_state
    · obtain ⟨guard, b, l₁, hin, hb, hb0⟩ := hguard hs
      rw [if_pos hs.symm, if_pos hs, hin]
      simp only [Option.bind_some, hb]
      rw [may_looked looks hμ hb]
      by_cases hb' : b = 0
      · rw [if_neg (not_not.2 hb'), if_neg (not_not.2 hb'), hb0 hb']
        exact ih
      · rw [if_pos hb', if_pos hb']
        exact Iff.rfl
    · rw [if_neg (Ne.symm hs), if_neg hs]
      exact ih

/-- The rows before the sentinel. -/
def rows : List (fsm_trans_t AppM) := app_fsm_tt.dropLast

section Guards

variable (l h)

theorem look_wakeup_timer : looked Op.look check_wakeup_timer l h =
    some ((l.user.wakeup_timer_flag.toNat : Int), l, h) := rfl

theorem look_change_mode : looked Op.look check_change_mode l h = some ((h.change_mode_flag.toNat : Int), l, h) := rfl

theorem look_wakeup_completed : looked Op.look check_wakeup_completed l h =
    some ((l.user.wakeup_completed_flag.toNat : Int), l, h) := rfl

theorem look_all_data_retrieved : looked Op.look check_all_data_retrieved l h =
    some (if l.user.num_data_retrieved = 4 then 1 else 0, l, h) := rfl

theorem look_data_ready : looked Op.look check_data_ready l h =
    some (if h.data_ready_flag ≠ 0 ∧ l.user.num_data_retrieved ≠ 4 then 1 else 0, l, h) := by
  by_cases hr : h.data_ready_flag = 0 <;> by_cases hn : l.user.num_data_retrieved = 4 <;>
    simp [check_data_ready, own, shr, op, looked, Op.look, hr, hn]

/-- The one guard that writes: it always holds. -/
theorem look_data_retrieved : looked Op.look check_data_retrieved l h = some (1, counted l, h) := rfl

theorem look_data_sent_continuous : looked Op.look check_data_sent_continuous l h =
    some (if l.user.data_sent_flag ≠ 0 ∧ h.change_mode_flag ≠ 0 then 1 else 0, l, h) := by
  by_cases hd : l.user.data_sent_flag = 0 <;> by_cases hm : h.change_mode_flag = 0 <;>
    simp [check_data_sent_continuous, own, shr, op, looked, Op.look, hd, hm]

theorem look_data_sent_not_continuous : looked Op.look check_data_sent_not_continuous l h =
    some (if l.user.data_sent_flag ≠ 0 ∧ h.change_mode_flag = 0 then 1 else 0, l, h) := by
  by_cases hd : l.user.data_sent_flag = 0 <;> by_cases hm : h.change_mode_flag = 0 <;>
    simp [check_data_sent_not_continuous, own, shr, op, looked, Op.look, hd, hm]

theorem look_sleep_not_possible : looked Op.look check_sleep_not_possible l h =
    some (if l.user.sleep_possible_flag = 0 ∧ h.change_mode_flag = 0 then 1 else 0, l, h) := by
  by_cases hp : l.user.sleep_possible_flag = 0 <;> by_cases hm : h.change_mode_flag = 0 <;>
    simp [check_sleep_not_possible, own, shr, op, looked, Op.look, hp, hm]

theorem look_sleep_possible : looked Op.look check_sleep_possible l h =
    some (if l.user.sleep_possible_flag ≠ 0 ∧ h.change_mode_flag = 0 ∧ h.tmr_flag ≠ 0 then 1 else 0, l, h) := by
  by_cases hp : l.user.sleep_possible_flag = 0 <;> by_cases hm : h.change_mode_flag = 0 <;>
    by_cases ht : h.tmr_flag = 0 <;> simp [check_sleep_possible, own, shr, op, looked, Op.look, hp, hm, ht]

theorem look_continuous_mode : looked Op.look check_continuous_mode l h =
    some ((h.change_mode_flag.toNat : Int), l, h) := rfl

end Guards

theorem evaluates_pure {s d : states} {guard : AppM Int} {out : AppM Unit} {b : Int}
    (hb : looked Op.look guard l h = some (b, l, h)) : Evaluates l h ⟨s, guard, d, out⟩ := by
  have h0 : 0 ≤ (s : Int) := by cases s <;> decide
  exact ⟨h0, fun _ => ⟨guard, b, l, rfl, hb, fun _ => rfl⟩⟩

theorem evaluates_rows : ∀ t ∈ rows, Evaluates l h t := by
  intro t ht
  simp only [rows, app_fsm_tt, List.dropLast, List.mem_cons, List.not_mem_nil, or_false] at ht
  rcases ht with rfl | rfl | rfl | rfl | rfl | rfl | rfl | rfl | rfl | rfl | rfl
  · exact evaluates_pure (look_wakeup_timer l h)
  · exact evaluates_pure (look_change_mode l h)
  · exact evaluates_pure (look_wakeup_completed l h)
  · exact evaluates_pure (look_all_data_retrieved l h)
  · exact evaluates_pure (look_data_ready l h)
  · exact ⟨by decide, fun _ => ⟨_, _, _, rfl, look_data_retrieved l h, fun h0 => absurd h0 (by decide)⟩⟩
  · exact evaluates_pure (look_data_sent_continuous l h)
  · exact evaluates_pure (look_data_sent_not_continuous l h)
  · exact evaluates_pure (look_sleep_not_possible l h)
  · exact evaluates_pure (look_sleep_possible l h)
  · exact evaluates_pure (look_continuous_mode l h)

/-- The one transition that can be made in a state. -/
def next (l : Local D) (h : Shared) : Int × Option (AppM Unit) × Local D :=
  if l.current_state = states.SLEEPING then (states.WAKING_UP, some wake_up, l)
  else if l.current_state = states.WAKING_UP then (states.ASKING_FOR_DATA, some ask_for_next_data, l)
  else if l.current_state = states.ASKING_FOR_DATA then
    if l.user.num_data_retrieved = 4 then (states.SENDING_DATA, some power_down_interface_send_data, l)
    else (states.RETRIEVING_DATA, some retrieve_data, l)
  else if l.current_state = states.RETRIEVING_DATA then
    (states.ASKING_FOR_DATA, some ask_for_next_data, counted l)
  else if l.current_state = states.SENDING_DATA then
    if h.change_mode_flag ≠ 0 then (states.WAKING_UP, some ask_again, l)
    else (states.TO_SLEEP, some try_to_sleep, l)
  else if h.change_mode_flag ≠ 0 then (states.SLEEPING, some reset_no_timer, l)
  else if l.user.sleep_possible_flag = 0 then (states.TO_SLEEP, some try_to_sleep, l)
  else (states.SLEEPING, some reset_timer_sleep, l)

/-- A chosen row belongs to the state, and its guard holds. -/
theorem chosen_some {s d : states} {guard : AppM Int} {out : AppM Unit} {b : Int} {l₁ : Local D}
    {y : Int × Option (AppM Unit) × Local D} (hb : looked Op.look guard l h = some (b, l₁, h))
    (hy : chosen l h ⟨s, guard, d, out⟩ = some y) :
    l.current_state = s ∧ b ≠ 0 ∧ y = ((d : Int), some out, l₁) := by
  unfold chosen at hy
  split at hy
  · rename_i hs
    simp only [Option.bind_some, hb] at hy
    split at hy
    · rename_i hb0
      exact ⟨hs.symm, hb0, (Option.some.inj hy).symm⟩
    · cases hy
  · cases hy

/-- **All rows that are chosen agree.** -/
theorem chosen_next : ∀ t ∈ rows, ∀ y, chosen l h t = some y → y = next l h := by
  intro t ht y hy
  simp only [rows, app_fsm_tt, List.dropLast, List.mem_cons, List.not_mem_nil, or_false] at ht
  -- row by row: what the guard found excludes the other rows of its state
  rcases ht with rfl | rfl | rfl | rfl | rfl | rfl | rfl | rfl | rfl | rfl | rfl
  · obtain ⟨hs, -, rfl⟩ := chosen_some (look_wakeup_timer l h) hy
    simp [next, hs]
  · obtain ⟨hs, -, rfl⟩ := chosen_some (look_change_mode l h) hy
    simp [next, hs]
  · obtain ⟨hs, -, rfl⟩ := chosen_some (look_wakeup_completed l h) hy
    simp [next, hs]
  · obtain ⟨hs, hb, rfl⟩ := chosen_some (look_all_data_retrieved l h) hy
    have hn : l.user.num_data_retrieved = 4 := by simpa using hb
    simp [next, hs, hn]
  · obtain ⟨hs, hb, rfl⟩ := chosen_some (look_data_ready l h) hy
    obtain ⟨-, hn⟩ : h.data_ready_flag ≠ 0 ∧ l.user.num_data_retrieved ≠ 4 := by simpa using hb
    simp [next, hs, hn]
  · obtain ⟨hs, -, rfl⟩ := chosen_some (look_data_retrieved l h) hy
    simp [next, hs]
  · obtain ⟨hs, hb, rfl⟩ := chosen_some (look_data_sent_continuous l h) hy
    obtain ⟨-, hm⟩ : l.user.data_sent_flag ≠ 0 ∧ h.change_mode_flag ≠ 0 := by simpa using hb
    simp [next, hs, hm]
  · obtain ⟨hs, hb, rfl⟩ := chosen_some (look_data_sent_not_continuous l h) hy
    obtain ⟨-, hm⟩ : l.user.data_sent_flag ≠ 0 ∧ h.change_mode_flag = 0 := by simpa using hb
    simp [next, hs, hm]
  · obtain ⟨hs, hb, rfl⟩ := chosen_some (look_sleep_not_possible l h) hy
    obtain ⟨hp, hm⟩ : l.user.sleep_possible_flag = 0 ∧ h.change_mode_flag = 0 := by simpa using hb
    simp [next, hs, hm, hp]
  · obtain ⟨hs, hb, rfl⟩ := chosen_some (look_sleep_possible l h) hy
    obtain ⟨hp, hm, -⟩ : l.user.sleep_possible_flag ≠ 0 ∧ h.change_mode_flag = 0 ∧ h.tmr_flag ≠ 0 := by
      simpa using hb
    simp [next, hs, hm, hp]
  · obtain ⟨hs, hb, rfl⟩ := chosen_some (look_continuous_mode l h) hy
    have hm : h.change_mode_flag ≠ 0 := by
      rintro h0
      rw [h0] at hb
      exact hb rfl
    simp [next, hs, hm]

/-- Alone from `(l, h)`, `fsm_fire` with table `tt` can make the vendor calls `calls`, with
their answers, and end as `e` in `(l', h')`. -/
def Outcome (bus : SpiBus D) (tt : List (fsm_trans_t AppM)) (l : Local D) (h : Shared) (calls : List VendorCall)
    (e : FireEnd) (l' : Local D) (h' : Shared) : Prop :=
  ∃ tr, Exec (firmware bus) (fire tt) l h tr e l' h' ∧ Uninterrupted tr ∧
    tr.filterMap (ofCalls vendorCall) = calls

variable {calls : List VendorCall} {e : FireEnd}

theorem outcome_iff : Outcome bus tt l h calls e l' h' ↔ may (firmware bus) (collect (ofCalls vendorCall)) (fire tt)
    (fun e₁ g l₁ h₁ => e₁ = e ∧ g = calls ∧ l₁ = l' ∧ h₁ = h') [] l h := by
  rw [may_iff]
  simp only [foldl_collect, List.nil_append]
  constructor
  · rintro ⟨tr, he, hu, hc⟩
    exact ⟨tr, e, l', h', he, hu, rfl, hc, rfl, rfl⟩
  · rintro ⟨tr, _, _, _, he, hu, rfl, hc, rfl, rfl⟩
    exact ⟨tr, he, hu, hc⟩

/-- A row that is taken ends the scan as `took`. -/
theorem may_take {d : Int} {out : Option (AppM Unit)} {μ : G → Event D → G} {g : G} {P : FireEnd → Prop}
    (hm : may (firmware bus) μ (take (fun s => own (.wr_current_state s)) ⟨0, none, d, out⟩)
      (fun e _ _ _ => P e) g l h) : P .took := by
  unfold take at hm
  rw [may_bind] at hm
  obtain ⟨r, l₁, h₁, -, hm⟩ := hm
  cases out with
  | none => exact hm
  | some out =>
    simp only [may_ret, may_bind] at hm
    obtain ⟨tr, a, l₂, h₂, -, -, hp⟩ := may_iff.1 hm
    exact hp

theorem scan_rows (hp : tt.Perm rows) : Outcome bus (tt ++ [sentinel]) l h calls e l' h' ↔
    Outcome bus (rows ++ [sentinel]) l h calls e l' h' := by
  have htt : ∀ t ∈ tt, Evaluates l h t := fun t ht => evaluates_rows t (hp.mem_iff.1 ht)
  have hμ : ∀ o (l : Local D) h, (Op.look o l h).isSome → Ignores (collect (ofCalls vendorCall)) o :=
    fun o l h ho => vendor_ignores ho
  rw [outcome_iff, outcome_iff, may_scan hμ htt, may_scan hμ evaluates_rows,
    findSome?_perm hp ⟨next l h, chosen_next⟩]

/-- **No order of the rows is better than another**: in every state, with the rows in any
order, `fsm_fire` makes the same calls with the same answers and leaves the same state; and
if it takes no row it leaves all of the state as it was. -/
theorem rows_commute (bus : SpiBus D) (hp : tt.Perm app_fsm_tt.dropLast) (l : Local D) (h : Shared)
    (calls : List VendorCall) (e : FireEnd) (l' : Local D) (h' : Shared) :
    (Outcome bus (tt ++ [sentinel]) l h calls e l' h' ↔ Outcome bus app_fsm_tt l h calls e l' h') ∧
    (Outcome bus app_fsm_tt l h calls e l' h' → e = .took ∨ e = .sentinel ∧ calls = [] ∧ l' = l ∧ h' = h) := by
  refine ⟨scan_rows hp, ?_⟩
  intro ho
  have ho : Outcome bus (rows ++ [sentinel]) l h calls e l' h' := ho
  rw [outcome_iff, may_scan (fun o l h ho => vendor_ignores ho) evaluates_rows] at ho
  split at ho
  · left
    exact (may_take (P := fun e₁ => e₁ = e) (may_mono (fun _ _ _ _ hq => hq.1) ho)).symm
  · right
    obtain ⟨rfl, rfl, rfl, rfl⟩ := ho
    exact ⟨rfl, rfl, rfl, rfl⟩

/-- After power-up, the device wakes up with the rows in reverse order too. -/
theorem rows_commute_reversed : ∃ calls e l' h', Outcome anyBus (app_fsm_tt.dropLast.reverse ++ [sentinel])
    (booted false false).1 (booted false false).2 calls e l' h' ∧ l'.current_state = states.WAKING_UP := by
  obtain ⟨r, d, hd⟩ := drv_ends anyBus begin (booted false false).1.driver
  obtain rfl := begin_ends hd
  have hc : Can anyBus (booted false false).1 (booted false false).2 _ _ := can_power_up rfl rfl rfl hd
  obtain ⟨tr, e, l', h', he, hu, rfl, -⟩ := may_iff.1 (may_bind.1 hc)
  have ho : Outcome anyBus app_fsm_tt (booted false false).1 (booted false false).2 _ e _ h' := ⟨tr, he, hu, rfl⟩
  have hrev : app_fsm_tt.dropLast.reverse.Perm app_fsm_tt.dropLast := List.reverse_perm _
  exact ⟨_, e, _, h', (rows_commute anyBus hrev _ _ _ _ _ _).1.2 ho, rfl⟩

end M20Strain
