import M20Strain.Model.MainLoop
import M20Strain.Proof.Alone
import M20Strain.Proof.Bench
import M20Strain.Proof.Emits

/-!
# Commands before the boot event

The event handler says that no command may be given to the stack before its boot event,
but the state machine runs on its own flags. `boot_first_iff`: in a run of the main loop
every command comes after the boot event exactly when, until that event, no
`app_process_action` finds four samples retrieved.
-/

namespace M20Strain

open Interrupt Prog

variable {D : Type} {bus : SpiBus D} {l₀ l l' : Local D} {h₀ h h' : Shared} {tr : List (Event D)}
  {p : Pass D} {ps ps' : List (Pass D)} {b : Bool}

/-- The commands of the application: attribute write, notification and close. -/
def BleCall.command : BleCall → Bool
  | .sl_bt_gatt_server_write_attribute_value _ _ _ | .sl_bt_gatt_server_notify_all _ _
  | .sl_bt_connection_close _ => true
  | _ => false

/-- Whether the stack has booted: EM4 restarts it. -/
def stackUp : Bool → Event D → Bool
  | _, .call (.shr .EMU_EnterEM4) _ _ _ => false
  | up, _ => up

/-- A command is given to a stack that has booted. -/
def Accepted : Bool → Event D → Prop
  | up, .call (.main (.ble c)) _ _ _ => c.command = true → up = true
  | _, _ => True

/-- The event is the boot event. -/
def isBoot (evt : Option sl_bt_evt) : Bool := decide (evt = some .system_boot)

/-- Whether the boot event has been received when the pass goes on with its handler. -/
def Pass.up (p : Pass D) (up : Bool) : Bool := up || isBoot p.evt

/-- Whether the stack is up after the pass. -/
def Pass.after (up : Bool) (p : Pass D) : Bool := (p.handling ++ p.firing).foldl stackUp (p.up up)

/-- `P` holds of every pass, and whether the stack was up before it. -/
def Along (P : Bool → Pass D → Prop) : Bool → List (Pass D) → Prop
  | _, [] => True
  | up, p :: ps => P up p ∧ Along P (p.after up) ps

/-- **No command before the boot event.** -/
def BootFirst (up : Bool) (p : Pass D) : Prop := Checked stackUp Accepted (p.up up) (p.handling ++ p.firing)

/-- The next `app_process_action` publishes. -/
def Due (l : Local D) : Prop := l.current_state = states.ASKING_FOR_DATA ∧ l.user.num_data_retrieved = 4

/-- Without the boot event, `app_process_action` does not find four samples retrieved. -/
def NotDue (up : Bool) (p : Pass D) : Prop := p.up up = false → ¬ Due p.loc

theorem along_append {P : Bool → Pass D → Prop} : Along P b (ps ++ ps') ↔
    Along P b ps ∧ Along P (ps.foldl Pass.after b) ps' := by
  induction ps generalizing b with
  | nil => simp [Along]
  | cons p ps ih => simp only [List.cons_append, Along, ih, List.foldl_cons, and_assoc]

/-- The calls of `sl_bt_step`: it never enters EM4, and only the boot event leads to commands. -/
def Op.mild (boot : Bool) : Op → Bool
  | .shr .EMU_EnterEM4 => false
  | .main (.ble c) => !c.command || boot
  | _ => true

theorem allCalls_mild (evt : Option sl_bt_evt) :
    AllCalls (fun o => o.mild (isBoot evt) = true) (sl_bt_step evt) := by
  have own_calls {boot : Bool} (o : MainOp) (ho : (Op.main o).mild boot = true) :
      AllCalls (fun o => o.mild boot = true) (own o) := ⟨ho, fun _ => trivial⟩
  cases evt with
  | none => trivial
  | some evt =>
    unfold sl_bt_step
    cases evt with
    | system_boot => repeat first | exact own_calls _ rfl | refine (own_calls _ rfl).bind fun _ => ?_
    | connection_opened c => repeat first | exact own_calls _ rfl | refine (own_calls _ rfl).bind fun _ => ?_
    | connection_closed c => repeat first | exact own_calls _ rfl | refine (own_calls _ rfl).bind fun _ => ?_
    | other => trivial

/-- The handler leaves the stack up or down, and follows the rule. -/
theorem handler_rule {evt : Option sl_bt_evt} (he : Exec (firmware bus) (sl_bt_step evt) l h tr () l' h')
    (hb : isBoot evt = true → b = true) : tr.foldl stackUp b = b ∧ Checked stackUp Accepted b tr := by
  refine checked_still ?_
  intro e hmem
  unfold stackUp Accepted
  cases e with
  | irq i h => exact ⟨rfl, trivial⟩
  | call o r l h =>
    -- of the handler's calls only those after the boot event are commands
    have hmild := (allCalls_mild evt).exec he hmem
    constructor
    · split
      · rename_i heq
        cases heq
        cases hmild
      · rfl
    · split
      · rename_i c _ _ _ heq
        cases heq
        intro hc
        simp only [Op.mild, hc, Bool.not_true, Bool.false_or] at hmild
        exact hb hmild
      · trivial

/-- The handler moves neither the state machine nor its data. -/
theorem handler_keeps {evt : Option sl_bt_evt} (hI : Inv l h)
    (he : Exec (firmware bus) (sl_bt_step evt) l h tr () l' h') :
    Inv l' h' ∧ l'.current_state = l.current_state ∧ l'.user = l.user := by
  cases evt with
  | none =>
    have hw : wp (firmware bus) blind (sl_bt_step none) (fun _ _ l₁ h₁ => l₁ = l ∧ Inv l h₁) () l h :=
      wp_ret.2 fun _ _ hi => ⟨rfl, hI.irqs hi⟩
    obtain ⟨rfl, hI'⟩ := wp_iff.1 hw _ _ _ _ he
    exact ⟨hI', rfl, rfl⟩
  | some evt =>
    have hr := wp_iff.1 (wp_reacted (g := ()) .blind evt) _ _ _ _ he
    refine ⟨hr.inv hI, ?_⟩
    cases hr <;> exact ⟨rfl, rfl⟩

theorem watch_stackUp_blind : Blind (watch stackUp (Accepted (D := D))) := by
  have hup : Blind (stackUp (D := D)) := by
    refine ⟨?_, fun _ _ _ => rfl, ?_⟩
    · intro o ho g r l h
      unfold stackUp
      split <;> first | rfl | (rename_i heq; cases heq; cases ho)
    · intro g o r l h h' ho
      rcases o with o | o | o <;> cases ho
      rfl
  refine hup.watch ?_ (fun _ _ _ => trivial) ?_
  · intro o ho g r l h
    unfold Accepted
    split <;> first | trivial | (rename_i heq; cases heq; cases ho)
  · intro g o r l h h' ho
    rcases o with o | o | o <;> cases ho
    cases o <;> rfl

/-- Nothing has been published since the restart. -/
def Early (l : Local D) : Prop := l.current_state ≠ states.SENDING_DATA ∧ l.current_state ≠ states.TO_SLEEP

variable {evs : List (Event D)}

/-- When the stack is up every command is accepted: EM4 is the last call. -/
theorem Emits.rule_up (he : Emits l h evs l') : Checked stackUp Accepted true evs := by
  cases he with
  | reset_timer_sleep hs hes hr =>
    rw [checked_append, Checked, Checked, checked_append, hes.foldl fun _ _ _ _ _ => rfl]
    refine ⟨?_, trivial, trivial, ?_, trivial, trivial⟩
    · simp [entries, start, Made.entry, Checked, Accepted]
    · have hup : (entries (start .SLEEPING .reset_timer_sleep l) h).foldl stackUp true = true := rfl
      rw [hup]
      refine (checked_still ?_).2
      intro e he
      obtain ⟨c, sc, rfl⟩ := hes.mem_entries e he
      exact ⟨rfl, fun _ => rfl⟩
  | _ => simp [entries, start, published, Made.entry, Checked, Accepted, stackUp]

/-- Only EM4 takes the stack down, and then nothing has been published since. -/
theorem Emits.up_or_early (he : Emits l h evs l') (hdown : evs.foldl stackUp b = false) :
    b = false ∨ Early l' := by
  cases he with
  | reset_timer_sleep | reset_no_timer => exact .inr ⟨by simp [new_app_fsm], by simp [new_app_fsm]⟩
  | _ => exact .inl hdown

/-- A fire that is not due to publish gives no command before the first packet. -/
theorem Emits.rule_down (he : Emits l h evs l') (hearly : Early l) (hd : ¬ Due l) :
    Checked stackUp Accepted false evs ∧ Early l' := by
  cases he with
  | stay s hs ht => exact ⟨trivial, hearly⟩
  | send_ok s hs hn hk | send_failed s hs hn hk => exact absurd ⟨hs, hn⟩ hd
  | ask_again hs | try_to_sleep hs => exact absurd hs hearly.1
  | reset_timer_sleep hs | reset_no_timer hs => exact absurd hs hearly.2
  | retrieve hs hn hw =>
    obtain ⟨s, rfl⟩ := stored hw
    refine ⟨by simp [entries, start, Made.entry, Checked, Accepted], ?_, ?_⟩
    · simp [retrieving]
    · simp [retrieving]
  | _ =>
    refine ⟨by simp [entries, start, Made.entry, Checked, Accepted], ?_, ?_⟩
    · simp [woken, roused, asked, asking]
    · simp [woken, roused, asked, asking]

/-- **A fire that is due to publish gives a command**, whether the stack is up or not. -/
theorem due_commands (hd : Due l) (he : Exec (firmware bus) app_process_action l h tr () l' h') :
    ¬ Checked stackUp Accepted false tr := by
  have hw : wp (firmware bus) (watch stackUp Accepted) app_process_action (fun _ k _ _ => ¬ k.2)
      (false, True) l h := by
    refine ((fire_asking_all hd.1 hd.2).wp watch_stackUp_blind.quiet _ _ _).2 ?_
    refine wp_send watch_stackUp_blind.quiet ?_ ?_
    · intro s d g' h' _ _ hc
      rw [watch_stackUp_blind.calls (by simp [publishing, start, published, Op.isMain]) h hc, foldl_watch]
      simp [entries, publishing, start, published, Made.entry, Checked, Accepted, stackUp, BleCall.command]
    · intro s d g' h' _ _ hc
      rw [watch_stackUp_blind.calls (by simp [publishing, start, published, Op.isMain]) h hc, foldl_watch]
      simp [entries, publishing, start, published, Made.entry, Checked, Accepted, stackUp, BleCall.command]
  have H := wp_iff.1 hw tr () l' h' he
  rw [foldl_watch] at H
  simpa using H

/-- What the trace of a fire and the list of its calls have in common. -/
theorem fire_emits (hI : Inv l h) (he : Exec (firmware bus) app_process_action l h tr () l' h') (b : Bool) :
    ∃ evs, Emits l h evs l' ∧ tr.foldl stackUp b = evs.foldl stackUp b ∧
      (Checked stackUp Accepted b evs → Checked stackUp Accepted b tr) := by
  have hf := wp_iff.1 (wp_fired (g := (b, True)) watch_stackUp_blind.quiet hI) tr () l' h' he
  obtain ⟨evs, hem, heq⟩ := hf.emits watch_stackUp_blind
  rw [foldl_watch, foldl_watch] at heq
  obtain ⟨h1, h2⟩ := Prod.mk.inj heq
  refine ⟨evs, hem, h1, ?_⟩
  intro hc
  have : True ∧ Checked stackUp Accepted b tr := by
    rw [h2]
    exact ⟨trivial, hc⟩
  exact this.2

/-- One pass of the loop, from a state in which nothing is published while the stack is down. -/
theorem pass_rule {evt : Option sl_bt_evt} {tr₁ tr₂ : List (Event D)} {l₁ l₂ : Local D} {h₁ h₂ : Shared}
    (hI : Inv l h) (hearly : b = false → Early l)
    (he₁ : Exec (firmware bus) (sl_bt_step evt) l h tr₁ () l₁ h₁)
    (he₂ : Exec (firmware bus) app_process_action l₁ h₁ tr₂ () l₂ h₂) :
    (BootFirst b ⟨evt, tr₁, l₁, h₁, tr₂⟩ ↔ NotDue b ⟨evt, tr₁, l₁, h₁, tr₂⟩) ∧
      (NotDue b ⟨evt, tr₁, l₁, h₁, tr₂⟩ → Pass.after b ⟨evt, tr₁, l₁, h₁, tr₂⟩ = false → Early l₂) := by
  unfold BootFirst NotDue Pass.after
  simp only
  have hup : isBoot evt = true → Pass.up ⟨evt, tr₁, l₁, h₁, tr₂⟩ b = true := by
    intro hboot
    rw [Pass.up, hboot, Bool.or_true]
  have hlow : Pass.up ⟨evt, tr₁, l₁, h₁, tr₂⟩ b = false → b = false := fun hu => (Bool.or_eq_false_iff.1 hu).1
  -- all that matters of the event is whether the stack is up afterwards
  generalize Pass.up ⟨evt, tr₁, l₁, h₁, tr₂⟩ b = up at hup hlow ⊢
  obtain ⟨hstill, hpass⟩ := handler_rule he₁ hup
  obtain ⟨hI₁, hcs, -⟩ := handler_keeps hI he₁
  have hearly₁ : up = false → Early l₁ := by
    intro hu
    unfold Early
    rw [hcs]
    exact hearly (hlow hu)
  obtain ⟨evs, hem, hfold, hcheck⟩ := fire_emits hI₁ he₂ up
  rw [checked_append, List.foldl_append, hstill]
  refine ⟨?_, ?_⟩
  · constructor
    · rintro ⟨-, hc⟩ rfl hd
      exact due_commands hd he₂ hc
    · intro hn
      refine ⟨hpass, hcheck ?_⟩
      cases up with
      | true => exact hem.rule_up
      | false => exact (hem.rule_down (hearly₁ rfl) (hn rfl)).1
  · intro hn hdown
    rw [hfold] at hdown
    rcases hem.up_or_early hdown with rfl | he
    · exact (hem.rule_down (hearly₁ rfl) (hn rfl)).2
    · exact he

/-- **The runs of the main loop are runs of its tasks.** -/
theorem MainLoop.runs (hr : MainLoop bus l₀ h₀ ps l h) : ∃ tr, Runs bus l₀ h₀ tr l h := by
  induction hr with
  | start => exact ⟨[], .nil⟩
  | irq i _ hi ih =>
    obtain ⟨tr, hr⟩ := ih
    exact ⟨_, .irq i hr hi⟩
  | pass evt _ he₁ he₂ ih =>
    obtain ⟨tr, hr⟩ := ih
    cases evt with
    | none => exact ⟨_, .task .app_process_action (hr.append (.of_ret he₁)) he₂⟩
    | some evt => exact ⟨_, .task .app_process_action (.task (.sl_bt_on_event evt) hr he₁) he₂⟩

theorem MainLoop.append (h1 : MainLoop bus l₀ h₀ ps l h) (h2 : MainLoop bus l h ps' l' h') :
    MainLoop bus l₀ h₀ (ps ++ ps') l' h' := by
  induction h2 with
  | start => simpa using h1
  | irq i _ hi ih => exact .irq i ih hi
  | pass evt _ he₁ he₂ ih =>
    rw [← List.append_assoc]
    exact .pass evt ih he₁ he₂

/-- The run of a script: interrupts between the passes, and the event of each pass. -/
def passes (env : Env Op.Resp Irq (Local Unit) Shared) : List (Step Irq (Option sl_bt_evt)) → Local Unit → Shared →
    Option (List (Pass Unit) × Local Unit × Shared)
  | [], l, h => some ([], l, h)
  | .irq i :: st, l, h => (handle i h).bind fun h₁ => passes env st l h₁
  | .task evt :: st, l, h => (execute (firmware anyBus) env (sl_bt_step evt) l h).bind fun x =>
      (execute (firmware anyBus) env app_process_action x.2.2.1 x.2.2.2).bind fun y =>
        (passes env st y.2.2.1 y.2.2.2).map fun z => (⟨evt, x.1, x.2.2.1, x.2.2.2, y.1⟩ :: z.1, z.2)

theorem passes_run {env : Env Op.Resp Irq (Local Unit) Shared} {st : List (Step Irq (Option sl_bt_evt))}
    {l l' : Local Unit} {ps : List (Pass Unit)} (hp : passes env st l h = some (ps, l', h')) :
    MainLoop anyBus l h ps l' h' := by
  induction st generalizing l h ps with
  | nil =>
    cases hp
    exact .start
  | cons s st ih =>
    cases s with
    | irq i =>
      obtain ⟨h₁, hi, hp⟩ := Option.bind_eq_some_iff.1 hp
      exact (MainLoop.irq i .start hi).append (ih hp)
    | task evt =>
      obtain ⟨⟨tr₁, ⟨⟩, l₁, h₁⟩, he₁, hp⟩ := Option.bind_eq_some_iff.1 hp
      obtain ⟨⟨tr₂, ⟨⟩, l₂, h₂⟩, he₂, hp⟩ := Option.bind_eq_some_iff.1 hp
      obtain ⟨⟨ps', r⟩, hz, heq⟩ := Option.map_eq_some_iff.1 hp
      obtain ⟨rfl, rfl⟩ := Prod.mk.inj heq
      exact (MainLoop.pass evt .start (execute_exec he₁) (execute_exec he₂)).append (ih hz)

/-- A script from power-up whose run ends in `P`. -/
theorem exists_passes (env : Env Op.Resp Irq (Local Unit) Shared) (st : List (Step Irq (Option sl_bt_evt)))
    {P : List (Pass Unit) → Local Unit → Shared → Prop} [∀ ps l h, Decidable (P ps l h)]
    (hp : (passes env st (booted false false).1 (booted false false).2).any
      (fun r => decide (P r.1 r.2.1 r.2.2)) = true) :
    ∃ ps l h, MainLoop anyBus (booted false false).1 (booted false false).2 ps l h ∧ P ps l h := by
  obtain ⟨⟨ps, l, h⟩, hr, hP⟩ := (Option.any_eq_true _ _).1 hp
  exact ⟨ps, l, h, passes_run hr, of_decide_eq_true hP⟩

/-- Four samples: for each a pass that asks, a data-ready interrupt, and a pass that reads. -/
def fourSamples : List (Step Irq (Option sl_bt_evt)) :=
  (List.replicate 4 [.task none, .irq .data_ready, .task none]).flatten

/-- **Commands come after the boot event** in a run of the main loop exactly when, without
the boot event, no `app_process_action` finds four samples retrieved. -/
theorem boot_first_iff (hb : Boot l₀ h₀) (hr : MainLoop bus l₀ h₀ ps l h) :
    Along BootFirst false ps ↔ Along NotDue false ps := by
  suffices (Along BootFirst false ps ↔ Along NotDue false ps) ∧
    (Along NotDue false ps → ps.foldl Pass.after false = false → Early l) from this.1
  induction hr with
  | start =>
    refine ⟨Iff.rfl, fun _ _ => ?_⟩
    exact hb.elim fun _ _ _ _ _ => ⟨by simp [new_app_fsm], by simp [new_app_fsm]⟩
  | irq i _ hi ih => exact ih
  | @pass ps l h tr₁ l₁ h₁ tr₂ l₂ h₂ evt hr he₁ he₂ ih =>
    obtain ⟨hiff, hearly⟩ := ih
    obtain ⟨tr, hruns⟩ := hr.runs
    have hI := run_inv hb hruns
    simp only [along_append, Along, and_true, List.foldl_append, List.foldl_cons, List.foldl_nil]
    by_cases hps : Along NotDue false ps
    · obtain ⟨h1, h2⟩ := pass_rule hI (hearly hps) he₁ he₂
      exact ⟨and_congr hiff h1, fun hn hdown => h2 hn.2 hdown⟩
    · -- the rule was broken before
      refine ⟨?_, fun hn => absurd hn.1 hps⟩
      exact ⟨fun hc => absurd (hiff.1 hc.1) hps, fun hn => absurd hn.1 hps⟩

instance Along.decidable {P : Bool → Pass D → Prop} [hP : ∀ up p, Decidable (P up p)] :
    ∀ up ps, Decidable (Along P up ps)
  | _, [] => .isTrue trivial
  | up, p :: ps => @instDecidableAnd _ _ (hP up p) (Along.decidable (p.after up) ps)

instance NotDue.decidable (up : Bool) (p : Pass D) : Decidable (NotDue up p) :=
  inferInstanceAs (Decidable (p.up up = false →
    ¬ (p.loc.current_state = states.ASKING_FOR_DATA ∧ p.loc.user.num_data_retrieved = 4)))

/-- A packet is sent after the boot event. -/
theorem boot_first_iff_booted : ∃ ps l h, MainLoop anyBus (booted false false).1 (booted false false).2 ps l h ∧
    l.user.data_sent_flag = 1 ∧ Along BootFirst false ps := by
  obtain ⟨ps, l, h, hr, hn, hs⟩ := exists_passes quietBench
    (.task none :: .task (some .system_boot) :: fourSamples ++ [.task none, .task none])
    (P := fun ps l _ => Along NotDue false ps ∧ l.user.data_sent_flag = 1) (by decide +kernel)
  exact ⟨ps, l, h, hr, hs, (boot_first_iff booted_boot hr).2 hn⟩

/-- The boot event does not come in time: four samples are retrieved before it. -/
theorem commands_before_boot : ∃ ps l h, MainLoop anyBus (booted false false).1 (booted false false).2 ps l h ∧
    (∀ p ∈ ps, p.evt = none) ∧ ¬ Along BootFirst false ps := by
  obtain ⟨ps, l, h, hr, hevt, hdown, hs, hn⟩ := exists_passes quietBench (.task none :: fourSamples ++ [.task none])
    (P := fun ps l _ => (∀ p ∈ ps, p.evt = none) ∧ ps.foldl Pass.after false = false ∧
      l.current_state = states.ASKING_FOR_DATA ∧ l.user.num_data_retrieved = 4) (by decide +kernel)
  -- the next pass publishes
  obtain ⟨⟨⟩, d, hd⟩ := drv_ends anyBus temp_sense_off l.driver
  obtain ⟨tr, ⟨⟩, l', h', he, -⟩ := may_iff.1 (can_send_ok (h := h) hs hn hd)
  refine ⟨_, l', h', .pass none hr .ret he, ?_, ?_⟩
  · intro p hp
    rcases List.mem_append.1 hp with hp | hp
    · exact hevt p hp
    · obtain rfl := List.mem_singleton.1 hp
      rfl
  · rw [along_append, hdown]
    rintro ⟨-, hc, -⟩
    exact due_commands ⟨hs, hn⟩ he hc

end M20Strain
