import M20Strain.Proof.Startup
import M20Strain.Proof.Tasks

/-!
# The device from power-up, and the model of the main loop

A life of the device runs `app_init` after power-up and after every EM4, with interrupts
between any two statements and whatever the heap holds. `life_iff`: as long as no interrupt
comes between the registration of its callback and the assignment of its pointer, the lives
look from outside like the runs of the model of the main loop, which start where `app_init`
ends. So what is proved of all runs of the main loop holds of the device.

The state in the middle of `app_init` stands for the one that its remaining statements lead
to, undisturbed. A run has to know at EM4 which heap the restarted device will find, which
the life learns later, so it is proved for every heap up to that point.
-/

namespace M20Strain

open Interrupt Prog

variable {D : Type} {bus : SpiBus D} {nConnections : RamAddr} {l l' L : Local D} {m m' : Memory}
  {h h' H : Shared} {rest : List InitOp} {g : Booting}

/-- A call with its answer, or an interrupt. -/
inductive Label where
  | call (o : Op) (r : Option o.Resp)
  | irq (i : Irq)

/-- The heap after a restart cannot be seen. -/
def answered (o : Op) (r : o.Resp) : Option o.Resp := if o.restarts then none else some r

def label : Event D → Label
  | .call o r _ _ => .call o (answered o r)
  | .irq i _ => .irq i

/-- Something runs at the interrupt. -/
def Memory.hears (m : Memory) : Irq → Bool
  | .change_mode => m.registered .change_mode
  | .data_ready => m.registered .data_ready
  | .sleeptimer | .burtc => true

/-- The statements of `app_init` cannot be seen, nor the interrupts that nothing hears. -/
def bootLabel : BootEvent D → Option Label
  | .call (.init _) _ _ _ => none
  | .call (.later o) r _ _ => some (.call o (answered o r))
  | .irq i m => if m.hears i then some (.irq i) else none

/-- The statement does not interfere with the change `f` of the flags. -/
def InitOp.Leaves (f : Shared → Shared) (o : InitOp) : Prop :=
  ∀ x v, o = .wr_shared_flag x v → ∀ h : Shared, (f h).set v x = f (h.set v x)

theorem step_flags {f : Shared → Shared} {o : InitOp} (ho : o.Leaves f) :
    o.step nConnections l { m with flags := f m.flags } = ((o.step nConnections l m).1,
      { (o.step nConnections l m).2 with flags := f (o.step nConnections l m).2.flags }) := by
  cases o with
  | wr_shared_flag x v =>
    simp only [InitOp.step]
    rw [ho x v rfl]
  | _ => rfl

/-- A change of the flags in the middle of `app_init` is one at its end. -/
theorem undisturbed_flags {f : Shared → Shared} (hf : ∀ o ∈ rest, o.Leaves f)
    (hu : undisturbed nConnections rest (l, m) = (L, .ready H)) :
    undisturbed nConnections rest (l, { m with flags := f m.flags }) = (L, .ready (f H)) := by
  induction rest generalizing l m with
  | nil =>
    obtain ⟨rfl, rfl⟩ := Prod.mk.inj hu
    rfl
  | cons o rest ih =>
    change undisturbed nConnections rest (o.step nConnections l _) = _
    rw [step_flags (hf o List.mem_cons_self)]
    exact ih (fun o ho => hf o (List.mem_cons_of_mem _ ho)) hu

/-- The flags are not assigned once a callback is registered. -/
theorem registration_leaves {o : InitOp} (ho : o ∈ registration) (f : Shared → Shared) : o.Leaves f := by
  rintro x v rfl
  simp [registration] at ho

theorem callback_eq {x : Gpio} (hp : m.pointer x = some x.flag) :
    ∃ f : Shared → Shared, (∀ h, handle x.irq h = some (f h)) ∧ callback x m = { m with flags := f m.flags } := by
  unfold callback
  rw [hp]
  cases x with
  | change_mode => exact ⟨change_mode_callback 1, fun _ => rfl, rfl⟩
  | data_ready => exact ⟨ready_to_retrieve_callback 2, fun _ => rfl, rfl⟩

/-- A timely callback does what the model of the main loop says. -/
theorem undisturbed_dispatch {x : Gpio} (ha : Agrees rest g m)
    (ht : .GPIOINT_CallbackRegister x ∈ g.done → .wr_pointer x ∈ g.done)
    (hu : undisturbed nConnections rest (l, m) = (L, .ready H)) :
    ∃ H', undisturbed nConnections rest (l, dispatch x m) = (L, .ready H') ∧
      if m.registered x then handle x.irq H = some H' else H' = H := by
  unfold dispatch
  split
  · rename_i hreg
    rw [ha.registered, decide_eq_true_iff] at hreg
    have hptr := ha.pointer x
    rw [if_pos (ht hreg)] at hptr
    obtain ⟨f, hf, heq⟩ := callback_eq hptr
    refine ⟨f H, ?_, hf H⟩
    rw [heq]
    exact undisturbed_flags (fun o ho => registration_leaves ((registered_after ha.split hreg).2 o ho) f) hu
  · exact ⟨H, hu, rfl⟩

/-- **An interrupt in the middle of `app_init`** is one at its end, or is not heard. -/
theorem undisturbed_irq {i : Irq} (ha : Agrees rest g m) (ht : Timely g (.irq i m : BootEvent D))
    (hr : rest ≠ [] → m.flags.timerRunning = false) (hi : interrupt i m = some m')
    (hu : undisturbed nConnections rest (l, m) = (L, .ready H)) :
    ∃ H', undisturbed nConnections rest (l, m') = (L, .ready H') ∧
      if m.hears i then handle i H = some H' else H' = H := by
  cases i with
  | change_mode =>
    obtain ⟨-, hd⟩ := Option.ite_none_right_eq_some.1 hi
    rw [← Option.some.inj hd]
    exact undisturbed_dispatch (x := .change_mode) ha (ht .change_mode rfl) hu
  | data_ready =>
    obtain ⟨-, hd⟩ := Option.ite_none_right_eq_some.1 hi
    rw [← Option.some.inj hd]
    exact undisturbed_dispatch (x := .data_ready) ha (ht .data_ready rfl) hu
  | burtc =>
    cases hi
    refine ⟨BURTC_IRQHandler H, undisturbed_flags (f := BURTC_IRQHandler) ?_ hu, rfl⟩
    rintro o - x v rfl h
    cases x <;> rfl
  | sleeptimer =>
    cases rest with
    | nil =>
      obtain ⟨rfl, rfl⟩ := Prod.mk.inj hu
      rw [interrupt_ready] at hi
      obtain ⟨H', hh, rfl⟩ := Option.map_eq_some_iff.1 hi
      exact ⟨H', rfl, hh⟩
    | cons o rest =>
      -- the timer does not run
      have hr := hr (List.cons_ne_nil _ _)
      simp [interrupt, handle, hr] at hi

theorem step_timerRunning (o : InitOp) :
    (o.step nConnections l m).2.flags.timerRunning = m.flags.timerRunning := by
  cases o with
  | wr_shared_flag x v => cases x <;> rfl
  | _ => rfl

theorem interrupt_timerRunning {i : Irq} (hi : interrupt i m = some m') (hr : m.flags.timerRunning = false) :
    m'.flags.timerRunning = false := by
  have hdispatch (x : Gpio) : (dispatch x m).flags.timerRunning = false := by
    unfold dispatch callback
    split
    · split
      · exact hr
      · rename_i f _
        cases f <;> exact hr
    · exact hr
  cases i with
  | change_mode | data_ready =>
    obtain ⟨-, hd⟩ := Option.ite_none_right_eq_some.1 hi
    rw [← Option.some.inj hd]
    exact hdispatch _
  | burtc =>
    cases hi
    exact hr
  | sleeptimer => simp [interrupt, handle, hr] at hi

theorem main_nConnections {o : MainOp} {r : o.Resp} (hs : o.step r l = some l') :
    l'.user.nConnections = l.user.nConnections := by
  cases o with
  | wr f v =>
    cases f <;> cases hs <;> rfl
  | _ =>
    simp only [MainOp.step] at hs
    grind

/-- The calls leave the pointer `nConnections` alone. -/
theorem step_nConnections {o : Op} {r : o.Resp} (hs : (firmware bus).step o r l h = some (l', h')) :
    l'.user.nConnections = l.user.nConnections := by
  cases o with
  | drv o =>
    obtain ⟨d, -, heq⟩ := Option.map_eq_some_iff.1 hs
    cases heq
    rfl
  | main o =>
    obtain ⟨l₁, hs₁, heq⟩ := Option.map_eq_some_iff.1 hs
    cases heq
    exact main_nConnections hs₁
  | shr o =>
    change o.step r l h = _ at hs
    cases o <;> simp only [ShrOp.step] at hs <;> grind [new_app_fsm]

theorem exec_nConnections {p : AppM Unit} {tr : List (Event D)} (he : Exec (firmware bus) p l h tr () l' h') :
    l'.user.nConnections = l.user.nConnections := by
  refine AllCalls.preserves (P := fun _ => True) (μ := blind) (g := ())
    (I := fun _ l₁ _ => l₁.user.nConnections = l.user.nConnections) ?_ ?_ (.of_forall (fun _ => trivial) p) he rfl
  · intro _ o r l₁ h₁ l₂ h₂ _ hs hI
    exact (step_nConnections hs).trans hI
  · intro _ _ _ _ _ _ hI
    exact hI

/-- The flags that `app_init` leaves, and the RTC interrupt. -/
abbrev cleared (wakeupTimer : Int) : Shared := ⟨0, 0, 0, wakeupTimer, false⟩

/-- After EM4 nothing but the RTC interrupt can come before `app_init`. -/
theorem exec_restarted {w : Int} {tr : List (BootEvent D)} {u : Unit}
    (he : Exec (device bus nConnections) (ret ()) l (.restart (cleared w)) tr u l' m') :
    l' = l ∧ tr.any isRestart = false ∧ ∃ w', m' = .restart (cleared w') ∧ ∀ L : Local D, ∃ tr',
      Exec (firmware bus) (ret ()) L (cleared w) tr' () L (cleared w') ∧ tr'.map label = tr.filterMap bootLabel := by
  generalize hm : Memory.restart (cleared w) = m at he
  generalize hp : (ret () : Prog BootOp.Resp Unit) = p at he
  induction he generalizing w with
  | ret => exact ⟨rfl, rfl, w, hm.symm, fun L => ⟨[], .ret, rfl⟩⟩
  | call => cases hp
  | @irq _ i _ _ _ _ _ _ _ hi _ ih =>
    subst hm
    cases i with
    | change_mode | data_ready | sleeptimer => cases hi
    | burtc =>
      cases hi
      obtain ⟨rfl, hr, w', rfl, hL⟩ := ih rfl hp
      refine ⟨rfl, hr, w', rfl, ?_⟩
      intro L
      obtain ⟨tr', he, hl⟩ := hL L
      exact ⟨.irq .burtc _ :: tr', .irq rfl he, congrArg _ hl⟩

theorem hears_ready (i : Irq) (h : Shared) :
    bootLabel (.irq i (.ready h) : BootEvent D) = some (.irq i) := by
  cases i <;> rfl

theorem restarts_iff {o : Op} : o.restarts = true ↔ o = .shr .EMU_EnterEM4 := by
  constructor
  · intro hr
    cases o with
    | drv o | main o => cases hr
    | shr o =>
      cases o with
      | EMU_EnterEM4 => rfl
      | _ => cases hr
  · rintro rfl
    rfl

/-- The trace `tr` of program `p` on the device, to `(l', m')`, looks like one of the main
loop. If it restarts the device it leaves `app_init` to do, and looks like one of the main
loop whatever the heap will hold. -/
def Mirrored (bus : SpiBus D) (nConnections : RamAddr) (p : AppM Unit) (l : Local D) (h : Shared)
    (tr : List (BootEvent D)) (l' : Local D) (m' : Memory) : Prop :=
  (tr.any isRestart = false ∧ ∃ h' tr', m' = .ready h' ∧ Exec (firmware bus) p l h tr' () l' h' ∧
    tr'.map label = tr.filterMap bootLabel) ∨
  (tr.any isRestart = true ∧ ∃ em4PinWakeup ads dev w,
    l' = (new_app_fsm nConnections em4PinWakeup true ads dev).1 ∧ m' = .restart (cleared w) ∧
    ∀ ads, ∃ tr', Exec (firmware bus) p l h tr' ()
      (new_app_fsm nConnections em4PinWakeup true ads dev).1 (cleared w) ∧
      tr'.map label = tr.filterMap bootLabel)

theorem Mirrored.cons {p q : AppM Unit} {l₁ : Local D} {h₁ : Shared} {tr : List (BootEvent D)} {e : BootEvent D}
    {f : Event D} (hp : Mirrored bus nConnections p l₁ h₁ tr l' m') (hr : isRestart e = false)
    (hl : bootLabel e = some (label f))
    (hq : ∀ tr' L H, Exec (firmware bus) p l₁ h₁ tr' () L H → Exec (firmware bus) q l h (f :: tr') () L H) :
    Mirrored bus nConnections q l h (e :: tr) l' m' := by
  have hcons {tr' : List (Event D)} (heq : tr'.map label = tr.filterMap bootLabel) :
      (f :: tr').map label = (e :: tr).filterMap bootLabel := by
    rw [List.filterMap_cons_some hl, List.map_cons, heq]
  unfold Mirrored
  rw [List.any_cons, hr, Bool.false_or]
  rcases hp with ⟨htr, h', tr', hm', he, heq⟩ | ⟨htr, em4PinWakeup, ads, dev, w, hl', hm', hads⟩
  · exact .inl ⟨htr, h', _, hm', hq _ _ _ he, hcons heq⟩
  · refine .inr ⟨htr, em4PinWakeup, ads, dev, w, hl', hm', ?_⟩
    intro ads
    obtain ⟨tr', he, heq⟩ := hads ads
    exact ⟨_, hq _ _ _ he, hcons heq⟩

/-- EM4 is the last call, and nobody sees its answer. -/
theorem Mirrored.restart {k : ads1220_t → AppM Unit} {r : ads1220_t} {tr : List (BootEvent D)} {u : Unit}
    (hk : ∀ r, k r = ret ()) (hn : l.user.nConnections = nConnections)
    (he : Exec (device bus nConnections) (ret ()) (new_app_fsm nConnections l.em4PinWakeup true r l.driver.dev).1
      (.restart (cleared 0)) tr u l' m') :
    Mirrored bus nConnections (.call (.shr .EMU_EnterEM4) k) l h
      (.call (.later (.shr .EMU_EnterEM4)) r l (.ready h) :: tr) l' m' := by
  obtain ⟨rfl, hr, w, rfl, hL⟩ := exec_restarted he
  refine .inr ⟨rfl, l.em4PinWakeup, r, l.driver.dev, w, rfl, rfl, ?_⟩
  intro ads
  obtain ⟨tr', he, hl⟩ := hL (new_app_fsm nConnections l.em4PinWakeup true ads l.driver.dev).1
  have hs : (firmware bus).step (.shr .EMU_EnterEM4) ads l h =
      some (new_app_fsm nConnections l.em4PinWakeup true ads l.driver.dev) := by
    rw [← hn]
    rfl
  refine ⟨_, .call hs ?_, congrArg _ hl⟩
  rw [hk]
  exact he

/-- **A task on the device** looks like one of the main loop. -/
theorem exec_later {p : AppM Unit} {tr : List (BootEvent D)} {u : Unit} (hp : Last (fun o => o.restarts = true) p)
    (hn : l.user.nConnections = nConnections)
    (he : Exec (device bus nConnections) (p.embed BootOp.later fun _ r => r) l (.ready h) tr u l' m') :
    Mirrored bus nConnections p l h tr l' m' := by
  generalize hq : (p.embed BootOp.later fun _ r => r : Prog BootOp.Resp Unit) = q at he
  generalize hm : Memory.ready h = m at he
  induction he generalizing p h with
  | ret =>
    cases p with
    | ret b =>
      cases hq
      exact .inl ⟨rfl, h, [], hm.symm, .ret, rfl⟩
    | call o k => cases hq
  | @irq _ i _ _ _ _ _ _ _ hi _ ih =>
    subst hm
    have hi : interrupt _ (.ready h) = some _ := hi
    rw [interrupt_ready] at hi
    obtain ⟨h₁, hi, heq⟩ := Option.map_eq_some_iff.1 hi
    exact (ih hp hn hq heq).cons rfl (hears_ready i h) fun _ _ _ he => .irq hi he
  | @call _ _ r l _ l₁ _ _ _ _ _ hs he ih =>
    cases p with
    | ret b => cases hq
    | call o k =>
      obtain ⟨rfl, hk⟩ := Prog.call.inj hq
      obtain rfl := eq_of_heq hk
      subst hm
      obtain ⟨h₁, hs, heq⟩ := later_step.1 hs
      cases hr : o.restarts with
      | false =>
        rw [hr] at heq
        exact (ih (hp.2 r) ((step_nConnections hs).trans hn) rfl heq.symm).cons hr rfl fun _ _ _ he => .call hs he
      | true =>
        obtain rfl := restarts_iff.1 hr
        subst heq
        cases hs
        have hk (r : ads1220_t) : k r = ret () := by
          obtain ⟨⟨⟩, hk⟩ := hp.1 rfl r
          exact hk
        have he : Exec (device bus nConnections) ((k r).embed BootOp.later fun _ r => r) _ _ _ _ _ _ := he
        rw [hk] at he
        subst hn
        exact .restart hk rfl he

section Life

variable {em4PinWakeup em4Reset : Bool} {dev : D} {ls : List Label}

/-- A run of the main loop from power-up, whatever the heap held, that looks like `ls`. -/
def RunsLike (bus : SpiBus D) (nConnections : RamAddr) (em4PinWakeup em4Reset : Bool) (dev : D) (ls : List Label)
    (L : Local D) (H : Shared) : Prop :=
  ∃ ads tr, Runs bus (new_app_fsm nConnections em4PinWakeup em4Reset ads dev).1 (cleared 0) tr L H ∧
    tr.map label = ls

theorem RunsLike.irq {i : Irq} {H' : Shared} (hf : RunsLike bus nConnections em4PinWakeup em4Reset dev ls L H)
    (hi : handle i H = some H') :
    RunsLike bus nConnections em4PinWakeup em4Reset dev (ls ++ [.irq i]) L H' := by
  obtain ⟨ads, tr, hr, rfl⟩ := hf
  exact ⟨ads, _, .irq i hr hi, List.map_append⟩

theorem RunsLike.task {t : Task} {tr : List (Event D)} {L' : Local D} {H' : Shared}
    (hf : RunsLike bus nConnections em4PinWakeup em4Reset dev ls L H)
    (he : Exec (firmware bus) t.body L H tr () L' H') :
    RunsLike bus nConnections em4PinWakeup em4Reset dev (ls ++ tr.map label) L' H' := by
  obtain ⟨ads, tr, hr, rfl⟩ := hf
  exact ⟨ads, _, .task t hr he, List.map_append⟩

/-- `RunsLike.irq`, for an interrupt that may not be heard. -/
theorem RunsLike.interrupt {i : Irq} {H' : Shared} (hf : RunsLike bus nConnections em4PinWakeup em4Reset dev ls L H)
    (hi : if m.hears i then handle i H = some H' else H' = H) :
    RunsLike bus nConnections em4PinWakeup em4Reset dev (ls ++ ([.irq i m] : List (BootEvent D)).filterMap bootLabel)
      L H' := by
  by_cases hm : m.hears i = true
  · rw [if_pos hm] at hi
    have hb : bootLabel (.irq i m : BootEvent D) = some (.irq i) := if_pos hm
    rw [List.filterMap_cons_some hb]
    exact hf.irq hi
  · rw [if_neg hm] at hi
    have hb : bootLabel (.irq i m : BootEvent D) = none := if_neg hm
    rw [List.filterMap_cons_none hb, hi, List.filterMap_nil, List.append_nil]
    exact hf

/-- **What the life of a device stands for**: right after a restart, the state `app_init` leaves,
for every heap; later, what the rest of `app_init` leaves. -/
inductive Stands (bus : SpiBus D) (nConnections : RamAddr) (em4PinWakeup em4Reset : Bool) (dev : D)
    (ls : List Label) : List InitOp → Local D → Memory → Prop where
  | restarted {pin reset dev' ads user w data_ready_flag change_mode_flag tmr_flag}
      (hf : ∀ ads, RunsLike bus nConnections em4PinWakeup em4Reset dev ls
        (new_app_fsm nConnections pin reset ads dev').1 (cleared w)) :
      Stands bus nConnections em4PinWakeup em4Reset dev ls app_init
        { (new_app_fsm nConnections pin reset ads dev').1 with user }
        (.restart ⟨data_ready_flag, change_mode_flag, tmr_flag, w, false⟩)
  | going {rest : List InitOp} {l L : Local D} {m : Memory} {H : Shared}
      (hlen : rest.length < app_init.length) (hr : rest ≠ [] → m.flags.timerRunning = false)
      (hn : L.user.nConnections = nConnections) (hu : undisturbed nConnections rest (l, m) = (L, .ready H))
      (hf : RunsLike bus nConnections em4PinWakeup em4Reset dev ls L H) :
      Stands bus nConnections em4PinWakeup em4Reset dev ls rest l m

/-- All of `app_init`, when the RTC interrupt came before. -/
theorem undisturbed_app_init (nConnections : RamAddr) (pin reset : Bool) (ads : ads1220_t) (dev : D)
    (user : app_fsm_t) (w : Int) (data_ready_flag change_mode_flag tmr_flag : UInt8) :
    undisturbed nConnections app_init ({ (new_app_fsm nConnections pin reset ads dev).1 with user },
      .restart ⟨data_ready_flag, change_mode_flag, tmr_flag, w, false⟩) =
      ((new_app_fsm nConnections pin reset ads dev).1, .ready (cleared w)) := by
  have hs : new_app_fsm nConnections pin reset ads dev =
    ((new_app_fsm nConnections pin reset ads dev).1, cleared 0) := rfl
  refine undisturbed_flags (f := fun h => { h with wakeupTimer := w }) ?_
    (app_init_eq hs user states.SLEEPING data_ready_flag change_mode_flag tmr_flag)
  rintro o - x v rfl h
  cases x <;> rfl

theorem Stands.heap {user : app_fsm_t} {ads : ads1220_t} {data_ready_flag change_mode_flag tmr_flag : UInt8}
    (hs : Stands bus nConnections em4PinWakeup em4Reset dev ls app_init l m) :
    Stands bus nConnections em4PinWakeup em4Reset dev ls app_init { l with user, driver := { l.driver with ads } }
      { m with flags := { m.flags with data_ready_flag, change_mode_flag, tmr_flag } } := by
  generalize hrest : app_init = rest at hs
  cases hs with
  | restarted hf => exact .restarted hf
  | going hlen hr hn hu hf =>
    subst hrest
    exact absurd hlen (lt_irrefl _)

theorem Stands.irq {i : Irq} (ha : Agrees rest g m) (ht : Timely g (.irq i m : BootEvent D))
    (hi : interrupt i m = some m') (hs : Stands bus nConnections em4PinWakeup em4Reset dev ls rest l m) :
    Stands bus nConnections em4PinWakeup em4Reset dev
      (ls ++ ([.irq i m] : List (BootEvent D)).filterMap bootLabel) rest l m' := by
  cases hs with
  | restarted hf =>
    -- the pins are not enabled, and the timer does not run
    cases i with
    | change_mode | data_ready | sleeptimer => cases hi
    | burtc =>
      cases hi
      exact .restarted fun ads => (hf ads).irq rfl
  | going hlen hr hn hu hf =>
    obtain ⟨H', hu', hh⟩ := undisturbed_irq ha ht hr hi hu
    exact .going hlen (fun hne => interrupt_timerRunning hi (hr hne)) hn hu' (hf.interrupt hh)

theorem Stands.statement {o : InitOp} (hs : Stands bus nConnections em4PinWakeup em4Reset dev ls (o :: rest) l m) :
    Stands bus nConnections em4PinWakeup em4Reset dev ls rest (o.step nConnections l m).1
      (o.step nConnections l m).2 := by
  generalize hrest : o :: rest = os at hs
  cases hs with
  | restarted hf =>
    rename_i pin reset dev' ads user w data_ready_flag change_mode_flag tmr_flag
    have hu := undisturbed_app_init nConnections pin reset ads dev' user w data_ready_flag
      change_mode_flag tmr_flag
    rw [← hrest] at hu
    refine .going ?_ ?_ rfl hu (hf ads)
    · rw [← hrest]
      exact Nat.lt_succ_self _
    · intro _
      exact step_timerRunning o
  | going hlen hr hn hu hf =>
    subst hrest
    refine .going (Nat.lt_of_succ_lt hlen) ?_ hn hu hf
    intro _
    rw [step_timerRunning]
    exact hr (List.cons_ne_nil _ _)

theorem Stands.task {t : Task} {tr : List (BootEvent D)}
    (hs : Stands bus nConnections em4PinWakeup em4Reset dev ls [] l m)
    (he : Exec (device bus nConnections) t.later l m tr () l' m') :
    Stands bus nConnections em4PinWakeup em4Reset dev (ls ++ tr.filterMap bootLabel)
      (if tr.any isRestart then app_init else []) l' m' := by
  generalize hrest : ([] : List InitOp) = rest at hs
  cases hs with
  | restarted hf => cases hrest
  | going hlen hr hn hu hf =>
    subst hrest
    obtain ⟨rfl, rfl⟩ := Prod.mk.inj hu
    rcases exec_later t.last_restart hn he with
      ⟨htr, h', tr', rfl, he', hl⟩ | ⟨htr, pin, ads, dev', w, rfl, rfl, hads⟩
    · rw [htr, ← hl]
      have hn' := exec_nConnections he'
      exact .going hlen (fun hne => absurd rfl hne) (hn'.trans hn) rfl (hf.task he')
    · rw [htr]
      have hrest : ∀ ads, RunsLike bus nConnections em4PinWakeup em4Reset dev (ls ++ tr.filterMap bootLabel)
          (new_app_fsm nConnections pin true ads dev').1 (cleared w) := by
        intro ads
        obtain ⟨tr', he', hl⟩ := hads ads
        rw [← hl]
        exact hf.task he'
      exact .restarted hrest

theorem Life.stands {ads : ads1220_t} {tr : List (BootEvent D)}
    (hl : Life bus nConnections (new_app_fsm nConnections em4PinWakeup em4Reset ads dev).1 (.restart (cleared 0))
      rest tr l m) (ht : Checked booting Timely .restart tr) :
    Stands bus nConnections em4PinWakeup em4Reset dev (tr.filterMap bootLabel) rest l m := by
  induction hl with
  | start => exact .restarted fun ads => ⟨ads, [], .nil, rfl⟩
  | heap user ads' data_ready_flag change_mode_flag tmr_flag _ ih => exact (ih ht).heap
  | irq i hl hi ih =>
    obtain ⟨ht, hi', -⟩ := checked_append.1 ht
    rw [List.filterMap_append]
    exact (ih ht).irq hl.agrees.1 hi' hi
  | statement _ ih =>
    rw [List.filterMap_append, List.filterMap_cons_none rfl, List.filterMap_nil, List.append_nil]
    exact (ih (checked_append.1 ht).1).statement
  | task t _ he ih =>
    rw [List.filterMap_append]
    exact (ih (checked_append.1 ht).1).task he

/-- Tasks are timely: `app_init` is done, or nothing is. -/
theorem timely_later {α : Type} {p : AppM α} {a : α} {tr : List (BootEvent D)}
    (hg : g.done = app_init ∨ g.done = [])
    (he : Exec (device bus nConnections) (p.embed BootOp.later fun _ r => r) l m tr a l' m') :
    Checked booting Timely g tr := by
  generalize hq : (p.embed BootOp.later fun _ r => r : Prog BootOp.Resp α) = q at he
  induction he generalizing p g with
  | ret => trivial
  | call _ _ ih =>
    cases p with
    | ret b => cases hq
    | call o k =>
      obtain ⟨rfl, hk⟩ := Prog.call.inj hq
      obtain rfl := eq_of_heq hk
      refine ⟨trivial, ih ?_ rfl⟩
      cases hr : o.restarts with
      | true => exact .inr (by simp [booting, hr, Booting.restart])
      | false => simpa [booting, hr] using hg
  | irq _ _ ih =>
    refine ⟨?_, ih hg hq⟩
    intro x _ hreg
    rcases hg with hg | hg
    · rw [hg]
      cases x <;> decide
    · rw [hg] at hreg
      cases hreg

/-- The trace `tr` of program `p` in the main loop, to `(l', h')`, can be had on the device. If it
restarts the device, that is up to EM4, after which only interrupts come. -/
def Realised (bus : SpiBus D) (nConnections : RamAddr) (p : AppM Unit) (l : Local D) (h : Shared)
    (tr : List (Event D)) (l' : Local D) (h' : Shared) : Prop :=
  (∃ tr', Exec (device bus nConnections) (p.embed BootOp.later fun _ r => r) l (.ready h) tr' () l' (.ready h') ∧
    tr'.any isRestart = false ∧ tr'.filterMap bootLabel = tr.map label) ∨
  ∃ tr₁ tr₂ em4PinWakeup ads dev,
    Exec (device bus nConnections) (p.embed BootOp.later fun _ r => r) l (.ready h) tr₁ ()
      (new_app_fsm nConnections em4PinWakeup true ads dev).1 (.restart (cleared 0)) ∧
    Exec (firmware bus) (ret ()) (new_app_fsm nConnections em4PinWakeup true ads dev).1 (cleared 0) tr₂ () l' h' ∧
    tr₁.any isRestart = true ∧ tr₁.filterMap bootLabel ++ tr₂.map label = tr.map label

theorem Realised.cons {p q : AppM Unit} {l₁ : Local D} {h₁ : Shared} {tr : List (Event D)} {e : Event D}
    {f : BootEvent D} (hp : Realised bus nConnections p l₁ h₁ tr l' h') (hr : isRestart f = false)
    (hl : bootLabel f = some (label e))
    (hq : ∀ tr' L M, Exec (device bus nConnections) (p.embed BootOp.later fun _ r => r) l₁ (.ready h₁) tr' () L M →
      Exec (device bus nConnections) (q.embed BootOp.later fun _ r => r) l (.ready h) (f :: tr') () L M) :
    Realised bus nConnections q l h (e :: tr) l' h' := by
  rcases hp with ⟨tr', he, htr, heq⟩ | ⟨tr₁, tr₂, em4PinWakeup, ads, dev, he₁, he₂, htr, heq⟩
  · refine .inl ⟨_, hq _ _ _ he, ?_, ?_⟩
    · rw [List.any_cons, hr, htr, Bool.false_or]
    · rw [List.filterMap_cons_some hl, List.map_cons, heq]
  · refine .inr ⟨_, tr₂, em4PinWakeup, ads, dev, hq _ _ _ he₁, he₂, ?_, ?_⟩
    · rw [List.any_cons, htr, Bool.or_true]
    · rw [List.filterMap_cons_some hl, List.map_cons, List.cons_append, heq]

/-- **A task of the main loop on the device.** -/
theorem exec_device {p : AppM Unit} {tr : List (Event D)} {u : Unit} (hp : Last (fun o => o.restarts = true) p)
    (hn : l.user.nConnections = nConnections) (he : Exec (firmware bus) p l h tr u l' h') :
    Realised bus nConnections p l h tr l' h' := by
  induction he with
  | ret => exact .inl ⟨[], .ret, rfl, rfl⟩
  | @call o k r l h l₁ h₁ _ _ _ _ hs he ih =>
    cases hr : o.restarts with
    | false =>
      have hs' : (device bus nConnections).step (.later o) r l (.ready h) = some (l₁, .ready h₁) :=
        later_step.2 ⟨h₁, hs, by rw [hr]; rfl⟩
      refine (ih (hp.2 r) ((step_nConnections hs).trans hn)).cons (f := .call (.later o) r l (.ready h)) hr rfl ?_
      exact fun _ _ _ he => .call hs' he
    | true =>
      obtain rfl := restarts_iff.1 hr
      subst hn
      cases hs
      obtain ⟨⟨⟩, hk⟩ := hp.1 rfl r
      rw [hk] at he
      refine .inr ⟨[.call (.later (.shr .EMU_EnterEM4)) r l (.ready h)], _, l.em4PinWakeup, r, l.driver.dev,
        .call (later_step.2 ⟨cleared 0, rfl, rfl⟩) ?_, he, rfl, rfl⟩
      change Exec (device bus l.user.nConnections) ((k r).embed BootOp.later fun _ r => r) _ _ _ _ _ _
      rw [hk]
      exact .ret
  | @irq _ i _ h h₁ _ _ _ _ hi _ ih =>
    have hi' : interrupt i (.ready h) = some (.ready h₁) := by
      rw [interrupt_ready]
      exact congrArg _ hi
    exact (ih hp hn).cons (f := .irq i (.ready h)) rfl (hears_ready i h) fun _ _ _ he => .irq hi' he

/-- A timely life that looks like `ls`. -/
def Lived (bus : SpiBus D) (nConnections : RamAddr) (l₀ : Local D) (ls : List Label) (rest : List InitOp)
    (l : Local D) (m : Memory) : Prop :=
  ∃ tr, Life bus nConnections l₀ (.restart (cleared 0)) rest tr l m ∧ Checked booting Timely .restart tr ∧
    tr.filterMap bootLabel = ls

variable {l₀ : Local D}

/-- `app_init` cannot be seen. -/
theorem Lived.undisturbed {os : List InitOp} (hl : Lived bus nConnections l₀ ls (os ++ rest) l m) :
    Lived bus nConnections l₀ ls rest (undisturbed nConnections os (l, m)).1
      (undisturbed nConnections os (l, m)).2 := by
  induction os generalizing l m with
  | nil => exact hl
  | cons o os ih =>
    obtain ⟨tr, hl, ht, rfl⟩ := hl
    refine ih ⟨_, hl.statement, checked_append.2 ⟨ht, trivial, trivial⟩, ?_⟩
    rw [List.filterMap_append, List.filterMap_cons_none rfl, List.filterMap_nil, List.append_nil]

theorem Lived.irq {i : Irq} (hl : Lived bus nConnections l₀ ls [] l (.ready h)) (hi : handle i h = some h') :
    Lived bus nConnections l₀ (ls ++ [.irq i]) [] l (.ready h') := by
  obtain ⟨tr, hl, ht, rfl⟩ := hl
  have hi' : interrupt i (.ready h) = some (.ready h') := by
    rw [interrupt_ready, hi]
    rfl
  refine ⟨_, hl.irq i hi', checked_append.2 ⟨ht, ?_, trivial⟩, ?_⟩
  · have hdone := hl.agrees.1.split
    rw [List.append_nil] at hdone
    intro x _ _
    rw [hdone]
    cases x <;> decide
  · rw [List.filterMap_append, List.filterMap_cons_some (hears_ready i h)]
    rfl

/-- Interrupts after the last call of a task. -/
theorem Lived.irqs {tr : List (Event D)} (hl : Lived bus nConnections l₀ ls [] l (.ready h)) {u : Unit}
    (he : Exec (firmware bus) (ret ()) l h tr u l' h') :
    Lived bus nConnections l₀ (ls ++ tr.map label) [] l' (.ready h') := by
  generalize hp : (ret () : AppM Unit) = p at he
  induction he generalizing ls with
  | ret =>
    rw [List.map_nil, List.append_nil]
    exact hl
  | call => cases hp
  | @irq _ i _ _ _ _ _ _ _ hi _ ih =>
    have ih := ih (hl.irq hi) hp
    rw [List.append_assoc] at ih
    exact ih

theorem Lived.task {t : Task} {tr : List (Event D)} (hl : Lived bus nConnections l₀ ls [] l (.ready h))
    (hn : l.user.nConnections = nConnections) (he : Exec (firmware bus) t.body l h tr () l' h') :
    Lived bus nConnections l₀ (ls ++ tr.map label) [] l' (.ready h') := by
  obtain ⟨tr₀, hl, ht, rfl⟩ := hl
  have hdone := hl.agrees.1.split
  rw [List.append_nil] at hdone
  have hnext {tr' : List (BootEvent D)} {l₁ : Local D} {m₁ : Memory}
      (he : Exec (device bus nConnections) t.later l (.ready h) tr' () l₁ m₁) :
      Lived bus nConnections l₀ (tr₀.filterMap bootLabel ++ tr'.filterMap bootLabel)
        (if tr'.any isRestart then app_init else []) l₁ m₁ :=
    ⟨_, hl.task t he, checked_append.2 ⟨ht, timely_later (.inl hdone) he⟩, List.filterMap_append⟩
  rcases exec_device t.last_restart hn he with ⟨tr', he', hr, heq⟩ | ⟨tr₁, tr₂, pin, ads, dev, he₁, he₂, hr, heq⟩
  · have hl' := hnext he'
    rw [hr, heq] at hl'
    exact hl'
  · have hl' := hnext he₁
    rw [hr, if_pos rfl, ← List.append_nil app_init] at hl'
    have hl' := hl'.undisturbed
    rw [undisturbed_app_init nConnections pin true ads dev _ 0 0 0 0] at hl'
    rw [← heq, ← List.append_assoc]
    exact hl'.irqs he₂

theorem lived_of_run {ads : ads1220_t} {tr : List (Event D)}
    (hr : Runs bus (new_app_fsm nConnections em4PinWakeup em4Reset ads dev).1 (cleared 0) tr L H) :
    Lived bus nConnections (new_app_fsm nConnections em4PinWakeup em4Reset ads dev).1 (tr.map label) [] L
      (.ready H) ∧ L.user.nConnections = nConnections := by
  induction hr with
  | nil =>
    have hl : Lived bus nConnections (new_app_fsm nConnections em4PinWakeup em4Reset ads dev).1 [] (app_init ++ [])
        (new_app_fsm nConnections em4PinWakeup em4Reset ads dev).1 (.restart (cleared 0)) :=
      ⟨[], .start, trivial, rfl⟩
    have hl := hl.undisturbed
    rw [undisturbed_app_init nConnections em4PinWakeup em4Reset ads dev _ 0 0 0 0] at hl
    exact ⟨hl, rfl⟩
  | irq i _ hi ih =>
    rw [List.map_append]
    exact ⟨ih.1.irq hi, ih.2⟩
  | task t _ he ih =>
    rw [List.map_append]
    exact ⟨ih.1.task ih.2 he, (exec_nConnections he).trans ih.2⟩

/-- A timely life looks like a run, once `app_init` is done. -/
theorem Lived.runsLike {ads : ads1220_t}
    (hl : Lived bus nConnections (new_app_fsm nConnections em4PinWakeup em4Reset ads dev).1 ls [] l m) :
    ∃ h, m = .ready h ∧ RunsLike bus nConnections em4PinWakeup em4Reset dev ls l h := by
  obtain ⟨tr, hl, ht, rfl⟩ := hl
  have hs := hl.stands ht
  generalize hrest : ([] : List InitOp) = rest at hs
  cases hs with
  | restarted hf => cases hrest
  | going hlen hr hn hu hf =>
    subst hrest
    obtain ⟨rfl, rfl⟩ := Prod.mk.inj hu
    exact ⟨_, rfl, hf⟩

/-- **The device and the model of the main loop look the same from outside**: once `app_init` is
done, what timely lives show, and the state they are in, is what runs show that start where
`app_init` ends. -/
theorem life_iff :
    (∃ ads, Lived bus nConnections (new_app_fsm nConnections em4PinWakeup em4Reset ads dev).1 ls [] l m) ↔
      ∃ h, m = .ready h ∧ ∃ ads tr, Runs bus (new_app_fsm nConnections em4PinWakeup em4Reset ads dev).1
        (new_app_fsm nConnections em4PinWakeup em4Reset ads dev).2 tr l h ∧ tr.map label = ls := by
  constructor
  · rintro ⟨ads, hl⟩
    exact hl.runsLike
  · rintro ⟨h, rfl, ads, tr, hr, rfl⟩
    exact ⟨ads, (lived_of_run hr).1⟩

/-- **In the middle of `app_init`** the life stands for the state that the rest of it leaves
undisturbed: a run of the main loop gets there, and looks the same so far. -/
theorem life_stands {ads : ads1220_t} {tr : List (BootEvent D)}
    (hl : Life bus nConnections (new_app_fsm nConnections em4PinWakeup em4Reset ads dev).1
      (.restart (new_app_fsm nConnections em4PinWakeup em4Reset ads dev).2) rest tr l m)
    (ht : Checked booting Timely .restart tr) :
    ∃ h, (undisturbed nConnections rest (l, m)).2 = .ready h ∧ ∃ ads tr',
      Runs bus (new_app_fsm nConnections em4PinWakeup em4Reset ads dev).1
        (new_app_fsm nConnections em4PinWakeup em4Reset ads dev).2 tr' (undisturbed nConnections rest (l, m)).1 h ∧
      tr'.map label = tr.filterMap bootLabel := by
  cases hl.stands ht with
  | restarted hf =>
    rw [undisturbed_app_init]
    exact ⟨_, rfl, hf _⟩
  | going hlen hr hn hu hf =>
    rw [hu]
    exact ⟨_, rfl, hf⟩

end Life

/-- Before the first callback is registered. -/
theorem life_stands_early : ∃ rest tr l m, rest ≠ [] ∧
    Life anyBus nConnections_addr (booted false false).1 (.restart (booted false false).2) rest tr l m ∧
    ∃ h, (undisturbed nConnections_addr rest (l, m)).2 = .ready h ∧ ∃ ads tr',
      Runs anyBus (new_app_fsm nConnections_addr false false ads ()).1
        (new_app_fsm nConnections_addr false false ads ()).2 tr' (undisturbed nConnections_addr rest (l, m)).1 h ∧
      tr'.map label = tr.filterMap bootLabel := by
  have hl : Life anyBus nConnections_addr (booted false false).1 (.restart (booted false false).2)
    (app_init.take 12 ++ app_init.drop 12) [] (booted false false).1 (.restart (booted false false).2) := .start
  obtain ⟨tr, hl, hg⟩ := hl.undisturbed
  exact ⟨_, tr, _, _, by decide, hl, life_stands hl (hg .restart).2⟩

end M20Strain
