import M20Strain.Interrupt.Run
import M20Strain.Model.Init
import M20Strain.Proof.Bench

/-!
# Interrupts during the initialisation

`pointers_iff`: the callbacks find their pointers set and the user data initialised, and
no press they noted is overwritten by `app_init`, exactly when no GPIO interrupt comes
between the registration of its callback and the assignment of its pointer.
`app_init_eq`, `exec_ready`: undisturbed, `app_init` leaves the state that the model of the
main loop starts in, and from then on the device does what that model says.
-/

namespace M20Strain

open Interrupt Prog

variable {D : Type} {bus : SpiBus D} {nConnections : RamAddr} {l₀ l l' : Local D} {m₀ m m' : Memory}
  {rest : List InitOp} {tr : List (BootEvent D)}

/-- The statements executed since the restart, and the interrupts noted by a callback. -/
structure Booting where
  done : List InitOp
  pressed : Gpio → Bool

def Booting.restart : Booting := ⟨[], fun _ => false⟩

def booting (g : Booting) : BootEvent D → Booting
  | .call (.init o) _ _ _ => { g with done := g.done ++ [o] }
  | .call (.later o) _ _ _ => if o.restarts then .restart else g
  | .irq i m => { g with pressed := fun x => g.pressed x || (decide (x.irq = i) && m.registered x) }

/-- A callback that runs finds its pointer set, and all the user data assigned; and
`app_init` does not assign a flag that a callback has written. -/
def PointersOk (g : Booting) : BootEvent D → Prop
  | .irq i m => ∀ x : Gpio, x.irq = i → m.registered x = true →
    m.pointer x = some x.flag ∧ ∀ o ∈ userData, o ∈ g.done
  | .call (.init (.wr_shared_flag f _)) _ _ _ => ∀ x : Gpio, x.flag = f → g.pressed x = false
  | .call _ _ _ _ => True

/-- No interrupt comes between the registration of its callback and the assignment of its
pointer. -/
def Timely (g : Booting) : BootEvent D → Prop
  | .irq i _ => ∀ x : Gpio, x.irq = i → .GPIOINT_CallbackRegister x ∈ g.done → .wr_pointer x ∈ g.done
  | .call _ _ _ _ => True

/-- What comes after the user data. -/
def registration : List InitOp :=
  [.init_ads1220, .GPIOINT_CallbackRegister .change_mode, .wr_pointer .change_mode,
    .GPIOINT_CallbackRegister .data_ready, .wr_pointer .data_ready, .fsm_new]

/-- A callback is registered when all the user data is assigned. -/
theorem registered_after {done rest : List InitOp} {x : Gpio} (happ : done ++ rest = app_init)
    (hreg : .GPIOINT_CallbackRegister x ∈ done) :
    (∀ o ∈ userData, o ∈ done) ∧ ∀ o ∈ rest, o ∈ registration := by
  have happ : done ++ rest =
      ([.GPIO_ExtIntConfig .change_mode, .GPIO_ExtIntConfig .data_ready] ++ userData) ++ registration := happ
  rcases List.append_eq_append_iff.1 happ with ⟨as, hsetup, -⟩ | ⟨bs, hdone, hrest⟩
  · -- not yet: no callback is registered there
    have hmem : .GPIOINT_CallbackRegister x ∈
        [.GPIO_ExtIntConfig .change_mode, .GPIO_ExtIntConfig .data_ready] ++ userData := by
      rw [hsetup]
      exact List.mem_append_left _ hreg
    simp [userData] at hmem
  · constructor
    · intro o ho
      rw [hdone]
      exact List.mem_append_left _ (List.mem_append_right _ ho)
    · intro o ho
      rw [hrest]
      exact List.mem_append_right _ ho

/-- The statements done and to come are those of `app_init`, and what the interrupts see is
what the statements have done. -/
structure Agrees (rest : List InitOp) (g : Booting) (m : Memory) : Prop where
  split : g.done ++ rest = app_init
  registered : ∀ x, m.registered x = decide (.GPIOINT_CallbackRegister x ∈ g.done)
  pointer : ∀ x, m.pointer x = if .wr_pointer x ∈ g.done then some x.flag else none
  pressed : ∀ x, g.pressed x = true → m.registered x = true

theorem Agrees.restart (flags : Shared) : Agrees app_init .restart (.restart flags) :=
  ⟨rfl, fun _ => rfl, fun _ => rfl, fun _ hp => by cases hp⟩

variable {g : Booting}

/-- What interrupts leave alone. -/
theorem interrupt_frame {i : Irq} (hi : interrupt i m = some m') :
    m'.registered = m.registered ∧ m'.pointer = m.pointer := by
  have hdispatch (x : Gpio) : (dispatch x m).registered = m.registered ∧ (dispatch x m).pointer = m.pointer := by
    unfold dispatch callback
    split
    · split <;> exact ⟨rfl, rfl⟩
    · exact ⟨rfl, rfl⟩
  cases i with
  | change_mode | data_ready =>
    simp only [interrupt] at hi
    split at hi
    · cases hi
      exact hdispatch _
    · cases hi
  | sleeptimer | burtc =>
    simp only [interrupt] at hi
    obtain ⟨flags, -, rfl⟩ := Option.map_eq_some_iff.1 hi
    exact ⟨rfl, rfl⟩

theorem Agrees.irq {i : Irq} (ha : Agrees rest g m) (hi : interrupt i m = some m') :
    Agrees rest (booting g (.irq i m : BootEvent D)) m' := by
  obtain ⟨hreg, hptr⟩ := interrupt_frame hi
  refine ⟨ha.split, ?_, ?_, ?_⟩
  · rw [hreg]
    exact ha.registered
  · rw [hptr]
    exact ha.pointer
  · intro x hp
    rw [hreg]
    simp only [booting, Bool.or_eq_true, Bool.and_eq_true] at hp
    rcases hp with hp | ⟨-, hp⟩
    · exact ha.pressed x hp
    · exact hp

/-- **At an interrupt**, the pointers are as they should be exactly if it is timely. -/
theorem Agrees.ok_iff {i : Irq} (ha : Agrees rest g m) :
    PointersOk g (.irq i m : BootEvent D) ↔ Timely g (.irq i m : BootEvent D) := by
  unfold PointersOk Timely
  refine forall_congr' fun x => imp_congr_right fun _ => ?_
  rw [ha.registered, ha.pointer, decide_eq_true_iff]
  refine imp_congr_right fun hreg => ?_
  split
  · rename_i hptr
    exact ⟨fun _ => hptr, fun _ => ⟨rfl, (registered_after ha.split hreg).1⟩⟩
  · rename_i hptr
    exact ⟨fun hp => absurd hp.1 (by simp), fun hp => absurd hp hptr⟩

theorem step_registered (o : InitOp) (x : Gpio) : (o.step nConnections l m).2.registered x =
    (m.registered x || decide (.GPIOINT_CallbackRegister x = o)) := by
  cases o with
  | GPIOINT_CallbackRegister y => by_cases hx : x = y <;> simp [InitOp.step, hx]
  | _ => simp [InitOp.step]

theorem step_pointer (o : InitOp) (x : Gpio) : (o.step nConnections l m).2.pointer x =
    if .wr_pointer x = o then some x.flag else m.pointer x := by
  cases o with
  | wr_pointer y =>
    by_cases hx : x = y
    · simp [InitOp.step, hx]
    · simp [InitOp.step, hx]
  | _ => simp [InitOp.step]

theorem Agrees.statement {o : InitOp} (ha : Agrees (o :: rest) g m) :
    PointersOk g (.call (.init o) () l m) ∧
      Agrees rest (booting g (.call (.init o) () l m)) (o.step nConnections l m).2 := by
  have hsplit : (g.done ++ [o]) ++ rest = app_init := by
    rw [List.append_assoc]
    exact ha.split
  constructor
  · cases o with
    | wr_shared_flag f v =>
      rintro x -
      by_contra hp
      -- a noted press came through a registered callback, and then no assignment is left
      have hreg := ha.pressed x (Bool.not_eq_false _ ▸ hp)
      rw [ha.registered, decide_eq_true_iff] at hreg
      have hmem := (registered_after ha.split hreg).2 _ List.mem_cons_self
      simp [registration] at hmem
    | _ => trivial
  · refine ⟨hsplit, ?_, ?_, ?_⟩
    · intro x
      rw [step_registered, ha.registered]
      simp only [booting, List.mem_append, List.mem_singleton, Bool.decide_or]
    · intro x
      rw [step_pointer, ha.pointer]
      simp only [booting, List.mem_append, List.mem_singleton]
      split <;> split <;> simp_all
    · intro x hp
      rw [step_registered, ha.pressed x hp, Bool.true_or]

/-- A call of the main loop changes the flags as the model of the main loop says, and
nothing else that interrupts see; EM4 leads to the restart. -/
theorem later_step {o : Op} {r : o.Resp} :
    (device bus nConnections).step (.later o) r l m = some (l', m') ↔
      ∃ h, (firmware bus).step o r l m.flags = some (l', h) ∧
        m' = if o.restarts then .restart h else { m with flags := h } := by
  change Option.map _ _ = _ ↔ _
  rw [Option.map_eq_some_iff]
  constructor
  · rintro ⟨⟨l₁, h⟩, hs, heq⟩
    obtain ⟨rfl, rfl⟩ := Prod.mk.inj heq
    exact ⟨h, hs, rfl⟩
  · rintro ⟨h, hs, rfl⟩
    exact ⟨(l', h), hs, rfl⟩

theorem Agrees.later {o : Op} {r : o.Resp} (ha : Agrees rest g m)
    (hs : (device bus nConnections).step (.later o) r l m = some (l', m')) :
    Agrees (if o.restarts then app_init else rest) (booting g (.call (.later o) r l m)) m' := by
  obtain ⟨h, -, rfl⟩ := later_step.1 hs
  change Agrees _ (if o.restarts then .restart else g) _
  cases o.restarts with
  | true => exact .restart h
  | false => exact ⟨ha.split, ha.registered, ha.pointer, ha.pressed⟩

/-- A program of the main loop keeps the agreement, and breaks neither rule by its own calls. -/
theorem Agrees.exec {α : Type} {p : AppM α} {a : α} (ha : Agrees rest g m)
    (he : Exec (device bus nConnections) (p.embed BootOp.later fun _ r => r) l m tr a l' m') :
    Agrees (if tr.any isRestart then app_init else rest) (tr.foldl booting g) m' ∧
      (Checked booting PointersOk g tr ↔ Checked booting Timely g tr) := by
  generalize hq : (p.embed BootOp.later fun _ r => r : Prog BootOp.Resp α) = q at he
  induction he generalizing p g rest with
  | ret => exact ⟨ha, Iff.rfl⟩
  | @call o k r l m l₁ m₁ tr a l' m' hs _ ih =>
    cases p with
    | ret b => cases hq
    | call o' k' =>
      obtain ⟨rfl, hk⟩ := Prog.call.inj hq
      obtain rfl := eq_of_heq hk
      obtain ⟨h1, h2⟩ := ih (ha.later hs) rfl
      refine ⟨?_, and_congr (by rfl) h2⟩
      rw [List.any_cons, List.foldl_cons]
      -- the program goes on after EM4, in the restarted memory
      change Agrees (if o'.restarts || _ then _ else _) _ _
      cases hr : o'.restarts with
      | true => simpa [hr] using h1
      | false => simpa [hr] using h1
  | irq hi _ ih =>
    obtain ⟨h1, h2⟩ := ih (ha.irq hi) hq
    exact ⟨h1, and_congr ha.ok_iff h2⟩

/-- What the memory says holds at any time of a life. -/
theorem Life.agrees {flags : Shared} (hl : Life bus nConnections l₀ (.restart flags) rest tr l m) :
    Agrees rest (tr.foldl booting .restart) m ∧
      (Checked booting PointersOk .restart tr ↔ Checked booting Timely .restart tr) := by
  induction hl with
  | start => exact ⟨.restart flags, Iff.rfl⟩
  | heap user ads data_ready_flag change_mode_flag tmr_flag _ ih =>
    obtain ⟨ha, hc⟩ := ih
    exact ⟨⟨ha.split, ha.registered, ha.pointer, ha.pressed⟩, hc⟩
  | irq i _ hi ih =>
    obtain ⟨ha, hc⟩ := ih
    rw [List.foldl_append, checked_append, checked_append]
    exact ⟨ha.irq (D := D) hi, and_congr hc (and_congr ha.ok_iff Iff.rfl)⟩
  | statement _ ih =>
    obtain ⟨ha, hc⟩ := ih
    obtain ⟨hok, ha⟩ := ha.statement
    rw [List.foldl_append, checked_append, checked_append]
    refine ⟨ha, and_congr hc ?_⟩
    exact ⟨fun _ => ⟨trivial, trivial⟩, fun _ => ⟨hok, trivial⟩⟩
  | task t _ he ih =>
    obtain ⟨ha, hc⟩ := ih
    obtain ⟨ha, hc'⟩ := ha.exec he
    rw [List.foldl_append, checked_append, checked_append]
    exact ⟨ha, and_congr hc hc'⟩

/-- Statements without interrupts. -/
def undisturbed (nConnections : RamAddr) (os : List InitOp) (s : Local D × Memory) : Local D × Memory :=
  os.foldl (fun s o => o.step nConnections s.1 s.2) s

theorem Life.undisturbed {os : List InitOp} (hl : Life bus nConnections l₀ m₀ (os ++ rest) tr l m) :
    ∃ tr', Life bus nConnections l₀ m₀ rest (tr ++ tr') (undisturbed nConnections os (l, m)).1
        (undisturbed nConnections os (l, m)).2 ∧
      ∀ g, tr'.foldl booting g = { g with done := g.done ++ os } ∧ Checked booting Timely g tr' := by
  induction os generalizing tr l m with
  | nil =>
    refine ⟨[], ?_, ?_⟩
    · rw [List.append_nil]
      exact hl
    · intro g
      exact ⟨by rw [List.append_nil]; rfl, trivial⟩
  | cons o os ih =>
    obtain ⟨tr', hl, hg⟩ := ih hl.statement
    rw [List.append_assoc] at hl
    refine ⟨_, hl, ?_⟩
    intro g
    obtain ⟨h1, h2⟩ := hg (booting g (.call (.init o) () l m))
    refine ⟨?_, trivial, h2⟩
    rw [List.singleton_append, List.foldl_cons, h1]
    simp only [booting, List.append_assoc, List.singleton_append]

/-- The memory once `app_init` is done. -/
def Memory.ready (flags : Shared) : Memory := ⟨flags, fun x => some x.flag, fun _ => true, fun _ => true⟩

/-- **`app_init` leaves the state that the model of the main loop starts in**, whatever the
heap blocks held. -/
theorem app_init_eq {em4PinWakeup em4Reset : Bool} {ads : ads1220_t} {dev : D} {h : Shared}
    (hs : new_app_fsm nConnections em4PinWakeup em4Reset ads dev = (l, h)) (user : app_fsm_t)
    (current_state : Int) (data_ready_flag change_mode_flag tmr_flag : UInt8) :
    undisturbed nConnections app_init ({ l with user, current_state },
      .restart { h with data_ready_flag, change_mode_flag, tmr_flag }) = (l, .ready h) := by
  obtain ⟨rfl, rfl⟩ := Prod.mk.inj hs
  have hdata : Function.update (Function.update (Function.update (Function.update user.sensor_data
      0 0) 1 0) 2 0) 3 0 = fun _ => 0 := by
    funext k
    match k with
    | 0 | 1 | 2 | 3 => rfl
  have hgpio {X : Type} (f v : Gpio → X) :
      Function.update (Function.update f .change_mode (v .change_mode)) .data_ready (v .data_ready) = v := by
    funext x
    cases x <;> rfl
  unfold Memory.ready
  rw [← hdata, ← hgpio (fun _ => none) fun x : Gpio => some x.flag, ← hgpio (fun _ => false) fun _ => true]
  rfl

/-- From then on the interrupts do what the model of the main loop says. -/
theorem interrupt_ready (i : Irq) (h : Shared) : interrupt i (.ready h) = (handle i h).map .ready := by
  cases i <;> rfl

/-- **The tasks of the device are those of the model of the main loop**, up to the next
restart. -/
theorem exec_ready {α : Type} {p : AppM α} {a : α} {h : Shared}
    (he : Exec (device bus nConnections) (p.embed BootOp.later fun _ r => r) l (.ready h) tr a l' m')
    (hr : tr.any isRestart = false) : ∃ tr' h', m' = .ready h' ∧ Exec (firmware bus) p l h tr' a l' h' := by
  generalize hq : (p.embed BootOp.later fun _ r => r : Prog BootOp.Resp α) = q at he
  generalize hm : Memory.ready h = m at he
  induction he generalizing p h with
  | ret =>
    cases p with
    | ret b =>
      cases hq
      exact ⟨[], h, hm.symm, .ret⟩
    | call o k => cases hq
  | call hs _ ih =>
    cases p with
    | ret b => cases hq
    | call o k =>
      obtain ⟨rfl, hk⟩ := Prog.call.inj hq
      obtain rfl := eq_of_heq hk
      rw [List.any_cons, Bool.or_eq_false_iff] at hr
      obtain ⟨hro, hr⟩ := hr
      obtain ⟨h₁, hs, heq⟩ := later_step.1 hs
      subst hm
      -- without EM4 the memory stays ready
      have hro : o.restarts = false := hro
      rw [hro] at heq
      obtain ⟨tr', h', hm', he⟩ := ih hr rfl heq.symm
      exact ⟨_, h', hm', .call hs he⟩
  | irq hi _ ih =>
    subst hm
    have hi : interrupt _ (.ready h) = some _ := hi
    rw [interrupt_ready] at hi
    obtain ⟨h₁, hi, heq⟩ := Option.map_eq_some_iff.1 hi
    rw [List.any_cons, Bool.or_eq_false_iff] at hr
    obtain ⟨tr', h', hm', he⟩ := ih hr.2 hq heq
    exact ⟨_, h', hm', .irq hi he⟩

/-- **The pointers are in order exactly when no interrupt is early.** -/
theorem pointers_iff {flags : Shared} (hl : Life bus nConnections l₀ (.restart flags) rest tr l m) :
    Checked booting PointersOk .restart tr ↔ Checked booting Timely .restart tr := hl.agrees.2

/-- A press after `app_init`. -/
theorem pointers_iff_press : ∃ tr l m, Life anyBus nConnections_addr (booted false false).1
    (.restart (booted false false).2) [] (tr ++ [.irq .change_mode (.ready (booted false false).2)]) l m ∧
      Checked booting PointersOk .restart (tr ++ [.irq .change_mode (.ready (booted false false).2)]) := by
  have hl : Life anyBus nConnections_addr (booted false false).1 (.restart (booted false false).2)
    (app_init ++ []) [] (booted false false).1 (.restart (booted false false).2) := .start
  obtain ⟨tr, hl, hg⟩ := hl.undisturbed
  have hinit : undisturbed nConnections_addr app_init ((booted false false).1, .restart (booted false false).2) =
    ((booted false false).1, .ready (booted false false).2) := app_init_eq rfl _ _ 0 0 0
  rw [hinit] at hl
  have hpress := hl.irq .change_mode rfl
  refine ⟨tr, _, _, hpress, (pointers_iff hpress).2 ?_⟩
  obtain ⟨hdone, hcalls⟩ := hg .restart
  rw [List.nil_append, checked_append, hdone]
  exact ⟨hcalls, fun x _ _ => by cases x <;> decide, trivial⟩

/-- `app_init` up to the registration of `change_mode_callback`. -/
def early : List InitOp :=
  [.GPIO_ExtIntConfig .change_mode, .GPIO_ExtIntConfig .data_ready] ++ userData ++
  [.init_ads1220, .GPIOINT_CallbackRegister .change_mode]

/-- A press right after that: `change_mode_callback` writes through the null pointer. -/
theorem early_press : ∃ rest tr l m m', Life anyBus nConnections_addr (booted false false).1
    (.restart (booted false false).2) rest (tr ++ [.irq .change_mode m]) l m' ∧
      m.registered .change_mode = true ∧ m.pointer .change_mode = none ∧
        ¬ Checked booting PointersOk .restart (tr ++ [.irq .change_mode m]) := by
  have hl : Life anyBus nConnections_addr (booted false false).1 (.restart (booted false false).2)
    (early ++ registration.drop 2) [] (booted false false).1 (.restart (booted false false).2) := .start
  obtain ⟨tr, hl, -⟩ := hl.undisturbed
  refine ⟨_, tr, _, _, _, hl.irq .change_mode rfl, rfl, rfl, ?_⟩
  intro hc
  obtain ⟨hptr, -⟩ := (checked_append.1 hc).2.1 .change_mode rfl rfl
  cases hptr

end M20Strain
