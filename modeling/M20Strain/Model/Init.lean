import M20Strain.Model.App

/-!
# Initialisation (`app_init`, `new_app_fsm`)

The GPIO interrupts are enabled before the user data exists, their callbacks are
registered one statement before the static pointers that they dereference are set. So
`app_init` is a list of statements here, with interrupts between any two of them, and
the callbacks go through the pointers. Left out are the statements about clocks, timers
and pointers that nothing here depends on.
-/

namespace M20Strain

open Interrupt

/-- The two GPIO interrupts. -/
inductive Gpio where
  | change_mode
  | data_ready
  deriving DecidableEq, Repr

def Gpio.irq : Gpio → Irq
  | change_mode => .change_mode
  | data_ready => .data_ready

/-- The field of the user data that the static pointer of the interrupt is for. -/
def Gpio.flag : Gpio → SharedFlag
  | change_mode => .change_mode_flag
  | data_ready => .data_ready_flag

/-- A statement of `app_init` or `new_app_fsm`. `wr_pointer` sets the static pointer
`change_mode_flag` or `data_ready_flag`. -/
inductive InitOp where
  | GPIO_ExtIntConfig (x : Gpio)
  | wr_sensor_data (k : Fin 4)
  | wr_flag (f : Flag) (v : UInt8)
  | wr_shared_flag (f : SharedFlag) (v : UInt8)
  | wr_num_data_retrieved
  | wr_nConnections
  | init_ads1220
  | GPIOINT_CallbackRegister (x : Gpio)
  | wr_pointer (x : Gpio)
  | fsm_new
  deriving DecidableEq

/-- The assignments to the user data. -/
def userData : List InitOp :=
  (List.finRange 4).map .wr_sensor_data ++
  [.wr_flag .wakeup_timer_flag 1, -- to activate the FSM
   .wr_flag .wakeup_completed_flag 0,
   .wr_shared_flag .data_ready_flag 0,
   .wr_flag .data_retrieved_flag 0,
   .wr_flag .data_sent_flag 0,
   .wr_flag .sleep_possible_flag 0,
   .wr_num_data_retrieved,
   .wr_shared_flag .change_mode_flag 0,
   .wr_shared_flag .tmr_flag 0,
   .wr_nConnections]

def app_init : List InitOp :=
  [.GPIO_ExtIntConfig .change_mode, .GPIO_ExtIntConfig .data_ready] ++ userData ++
  [.init_ads1220,
   .GPIOINT_CallbackRegister .change_mode,
   .wr_pointer .change_mode,
   .GPIOINT_CallbackRegister .data_ready,
   .wr_pointer .data_ready,
   .fsm_new]

/-- What the interrupts see: the shared flags in the user data, the static pointers into
it (null is `none`), which callbacks are registered, and which pins are enabled. -/
structure Memory where
  flags : Shared
  pointer : Gpio → Option SharedFlag
  registered : Gpio → Bool
  enabled : Gpio → Bool

/-- The memory when `main` starts. -/
def Memory.restart (flags : Shared) : Memory := ⟨flags, fun _ => none, fun _ => false, fun _ => false⟩

/-- One statement. `init_ads1220` allocates the driver's object and leaves its content. -/
def InitOp.step {D : Type} (nConnections : RamAddr) : InitOp → Local D → Memory → Local D × Memory
  | .GPIO_ExtIntConfig x, l, m => (l, { m with enabled := Function.update m.enabled x true })
  | .wr_sensor_data k, l, m =>
    ({ l with user := { l.user with sensor_data := Function.update l.user.sensor_data k 0 } }, m)
  | .wr_flag f v, l, m => ({ l with user := l.user.set v f }, m)
  | .wr_shared_flag f v, l, m => (l, { m with flags := m.flags.set v f })
  | .wr_num_data_retrieved, l, m => ({ l with user := { l.user with num_data_retrieved := 0 } }, m)
  | .wr_nConnections, l, m => ({ l with user := { l.user with nConnections } }, m)
  | .init_ads1220, l, m => (l, m)
  | .GPIOINT_CallbackRegister x, l, m => (l, { m with registered := Function.update m.registered x true })
  | .wr_pointer x, l, m => (l, { m with pointer := Function.update m.pointer x (some x.flag) })
  | .fsm_new, l, m => ({ l with current_state := states.SLEEPING }, m)

/-- `change_mode_callback` and `ready_to_retrieve_callback`, through the static pointer. A
write through the null pointer hits no variable. -/
def callback (x : Gpio) (m : Memory) : Memory :=
  match m.pointer x with
  | none => m
  | some f =>
    let v := match x with
      | .change_mode => cnot (m.flags.get f)
      | .data_ready => 1
    { m with flags := m.flags.set v f }

/-- The dispatcher ignores an interrupt without a callback. -/
def dispatch (x : Gpio) (m : Memory) : Memory := if m.registered x then callback x m else m

def interrupt : Irq → Memory → Option Memory
  | .change_mode, m => if m.enabled .change_mode then some (dispatch .change_mode m) else none
  | .data_ready, m => if m.enabled .data_ready then some (dispatch .data_ready m) else none
  | i, m => (handle i m.flags).map fun flags => { m with flags }

inductive BootOp where
  | init (o : InitOp)
  | later (o : Op)

abbrev BootOp.Resp : BootOp → Type
  | .init _ => Unit
  | .later o => o.Resp

/-- `EMU_EnterEM4` restarts the device. -/
def Op.restarts : Op → Bool
  | .shr .EMU_EnterEM4 => true
  | _ => false

/-- A restarted device has nothing enabled, registered or set. -/
def BootOp.step {D : Type} (bus : SpiBus D) (nConnections : RamAddr) :
    (o : BootOp) → o.Resp → Local D → Memory → Option (Local D × Memory)
  | .init o, _, l, m => some (o.step nConnections l m)
  | .later o, r, l, m => ((firmware bus).step o r l m.flags).map fun s =>
    (s.1, if o.restarts then .restart s.2 else { m with flags := s.2 })

def device {D : Type} (bus : SpiBus D) (nConnections : RamAddr) :
    Machine BootOp.Resp Irq (Local D) Memory where
  step := BootOp.step bus nConnections
  handle := interrupt

/-- A task of the main loop on the device. -/
def Task.later (t : Task) : Prog BootOp.Resp Unit := t.body.embed BootOp.later fun _ r => r

/-- An entry of a trace of the device. -/
abbrev BootEvent (D : Type) := Entry BootOp.Resp Irq (Local D) Memory

/-- The device entered EM4. -/
def isRestart {D : Type} : BootEvent D → Bool
  | .call (.later o) _ _ _ => o.restarts
  | _ => false

/-- The life of a device from `(l₀, m₀)`: the statements of `app_init` still to come, the
trace, and the state. Once `app_init` is done the main loop runs tasks; one that enters
EM4 leads back to `app_init`. -/
inductive Life {D : Type} (bus : SpiBus D) (nConnections : RamAddr) (l₀ : Local D) (m₀ : Memory) :
    List InitOp → List (BootEvent D) → Local D → Memory → Prop where
  | start : Life bus nConnections l₀ m₀ app_init [] l₀ m₀
  /-- What the heap blocks of user data and driver hold is arbitrary. -/
  | heap {tr l m} (user : app_fsm_t) (ads : ads1220_t) (data_ready_flag change_mode_flag tmr_flag : UInt8) :
      Life bus nConnections l₀ m₀ app_init tr l m →
      Life bus nConnections l₀ m₀ app_init tr { l with user, driver := { l.driver with ads } }
        { m with flags := { m.flags with data_ready_flag, change_mode_flag, tmr_flag } }
  | irq {rest tr l m m'} (i : Irq) : Life bus nConnections l₀ m₀ rest tr l m → interrupt i m = some m' →
      Life bus nConnections l₀ m₀ rest (tr ++ [.irq i m]) l m'
  | statement {o rest tr l m} : Life bus nConnections l₀ m₀ (o :: rest) tr l m →
      Life bus nConnections l₀ m₀ rest (tr ++ [.call (.init o) () l m]) (o.step nConnections l m).1
        (o.step nConnections l m).2
  | task {tr l m tr' l' m'} (t : Task) : Life bus nConnections l₀ m₀ [] tr l m →
      Exec (device bus nConnections) t.later l m tr' () l' m' →
      Life bus nConnections l₀ m₀ (if tr'.any isRestart then app_init else []) (tr ++ tr') l' m'

end M20Strain
