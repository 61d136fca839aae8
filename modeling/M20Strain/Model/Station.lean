import M20Strain.Model.App

/-!
# The measuring station

What the firmware is for, without flags, interrupts and registers: a station that wakes up,
takes four samples one after the other, publishes them as one packet, and then measures
again or goes back to sleep. A packet that could not be sent ends it.
-/

namespace M20Strain

open Interrupt

/-- What can be seen of the station. -/
inductive Act where
  | wake
  | convert
  | sample (v : BitVec 32)
  | publish (number : List UInt8)
  | published (ok : Bool)
  | again
  | rest
  | sleep
  deriving DecidableEq, Repr

/-- Where it is, with the samples taken so far. -/
inductive Station where
  | asleep
  | awake
  | converting (vs : List (BitVec 32))
  | sampled (vs : List (BitVec 32))
  | sent
  | unsent
  | resting
  deriving DecidableEq, Repr

/-- Its moves, with what each shows. The converter has 24 bits. -/
inductive Station.Move : Station → List Act → Station → Prop where
  | wake : Move asleep [.wake] awake
  | start : Move awake [.convert] (converting [])
  | sample {vs} (v : BitVec 24) (hn : vs.length < 4) :
      Move (converting vs) [.sample (v.signExtend 32)] (sampled (vs ++ [v.signExtend 32]))
  | convert {vs} (hn : vs.length < 4) : Move (sampled vs) [.convert] (converting vs)
  | send {vs} (hn : vs.length = 4) : Move (sampled vs) [.publish (packet vs), .published true] sent
  | fail {vs} (hn : vs.length = 4) : Move (sampled vs) [.publish (packet vs), .published false] unsent
  | again : Move sent [.again] awake
  | rest : Move sent [.rest] resting
  | sleep : Move resting [.sleep] asleep

/-- The first `n` samples in memory. -/
def app_fsm_t.taken (u : app_fsm_t) (n : Int) : List (BitVec 32) := (List.ofFn u.sensor_data).take n.toNat

/-- A state of the firmware, as one of the station. -/
def states.station (u : app_fsm_t) : states → Station
  | SLEEPING => .asleep
  | WAKING_UP => .awake
  | ASKING_FOR_DATA =>
    if u.num_data_retrieved < 4 then .converting (u.taken u.num_data_retrieved) else .sampled (u.taken 4)
  | RETRIEVING_DATA => .sampled (u.taken (u.num_data_retrieved + 1))
  | SENDING_DATA => if u.data_sent_flag = 0 then .unsent else .sent
  | TO_SLEEP => .resting

variable {D : Type}

/-- The state that `current_state` stands for. -/
def state (l : Local D) : states :=
  ([states.SLEEPING, .WAKING_UP, .ASKING_FOR_DATA, .RETRIEVING_DATA, .SENDING_DATA].find?
    fun s => l.current_state = s.val).getD .TO_SLEEP

def station (l : Local D) : Station := (state l).station l.user

/-- What can be seen of an entry of the trace. -/
def visible : Entry Op.Resp Irq (Local D) Shared → Option Act
  | .call (.main (.enter .wake_up)) _ _ _ => some .wake
  | .call (.main (.enter .start_conv)) _ _ _ => some .convert
  | .call (.main (.wr_sensor_data _ v)) _ _ _ => some (.sample v)
  | .call (.main (.enter (.sl_bt_torque_send_data number))) _ _ _ => some (.publish number)
  | .call (.main (.ble (.sl_bt_gatt_server_notify_all c _))) sc _ _ =>
    if c = gattdb_temp_1_characteristic then some (.published (sc = SL_STATUS_OK)) else none
  | .call (.main (.enter .ask_again)) _ _ _ => some .again
  | .call (.main (.enter .try_to_sleep)) _ _ _ => some .rest
  | .call (.shr .EMU_EnterEM4) _ _ _ => some .sleep
  | _ => none

end M20Strain
