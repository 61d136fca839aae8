import M20Strain.Interrupt.Replay
import M20Strain.Proof.Atomic
import M20Strain.Proof.BootFirst
import M20Strain.Proof.Chunks
import M20Strain.Proof.CloseLoop
import M20Strain.Proof.Config
import M20Strain.Proof.Conform
import M20Strain.Proof.Connections
import M20Strain.Proof.Converter
import M20Strain.Proof.Cycle
import M20Strain.Proof.DeepSleep
import M20Strain.Proof.FailedSetter
import M20Strain.Proof.Flags
import M20Strain.Proof.Forever
import M20Strain.Proof.Grace
import M20Strain.Proof.Isolation
import M20Strain.Proof.Lifetime
import M20Strain.Proof.Live
import M20Strain.Proof.Mode
import M20Strain.Proof.OwnBytes
import M20Strain.Proof.Readback
import M20Strain.Proof.Ready
import M20Strain.Proof.Resolution
import M20Strain.Proof.Rows
import M20Strain.Proof.Sent
import M20Strain.Proof.Snapshot
import M20Strain.Proof.Stream
import M20Strain.Proof.Table
