import Xcnf.Lib.Buffer
import Xcnf.Lib.Family
import Xcnf.Lib.GoSlice
import Xcnf.Lib.Transition
import Xcnf.Lib.PacketProgram
import Xcnf.Lib.RingBuffer
import Xcnf.Lib.Defer
import Xcnf.Lib.Llvm
import Xcnf.Kernel.Bpf
import Xcnf.Flow.Record
import Xcnf.Flow.Flat
import Xcnf.Flow.Accept
import Xcnf.Flow.Compiled
import Xcnf.Flow.Packet
import Xcnf.Flow.Decode
import Xcnf.Flow.Malformed
import Xcnf.Flow.Ipv4Event
import Xcnf.Flow.Consumer
import Xcnf.Flow.Handshake
import Xcnf.Flow.Paths
import Xcnf.Flow.Segment
import Xcnf.Flow.Fragment
import Xcnf.Flow.Isolation
import Xcnf.Flow.Hash
import Xcnf.Flow.Pairing
import Xcnf.Flow.Interleaving
import Xcnf.Flow.Expiry
import Xcnf.Flow.Prune
import Xcnf.Flow.Outcomes
import Xcnf.Flow.Capture
import Xcnf.Flow.Execution
import Xcnf.Netkit.Probe
import Xcnf.Netkit.Execution
import Xcnf.Netkit.Stream
import Xcnf.Netkit.Pair
import Xcnf.Netkit.Atomic
import Xcnf.Netkit.LinkLocal
import Xcnf.Netkit.Run
import Xcnf.Flow.Matching
import Xcnf.Flow.Uninterrupted
import Xcnf.Flow.Pipeline
import Xcnf.Flow.Serving
import Xcnf.Flow.Deployment
import Xcnf.Flow.Cancellation
import Xcnf.Flow.Kprobe
import Xcnf.Flow.Shutdown
import Xcnf.Flow.Rollback
import Xcnf.Flow.Interface
import Xcnf.IpCounter.Counter
import Xcnf.TraceKills.Kill
