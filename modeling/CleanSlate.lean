import CleanSlate.Capability.Verify.Ancestry
import CleanSlate.Capability.Verify.Counts
import CleanSlate.Elf.Verify.LoadPlan
import CleanSlate.Graphics.Verify.Callbacks
import CleanSlate.Graphics.Verify.Event
import CleanSlate.Graphics.Verify.Objects
import CleanSlate.Graphics.Verify.Regions
import CleanSlate.Kernel.Linux.Verify.Pipe
import CleanSlate.Kernel.Linux.Verify.Proc
import CleanSlate.Kernel.Verify.Fork
import CleanSlate.Kernel.Verify.Ipc
import CleanSlate.Kernel.Verify.ObjectQueue
import CleanSlate.Kernel.Verify.Revocation
import CleanSlate.Network.Tcp.Verify.Connect
import CleanSlate.Network.Tcp.Verify.Failure
import CleanSlate.Network.Tcp.Verify.Isolation
import CleanSlate.Network.Tcp.Verify.PeerWindow
import CleanSlate.Network.Tcp.Verify.Timers
import CleanSlate.Network.Verify.Dns
import CleanSlate.Network.Verify.Stack
import CleanSlate.ServiceLifecycle.Verify.DependencyGraph
import CleanSlate.ServiceLifecycle.Verify.Readiness
import CleanSlate.ServiceLifecycle.Verify.State
import CleanSlate.ServicePort.Verify.Checker
import CleanSlate.ServicePort.Verify.Events
import CleanSlate.ServicePort.Verify.Requests
import CleanSlate.ServicePort.Verify.Transfers
import CleanSlate.ServicePort.Verify.Wakes
import CleanSlate.Store.Verify.Service
import CleanSlate.Store.Verify.Tamper
