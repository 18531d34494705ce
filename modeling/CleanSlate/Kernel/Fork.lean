import CleanSlate.Kernel.Inherit
import CleanSlate.ServicePort.System

/-!
# Fork and its unwinding

`linux_fork` of `kernel/src/process/linux_proc/fork.rs` from where the child is registered, and the
teardown hooks of `kernel/src/process/domain.rs` that a failing fork runs. Descriptors, process
table, memory and signals are outside the capability table and the port core: their steps are
inputs that succeed or fail.
-/

namespace CleanSlate.Kernel

open Capability
open ServicePort

variable {P C N : Nat} {B : Type} [DecidableEq B]

/-! ## Teardown hooks -/

/-- One step of the teardown sequence every dismantled process goes through. -/
inductive TeardownHook where
  | ipcEndpoints
  | objectQueues
  | netQueues
  | networkCapabilities
  | netHolderExitNotice
  | port
  | displayPresenter
  | inputConsumer
  | workSet
  | revokeHolderCapabilities
  | revokeProcessResource
  | discardBootstrapGrants
  | sharedMappings
  | threadReap
  | addressSpace
  deriving DecidableEq, Repr

def teardownHookOrder : List TeardownHook :=
  [.ipcEndpoints, .objectQueues, .netQueues, .networkCapabilities, .netHolderExitNotice, .port,
    .displayPresenter, .inputConsumer, .workSet, .revokeHolderCapabilities,
    .revokeProcessResource, .discardBootstrapGrants, .sharedMappings, .threadReap, .addressSpace]

/-- How one dismantle runs the shared hooks. -/
structure TeardownPath where
  processRan : Bool
  revokesCapabilities : Bool
  bestEffort : Bool

def TeardownPath.runs (self : TeardownPath) : TeardownHook → Bool
  | .ipcEndpoints | .objectQueues | .netQueues | .networkCapabilities | .netHolderExitNotice
  | .revokeProcessResource | .discardBootstrapGrants | .threadReap => self.processRan
  | .revokeHolderCapabilities => self.revokesCapabilities
  | .port | .displayPresenter | .inputConsumer | .workSet | .sharedMappings
  | .addressSpace => true

/-- What a hook does to the port core and the capability table. The others release what lies
outside both. -/
def runTeardownHook (process : HolderId) (generation : UInt64) (s : PortSystem P C N B) :
    TeardownHook → PortSystem P C N B
  | .port =>
    let (_, state) := onHolderExit s.call process generation
    ⟨state.core, state.table⟩
  | .revokeHolderCapabilities => { s with
    table := (revokeHolderTreeVisiting s.table process).2 }
  | .revokeProcessResource => { s with
    table := (revokeResourceTree s.table .processControl process.raw).2 }
  | .ipcEndpoints | .objectQueues | .netQueues | .networkCapabilities | .netHolderExitNotice
  | .displayPresenter | .inputConsumer | .workSet | .discardBootstrapGrants | .sharedMappings
  | .threadReap | .addressSpace => s

/-- Every hook the path runs, in order; `failing` are those that report an error, at which a path
stops unless it runs on best effort. -/
def runTeardownHooks (path : TeardownPath) (failing : TeardownHook → Bool) (process : HolderId)
    (generation : UInt64) : List TeardownHook → PortSystem P C N B → PortSystem P C N B
  | [], s => s
  | hook :: hooks, s =>
    if !path.runs hook then runTeardownHooks path failing process generation hooks s
    else
      let s := runTeardownHook process generation s hook
      if failing hook && !path.bestEffort then s
      else runTeardownHooks path failing process generation hooks s

/-- `rollback_registered_process`: dismantles a registered process that never ran. -/
def rollbackRegisteredProcess (revokesCapabilities bestEffort : Bool)
    (failing : TeardownHook → Bool) (process : HolderId) (generation : UInt64)
    (s : PortSystem P C N B) : PortSystem P C N B :=
  runTeardownHooks ⟨false, revokesCapabilities, bestEffort⟩ failing process generation
    teardownHookOrder s

/-! ## Fork -/

/-- The child of a fork: its holder and instance generation. -/
structure ForkChild where
  holder : HolderId
  generation : UInt64

/-- How the steps outside the table and the ports come out. -/
structure ForkSteps where
  fdInherited : Bool
  procRegistered : Bool
  runtimeCloned : Bool
  failing : TeardownHook → Bool

/-- `abort_fork_child`, for a child whose record was committed to the registry. -/
def abortForkChild (steps : ForkSteps) (child : ForkChild) (capsInherited : Bool)
    (s : PortSystem P C N B) : PortSystem P C N B :=
  rollbackRegisteredProcess capsInherited true steps.failing child.holder child.generation s

/-- `linux_fork` once the child is registered: whether it returns the child, and what it leaves. -/
def linuxFork (steps : ForkSteps) (parent : HolderId) (child : ForkChild)
    (s : PortSystem P C N B) : Bool × PortSystem P C N B :=
  if !steps.fdInherited then (false, abortForkChild steps child false s)
  else match inheritCapabilitiesForFork s.table parent child.holder with
    -- the flag `caps_inherited` is still down
    | (.error _, table) => (false, abortForkChild steps child false ⟨s.core, table⟩)
    | (.ok (), table) =>
      if !steps.procRegistered then (false, abortForkChild steps child true ⟨s.core, table⟩)
      else if !steps.runtimeCloned then (false, abortForkChild steps child true ⟨s.core, table⟩)
      else (true, ⟨s.core, table⟩)

end CleanSlate.Kernel
