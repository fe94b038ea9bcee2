import OpencodeRemote.Concurrency.Upholding
import OpencodeRemote.Plugin.Index

/-! # What only bootstrapping does

Commands are run on a host, and the local disk is written, only where a host is bootstrapped.
The other operations are plain. A condition which plain operations leave alone is upheld
by every call, then, if bootstrapping upholds it.
-/

namespace OpencodeRemote.Plugin

open Concurrency Data

def RemoteOp.Plain : RemoteOp → Prop
  | .file _ | .ssh _ _ | .scp _ => False
  | _ => True

def Plain : Op → Prop
  | .remote o => o.Plain
  | _ => True

variable {E α β : Type}

/-- The same for functions which only talk to the outside. -/
abbrev Remote.Upholds (policy : Policy Op Res E) (safe : List E → Prop) (f : Remote α) : Prop :=
  Throwing.Upholds (policy.restrict Op.remote fun _ answer => answer) safe f

open Throwing

variable {policy : Policy Op Res E} {safe : List E → Prop}

theorem Async.upholds_outside {f : Remote α} (upholds : Remote.Upholds policy safe f) :
    Upholds policy safe (outside f) := Program.Upholds.hoist (fun _ _ => rfl) upholds

theorem SSHManager.upholds_execSSH {sshArgs : List String} {command : String}
    (runs : policy.Harmless safe (.remote (.ssh sshArgs command))) :
    Remote.Upholds policy safe (execSSH sshArgs command) :=
  have ran : Remote.Upholds policy safe (Remote.ssh sshArgs command) := runs
  ran.bind fun _ => upholds_pure _

theorem SSHManager.upholds_andFinally {f : Remote α} {cleanup : Remote Unit} (first : Remote.Upholds policy safe f)
    (then_ : Remote.Upholds policy safe cleanup) : Remote.Upholds policy safe (andFinally f cleanup) := by
  refine Program.Upholds.bind first fun outcome => Program.Upholds.bind then_ fun outcome' => ?_
  cases outcome' <;> exact Program.upholds_pure _

variable (plain : ∀ o, Plain o → policy.Harmless safe o)

include plain

namespace Remote

theorem upholds_call {o : RemoteOp} (usual : o.Plain) : Remote.Upholds policy safe (call o) := plain (.remote o) usual

theorem upholds_await {f : Remote α} (upholds : Remote.Upholds policy safe f) :
    Remote.Upholds policy safe (await f) := Upholds.followed (plain (.remote .tick) trivial) upholds

theorem upholds_kill (pid : Nat) : Remote.Upholds policy safe (kill pid) := plain (.remote (.kill pid)) trivial

theorem upholds_fetch (request : FetchRequest) : Remote.Upholds policy safe (fetch request) :=
  plain (.remote (.fetch request)) trivial

theorem upholds_read (body : Except String String) : Remote.Upholds policy safe (read body) :=
  upholds_await plain (upholds_mk body)

end Remote

namespace SSHManager

open Remote

variable (manager : SSHManager)

theorem upholds_identityArgs (identityFile : Option String) :
    Remote.Upholds policy safe (identityArgs identityFile) := by
  fun_cases identityArgs identityFile with
  | case1 => exact upholds_pure _
  | case2 => exact upholds_pure _
  | case3 file given =>
      refine (upholds_call plain (o := .exists file) trivial).bind fun found => ?_
      split <;> exact upholds_pure _

theorem upholds_buildSSHArgs (sshConfig : SSHConfig) (identityFile : Option String) :
    Remote.Upholds policy safe (manager.buildSSHArgs sshConfig identityFile) :=
  (upholds_identityArgs plain identityFile).bind fun _ => upholds_pure _

theorem upholds_execSSHAllowFailure {sshArgs : List String} {command : String}
    (runs : policy.Harmless safe (.remote (.ssh sshArgs command))) :
    Remote.Upholds policy safe (execSSHAllowFailure sshArgs command) :=
  (upholds_await plain (upholds_execSSH runs)).tryCatch fun _ => upholds_pure _

theorem upholds_resolveRemoteHome (sshConfig : SSHConfig) (identityFile : Option String)
    (runs : ∀ sshArgs, policy.Harmless safe (.remote (.ssh sshArgs "printf '%s' \"$HOME\""))) :
    Remote.Upholds policy safe (manager.resolveRemoteHome sshConfig identityFile) := by
  refine (upholds_buildSSHArgs plain manager sshConfig identityFile).bind fun sshArgs => ?_
  refine (upholds_await plain (upholds_execSSH (runs sshArgs))).bind fun home => ?_
  split
  · exact upholds_throw _
  · exact upholds_pure _

theorem upholds_isPortReachable (localPort : Int) : Remote.Upholds policy safe (isPortReachable localPort) :=
  ((upholds_fetch plain _).bind fun _ => upholds_pure _).tryCatch fun _ => upholds_pure _

theorem upholds_isHealthReachable (localPort : Int) (token : String) :
    Remote.Upholds policy safe (isHealthReachable localPort token) :=
  ((upholds_fetch plain _).bind fun _ => upholds_pure _).tryCatch fun _ => upholds_pure _

theorem upholds_poll {ready : Remote Bool} (polled : Remote.Upholds policy safe ready) (pause : Nat) (late : String)
    (rounds : Nat) : Remote.Upholds policy safe (poll ready pause late rounds) := by
  induction rounds with
  | zero => exact upholds_throw _
  | succ rounds ih =>
      refine polled.bind fun up => ?_
      split
      · exact upholds_pure _
      · exact (upholds_call plain (o := .sleep pause) trivial).bind fun _ => ih

theorem upholds_waitForHealth (localPort : Int) (token : String) :
    Remote.Upholds policy safe (manager.waitForHealth localPort token) :=
  (upholds_call plain (o := .rounds _) trivial).bind fun _ =>
    upholds_poll plain (upholds_isHealthReachable plain localPort token) _ _ _

theorem upholds_waitForPortReachable (localPort : Int) :
    Remote.Upholds policy safe (manager.waitForPortReachable localPort) :=
  (upholds_call plain (o := .rounds _) trivial).bind fun _ =>
    upholds_poll plain (upholds_await plain (upholds_isPortReachable plain localPort)) _ _ _

theorem upholds_waitForPortClosed (localPort : Int) : Remote.Upholds policy safe (waitForPortClosed localPort) := by
  refine (upholds_call plain (o := .rounds _) trivial).bind fun _ => upholds_poll plain ?_ _ _ _
  exact (upholds_await plain (upholds_isPortReachable plain localPort)).bind fun _ => upholds_pure _

theorem upholds_tryStartTunnel (sshConfig : SSHConfig) (identityFile : Option String) (localPort : Int)
    (remotePort : Nat) :
    Remote.Upholds policy safe (manager.tryStartTunnel sshConfig identityFile localPort remotePort) := by
  refine (upholds_await plain (upholds_isPortReachable plain localPort)).bind fun reachable => ?_
  split
  · exact upholds_pure _
  refine (upholds_identityArgs plain identityFile).bind fun identity => ?_
  refine (upholds_call plain (o := .spawn _) trivial).bind fun child => Upholds.tryCatch ?_ fun _ => ?_
  · exact (upholds_await plain (upholds_waitForPortReachable plain manager localPort)).bind fun _ => upholds_pure _
  · split
    · exact upholds_pure _
    · exact ((upholds_kill plain _).tryCatch fun _ => upholds_pure _).bind fun _ => upholds_pure _

theorem upholds_ensureTunnelLoop (sshConfig : SSHConfig) (identityFile : Option String) (remotePort : Nat)
    (initialPort : Int) (attempt remaining : Nat) :
    Remote.Upholds policy safe
      (manager.ensureTunnelLoop sshConfig identityFile remotePort initialPort attempt remaining) := by
  induction remaining generalizing attempt with
  | zero => exact upholds_throw _
  | succ remaining ih =>
      refine (upholds_await plain (upholds_tryStartTunnel plain manager sshConfig identityFile _ remotePort)).bind
        fun tunnelPID => ?_
      split
      · exact upholds_pure _
      · exact ih (attempt + 1)

theorem upholds_ensureSpecificOrFallbackTunnel (workspaceID host : String) (sshConfig : SSHConfig)
    (identityFile : Option String) (remotePort : Nat) (preferredLocalPort : Int) :
    Remote.Upholds policy safe (manager.ensureSpecificOrFallbackTunnel workspaceID host sshConfig identityFile
      remotePort preferredLocalPort) := by
  refine (upholds_await plain (upholds_tryStartTunnel plain manager sshConfig identityFile _ remotePort)).bind
    fun tunnelPID => ?_
  split
  · exact upholds_pure _
  · exact upholds_await plain (upholds_ensureTunnelLoop plain manager sshConfig identityFile remotePort _ 0 _)

theorem upholds_closeTunnel (localPort : Int) (tunnelPID : Option Nat) :
    Remote.Upholds policy safe (closeTunnel localPort tunnelPID) := by
  have checked (killed : Bool) : Remote.Upholds policy safe (if killed then pure ()
      else do
        if ← await (isPortReachable localPort) then
          throw s!"Tunnel on local port {localPort} is reachable but no tracked PID is available for teardown"
        else pure ()) := by
    split
    · exact upholds_pure _
    · refine (upholds_await plain (upholds_isPortReachable plain localPort)).bind fun reachable => ?_
      split
      · exact upholds_throw _
      · exact upholds_pure _
  unfold closeTunnel
  dsimp only
  split
  · refine Upholds.bind (Upholds.tryCatch ?_ fun _ => upholds_pure _) checked
    exact (upholds_kill plain _).bind fun _ => upholds_pure _
  · exact (upholds_pure _).bind checked

theorem upholds_teardown (binding : WorkspaceBinding) : Remote.Upholds policy safe (teardown binding) :=
  (upholds_await plain (upholds_closeTunnel plain _ _)).bind fun _ =>
    upholds_await plain (upholds_waitForPortClosed plain _)

theorem upholds_closeRecoveredBinding (binding : WorkspaceBinding) :
    Remote.Upholds policy safe (closeRecoveredBinding binding) := by
  unfold closeRecoveredBinding
  dsimp only
  split
  · exact upholds_await plain (upholds_teardown plain binding)
  · refine (upholds_await plain (upholds_isPortReachable plain _)).bind fun reachable => ?_
    split
    · exact upholds_throw _
    · exact upholds_pure _

theorem upholds_reconnect (binding : WorkspaceBinding) (target : ResolvedHost) :
    Remote.Upholds policy safe (manager.reconnect binding target) := by
  refine (upholds_await plain (upholds_isHealthReachable plain _ _)).bind fun ok => ?_
  split
  · exact upholds_pure _
  · refine (upholds_await plain (upholds_ensureSpecificOrFallbackTunnel plain manager _ _ _ _ _ _)).bind
      fun tunnel => ?_
    exact (upholds_await plain (upholds_waitForHealth plain manager _ _)).bind fun _ => upholds_pure _

theorem upholds_ensureRecoveredBinding (binding : WorkspaceBinding) (target : ResolvedHost) :
    Remote.Upholds policy safe (manager.ensureRecoveredBinding binding target) := by
  refine (upholds_await plain (upholds_isHealthReachable plain _ _)).bind fun ok => ?_
  split
  · exact upholds_pure _
  · exact upholds_await plain (upholds_reconnect plain manager binding target)

end SSHManager

/-! ## Sessions and workspaces of a stub -/

open Remote

theorem upholds_createRemoteSession (binding : WorkspaceBinding) (title : String) :
    Remote.Upholds policy safe (createRemoteSession binding title) := by
  refine (upholds_call plain (o := .now) trivial).bind fun now => (upholds_fetch plain _).bind fun response => ?_
  split
  · exact upholds_pure _
  · exact (upholds_read plain _).bind fun _ => upholds_throw _

theorem upholds_ensureSession (binding : WorkspaceBinding) :
    Remote.Upholds policy safe (ensureSession binding) := by
  unfold ensureSession
  split
  · exact upholds_pure _
  · exact (upholds_await plain (upholds_createRemoteSession plain binding _)).bind fun _ => upholds_pure _

theorem upholds_createRemoteWorkspace (binding : WorkspaceBinding) :
    Remote.Upholds policy safe (createRemoteWorkspace binding) := by
  refine (upholds_fetch plain _).bind fun response => ?_
  split
  · exact upholds_pure _
  · exact (upholds_read plain _).bind fun _ => upholds_throw _

theorem upholds_bestEffortDelete (binding : WorkspaceBinding) (path : String) :
    Remote.Upholds policy safe (bestEffortDelete binding path) :=
  ((upholds_fetch plain _).bind fun _ => upholds_pure _).tryCatch fun _ => upholds_pure _

theorem upholds_removeRemoteWorkspace (binding : WorkspaceBinding) :
    Remote.Upholds policy safe (removeRemoteWorkspace binding) := by
  unfold removeRemoteWorkspace
  split
  · exact (upholds_bestEffortDelete plain _ _).bind fun _ => upholds_bestEffortDelete plain _ _
  · exact upholds_bestEffortDelete plain _ _

/-! ## The calls -/

namespace Async

theorem upholds_remote {f : Remote α} (upholds : Remote.Upholds policy safe f) : Upholds policy safe (remote f) :=
  upholds_outside (upholds_await plain upholds)

theorem upholds_await {f : Async α} (upholds : Upholds policy safe f) : Upholds policy safe (await f) :=
  Upholds.followed (plain (.remote .tick) trivial) upholds

theorem upholds_lift {o : Op} (usual : Plain o) :
    Upholds policy safe (ExceptT.lift (Op.perform o) : Async (Res o)) := plain o usual

theorem upholds_now : Upholds policy safe now := upholds_lift plain (o := .remote .now) trivial

theorem upholds_acquireResolved (request : HostSelectionRequest) (workspaceID : String) :
    Upholds policy safe (acquireResolved request workspaceID) := plain (.acquireResolved request workspaceID) trivial

theorem upholds_release (host workspaceID : String) : Upholds policy safe (release host workspaceID) :=
  upholds_lift plain (o := .release host workspaceID) trivial

theorem upholds_drop (host workspaceID : String) : Upholds policy safe (drop host workspaceID) :=
  plain (.drop host workspaceID) trivial

theorem upholds_setBinding (binding : WorkspaceBinding) : Upholds policy safe (setBinding binding) :=
  plain (.stateSet binding) trivial

theorem upholds_replaceBinding (binding : WorkspaceBinding) : Upholds policy safe (replaceBinding binding) :=
  plain (.stateReplace binding) trivial

theorem upholds_deleteBinding (workspaceID : String) : Upholds policy safe (deleteBinding workspaceID) :=
  plain (.stateDelete workspaceID) trivial

theorem upholds_getBinding (workspaceID : String) : Upholds policy safe (getBinding workspaceID) :=
  upholds_lift plain (o := .stateGet workspaceID) trivial

theorem upholds_listBindings : Upholds policy safe listBindings := upholds_lift plain (o := .stateList) trivial

end Async

open Async

variable (manager : SSHManager)

theorem upholds_ensureBindingReady (binding : WorkspaceBinding) :
    Upholds policy safe (ensureBindingReady manager binding) := by
  refine (upholds_acquireResolved plain _ _).bind fun selection => ?_
  refine (upholds_remote plain (manager.upholds_ensureRecoveredBinding plain _ _)).bind fun recovered => ?_
  split
  · exact (upholds_replaceBinding plain _).bind fun _ => upholds_pure _
  · exact upholds_pure _

theorem upholds_removeBinding (binding : WorkspaceBinding) : Upholds policy safe (removeBinding binding) :=
  (upholds_remote plain (upholds_removeRemoteWorkspace plain binding)).bind fun _ =>
    (upholds_remote plain (SSHManager.upholds_closeRecoveredBinding plain binding)).bind fun _ =>
      upholds_drop plain _ _

theorem upholds_reuseOrDrop (providerName : String) (host : Option String) (binding : WorkspaceBinding) :
    Upholds policy safe (reuseOrDrop manager providerName host binding) := by
  refine Upholds.tryCatch ?_ fun _ => (upholds_drop plain _ _).bind fun _ => upholds_pure _
  refine (upholds_acquireResolved plain _ _).bind fun selection => ?_
  split
  · exact (upholds_release plain _ _).bind fun _ => upholds_pure _
  · refine (upholds_remote plain (manager.upholds_ensureRecoveredBinding plain _ _)).bind fun recovered => ?_
    refine (upholds_outside (upholds_ensureSession plain recovered)).bind fun reusable => ?_
    exact (upholds_replaceBinding plain _).bind fun _ => upholds_pure _

theorem upholds_findReusableBindingLoop (providerName : String) (host : Option String)
    (bindings : List WorkspaceBinding) :
    Upholds policy safe (findReusableBindingLoop manager providerName host bindings) := by
  induction bindings with
  | nil => exact upholds_pure _
  | cons binding rest ih =>
      unfold findReusableBindingLoop
      split
      · exact ih
      · refine (upholds_reuseOrDrop plain manager providerName host binding).bind fun found => ?_
        split
        · exact upholds_pure _
        · exact ih

theorem upholds_findReusableBinding (providerName : String) (host : Option String) :
    Upholds policy safe (findReusableBinding manager providerName host) :=
  (upholds_listBindings plain).bind fun bindings =>
    upholds_findReusableBindingLoop plain manager providerName host bindings

theorem upholds_statusLoop (bindings : List WorkspaceBinding) :
    Upholds policy safe (statusLoop manager bindings) := by
  induction bindings with
  | nil => exact upholds_pure _
  | cons binding rest ih =>
      refine Upholds.bind (Upholds.tryCatch ?_ fun _ => ?_) fun entry => ih.bind fun entries => upholds_pure _
      · exact (Async.upholds_await plain (upholds_ensureBindingReady plain manager binding)).bind fun _ => upholds_pure _
      · exact (upholds_deleteBinding plain _).bind fun _ => (upholds_release plain _ _).bind fun _ => upholds_pure _

theorem upholds_listLoop (bindings : List WorkspaceBinding) : Upholds policy safe (listLoop manager bindings) := by
  induction bindings with
  | nil => exact upholds_pure _
  | cons binding rest ih =>
      exact (Async.upholds_await plain (upholds_ensureBindingReady plain manager binding)).bind fun _ =>
        ih.bind fun _ => upholds_pure _

theorem upholds_disconnectLoop (bindings : List WorkspaceBinding) : Upholds policy safe (disconnectLoop bindings) := by
  induction bindings with
  | nil => exact upholds_pure _
  | cons binding rest ih =>
      exact (Async.upholds_await plain (upholds_removeBinding plain binding)).bind fun _ => ih

theorem upholds_remoteDisconnect (workspaceID : Option String) :
    Upholds policy safe (remoteDisconnect workspaceID) := by
  refine (upholds_listBindings plain).bind fun bindings => ?_
  dsimp only
  split
  · exact upholds_pure _
  · exact (upholds_disconnectLoop plain _).bind fun _ => upholds_pure _

theorem upholds_getTarget (workspace : WorkspaceInfo) : Upholds policy safe (getTarget manager workspace) := by
  refine (Async.upholds_await plain ?_).bind fun found => ?_
  · refine (upholds_getBinding plain _).bind fun found => ?_
    split
    · exact upholds_pure _
    · exact (Async.upholds_await plain (upholds_ensureBindingReady plain manager _)).bind fun _ => upholds_pure _
  · split
    · exact upholds_throw _
    · exact upholds_pure _

theorem upholds_configureWorkspace (workspace : WorkspaceInfo) :
    Upholds policy safe (configureWorkspace workspace) :=
  (upholds_mk _).bind fun _ => (upholds_acquireResolved plain _ _).bind fun _ => upholds_pure _

theorem upholds_doctorHealth (binding : WorkspaceBinding) (created : Bool) :
    Upholds policy safe (doctorHealth binding created) := by
  refine (upholds_outside (upholds_fetch plain _)).bind fun response => ?_
  split
  · exact (upholds_outside (upholds_read plain _)).bind fun _ => upholds_pure _
  · exact (upholds_outside (upholds_read plain _)).bind fun _ => upholds_throw _

/-! ## Those that bootstrap -/

section Bootstrapping

variable (boots : ∀ workspaceID target, Remote.Upholds policy safe (manager.bootstrap workspaceID target))

include boots

theorem upholds_createConnectedBinding (providerName : String) (host : Option String) (workspaceName : String) :
    Upholds policy safe (createConnectedBinding manager providerName host workspaceName) := by
  refine (upholds_now plain).bind fun now => (upholds_acquireResolved plain _ _).bind fun selection => ?_
  refine Upholds.tryCatch ?_ fun e => (upholds_release plain _ _).bind fun _ => upholds_throw e
  refine (upholds_remote plain (boots _ _)).bind fun result => ?_
  refine (upholds_remote plain (upholds_createRemoteWorkspace plain _)).bind fun _ => ?_
  refine (upholds_remote plain (upholds_createRemoteSession plain _ _)).bind fun sessionID => ?_
  exact (upholds_setBinding plain _).bind fun _ => upholds_pure _

theorem upholds_bootstrapAndBind (workspaceID : String) (selection : ResolvedHost) :
    Upholds policy safe (bootstrapAndBind manager workspaceID selection) :=
  ((upholds_remote plain (boots _ _)).bind fun _ => upholds_setBinding plain _).tryCatch fun e =>
    (upholds_release plain _ _).bind fun _ => upholds_throw e

theorem upholds_remoteWorkspaceCreate (workspaceName : String) (provider host : Option String) :
    Upholds policy safe (remoteWorkspaceCreate manager workspaceName provider host) := by
  refine Upholds.tryCatch ?_ fun _ => upholds_pure _
  split
  · exact upholds_throw _
  · refine (upholds_now plain).bind fun now => (upholds_acquireResolved plain _ _).bind fun selection => ?_
    exact (upholds_bootstrapAndBind plain manager boots _ _).bind fun _ => upholds_pure _

theorem upholds_remoteSwitch (host provider : Option String) :
    Upholds policy safe (remoteSwitch manager host provider) := by
  refine Upholds.tryCatch ?_ fun _ => upholds_pure _
  refine (Async.upholds_await plain (upholds_findReusableBinding plain manager _ _)).bind fun found => ?_
  split
  · exact upholds_pure _
  · exact (Async.upholds_await plain (upholds_createConnectedBinding plain manager boots _ _ _)).bind
      fun _ => upholds_pure _

theorem upholds_doctorBinding (providerName : String) (host : Option String) :
    Upholds policy safe (doctorBinding manager providerName host) := by
  refine (Async.upholds_await plain (upholds_findReusableBinding plain manager _ _)).bind fun found => ?_
  split
  · exact upholds_pure _
  · exact (Async.upholds_await plain (upholds_createConnectedBinding plain manager boots _ _ _)).bind
      fun _ => upholds_pure _

theorem upholds_remoteDoctor (host provider : Option String) :
    Upholds policy safe (remoteDoctor manager host provider) := by
  refine (upholds_outcome (upholds_doctorBinding plain manager boots _ _)).bind fun result => ?_
  split
  · exact upholds_pure _
  · refine Upholds.bind ((upholds_doctorHealth plain _ _).tryCatch fun _ => upholds_pure _) fun reply => ?_
    split
    · exact ((Async.upholds_await plain (upholds_removeBinding plain _)).tryCatch fun _ => upholds_pure _).bind
        fun _ => upholds_pure _
    · exact upholds_pure _

/-- What bootstrapping upholds, every call upholds. -/
theorem upholds_serve (request : Request) : Upholds policy safe (serve manager request) := by
  cases request with
  | configure workspace => exact (upholds_configureWorkspace plain workspace).bind fun _ => upholds_pure _
  | create workspace =>
      refine Upholds.bind ?_ fun _ => upholds_pure _
      refine (upholds_mk _).bind fun request => (upholds_acquireResolved plain _ _).bind fun selection => ?_
      exact upholds_bootstrapAndBind plain manager boots _ _
  | remove workspace =>
      refine Upholds.bind ?_ fun _ => upholds_pure _
      refine (upholds_getBinding plain _).bind fun found => ?_
      split
      · exact upholds_pure _
      · exact Async.upholds_await plain (upholds_removeBinding plain _)
  | target workspace => exact upholds_getTarget plain manager workspace
  | remoteWorkspaceCreate workspaceName provider host =>
      exact upholds_remoteWorkspaceCreate plain manager boots workspaceName provider host
  | remoteSwitch host provider => exact upholds_remoteSwitch plain manager boots host provider
  | remoteStatus =>
      exact (upholds_listBindings plain).bind fun bindings =>
        (upholds_statusLoop plain manager bindings).bind fun _ => upholds_pure _
  | remoteDisconnect workspaceID => exact upholds_remoteDisconnect plain workspaceID
  | remoteDoctor host provider => exact upholds_remoteDoctor plain manager boots host provider
  | remoteWorkspaceList =>
      exact (upholds_listBindings plain).bind fun bindings =>
        (upholds_listLoop plain manager bindings).bind fun _ => upholds_pure _
  | remoteWorkspaceRemove workspaceID =>
      refine (upholds_getBinding plain _).bind fun found => ?_
      split
      · exact upholds_pure _
      · exact (Async.upholds_await plain (upholds_removeBinding plain _)).bind fun _ => upholds_pure _

end Bootstrapping

end OpencodeRemote.Plugin
