import OpencodeRemote.Concurrency.Renaming
import OpencodeRemote.Plugin.Index

/-! # Other tokens

What becomes of operations, answers and bindings when every token is replaced by another
one. The functions which only talk to the outside treat tokens as opaque: with other tokens
they do the same, and return the same with other tokens.
-/

namespace OpencodeRemote.Plugin

open Concurrency Data

section Retoken

variable (ρ : String → String)

def WorkspaceBinding.retoken (binding : WorkspaceBinding) : WorkspaceBinding :=
  { binding with token := ρ binding.token }

def BootstrapResult.retoken (result : BootstrapResult) : BootstrapResult :=
  { result with token := ρ result.token }

def FetchRequest.retoken (request : FetchRequest) : FetchRequest :=
  { request with token := request.token.map ρ }

/-- The only file with content that the plugin writes this way holds the token. -/
def FileCall.retoken : FileCall → FileCall
  | .writeFile path content => .writeFile path (ρ content)
  | call => call

/-- Commands, paths, ports and pids are what they were. -/
def RemoteOp.retoken : RemoteOp → RemoteOp
  | .file call => .file (call.retoken ρ)
  | .fetch request => .fetch (request.retoken ρ)
  | o => o

def RemoteOp.retokenAnswer : (o : RemoteOp) → RemoteRes o → RemoteRes (o.retoken ρ)
  | .randomToken, token => ρ token
  | .now, time => time
  | .tick, answer => answer
  | .sleep _, answer => answer
  | .rounds _, count => count
  | .file _, outcome => outcome
  | .exists _, found => found
  | .ssh _ _, outcome => outcome
  | .scp _, outcome => outcome
  | .spawn _, pid => pid
  | .kill _, outcome => outcome
  | .fetch _, outcome => outcome

def Op.retoken : Op → Op
  | .remote o => .remote (o.retoken ρ)
  | .stateSet binding => .stateSet (binding.retoken ρ)
  | .stateReplace binding => .stateReplace (binding.retoken ρ)
  | o => o

def Op.retokenAnswer : (o : Op) → Res o → Res (o.retoken ρ)
  | .remote o, answer => o.retokenAnswer ρ answer
  | .acquireResolved _ _, outcome => outcome
  | .release _ _, answer => answer
  | .drop _ _, saved => saved
  | .stateSet _, saved => saved
  | .stateReplace _, saved => saved
  | .stateGet _, found => found.map (WorkspaceBinding.retoken ρ)
  | .stateList, bindings => bindings.map (WorkspaceBinding.retoken ρ)
  | .stateDelete _, saved => saved

def remoteTokens : Renaming RemoteOp RemoteRes := ⟨RemoteOp.retoken ρ, RemoteOp.retokenAnswer ρ⟩

def tokens : Renaming Op Res := ⟨Op.retoken ρ, Op.retokenAnswer ρ⟩

/-- The second binding is the first one with another token. -/
def Retokened (binding binding' : WorkspaceBinding) : Prop := binding' = binding.retoken ρ

end Retoken

variable {ρ : String → String} {α : Type}

namespace Remote

open Throwing

/-- The function is the same with other tokens. -/
abbrev Opaque (ρ : String → String) (f : Remote α) : Prop := Alike (remoteTokens ρ) Eq f f

theorem alike_call (o : RemoteOp) : Alike (remoteTokens ρ) (fun answer answer' => o.retokenAnswer ρ answer = answer')
    (call o) (call (o.retoken ρ)) := ⟨_, rfl, fun _ => ⟨_, rfl, rfl⟩⟩

theorem alike_ssh (args : List String) (command : String) : Opaque ρ (ssh args command) := by
  refine ⟨_, rfl, fun outcome => ⟨outcome, rfl, ?_⟩⟩
  cases outcome <;> rfl

theorem alike_scp (args : List String) : Opaque ρ (scp args) := by
  refine ⟨_, rfl, fun outcome => ⟨outcome, rfl, ?_⟩⟩
  cases outcome <;> rfl

theorem alike_kill (pid : Nat) : Opaque ρ (kill pid) := by
  refine ⟨_, rfl, fun outcome => ⟨outcome, rfl, ?_⟩⟩
  cases outcome <;> rfl

theorem alike_file (call : FileCall) : Alike (remoteTokens ρ) Eq (file call) (file (call.retoken ρ)) := by
  refine ⟨_, rfl, fun outcome => ⟨outcome, rfl, ?_⟩⟩
  cases outcome <;> rfl

theorem alike_fetch (request : FetchRequest) :
    Alike (remoteTokens ρ) Eq (fetch request) (fetch (request.retoken ρ)) := by
  refine ⟨_, rfl, fun outcome => ⟨outcome, rfl, ?_⟩⟩
  cases outcome <;> rfl

theorem alike_await {β : Type} {post : α → β → Prop} {f : Remote α} {f' : Remote β}
    (alike : Alike (remoteTokens ρ) post f f') : Alike (remoteTokens ρ) post (await f) (await f') :=
  Program.alike_bind alike fun _ _ paired => ⟨_, rfl, fun _ => Program.alike_pure paired⟩

theorem alike_read (body : Except String String) : Opaque ρ (read body) :=
  alike_await (alike_of_except body)

/-- A step that is left out if its condition does not hold. -/
theorem alike_when {p : Prop} [Decidable p] {β : Type} {post : α → β → Prop} {f : Remote Unit}
    {next : Unit → Remote α} {next' : Unit → Remote β} (first : Opaque ρ f)
    (then_ : Alike (remoteTokens ρ) post (next ()) (next' ())) :
    Alike (remoteTokens ρ) post (if p then f >>= next else next ()) (if p then f >>= next' else next' ()) := by
  split
  · exact first.then fun _ => then_
  · exact then_

theorem alike_andFinally {f : Remote α} {cleanup : Remote Unit} (first : Opaque ρ f)
    (then_ : Opaque ρ cleanup) : Opaque ρ (SSHManager.andFinally f cleanup) := by
  refine Program.alike_bind first fun outcome outcome' paired => ?_
  refine Alike.finished then_ (fun _ _ _ => Program.alike_pure paired) fun e => Program.alike_pure ?_
  exact rfl

end Remote

namespace SSHManager

open Remote Throwing

variable (manager : SSHManager)

theorem alike_identityArgs (identityFile : Option String) : Opaque ρ (identityArgs identityFile) := by
  fun_cases identityArgs identityFile with
  | case1 => exact alike_pure rfl
  | case2 => exact alike_pure rfl
  | case3 file given =>
      refine (alike_call (.exists file)).then fun found => ?_
      split <;> exact alike_pure rfl

theorem alike_buildSSHArgs (sshConfig : SSHConfig) (identityFile : Option String) :
    Opaque ρ (manager.buildSSHArgs sshConfig identityFile) :=
  (alike_identityArgs identityFile).then fun _ => alike_pure rfl

theorem alike_execSSH (sshArgs : List String) (command : String) : Opaque ρ (execSSH sshArgs command) :=
  (alike_ssh sshArgs command).then fun _ => alike_pure rfl

theorem alike_execSSHAllowFailure (sshArgs : List String) (command : String) :
    Opaque ρ (execSSHAllowFailure sshArgs command) :=
  (alike_await (alike_execSSH sshArgs command)).tryCatch fun _ => alike_pure rfl

theorem alike_scp (localPath : String) (sshConfig : SSHConfig) (identityFile : Option String) (destination : String) :
    Opaque ρ (manager.scp localPath sshConfig identityFile destination) :=
  (alike_identityArgs identityFile).then fun _ => Remote.alike_scp _

theorem alike_installStub (localPath : String) (sshArgs : List String) (sshConfig : SSHConfig)
    (identityFile : Option String) (remotePath : String) :
    Opaque ρ (manager.installStub localPath sshArgs sshConfig identityFile remotePath) := by
  refine (alike_call .now).then fun now => ?_
  refine (alike_await (alike_scp manager _ _ _ _)).then fun _ => ?_
  exact (alike_await (alike_execSSH _ _)).then fun _ => alike_pure rfl

theorem alike_remoteStubHash (sshArgs : List String) (remotePath : String) :
    Opaque ρ (remoteStubHash sshArgs remotePath) :=
  (alike_await (alike_execSSHAllowFailure _ _)).then fun _ => alike_pure rfl

theorem alike_resolveRemoteHome (sshConfig : SSHConfig) (identityFile : Option String) :
    Opaque ρ (manager.resolveRemoteHome sshConfig identityFile) := by
  refine (alike_buildSSHArgs manager _ _).then fun sshArgs => ?_
  refine (alike_await (alike_execSSH _ _)).then fun home => ?_
  split
  · exact alike_throw _
  · exact alike_pure rfl

/-! ## Probes -/

theorem alike_isPortReachable (localPort : Int) : Opaque ρ (isPortReachable localPort) := by
  refine Alike.tryCatch ?_ fun _ => alike_pure rfl
  exact (alike_fetch _).then fun _ => alike_pure rfl

theorem alike_isHealthReachable (localPort : Int) (token : String) :
    Alike (remoteTokens ρ) Eq (isHealthReachable localPort token) (isHealthReachable localPort (ρ token)) := by
  refine Alike.tryCatch ?_ fun _ => alike_pure rfl
  refine (alike_fetch ⟨"GET", localPort, "/global/health", some token, none⟩).bind fun response _ same => ?_
  subst same
  exact alike_pure rfl

theorem alike_poll {ready ready' : Remote Bool} (polled : Alike (remoteTokens ρ) Eq ready ready') (pause : Nat)
    (late : String) (rounds : Nat) :
    Alike (remoteTokens ρ) Eq (poll ready pause late rounds) (poll ready' pause late rounds) := by
  induction rounds with
  | zero => exact alike_throw _
  | succ rounds ih =>
      refine polled.bind fun up up' same => ?_
      subst same
      split
      · exact alike_pure rfl
      · exact (alike_call (.sleep pause)).then fun _ => ih

theorem alike_waitForHealth (localPort : Int) (token : String) :
    Alike (remoteTokens ρ) Eq (manager.waitForHealth localPort token) (manager.waitForHealth localPort (ρ token)) :=
  (alike_call (.rounds manager.config.tunnel.healthTimeoutMs)).bind fun _ _ same =>
    same ▸ alike_poll (alike_isHealthReachable localPort token) _ _ _

theorem alike_waitForPortReachable (localPort : Int) : Opaque ρ (manager.waitForPortReachable localPort) :=
  (alike_call (.rounds manager.config.tunnel.connectTimeoutMs)).then fun _ =>
    alike_poll (alike_await (alike_isPortReachable localPort)) _ _ _

theorem alike_waitForPortClosed (localPort : Int) : Opaque ρ (waitForPortClosed localPort) :=
  (alike_call (.rounds 5000)).then fun _ =>
    alike_poll ((alike_await (alike_isPortReachable localPort)).then fun _ => alike_pure rfl) _ _ _

/-! ## Tunnels -/

theorem alike_tryStartTunnel (sshConfig : SSHConfig) (identityFile : Option String) (localPort : Int)
    (remotePort : Nat) : Opaque ρ (manager.tryStartTunnel sshConfig identityFile localPort remotePort) := by
  refine (alike_await (alike_isPortReachable localPort)).then fun reachable => ?_
  split
  · exact alike_pure rfl
  refine (alike_identityArgs identityFile).then fun identity => (alike_call (.spawn _)).then fun child => ?_
  refine Alike.tryCatch ?_ fun _ => ?_
  · exact (alike_await (alike_waitForPortReachable manager localPort)).then fun _ => alike_pure rfl
  · split
    · exact alike_pure rfl
    · exact ((alike_kill _).tryCatch fun _ => alike_pure rfl).then fun _ => alike_pure rfl

theorem alike_ensureTunnelLoop (sshConfig : SSHConfig) (identityFile : Option String) (remotePort : Nat)
    (initialPort : Int) (attempt remaining : Nat) :
    Opaque ρ (manager.ensureTunnelLoop sshConfig identityFile remotePort initialPort attempt remaining) := by
  induction remaining generalizing attempt with
  | zero => exact alike_throw _
  | succ remaining ih =>
      refine (alike_await (alike_tryStartTunnel manager _ _ _ _)).then fun tunnelPID => ?_
      split
      · exact alike_pure rfl
      · exact ih (attempt + 1)

theorem alike_ensureSpecificOrFallbackTunnel (workspaceID host : String) (sshConfig : SSHConfig)
    (identityFile : Option String) (remotePort : Nat) (preferredLocalPort : Int) :
    Opaque ρ (manager.ensureSpecificOrFallbackTunnel workspaceID host sshConfig identityFile remotePort
      preferredLocalPort) := by
  refine (alike_await (alike_tryStartTunnel manager _ _ _ _)).then fun tunnelPID => ?_
  split
  · exact alike_pure rfl
  · exact alike_await (alike_ensureTunnelLoop manager _ _ _ _ 0 _)

theorem alike_closeTunnel (localPort : Int) (tunnelPID : Option Nat) :
    Opaque ρ (closeTunnel localPort tunnelPID) := by
  have checked (killed : Bool) : Opaque ρ (if killed then pure ()
      else do
        if ← await (isPortReachable localPort) then
          throw s!"Tunnel on local port {localPort} is reachable but no tracked PID is available for teardown"
        else pure ()) := by
    split
    · exact alike_pure rfl
    · refine (alike_await (alike_isPortReachable localPort)).then fun reachable => ?_
      split
      · exact alike_throw _
      · exact alike_pure rfl
  unfold closeTunnel
  dsimp only
  split
  · exact Alike.then (((alike_kill _).then fun _ => alike_pure rfl).tryCatch fun _ => alike_pure rfl) checked
  · exact Alike.then (alike_pure rfl) checked

theorem alike_closeRecoveredBinding (binding : WorkspaceBinding) :
    Alike (remoteTokens ρ) Eq (closeRecoveredBinding binding) (closeRecoveredBinding (binding.retoken ρ)) := by
  have torn : Alike (remoteTokens ρ) Eq (teardown binding) (teardown (binding.retoken ρ)) :=
    (alike_await (alike_closeTunnel binding.localPort binding.tunnelPID)).then fun _ =>
      alike_await (alike_waitForPortClosed binding.localPort)
  unfold closeRecoveredBinding
  dsimp only [WorkspaceBinding.retoken]
  split
  · exact alike_await torn
  · refine (alike_await (alike_isPortReachable _)).then fun reachable => ?_
    split
    · exact alike_throw _
    · exact alike_pure rfl

/-! ## Recovery -/

/-- A binding whose health is good is kept; another one is recovered. -/
theorem alike_unlessHealthy (binding : WorkspaceBinding) {next next' : Remote WorkspaceBinding}
    (recovers : Alike (remoteTokens ρ) (Retokened ρ) next next') :
    Alike (remoteTokens ρ) (Retokened ρ) (do
        if ← await (isHealthReachable binding.localPort binding.token) then pure binding else next) (do
        if ← await (isHealthReachable binding.localPort (ρ binding.token)) then pure (binding.retoken ρ) else next') := by
  refine (alike_await (alike_isHealthReachable _ _)).bind fun ok ok' same => ?_
  subst same
  split
  · exact alike_pure rfl
  · exact recovers

theorem alike_reconnect (binding : WorkspaceBinding) (target : ResolvedHost) :
    Alike (remoteTokens ρ) (Retokened ρ) (manager.reconnect binding target)
      (manager.reconnect (binding.retoken ρ) target) := by
  refine alike_unlessHealthy binding ?_
  refine (alike_await (alike_ensureSpecificOrFallbackTunnel manager _ _ _ _ _ _)).then fun tunnel => ?_
  refine (alike_await (alike_waitForHealth manager tunnel.1 binding.token)).bind fun _ _ _ => ?_
  exact alike_pure rfl

theorem alike_ensureRecoveredBinding (binding : WorkspaceBinding) (target : ResolvedHost) :
    Alike (remoteTokens ρ) (Retokened ρ) (manager.ensureRecoveredBinding binding target)
      (manager.ensureRecoveredBinding (binding.retoken ρ) target) :=
  alike_unlessHealthy binding (alike_await (alike_reconnect manager binding target))

/-! ## Bootstrapping -/

/-- Everything after the token was chosen, up to the start of the stub, is in paths and
    hashes; only the file that is copied and the probe of the health have the token. -/
theorem alike_bootstrap (workspaceID : String) (target : ResolvedHost) :
    Alike (remoteTokens ρ) (fun result result' => result' = result.retoken ρ) (manager.bootstrap workspaceID target)
      (manager.bootstrap workspaceID target) := by
  refine (alike_await (alike_resolveRemoteHome manager _ _)).then fun remoteHome => ?_
  refine (alike_call .randomToken).bind fun token token' chosen => ?_
  subst chosen
  refine (alike_buildSSHArgs manager _ _).then fun sshArgs => ?_
  refine (alike_file (.mkdtemp _)).then fun tokenDir => ?_
  refine (alike_await (alike_execSSH _ _)).then fun _ => ?_
  refine (alike_call (.exists _)).then fun found => alike_when (alike_throw _) ?_
  refine (alike_file (.sha256 _)).then fun localStubHash => ?_
  refine (alike_await (alike_remoteStubHash _ _)).then fun remoteHash => ?_
  refine alike_when (alike_await (alike_installStub manager _ _ _ _ _)) ?_
  refine (alike_file (.writeFile _ token)).bind fun _ _ _ => ?_
  refine (alike_file (.chmod _)).then fun _ => ?_
  refine (alike_andFinally (alike_await (alike_scp manager _ _ _ _)) ?_).then fun _ => ?_
  · refine alike_andFinally ?_ ?_
    · exact (alike_file (.unlink _)).then fun _ => alike_pure rfl
    · exact (alike_file (.removeTree _)).then fun _ => alike_pure rfl
  refine (alike_await (alike_execSSHAllowFailure _ _)).then fun _ => ?_
  refine (alike_await (alike_execSSH _ _)).then fun _ => (alike_await (alike_execSSH _ _)).then fun _ => ?_
  refine (alike_await (alike_ensureTunnelLoop manager _ _ _ _ 0 _)).then fun tunnel => ?_
  refine (alike_await (alike_waitForHealth manager tunnel.1 token)).bind fun _ _ _ => ?_
  exact alike_pure rfl

end SSHManager

end OpencodeRemote.Plugin
