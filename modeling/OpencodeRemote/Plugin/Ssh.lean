import Mathlib.Algebra.Group.Nat.Defs
import OpencodeRemote.Plugin.Operations

/-! # Connections over ssh

`SSHManager` installs and starts the stub on a host and keeps a local port forwarded to
it. All of it is of type `Remote`: it talks to the host and to the local system, but the
tables of the plugin are out of its reach.
-/

namespace OpencodeRemote.Plugin

/-- What the process knows about itself stands beside the configuration. -/
structure SSHManager where
  config : ResolvedPluginConfig
  home : Option String
  tmpdir : String
  pid : Nat

structure BootstrapResult where
  remotePort : Nat
  localPort : Int
  token : String
  installRoot : String
  remoteHome : String
  launchCommand : String
  healthURL : String
  tunnelPID : Option Nat

/-! ## Strings of JavaScript -/

/-- The white space of `trim` and of `\s`. -/
def isSpace (c : Char) : Bool :=
  c.toNat ∈ [0x9, 0xA, 0xB, 0xC, 0xD, 0x20, 0xA0, 0x1680, 0x2028, 0x2029, 0x202F, 0x205F, 0x3000, 0xFEFF] ||
    (0x2000 ≤ c.toNat && c.toNat ≤ 0x200A)

def trim (s : String) : String :=
  String.ofList ((s.toList.dropWhile isSpace).reverse.dropWhile isSpace).reverse

private def dashed : Bool → List Char → List Char
  | _, [] => []
  | inRun, c :: rest =>
      if isSpace c then (if inRun then dashed true rest else '-' :: dashed true rest)
      else c :: dashed false rest

/-- `s.replace(/\s+/g, "-")`. -/
def dashSpaces (s : String) : String := String.ofList (dashed false s.toList)

theorem dashSpaces_solid {s : String} {c : Char} (member : c ∈ (dashSpaces s).toList) : isSpace c = false := by
  have solid : ∀ inRun chars, c ∈ dashed inRun chars → isSpace c = false := by
    intro inRun chars inside
    fun_induction dashed inRun chars with
    | case1 => cases inside
    | case2 first rest space ih => exact ih inside
    | case3 inRun first rest space new ih =>
        cases inside with
        | head => decide
        | tail _ later => exact ih later
    | case4 inRun first rest solid ih =>
        cases inside with
        | head => simpa using solid
        | tail _ later => exact ih later
  rw [dashSpaces, String.toList_ofList] at member
  exact solid _ _ member

/-- `s.replace(/'/g, text)`. -/
def replaceQuotes (s text : String) : String :=
  String.ofList (s.toList.flatMap fun c => if c.toNat = 39 then text.toList else [c])

/-- JavaScript's test of an optional pid. -/
def truthyPid (pid : Option Nat) : Option Nat := pid.filter (· ≠ 0)

/-- `char.charCodeAt(0)`, the first of the code units of a character. -/
def charCode (c : Char) : Nat :=
  if c.toNat < 0x10000 then c.toNat else 0xD800 + (c.toNat - 0x10000) / 0x400

namespace SSHManager

open Remote

variable (manager : SSHManager)

def knownHostsFile : String :=
  let home := manager.home.getD ""
  s!"{home}/.ssh/known_hosts"

/-- The identity file with a leading `~/` expanded. -/
def identityFile (sshConfig : SSHConfig) : Option String :=
  let home := manager.home.getD "undefined"
  (truthy sshConfig.identityFile).map fun file =>
    if "~/".toList.isPrefixOf file.toList then home ++ "/" ++ String.ofList (file.toList.drop 2) else file

def port (sshConfig : SSHConfig) : Nat := ((sshConfig.port).filter (· ≠ 0)).getD 22

def login (sshConfig : SSHConfig) : String := sshConfig.user ++ "@" ++ sshConfig.host

/-- `-i` and the identity file, if it exists. -/
def identityArgs : Option String → Remote (List String)
  | none => pure []
  | some "" => pure []
  | some file => do
      if ← call (.exists file) then pure ["-i", file] else pure []

/-- `-J host`, or the option of `scp` for it. -/
def proxyArgs (sshConfig : SSHConfig) (option : String → List String) : List String :=
  match truthy sshConfig.proxyJump with
  | some proxyJump => option proxyJump
  | none => []

def buildSSHArgs (sshConfig : SSHConfig) (identityFile : Option String) : Remote (List String) := do
  let seconds := (manager.config.tunnel.connectTimeoutMs + 999) / 1000
  let knownHosts := manager.knownHostsFile
  let identity ← identityArgs identityFile
  pure (["-o", "BatchMode=yes", "-o", "NumberOfPasswordPrompts=0",
      "-o", "StrictHostKeyChecking=accept-new", "-o", s!"UserKnownHostsFile={knownHosts}",
      "-o", s!"ConnectTimeout={seconds}", "-p", toString (port sshConfig)] ++
    identity ++ proxyArgs sshConfig (fun proxyJump => ["-J", proxyJump]) ++ [login sshConfig])

def execSSH (sshArgs : List String) (command : String) : Remote String := do
  let stdout ← ssh sshArgs command
  pure (trim stdout)

def execSSHAllowFailure (sshArgs : List String) (command : String) : Remote String := do
  try await (execSSH sshArgs command) catch _ => pure ""

def scp (localPath : String) (sshConfig : SSHConfig) (identityFile : Option String)
    (destination : String) : Remote Unit := do
  let knownHosts := manager.knownHostsFile
  let identity ← identityArgs identityFile
  Remote.scp (["-o", "BatchMode=yes", "-o", "NumberOfPasswordPrompts=0",
      "-o", "StrictHostKeyChecking=accept-new", "-o", s!"UserKnownHostsFile={knownHosts}",
      "-P", toString (port sshConfig)] ++
    identity ++ proxyArgs sshConfig (fun proxyJump => ["-o", s!"ProxyJump={proxyJump}"]) ++
    [localPath, destination])

def installStub (localPath : String) (sshArgs : List String) (sshConfig : SSHConfig)
    (identityFile : Option String) (remotePath : String) : Remote Unit := do
  let now ← call .now
  let pid := manager.pid
  let tempPath := s!"{remotePath}.upload-{pid}-{now}"
  await (manager.scp localPath sshConfig identityFile (login sshConfig ++ ":" ++ tempPath))
  -- the template literal of the source reads as three quotes
  let escapedTemp := replaceQuotes tempPath "'''"
  let escapedRemote := replaceQuotes remotePath "'''"
  let _ ← await (execSSH sshArgs
    s!"chmod +x '{escapedTemp}' && mv -f '{escapedTemp}' '{escapedRemote}' && chmod +x '{escapedRemote}'")
  pure ()

def remoteStubHash (sshArgs : List String) (remotePath : String) : Remote (Option String) := do
  let escapedPath := replaceQuotes remotePath "'\\''"
  let output ← await (execSSHAllowFailure sshArgs
    (s!"if [ -f '{escapedPath}' ]; then sha256sum '{escapedPath}' 2>/dev/null | awk '" ++
      "\x7bprint $1\x7d'; fi"))
  pure (truthy (some (trim output)))

def resolveRemoteHome (sshConfig : SSHConfig) (identityFile : Option String) : Remote String := do
  let sshArgs ← manager.buildSSHArgs sshConfig identityFile
  let home ← await (execSSH sshArgs "printf '%s' \"$HOME\"")
  if home = "" then throw ("Unable to determine remote home for " ++ login sshConfig)
  else pure home

/-! ## Tunnels -/

def isPortReachable (localPort : Int) : Remote Bool := do
  try
    let response ← fetch ⟨"GET", localPort, "/global/health", none, none⟩
    pure (response.ok || response.status = 401 || response.status = 403)
  catch _ => pure false

def isHealthReachable (localPort : Int) (token : String) : Remote Bool := do
  try
    let response ← fetch ⟨"GET", localPort, "/global/health", some token, none⟩
    pure response.ok
  catch _ => pure false

/-- The rounds of a polling loop before its deadline. -/
def poll (ready : Remote Bool) (pause : Nat) (late : String) : Nat → Remote Unit
  | 0 => throw late
  | rounds + 1 => do
      if ← ready then pure ()
      else
        call (.sleep pause)
        poll ready pause late rounds

def waitForHealth (localPort : Int) (token : String) : Remote Unit := do
  let rounds ← call (.rounds manager.config.tunnel.healthTimeoutMs)
  poll (isHealthReachable localPort token) 300
    s!"Remote stub did not become healthy on local port {localPort}" rounds

def waitForPortReachable (localPort : Int) : Remote Unit := do
  let rounds ← call (.rounds manager.config.tunnel.connectTimeoutMs)
  poll (await (isPortReachable localPort)) 200
    s!"SSH tunnel did not become reachable on local port {localPort}" rounds

def waitForPortClosed (localPort : Int) : Remote Unit := do
  let rounds ← call (.rounds 5000)
  poll (do let reachable ← await (isPortReachable localPort); pure !reachable) 200
    s!"SSH tunnel on local port {localPort} did not close after teardown" rounds

def tryStartTunnel (sshConfig : SSHConfig) (identityFile : Option String) (localPort : Int)
    (remotePort : Nat) : Remote (Option Nat) := do
  if ← await (isPortReachable localPort) then pure none
  else
    let knownHosts := manager.knownHostsFile
    let identity ← identityArgs identityFile
    let child ← call (.spawn (["-N", "-o", "BatchMode=yes", "-o", "NumberOfPasswordPrompts=0",
        "-o", "ExitOnForwardFailure=yes", "-o", "ServerAliveInterval=10",
        "-L", s!"{localPort}:127.0.0.1:{remotePort}"] ++
      identity ++ proxyArgs sshConfig (fun proxyJump => ["-J", proxyJump]) ++
      ["-o", "StrictHostKeyChecking=accept-new", "-o", s!"UserKnownHostsFile={knownHosts}",
        "-p", toString (port sshConfig), login sshConfig]))
    try
      await (manager.waitForPortReachable localPort)
      pure child
    catch _ =>
      match truthyPid child with
      | none => pure none
      | some pid => do
          try kill pid catch _ => pure ()
          pure none

/-- The first port to try, hashed from workspace and host. -/
def allocateInitialLocalPort (workspaceID host : String) : Int :=
  let (start, stop) := manager.config.tunnel.localPortRange
  let seed := s!"{workspaceID}:{host}"
  let hash := seed.toList.foldl (fun hash char => (hash * 31 + charCode char) % 2 ^ 32) 0
  start + Int.tmod hash (stop - start + 1)

def ensureTunnelLoop (sshConfig : SSHConfig) (identityFile : Option String) (remotePort : Nat)
    (initialPort : Int) (attempt : Nat) : Nat → Remote (Int × Option Nat)
  | 0 =>
      let (start, stop) := manager.config.tunnel.localPortRange
      throw s!"Unable to establish SSH tunnel: no available local port in range {start}-{stop}"
  | remaining + 1 => do
      let (start, stop) := manager.config.tunnel.localPortRange
      let localPort := start + Int.tmod (initialPort - start + attempt) (stop - start + 1)
      let tunnelPID ← await (manager.tryStartTunnel sshConfig identityFile localPort remotePort)
      match truthyPid tunnelPID with
      | some pid => pure (localPort, some pid)
      | none => ensureTunnelLoop sshConfig identityFile remotePort initialPort (attempt + 1) remaining

def ensureTunnel (workspaceID host : String) (sshConfig : SSHConfig) (identityFile : Option String)
    (remotePort : Nat) : Remote (Int × Option Nat) :=
  let (start, stop) := manager.config.tunnel.localPortRange
  manager.ensureTunnelLoop sshConfig identityFile remotePort
    (manager.allocateInitialLocalPort workspaceID host) 0 (stop - start + 1).toNat

def ensureSpecificOrFallbackTunnel (workspaceID host : String) (sshConfig : SSHConfig)
    (identityFile : Option String) (remotePort : Nat) (preferredLocalPort : Int) :
    Remote (Int × Option Nat) := do
  let tunnelPID ← await (manager.tryStartTunnel sshConfig identityFile preferredLocalPort remotePort)
  match truthyPid tunnelPID with
  | some pid => pure (preferredLocalPort, some pid)
  | none => await (manager.ensureTunnel workspaceID host sshConfig identityFile remotePort)

def closeTunnel (localPort : Int) (tunnelPID : Option Nat) : Remote Unit := do
  let killed ← match truthyPid tunnelPID with
    | some pid => do try (do kill pid; pure true) catch _ => pure false
    | none => pure false
  if killed then pure ()
  else if ← await (isPortReachable localPort) then
    throw s!"Tunnel on local port {localPort} is reachable but no tracked PID is available for teardown"
  else pure ()

def teardown (binding : WorkspaceBinding) : Remote Unit := do
  await (closeTunnel binding.localPort binding.tunnelPID)
  await (waitForPortClosed binding.localPort)

def closeRecoveredBinding (binding : WorkspaceBinding) : Remote Unit := do
  let localPort := binding.localPort
  match truthyPid binding.tunnelPID with
  | some _ => await (teardown binding)
  | none =>
      if ← await (isPortReachable localPort) then
        throw (s!"Recovered tunnel on local port {localPort} is reachable " ++
          "but has no tracked PID for safe teardown")
      else pure ()

def reconnect (binding : WorkspaceBinding) (target : ResolvedHost) : Remote WorkspaceBinding := do
  let sshConfig := target.host.ssh
  if ← await (isHealthReachable binding.localPort binding.token) then pure binding
  else
    let (localPort, tunnelPID) ← await (manager.ensureSpecificOrFallbackTunnel binding.workspaceID
      target.host.name sshConfig (manager.identityFile sshConfig) binding.remotePort binding.localPort)
    await (manager.waitForHealth localPort binding.token)
    pure { binding with localPort, tunnelPID, status := .ready }

def ensureRecoveredBinding (binding : WorkspaceBinding) (target : ResolvedHost) :
    Remote WorkspaceBinding := do
  if ← await (isHealthReachable binding.localPort binding.token) then pure binding
  else await (manager.reconnect binding target)

theorem reconnect_yields (binding : WorkspaceBinding) (target : ResolvedHost) :
    (manager.reconnect binding target).Yields fun recovered => ∃ localPort tunnelPID status,
      recovered = { binding with localPort, tunnelPID, status } ∧
        (status = binding.status ∨ status = .ready) := by
  unfold reconnect
  apply yields_bind
  intro reachable
  split
  · exact ⟨_, _, _, rfl, .inl rfl⟩
  · exact yields_bind fun tunnel => yields_bind fun _ => ⟨_, _, _, rfl, .inr rfl⟩

/-- A recovered binding differs from the old one in its tunnel and its status only. -/
theorem ensureRecoveredBinding_yields (binding : WorkspaceBinding) (target : ResolvedHost) :
    (manager.ensureRecoveredBinding binding target).Yields fun recovered =>
      ∃ localPort tunnelPID status, recovered = { binding with localPort, tunnelPID, status } ∧
        (status = binding.status ∨ status = .ready) := by
  unfold ensureRecoveredBinding
  apply yields_bind
  intro reachable
  split
  · exact ⟨_, _, _, rfl, .inl rfl⟩
  · exact (manager.reconnect_yields binding target).await

/-! ## Bootstrapping -/

def expandInstallRoot (remoteHome : String) : String :=
  let installRoot := manager.config.installRoot
  if "~/".toList.isPrefixOf installRoot.toList then
    remoteHome ++ "/" ++ String.ofList (installRoot.toList.drop 2)
  else installRoot

def buildLaunchCommand (installRoot : String) (remotePort : Nat) : String :=
  String.intercalate " " [s!"{installRoot}/bin/opencode-remote-stub", s!"--listen 127.0.0.1:{remotePort}",
    s!"--token-file {installRoot}/run/stub.token", s!"--state-dir {installRoot}/state",
    s!"--log-file {installRoot}/log/stub.log"]

def buildRemoteStartCommand (installRoot : String) (remotePort : Nat) : String :=
  String.intercalate "\n" ["python2 - <<'PY' 2>/dev/null || python - <<'PY'",
    "import os", "import subprocess", "import time", "import sys",
    "null_in = open('/dev/null', 'rb')", "null_out = open('/dev/null', 'ab')",
    s!"cmd = ['{installRoot}/bin/opencode-remote-stub', '--listen', '127.0.0.1:{remotePort}', " ++
      s!"'--token-file', '{installRoot}/run/stub.token', '--state-dir', '{installRoot}/state', " ++
      s!"'--log-file', '{installRoot}/log/stub.log']",
    "proc = subprocess.Popen(cmd, stdin=null_in, stdout=null_out, stderr=null_out, " ++
      "close_fds=True, preexec_fn=os.setsid)",
    "time.sleep(2)", "sys.exit(0 if proc.poll() is None else 1)", "PY"]

/-- `try { .. } finally { .. }`: an exception of the cleanup replaces the outcome. -/
def andFinally {α : Type} (f : Remote α) (cleanup : Remote Unit) : Remote α := ExceptT.mk do
  let outcome ← f.run
  match ← cleanup.run with
  | .ok () => pure outcome
  | .error e => pure (.error e)

def bootstrap (workspaceID : String) (target : ResolvedHost) : Remote BootstrapResult := do
  let sshConfig := target.host.ssh
  let identityFile := manager.identityFile sshConfig
  let remotePort := manager.config.defaults.stubPort
  let remoteHome ← await (manager.resolveRemoteHome sshConfig identityFile)
  let installRoot := manager.expandInstallRoot remoteHome
  let token ← call .randomToken
  let sshArgs ← manager.buildSSHArgs sshConfig identityFile
  let stubBinary := s!"{installRoot}/bin/opencode-remote-stub"
  let tokenFile := s!"{installRoot}/run/stub.token"
  let stubPath := manager.config.stubBinaryPath
  let tmpdir := manager.tmpdir
  let tokenDir ← file (.mkdtemp s!"{tmpdir}/opencode-remote-token-")
  let tokenPath := s!"{tokenDir}/stub.token"
  let _ ← await (execSSH sshArgs
    s!"mkdir -p {installRoot}/bin {installRoot}/run {installRoot}/log {installRoot}/state")
  if !(← call (.exists stubPath)) then
    throw s!"Stub binary not found at '{stubPath}'. Build it first or set plugin.stubBinaryPath."
  let localStubHash ← file (.sha256 stubPath)
  let remoteHash ← await (remoteStubHash sshArgs stubBinary)
  if remoteHash ≠ some localStubHash then
    await (manager.installStub stubPath sshArgs sshConfig identityFile stubBinary)
  let _ ← file (.writeFile tokenPath token)
  let _ ← file (.chmod tokenPath)
  andFinally (await (manager.scp tokenPath sshConfig identityFile (login sshConfig ++ ":" ++ tokenFile)))
    (andFinally (do let _ ← file (.unlink tokenPath)) (do let _ ← file (.removeTree tokenDir)))
  let _ ← await (execSSHAllowFailure sshArgs "pkill -f 'opencode-remote-stub' 2>/dev/null || true")
  let _ ← await (execSSH sshArgs s!"mkdir -p {installRoot}/log")
  let _ ← await (execSSH sshArgs (buildRemoteStartCommand installRoot remotePort))
  let (localPort, tunnelPID) ← await (manager.ensureTunnel workspaceID target.host.name sshConfig
    identityFile remotePort)
  await (manager.waitForHealth localPort token)
  pure
    { remotePort, localPort, token, installRoot, remoteHome
      launchCommand := buildLaunchCommand installRoot remotePort
      healthURL := s!"http://127.0.0.1:{localPort}/global/health"
      tunnelPID }

/-! ## Where the commands lead -/

/-- `ssh` with these arguments logs in to the machine. -/
def Reaches (sshConfig : SSHConfig) (args : List String) : Prop :=
  ["-p", toString (port sshConfig)] <:+: args ∧ args.getLast? = some (login sshConfig)

/-- `scp` with these arguments copies to the path on the machine. -/
def CopiesTo (sshConfig : SSHConfig) (path : String) (args : List String) : Prop :=
  ["-P", toString (port sshConfig)] <:+: args ∧ args.getLast? = some (login sshConfig ++ ":" ++ path)

section Leads

variable {sshConfig : SSHConfig} {front : List String}

theorem reaches_of_suffix (flagged : ["-p", toString (port sshConfig)] <:+ front) (identity proxy : List String) :
    Reaches sshConfig (front ++ identity ++ proxy ++ [login sshConfig]) := by
  refine ⟨flagged.isInfix.trans ⟨[], identity ++ proxy ++ [login sshConfig], ?_⟩, List.getLast?_concat⟩
  simp only [List.nil_append, List.append_assoc]

theorem copiesTo_of_suffix (flagged : ["-P", toString (port sshConfig)] <:+ front) (identity proxy : List String)
    (localPath path : String) :
    CopiesTo sshConfig path (front ++ identity ++ proxy ++ [localPath, login sshConfig ++ ":" ++ path]) := by
  refine ⟨flagged.isInfix.trans ⟨[], identity ++ proxy ++ [localPath, login sshConfig ++ ":" ++ path], ?_⟩, ?_⟩
  · simp only [List.nil_append, List.append_assoc]
  · rw [List.getLast?_append]
    rfl

end Leads

end SSHManager

end OpencodeRemote.Plugin
