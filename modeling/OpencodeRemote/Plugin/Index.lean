import OpencodeRemote.Plugin.Ssh

/-! # The plugin's calls

The adaptor's four functions and the seven tools, as programs over the two tables and the
remote operations. `plugin` is the event loop: calls arrive at any time, and one runs until
it awaits something.
-/

namespace OpencodeRemote.Plugin

open Concurrency Data

/-- A value of `extra`, as far as the types of JavaScript matter; an item of a list is
    `none` if it is not a string. -/
inductive ExtraValue where
  | text (s : String)
  | list (items : List (Option String))
  | other
  deriving DecidableEq

structure WorkspaceInfo where
  id : String
  type : String
  name : Option String
  extra : Option (OrderedMap String ExtraValue)

inductive StatusEntry where
  | recovered (binding : WorkspaceBinding)
  | failed (workspaceID provider host error : String)
  deriving DecidableEq

/-- What a call returns. The replies of the tools are the fields of the JSON text. -/
inductive Reply where
  | configured (workspace : WorkspaceInfo)
  | done
  | target (url authorization : String)
  | failure (error : String)
  | created (workspaceID provider host message : String)
  | switched (url authorization : String) (binding : WorkspaceBinding) (message : String)
  | status (connected : Bool) (workspaces : List StatusEntry)
  | disconnected (removed : List String) (message : String)
  | health (binding : WorkspaceBinding) (reused : Bool) (health : String)
  | listed (workspaces : List WorkspaceBinding)
  | removed (message : String)

def providerRequestForWorkspace (workspace : WorkspaceInfo) : Except String HostSelectionRequest :=
  match workspace.extra with
  | none => .error "Workspace extra.provider must be configured"
  | some extra =>
      match extra.get "provider" with
      | some (.text provider) =>
          .ok
            { provider
              host := match extra.get "host" with
                | some (.text host) => some host
                | _ => none
              labels := match extra.get "labels" with
                | some (.list items) => some (items.filterMap id)
                | _ => none }
      | _ => .error "Workspace extra.provider must be configured"

def url (binding : WorkspaceBinding) : String :=
  let localPort := binding.localPort
  s!"http://127.0.0.1:{localPort}"

def authorization (binding : WorkspaceBinding) : String :=
  let token := binding.token
  s!"Bearer {token}"

def createRemoteSession (binding : WorkspaceBinding) (title : String := "Remote Session") :
    Remote String := do
  let now ← Remote.call .now
  let sessionID := s!"sess_{now}"
  let response ← Remote.fetch ⟨"POST", binding.localPort, "/session", some binding.token,
    some (.session sessionID title binding.workspaceID)⟩
  if response.ok then pure sessionID
  else
    let status := response.status
    let text ← Remote.read response.text
    throw s!"Remote session create failed: HTTP {status} {text}"

/-- The binding with a session, a new one if it has none. -/
def ensureSession (binding : WorkspaceBinding) : Remote WorkspaceBinding :=
  match truthy binding.sessionID with
  | some _ => pure binding
  | none => do
      let sessionID ← Remote.await (createRemoteSession binding)
      pure { binding with sessionID := some sessionID }

theorem ensureSession_yields (binding : WorkspaceBinding) :
    (ensureSession binding).Yields fun reusable => ∃ sessionID, reusable = { binding with sessionID } := by
  unfold ensureSession
  split
  · exact ⟨_, rfl⟩
  · exact Remote.yields_bind fun _ => ⟨_, rfl⟩

def createRemoteWorkspace (binding : WorkspaceBinding) : Remote Unit := do
  let response ← Remote.fetch ⟨"POST", binding.localPort, "/experimental/workspace", some binding.token,
    some (.workspace binding.workspaceID "ssh-provider" "Remote Workspace" binding.provider binding.host)⟩
  if response.ok then pure ()
  else
    let status := response.status
    let text ← Remote.read response.text
    throw s!"Remote workspace create failed: HTTP {status} {text}"

/-- A delete on the stub, whatever comes of it. -/
def bestEffortDelete (binding : WorkspaceBinding) (path : String) : Remote Unit := do
  try
    let _ ← Remote.fetch ⟨"DELETE", binding.localPort, path, some binding.token, none⟩
    pure ()
  catch _ => pure ()

def removeRemoteWorkspace (binding : WorkspaceBinding) : Remote Unit := do
  match truthy binding.sessionID with
  | some sessionID => bestEffortDelete binding s!"/session/{sessionID}"
  | none => pure ()
  bestEffortDelete binding ("/experimental/workspace/" ++ binding.workspaceID)

section Calls

open Async

variable (manager : SSHManager)

/-- The binding for a bootstrapped stub. -/
def newBinding (workspaceID : String) (selection : ResolvedHost) (bootstrap : BootstrapResult) :
    WorkspaceBinding :=
  { workspaceID
    provider := selection.provider
    host := selection.host.name
    remotePort := bootstrap.remotePort
    localPort := bootstrap.localPort
    token := bootstrap.token
    leaseMode := manager.config.defaults.leaseMode
    status := .ready
    tunnelPID := bootstrap.tunnelPID
    sessionID := none }

def mintWorkspaceID (now : Nat) (workspaceName : String) : String :=
  let name := dashSpaces workspaceName
  s!"remote-{now}-{name}"

def createConnectedBinding (providerName : String) (host : Option String) (workspaceName : String) :
    Async WorkspaceBinding := do
  let now ← now
  let workspaceID := mintWorkspaceID now workspaceName
  let selection ← acquireResolved ⟨providerName, host, none⟩ workspaceID
  try
    let bootstrap ← remote (manager.bootstrap workspaceID selection)
    let binding := newBinding manager workspaceID selection bootstrap
    remote (createRemoteWorkspace binding)
    let sessionID ← remote (createRemoteSession binding)
    let connected := { binding with sessionID := some sessionID }
    setBinding connected
    pure connected
  catch error =>
    release selection.host.name workspaceID
    throw error

/-- The `try` block of `findReusableBinding`; `none` goes on to the next binding. -/
def reuseBinding (providerName : String) (host : Option String) (binding : WorkspaceBinding) :
    Async (Option WorkspaceBinding) := do
  let selection ← acquireResolved ⟨providerName, some (host.getD binding.host), none⟩ binding.workspaceID
  if selection.host.name ≠ binding.host then
    release selection.host.name binding.workspaceID
    pure none
  else
    let recovered ← remote (manager.ensureRecoveredBinding binding selection)
    let reusable ← outside (ensureSession recovered)
    replaceBinding reusable
    pure (some reusable)

def reuseOrDrop (providerName : String) (host : Option String) (binding : WorkspaceBinding) :
    Async (Option WorkspaceBinding) := do
  try reuseBinding manager providerName host binding
  catch _ => do
    drop binding.host binding.workspaceID
    pure none

def findReusableBindingLoop (providerName : String) (host : Option String) :
    List WorkspaceBinding → Async (Option WorkspaceBinding)
  | [] => pure none
  | binding :: rest =>
      if binding.status = .removed ∨ binding.provider ≠ providerName then
        findReusableBindingLoop providerName host rest
      else do
        match ← reuseOrDrop manager providerName host binding with
        | some reusable => pure (some reusable)
        | none => findReusableBindingLoop providerName host rest

def findReusableBinding (providerName : String) (host : Option String) :
    Async (Option WorkspaceBinding) := do
  findReusableBindingLoop manager providerName host (← listBindings)

def ensureBindingReady (binding : WorkspaceBinding) : Async WorkspaceBinding := do
  let selection ← acquireResolved ⟨binding.provider, some binding.host, none⟩ binding.workspaceID
  let recovered ← remote (manager.ensureRecoveredBinding binding selection)
  if recovered.localPort ≠ binding.localPort ∨ recovered.tunnelPID ≠ binding.tunnelPID ∨
      recovered.status ≠ binding.status then
    replaceBinding recovered
    pure recovered
  else pure binding

def removeBinding (binding : WorkspaceBinding) : Async Unit := do
  remote (removeRemoteWorkspace binding)
  remote (SSHManager.closeRecoveredBinding binding)
  drop binding.host binding.workspaceID

def getReadyBinding (workspaceID : String) : Async (Option WorkspaceBinding) := do
  match ← getBinding workspaceID with
  | none => pure none
  | some binding => do
      let ready ← await (ensureBindingReady manager binding)
      pure (some ready)

/-! ## The adaptor -/

def configureWorkspace (workspace : WorkspaceInfo) : Async WorkspaceInfo := do
  let request ← ExceptT.mk (pure (providerRequestForWorkspace workspace))
  let selection ← acquireResolved request workspace.id
  pure
    { workspace with
      type := if workspace.type = "" then "ssh-provider" else workspace.type
      name := some (workspace.name.getD selection.host.name)
      extra := some (((workspace.extra.getD .empty).set "provider" (.text selection.provider)).set
        "host" (.text selection.host.name)) }

/-- Bootstrapping a leased host, as both ways to create a workspace do it. -/
def bootstrapAndBind (workspaceID : String) (selection : ResolvedHost) : Async Unit := do
  try
    let bootstrap ← remote (manager.bootstrap workspaceID selection)
    setBinding (newBinding manager workspaceID selection bootstrap)
  catch error =>
    release selection.host.name workspaceID
    throw error

def createWorkspace (workspace : WorkspaceInfo) : Async Unit := do
  let request ← ExceptT.mk (pure (providerRequestForWorkspace workspace))
  let selection ← acquireResolved request workspace.id
  bootstrapAndBind manager workspace.id selection

def removeWorkspace (workspace : WorkspaceInfo) : Async Unit := do
  match ← getBinding workspace.id with
  | none => pure ()
  | some binding => await (removeBinding binding)

def getTarget (workspace : WorkspaceInfo) : Async Reply := do
  match ← await (getReadyBinding manager workspace.id) with
  | none =>
      let id := workspace.id
      throw s!"Workspace '{id}' is not active"
  | some binding => pure (.target (url binding) (authorization binding))

/-! ## The tools -/

def firstProvider : Option String := truthy manager.config.providers.keys.head?

/-- A tool whose exceptions become replies. -/
def reporting (f : Async Reply) : Async Reply := do
  try f catch error => pure (.failure error)

def remoteWorkspaceCreate (workspaceName : String) (provider host : Option String) : Async Reply :=
  reporting do
    match (truthy provider).or (firstProvider manager) with
    | none => throw "No providers configured for opencode-remote-provider"
    | some providerName =>
        let now ← now
        let workspaceID := mintWorkspaceID now workspaceName
        let selection ← acquireResolved ⟨providerName, host, none⟩ workspaceID
        bootstrapAndBind manager workspaceID selection
        let host := selection.host.name
        pure (.created workspaceID selection.provider host
          s!"Remote workspace '{workspaceName}' created on {host}")

def providerOrDefault (provider : Option String) : String :=
  ((truthy provider).or (firstProvider manager)).getD "default"

def remoteSwitch (host provider : Option String) : Async Reply :=
  reporting do
    let providerName := providerOrDefault manager provider
    let binding ← match ← await (findReusableBinding manager providerName host) with
      | some binding => pure binding
      | none => await (createConnectedBinding manager providerName host ((truthy host).getD providerName))
    let host := binding.host
    let localPort := binding.localPort
    pure (.switched (url binding) (authorization binding) binding
      s!"SWITCHED TO REMOTE: {host} on local port {localPort}")

def statusLoop : List WorkspaceBinding → Async (List StatusEntry)
  | [] => pure []
  | binding :: rest => do
      let entry ← try
          let ready ← await (ensureBindingReady manager binding)
          pure (.recovered ready)
        catch error => do
          deleteBinding binding.workspaceID
          release binding.host binding.workspaceID
          pure (.failed binding.workspaceID binding.provider binding.host error)
      let entries ← statusLoop rest
      pure (entry :: entries)

def StatusEntry.ready : StatusEntry → Bool
  | .recovered binding => binding.status = .ready
  | .failed .. => false

def remoteStatus : Async Reply := do
  let bindings ← statusLoop manager (← listBindings)
  pure (.status (bindings.any StatusEntry.ready) bindings)

def disconnectLoop : List WorkspaceBinding → Async Unit
  | [] => pure ()
  | binding :: rest => do
      await (removeBinding binding)
      disconnectLoop rest

/-- The bindings to disconnect: the one that is asked for, or all. -/
def toDisconnect (workspaceID : Option String) (all : List WorkspaceBinding) : List WorkspaceBinding :=
  match truthy workspaceID with
  | some workspaceID => all.filter fun binding => binding.workspaceID = workspaceID
  | none => all

def remoteDisconnect (workspaceID : Option String) : Async Reply := do
  let bindings := toDisconnect workspaceID (← listBindings)
  if bindings = [] then pure (.failure "No active remote connection to disconnect.")
  else
    disconnectLoop bindings
    pure (.disconnected (bindings.map WorkspaceBinding.workspaceID)
      "Disconnected remote workspace connection(s).")

/-- The connection that the doctor checks, and whether it was made for that. -/
def doctorBinding (providerName : String) (host : Option String) : Async (WorkspaceBinding × Bool) := do
  match ← await (findReusableBinding manager providerName host) with
  | some binding => pure (binding, false)
  | none =>
      let tested := (truthy host).getD providerName
      let binding ← await (createConnectedBinding manager providerName host s!"doctor-{tested}")
      pure (binding, true)

def doctorHealth (binding : WorkspaceBinding) (createdForDoctor : Bool) : Async Reply := do
  let response ← outside (Remote.fetch ⟨"GET", binding.localPort, "/global/health", some binding.token, none⟩)
  if response.ok then
    let health ← outside (Remote.read response.json)
    pure (.health binding (!createdForDoctor) health)
  else
    let status := response.status
    let text ← outside (Remote.read response.text)
    throw s!"Health check failed through target: HTTP {status} {text}"

def remoteDoctor (host provider : Option String) : Async Reply := do
  match ← outcome (doctorBinding manager (providerOrDefault manager provider) host) with
  | .error error => pure (.failure error)
  | .ok (binding, createdForDoctor) =>
      let reply ← reporting (doctorHealth binding createdForDoctor)
      if createdForDoctor then
        try await (removeBinding binding) catch _ => pure ()
      pure reply

def listLoop : List WorkspaceBinding → Async (List WorkspaceBinding)
  | [] => pure []
  | binding :: rest => do
      let ready ← await (ensureBindingReady manager binding)
      let recovered ← listLoop rest
      pure (ready :: recovered)

def remoteWorkspaceList : Async Reply := do
  let recovered ← listLoop manager (← listBindings)
  pure (.listed recovered)

def remoteWorkspaceRemove (workspaceID : String) : Async Reply := do
  match ← getBinding workspaceID with
  | none => pure (.failure "Workspace not found")
  | some binding =>
      await (removeBinding binding)
      pure (.removed s!"Workspace {workspaceID} removed")

end Calls

/-! ## The event loop -/

inductive Request where
  | configure (workspace : WorkspaceInfo)
  | create (workspace : WorkspaceInfo)
  | remove (workspace : WorkspaceInfo)
  | target (workspace : WorkspaceInfo)
  | remoteWorkspaceCreate (workspaceName : String) (provider host : Option String)
  | remoteSwitch (host provider : Option String)
  | remoteStatus
  | remoteDisconnect (workspaceID : Option String)
  | remoteDoctor (host provider : Option String)
  | remoteWorkspaceList
  | remoteWorkspaceRemove (workspaceID : String)

def serve (manager : SSHManager) : Request → Async Reply
  | .configure workspace => do pure (.configured (← configureWorkspace workspace))
  | .create workspace => do
      createWorkspace manager workspace
      pure .done
  | .remove workspace => do
      removeWorkspace workspace
      pure .done
  | .target workspace => getTarget manager workspace
  | .remoteWorkspaceCreate workspaceName provider host =>
      remoteWorkspaceCreate manager workspaceName provider host
  | .remoteSwitch host provider => remoteSwitch manager host provider
  | .remoteStatus => remoteStatus manager
  | .remoteDisconnect workspaceID => remoteDisconnect workspaceID
  | .remoteDoctor host provider => remoteDoctor manager host provider
  | .remoteWorkspaceList => remoteWorkspaceList manager
  | .remoteWorkspaceRemove workspaceID => remoteWorkspaceRemove workspaceID

def plugin (manager : SSHManager) : Machine Request Op Res Env Store (Except String Reply) where
  exec := exec manager.config
  suspends
    | .remote o => o.awaits
    | _ => false
  serve request := (serve manager request).run
  reboot env _ := .rehydrate env.now (.load env.loaded)

abbrev PluginEvent := Event Op Res
abbrev PluginLog := List (Entry Store Op Res)
abbrev PluginLabel := Label Request Env
abbrev PluginPool := Pool Request Op Res Store (Except String Reply)

/-- The runs of one plugin process with calls of this kind only. -/
def callsOf (kind : Request → Bool) : Scope Request Env :=
  { request := fun request => kind request, reboot := fun _ => False }

/-- The runs of one plugin process. -/
def oneProcess : Scope Request Env := callsOf fun _ => true

/-! ## Scripts

Calls for runs on fixed inputs. -/

/-- Commands succeed if `reachable`, and requests to local ports if `up`. -/
def world (reachable up : Bool) : Env :=
  { now := 5
    answer
      | .now => 5
      | .tick | .sleep _ => ()
      | .rounds _ => 1
      | .randomToken => "token"
      | .file _ => .ok "text"
      | .exists _ => true
      | .ssh _ _ => if reachable then .ok "text" else .error "unreachable"
      | .scp _ => if reachable then .ok () else .error "unreachable"
      | .spawn _ => some 9
      | .kill _ => .ok ()
      | .fetch _ => if up then .ok ⟨200, .ok "", .ok ""⟩ else .error "refused"
    save := .ok ()
    loaded := [] }

def boundTo (workspaceID host : String) : WorkspaceBinding :=
  ⟨workspaceID, "lab", host, 39217, 39000, "token", .exclusive, .ready, some 8, none⟩

def resumes (thread turns : Nat) (env : Env) : List PluginLabel :=
  List.replicate turns (.resume thread fun _ => env)

/-- A call that lasts for some turns in one state of the world. -/
def call (thread turns : Nat) (request : Request) (env : Env) : List PluginLabel :=
  .arrive request (fun _ => env) :: resumes thread turns env

def inLab (id : String) : WorkspaceInfo :=
  ⟨id, "", none, some (.set .empty "provider" (.text "lab"))⟩

/-- A successful creation: the local port is free at first and answers once there is a tunnel. -/
def creation (thread : Nat) (id : String) : List PluginLabel :=
  call thread 20 (.create (inLab id)) (world true false) ++ resumes thread 10 (world true true)

def admits (kind : Request → Bool) : PluginLabel → Bool
  | .arrive request _ => kind request
  | .resume _ _ => true
  | .reboot _ => false

theorem within_callsOf {kind : Request → Bool} {labels : List PluginLabel}
    (admitted : ∀ label ∈ labels, admits kind label) :
    ∀ label ∈ labels, label.Within (callsOf kind) := by
  intro label member
  have welcome := admitted label member
  cases label with
  | arrive request env => exact ⟨welcome, fun _ => trivial⟩
  | resume thread env => exact fun _ => trivial
  | reboot env => cases welcome

end OpencodeRemote.Plugin
