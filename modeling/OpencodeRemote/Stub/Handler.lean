import OpencodeRemote.Concurrency.Program
import OpencodeRemote.Stub.State

/-! # The stub's HTTP handlers

A handler is a program over the methods of the store, the clock, the event bus and the
command runner. Each operation is one critical section or one unlocked access, so two
requests can interleave between any two of them.
-/

namespace OpencodeRemote.Stub

open Concurrency

inductive Op where
  | now
  | userHomeDir
  | hostInfo
  | getWorkspace (id : GoString)
  | listWorkspaces
  | createWorkspace (ws : Workspace)
  | deleteWorkspace (id : GoString)
  | getSession (id : GoString)
  | listSessions
  | listSessionsByWorkspace (workspaceID : GoString)
  | createSession (se : Session)
  | deleteSession (id : GoString)
  | listPermissions
  | createPermission (p : PermissionRequest) (status : GoString)
  | getPermission (id : GoString)
  | setStatus (p : PermissionPtr) (status : GoString)
  | updatePermission (p : PermissionPtr)
  | createApproval (a : Approval)
  | checkApproval (workspaceID path : GoString)
  | consumeApproval (workspaceID path : GoString)
  | publish (eventType : GoString) (props : Json)
  | runCommand (command cwd : GoString) (env : List (GoString × GoString))

/-- What each operation answers; an optional string is Go's `error`. -/
abbrev Res : Op → Type
  | .now => Int
  | .userHomeDir => GoString
  | .hostInfo => GoString × Int
  | .getWorkspace _ => Option Workspace
  | .listWorkspaces => List Workspace
  | .createWorkspace _ => Option GoString
  | .deleteWorkspace _ => Unit
  | .getSession _ => Option Session
  | .listSessions => List Session
  | .listSessionsByWorkspace _ => List Session
  | .createSession _ => Option GoString
  | .deleteSession _ => Unit
  | .listPermissions => List PermissionPtr
  | .createPermission _ _ => PermissionPtr
  | .getPermission _ => Option PermissionPtr
  | .setStatus _ _ => Unit
  | .updatePermission _ => Unit
  | .createApproval _ => Option GoString
  | .checkApproval _ _ => Option Approval
  | .consumeApproval _ _ => Option Approval
  | .publish _ _ => Unit
  | .runCommand _ _ _ => GoString × Int

def exec (env : Env) : (o : Op) → State → Res o × State
  | .now, s => (env.now, s)
  | .userHomeDir, s => (env.home, s)
  | .hostInfo, s => ((env.hostname, env.pid), s)
  | .getWorkspace id, s => (s.getWorkspace id, s)
  | .listWorkspaces, s => (s.listWorkspaces env, s)
  | .createWorkspace ws, s => s.createWorkspace env ws
  | .deleteWorkspace id, s => ((), s.deleteWorkspace env id)
  | .getSession id, s => (s.getSession id, s)
  | .listSessions, s => (s.listSessions env, s)
  | .listSessionsByWorkspace workspaceID, s => (s.listSessionsByWorkspace env workspaceID, s)
  | .createSession se, s => s.createSession env se
  | .deleteSession id, s => ((), s.deleteSession env id)
  | .listPermissions, s => (s.listPermissions env, s)
  | .createPermission p status, s => s.createPermission p status
  | .getPermission id, s => (s.getPermission id, s)
  | .setStatus p status, s => ((), s.setStatus p status)
  | .updatePermission p, s => ((), s.updatePermission p)
  | .createApproval a, s => s.createApproval env a
  | .checkApproval workspaceID path, s => (s.checkApproval env workspaceID path, s)
  | .consumeApproval workspaceID path, s => s.consumeApproval env workspaceID path
  | .publish _ _, s => ((), s)
  | .runCommand _ _ _, s => ((env.output, env.exitCode), s)

abbrev Handler := Program Op Res

/-- Call one method of the stub's surroundings. -/
def call (o : Op) : Handler (Res o) := .perform o

/-! ## Requests and responses -/

structure SessionBody where
  id : GoString
  title : GoString
  workspaceID : GoString

structure ReplyBody where
  reply : GoString
  message : GoString

structure CommandBody where
  command : GoString
  cwd : GoString
  env : List (GoString × GoString)

/-- A request body, as what decoding it into each of the handlers' structs gives: the
    struct, whose strings the decoder has made valid UTF-8, or the decoder's error text. -/
structure Body where
  workspace : Except GoString Workspace
  session : Except GoString SessionBody
  reply : Except GoString ReplyBody
  command : Except GoString CommandBody

structure Request where
  method : GoString
  path : GoString
  body : Body

structure Response where
  code : Nat
  body : Json

def methodGet : GoString := lit "GET"
def methodPost : GoString := lit "POST"
def methodDelete : GoString := lit "DELETE"

def Json.int (n : Int) : Json := .num (Strings.decimal n)
def Json.strs (items : List GoString) : Json := .arr (items.map .str)
def Json.strMap (fields : List (GoString × GoString)) : Json :=
  .obj (fields.map fun (k, v) => (k, .str v))

def json (code : Nat) (body : Json) : Response := ⟨code, body⟩

def error (code : Nat) (errType message : GoString) : Response :=
  json code (.obj [(lit "error", .obj [(lit "type", .str errType), (lit "message", .str message)])])

def publish (eventType : GoString) (props : Json) : Handler Unit := call (.publish eventType props)

def health (startedAt : Int) : Handler Response := do
  let (hostname, pid) ← call .hostInfo
  return json 200 (.obj [
    (lit "ok", .bool true), (lit "version", .str (lit "0.1.0")), (lit "hostname", .str hostname),
    (lit "platform", .str (lit "linux")), (lit "arch", .str (lit "amd64")),
    (lit "stub", .obj [(lit "pid", .int pid), (lit "startedAt", .int startedAt)])])

/-! ## Workspaces -/

def workspaceAdaptor : Handler Response :=
  return json 200 (.arr [.obj [
    (lit "type", .str (lit "ssh-provider")), (lit "name", .str (lit "SSH Provider")),
    (lit "description", .str (lit "Remote Linux host over SSH-backed Go stub"))]])

def workspaceJson (ws : Workspace) : Json :=
  .obj [(lit "id", .str ws.id), (lit "type", .str ws.type), (lit "name", .str ws.name),
    (lit "branch", .null), (lit "directory", .null),
    (lit "extra", match ws.extra with
      | some extra => .obj extra.entries
      | none => .null),
    (lit "projectID", .str ws.projectID)]

/-- The record `WorkspaceList` stores for a decoded body. -/
def newWorkspace (ws : Workspace) (now : Int) : Workspace :=
  let extra := ws.extra.getD .empty
  { ws with
    status := lit "ready"
    createdAt := now
    extra := some extra
    host := match extra.get (lit "host") with
      | some (.str v) => v
      | _ => ws.host
    provider := match extra.get (lit "provider") with
      | some (.str v) => v
      | _ => ws.provider }

def workspaceList (r : Request) : Handler Response := do
  if r.method = methodGet then
    let list ← call .listWorkspaces
    return json 200 (.arr (list.map workspaceJson))
  else if r.method = methodPost then
    match r.body.workspace with
    | .error err => return error 400 (lit "invalid_request") err
    | .ok decoded =>
        let now ← call .now
        let ws := newWorkspace decoded now
        match ← call (.createWorkspace ws) with
        | some err => return error 500 (lit "internal_error") err
        | none =>
            publish (lit "workspace.ready")
              (.obj [(lit "workspaceID", .str ws.id), (lit "status", .str ws.status)])
            return json 200 (workspaceJson ws)
  else return error 405 (lit "method_not_allowed") (lit "only GET and POST supported")

def workspaceStatus : Handler Response := do
  let list ← call .listWorkspaces
  return json 200 (.arr (list.map fun ws =>
    .obj [(lit "workspaceID", .str ws.id), (lit "status", .str ws.status)]))

def timeJson (se : Session) : Json :=
  .obj [(lit "created", .int se.createdAt), (lit "updated", .int se.updatedAt)]

def statusJson (status : SessionStatus) : Json :=
  .obj ((lit "type", .str status.type) ::
    if status.message = [] then [] else [(lit "message", .str status.message)])

def workspaceSessionRestore (workspaceID : GoString) : Handler Response := do
  match ← call (.getWorkspace workspaceID) with
  | none => return error 404 (lit "not_found") (lit "workspace not found")
  | some _ =>
      let sessions ← call (.listSessionsByWorkspace workspaceID)
      return json 200 (.arr (sessions.map fun se =>
        .obj [(lit "id", .str se.id), (lit "workspaceID", .str se.workspaceID),
          (lit "directory", .str se.directory), (lit "title", .str se.title),
          (lit "status", statusJson se.status), (lit "time", timeJson se)]))

/-- The handler behind `/experimental/workspace/`. -/
def withWorkspaceRoutes (r : Request) : Handler Response := do
  let path := r.path.drop (lit "/experimental/workspace/").length
  if Strings.hasSuffix path (lit "/session-restore") then
    if r.method ≠ methodPost then
      return error 405 (lit "method_not_allowed") (lit "POST required")
    else
      let workspaceID := Strings.trimSuffix path (lit "/session-restore")
      workspaceSessionRestore (Strings.trimSuffix workspaceID (lit "/"))
  else if r.method = methodDelete then
    call (.deleteWorkspace path)
    return json 200 (.bool true)
  else return error 405 (lit "method_not_allowed") (lit "only DELETE supported")

/-! ## Sessions -/

def sessionJson (se : Session) (projectID : GoString) : Json :=
  .obj [(lit "id", .str se.id), (lit "slug", .str se.title), (lit "projectID", .str projectID),
    (lit "workspaceID", .str se.workspaceID), (lit "directory", .str se.directory),
    (lit "title", .str se.title), (lit "version", .str (lit "0.1.0")), (lit "time", timeJson se),
    (lit "permission", .arr [])]

/-- The record `SessionCreate` stores, from the body and its three readings of the clock;
    the first one mints the id when the body has none. -/
def newSession (req : SessionBody) (home : GoString) (minted created updated : Int) : Session where
  id := if req.id = [] then lit "sess_" ++ Strings.decimal minted else req.id
  workspaceID := req.workspaceID
  title := req.title
  directory := home
  status := ⟨lit "idle", []⟩
  createdAt := created
  updatedAt := updated

def sessionCreate (r : Request) : Handler Response := do
  if r.method ≠ methodPost then
    return error 405 (lit "method_not_allowed") (lit "POST required")
  else
    match r.body.session with
    | .error err => return error 400 (lit "invalid_request") err
    | .ok req =>
        match ← call (.getWorkspace req.workspaceID) with
        | none => return error 404 (lit "not_found") (lit "workspace not found")
        | some ws =>
            let home ← call .userHomeDir
            let minted ← call .now
            let created ← call .now
            let updated ← call .now
            let se := newSession req home minted created updated
            match ← call (.createSession se) with
            | some err => return error 500 (lit "internal_error") err
            | none =>
                publish (lit "session.created")
                  (.obj [(lit "sessionID", .str se.id), (lit "workspaceID", .str se.workspaceID)])
                return json 200 (sessionJson se ws.projectID)

def sessionStatus : Handler Response := do
  let list ← call .listSessions
  return json 200 (.obj (list.map fun se => (se.id, .obj [(lit "type", .str se.status.type)])))

/-- The part of a path below `/session/`. -/
def sessionPart (r : Request) : GoString := r.path.drop (lit "/session/").length

def sessionGet (r : Request) : Handler Response := do
  match ← call (.getSession (sessionPart r)) with
  | none => return error 404 (lit "not_found") (lit "session not found")
  | some se =>
      let ws ← call (.getWorkspace se.workspaceID)
      let projectID := match ws with
        | some ws => ws.projectID
        | none => lit "unknown"
      return json 200 (sessionJson se projectID)

def sessionDelete (r : Request) : Handler Response := do
  let id := sessionPart r
  call (.deleteSession id)
  publish (lit "session.deleted") (.obj [(lit "sessionID", .str id)])
  return json 200 (.bool true)

/-! ## Permissions -/

/-- The loop of `PermissionList`: one read-only check for each pending request. -/
def permissionListLoop : List PermissionPtr → Handler (List Json)
  | [] => return []
  | p :: rest => do
      let approval ← call (.checkApproval p.workspaceID [])
      let patterns := match approval with
        | some a => if a.mode = always then [a.pattern] else []
        | none => []
      let others ← permissionListLoop rest
      return .obj [(lit "id", .str p.id), (lit "sessionID", .str p.sessionID),
        (lit "permission", .str p.permission), (lit "patterns", .strs p.patterns),
        (lit "metadata", .strMap p.metadata), (lit "always", .strs patterns)] :: others

def permissionList : Handler Response := do
  let list ← call .listPermissions
  let out ← permissionListLoop list
  return json 200 (.arr out)

/-- The approval a `once` or `always` reply stores for the request's first pattern. -/
def newApproval (p : PermissionPtr) (pattern reply : GoString) (minted created : Int) : Approval where
  id := lit "apr_" ++ Strings.decimal minted
  workspaceID := p.workspaceID
  host := lit "default"
  permission := p.permission
  pattern := pattern
  mode := reply
  createdAt := created

def publishReplied (p : PermissionPtr) (reply : GoString) : Handler (Option GoString) := do
  publish (lit "permission.replied")
    (.obj [(lit "requestID", .str p.id), (lit "reply", .str reply)])
  return none

def applyPermissionReply (p : PermissionPtr) (reply : GoString) : Handler (Option GoString) := do
  call (.setStatus p reply)
  call (.updatePermission p)
  if reply = always ∨ reply = once then
    match p.patterns with
    | [] => return some (lit "permission request has no patterns; cannot create approval")
    | pattern :: _ =>
        let minted ← call .now
        let created ← call .now
        match ← call (.createApproval (newApproval p pattern reply minted created)) with
        | some err => return some err
        | none => publishReplied p reply
  else publishReplied p reply

/-- The end both reply routes share: decode the body, apply the reply, answer. -/
def replyToPermission (p : PermissionPtr) (body : Except GoString ReplyBody) : Handler Response := do
  match body with
  | .error err => return error 400 (lit "invalid_request") err
  | .ok req =>
      match ← applyPermissionReply p req.reply with
      | some err => return error 400 (lit "invalid_request") err
      | none => return json 200 (.bool true)

/-- The id `PermissionReply` reads from its path: up to the first `/reply`, if there is
    one past the start. -/
def permissionID (r : Request) : GoString :=
  let id := r.path.drop (lit "/permission/").length
  match Strings.index (lit "/reply") id with
  | some i => if 0 < i then id.take i else id
  | none => id

def permissionReply (r : Request) : Handler Response := do
  match ← call (.getPermission (permissionID r)) with
  | none => return error 404 (lit "not_found") (lit "permission request not found")
  | some p => replyToPermission p r.body.reply

def sessionPermissionReply (r : Request) : Handler Response := do
  match (sessionPart r).splitOn slash with
  | [sessionID, route, permissionID] =>
      if route ≠ lit "permissions" then
        return error 404 (lit "not_found") (lit "permission route not found")
      else
        match ← call (.getSession sessionID) with
        | none => return error 404 (lit "not_found") (lit "session not found")
        | some _ =>
            match ← call (.getPermission permissionID) with
            | none => return error 404 (lit "not_found") (lit "permission request not found")
            | some p =>
                if p.sessionID ≠ sessionID then
                  return error 404 (lit "not_found") (lit "permission request not found")
                else replyToPermission p r.body.reply
  | _ => return error 404 (lit "not_found") (lit "permission route not found")

/-! ## Commands -/

/-- The request `executeCommandLike` files for an operation that nothing covers. -/
def newPermission (se : Session) (operation cwd : GoString) (minted created : Int) :
    PermissionRequest where
  id := lit "perm_" ++ Strings.decimal minted
  sessionID := se.id
  workspaceID := se.workspaceID
  permission := lit "path.access"
  patterns := [cwd ++ subtree]
  metadata := [(lit "operation", operation), (lit "cwd", cwd)]
  always := []
  createdAt := created

def permissionAsked (p : PermissionPtr) (se : Session) : Json :=
  .obj [(lit "id", .str p.id), (lit "sessionID", .str se.id), (lit "permission", .str p.permission),
    (lit "patterns", .strs p.patterns), (lit "metadata", .strMap p.metadata)]

/-- The directory an operation runs in: an empty `cwd` stands for the session's. -/
def effectiveCwd (se : Session) (cwd : GoString) : GoString := if cwd = [] then se.directory else cwd

def executeCommandLike (se : Session) (operation : GoString) (req : CommandBody) : Handler Response := do
  let cwd := effectiveCwd se req.cwd
  match ← call (.consumeApproval se.workspaceID cwd) with
  | none =>
      let minted ← call .now
      let created ← call .now
      let p ← call (.createPermission (newPermission se operation cwd minted created) pending)
      publish (lit "permission.asked") (permissionAsked p se)
      return error 403 (lit "permission_required")
        (lit "access to " ++ cwd ++ lit " requires approval")
  | some _ =>
      let start ← call .now
      let (output, exitCode) ← call (.runCommand req.command cwd req.env)
      let stop ← call .now
      return json 200 (.obj [(lit "title", .str req.command), (lit "output", .str output),
        (lit "metadata", .obj [(lit "exitCode", .int exitCode), (lit "durationMs", .int (stop - start)),
          (lit "cwd", .str cwd), (lit "operation", .str operation)])])

/-- `Shell` and `Command` differ in their path suffix and the operation they record. -/
def runOperation (r : Request) (suffix operation : GoString) : Handler Response := do
  let part := sessionPart r
  match ← call (.getSession (part.take (part.length - suffix.length))) with
  | none => return error 404 (lit "not_found") (lit "session not found")
  | some se =>
      match r.body.command with
      | .error err => return error 400 (lit "invalid_request") err
      | .ok req => executeCommandLike se operation req

def shell (r : Request) : Handler Response := runOperation r (lit "/shell") (lit "shell")
def command (r : Request) : Handler Response := runOperation r (lit "/command") (lit "command")

/-! ## Routes -/

/-- The handler behind `/session/`. -/
def sessionRoutes (r : Request) : Handler Response :=
  let path := sessionPart r
  if Strings.hasSuffix path (lit "/shell") then shell r
  else if Strings.hasSuffix path (lit "/command") then command r
  else if Strings.contains path (lit "/permissions/") then sessionPermissionReply r
  else if r.method = methodGet then sessionGet r
  else if r.method = methodDelete then sessionDelete r
  else return error 405 (lit "method_not_allowed") (lit "GET, DELETE, /shell, or /command required")

/-- The handler behind `/permission/`. -/
def permissionRoutes (r : Request) : Handler Response :=
  if r.method = methodPost then permissionReply r
  else return error 405 (lit "method_not_allowed") (lit "POST required")

/-- `cleanPath` of `net/http`: `path.Clean` with a trailing slash put back. -/
def cleanPath (path : GoString) : GoString :=
  let p := if path.head? = some slash then path else slash :: path
  let np := Filepath.render (Filepath.clean p)
  if p.getLast? = some slash ∧ np ≠ [slash] then np ++ [slash] else np

/-- `main`'s mux behind the token check. A path that is not clean is redirected; then the
    exact pattern or the longest matching subtree decides. The event stream is answered by
    its headers only: it reads the bus, and no operation of the other handlers does. -/
def serve (startedAt : Int) (r : Request) : Handler Response :=
  if cleanPath r.path ≠ r.path then return ⟨301, .str (cleanPath r.path)⟩
  else if r.path = lit "/global/health" then health startedAt
  else if r.path = lit "/global/event" then return ⟨200, .null⟩
  else if r.path = lit "/experimental/workspace/adaptor" then workspaceAdaptor
  else if r.path = lit "/experimental/workspace" then workspaceList r
  else if r.path = lit "/experimental/workspace/status" then workspaceStatus
  else if r.path = lit "/session" then sessionCreate r
  else if r.path = lit "/session/status" then sessionStatus
  else if Strings.hasPrefix r.path (lit "/session/") then sessionRoutes r
  else if r.path = lit "/permission" then permissionList
  else if Strings.hasPrefix r.path (lit "/permission/") then permissionRoutes r
  else if Strings.hasPrefix r.path (lit "/experimental/workspace/") then withWorkspaceRoutes r
  else return ⟨404, .str (lit "404 page not found\n")⟩

end OpencodeRemote.Stub
