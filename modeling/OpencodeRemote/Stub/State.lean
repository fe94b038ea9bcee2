import Mathlib.Data.List.Sort
import OpencodeRemote.Data.OrderedMap
import OpencodeRemote.Stub.Filepath
import OpencodeRemote.Stub.Pattern
import OpencodeRemote.Stub.Utf8

/-! # The stub's store

Four maps in memory and three directories on disk. Every method of the Go `State` runs
under its lock, so each is one function here. What the code cannot decide comes in
through `Env`: the clock, the outcome of file operations, the order in which a map is
ranged over and what a command prints.

A file holds the record that was marshalled into it, and what is read from it is valid
UTF-8. That makes a difference for the directory of a session, which is `$HOME`, and for the
pattern of an approval, which can be made of it: every other string of a record comes from
the decoder of a request or is the stub's own. Unmarshalling a record of another kind
follows the field names, so a misplaced file reads as the code would read it.
-/

namespace OpencodeRemote.Stub

open Data Filepath

inductive Json where
  | null
  | bool (b : Bool)
  | num (literal : GoString)
  | str (s : GoString)
  | arr (items : List Json)
  | obj (fields : List (GoString × Json))

structure Workspace where
  id : GoString
  type : GoString
  name : GoString
  projectID : GoString
  provider : GoString
  host : GoString
  status : GoString
  createdAt : Int
  /-- `none` is Go's nil map. -/
  extra : Option (OrderedMap GoString Json)

structure SessionStatus where
  type : GoString
  message : GoString
  deriving DecidableEq

structure Session where
  id : GoString
  workspaceID : GoString
  title : GoString
  directory : GoString
  status : SessionStatus
  createdAt : Int
  updatedAt : Int
  deriving DecidableEq

/-- A permission request without its `Status`, the one field written after creation. -/
structure PermissionRequest where
  id : GoString
  sessionID : GoString
  workspaceID : GoString
  permission : GoString
  patterns : List GoString
  metadata : List (GoString × GoString)
  always : List GoString
  createdAt : Int
  deriving DecidableEq

/-- A `*PermissionRequest`. Handlers hold the pointer across lock releases, and `Status`
    is written through it: `State.statuses` holds that field at the address. -/
structure PermissionPtr extends PermissionRequest where
  addr : Nat
  deriving DecidableEq

structure Approval where
  id : GoString
  workspaceID : GoString
  host : GoString
  permission : GoString
  pattern : GoString
  /-- `once` or `always`. -/
  mode : GoString
  createdAt : Int
  deriving DecidableEq

/-- The record as it comes back from its file. Strings out of a decoded body are valid UTF-8
    already; a directory may be `$HOME`, whose bytes are arbitrary. -/
def Session.reread (se : Session) : Session := { se with directory := toValid se.directory }

def Approval.reread (a : Approval) : Approval := { a with pattern := toValid a.pattern }

/-- What a file holds: a marshalled record, or bytes that do not unmarshal. -/
inductive FileData where
  | workspace (ws : Workspace)
  | session (se : Session)
  | approval (a : Approval)
  | garbled

inductive WriteResult where
  | ok
  /-- Nothing was written. -/
  | refused
  /-- The file was truncated and only partly written. -/
  | torn
  /-- All of it was written, and an error reported. -/
  | late
  deriving DecidableEq

/-- What the outside world contributes to one operation. -/
structure Env where
  now : Int
  write : WriteResult
  /-- The files which a removal fails to remove. -/
  survives : CleanPath → Bool
  /-- The order in which a map is ranged over. -/
  order : List GoString
  home : GoString
  hostname : GoString
  pid : Int
  errText : GoString
  output : GoString
  exitCode : Int

structure State where
  root : GoString
  workspaces : OrderedMap GoString Workspace
  sessions : OrderedMap GoString Session
  permissions : OrderedMap GoString PermissionPtr
  approvals : OrderedMap GoString Approval
  statuses : List GoString
  disk : OrderedMap CleanPath FileData

def pending : GoString := lit "pending"
def once : GoString := lit "once"
def always : GoString := lit "always"
def reject : GoString := lit "reject"

/-! ## Files -/

/-- `os.WriteFile`: the error text, if any, and the disk. -/
def writeFile (env : Env) (path : CleanPath) (data : FileData) (disk : OrderedMap CleanPath FileData) :
    Option GoString × OrderedMap CleanPath FileData :=
  match env.write with
  | .ok => (none, disk.set path data)
  | .refused => (some env.errText, disk)
  | .torn => (some env.errText, disk.set path .garbled)
  | .late => (some env.errText, disk.set path data)

/-- `os.Remove`. -/
def remove (env : Env) (path : CleanPath) (disk : OrderedMap CleanPath FileData) :
    OrderedMap CleanPath FileData :=
  disk.eraseAll fun p => decide (p = path) && !env.survives p

/-- `os.RemoveAll`. -/
def removeAll (env : Env) (path : CleanPath) (disk : OrderedMap CleanPath FileData) :
    OrderedMap CleanPath FileData :=
  disk.eraseAll fun p => decide (path.Under p) && !env.survives p

/-- The name under which `p` is an entry of `dir`. -/
def entryOf (dir p : CleanPath) : Option GoString :=
  match p.comps.getLast? with
  | some name => if p = dir.child name then some name else none
  | none => none

/-- The files of a directory in `os.ReadDir`'s order. -/
def files (dir : CleanPath) (disk : OrderedMap CleanPath FileData) : List (GoString × FileData) :=
  (disk.entries.filterMap fun (p, data) => (entryOf dir p).map fun name => (name, data)).insertionSort
    fun a b => a.1 ≤ b.1

/-- The `workspace.json` files one level below a directory. -/
def workspaceFiles (dir : CleanPath) (disk : OrderedMap CleanPath FileData) :
    List (GoString × FileData) :=
  (disk.entries.filterMap fun (p, data) =>
    if p.comps.getLast? = some (lit "workspace.json") then
      (entryOf dir ⟨p.rooted, p.comps.dropLast⟩).map fun name => (name, data)
    else none).insertionSort fun a b => a.1 ≤ b.1

/-- `extra` is `omitempty`: an empty map is not written and reads back as nil. -/
def unmarshalWorkspace : FileData → Option Workspace
  | .workspace ws =>
      some { ws with extra := ws.extra.bind fun m => if m.entries = [] then none else some m }
  -- the session's `status` object does not fit the workspace's string
  | .session _ => none
  | .approval a => some ⟨a.id, [], [], [], [], a.host, [], a.createdAt, none⟩
  | .garbled => none

def unmarshalSession : FileData → Option Session
  | .workspace _ => none
  | .session se => some se.reread
  | .approval a => some ⟨a.id, a.workspaceID, [], [], ⟨[], []⟩, a.createdAt, 0⟩
  | .garbled => none

def unmarshalApproval : FileData → Option Approval
  | .workspace ws => some ⟨ws.id, [], ws.host, [], [], [], ws.createdAt⟩
  | .session se => some ⟨se.id, se.workspaceID, [], [], [], [], se.createdAt⟩
  | .approval a => some a.reread
  | .garbled => none

theorem Session.reread_reread (se : Session) : se.reread.reread = se.reread := by
  simp only [Session.reread, toValid_toValid]

theorem Approval.reread_reread (a : Approval) : a.reread.reread = a.reread := by
  simp only [Approval.reread, toValid_toValid]

namespace State

def workspacesDir (s : State) : CleanPath := join [s.root, lit "workspaces"]
def sessionsDir (s : State) : CleanPath := join [s.root, lit "sessions"]
def approvalsDir (s : State) : CleanPath := join [s.root, lit "approvals"]

def workspaceDir (s : State) (id : GoString) : CleanPath := join [s.root, lit "workspaces", id]

def workspacePath (s : State) (id : GoString) : CleanPath :=
  (s.workspaceDir id).child (lit "workspace.json")

def sessionPath (s : State) (id : GoString) : CleanPath :=
  join [s.root, lit "sessions", id ++ lit ".json"]

def approvalPath (s : State) (id : GoString) : CleanPath :=
  join [s.root, lit "approvals", id ++ lit ".json"]

/-! ## Start-up -/

/-- `New`, over a disk that is there already. -/
def new (root : GoString) (disk : OrderedMap CleanPath FileData) : State :=
  ⟨root, .empty, .empty, .empty, .empty, [], disk⟩

/-- One loader: each file that unmarshals is stored under the id it contains. -/
def load {ν : Type} (unmarshal : FileData → Option ν) (id : ν → GoString)
    (found : List (GoString × FileData)) : OrderedMap GoString ν :=
  found.foldl (fun m file =>
    match unmarshal file.2 with
    | some v => m.set (id v) v
    | none => m) .empty

def loadWorkspaces (s : State) : State :=
  { s with workspaces := load unmarshalWorkspace Workspace.id (workspaceFiles s.workspacesDir s.disk) }

def loadSessions (s : State) : State :=
  { s with sessions := load unmarshalSession Session.id (files s.sessionsDir s.disk) }

def loadApprovals (s : State) : State :=
  { s with approvals := load unmarshalApproval Approval.id (files s.approvalsDir s.disk) }

def loadAll (s : State) : State := s.loadWorkspaces.loadSessions.loadApprovals

/-- A new process: `New` and `Init` on the same root. -/
def startUp (root : GoString) (disk : OrderedMap CleanPath FileData) : State := (new root disk).loadAll

def restart (s : State) : State := startUp s.root s.disk

/-! ## Workspaces and sessions -/

def getWorkspace (s : State) (id : GoString) : Option Workspace := s.workspaces.get id

def listWorkspaces (env : Env) (s : State) : List Workspace :=
  (s.workspaces.range env.order).map Prod.snd

def saveWorkspace (env : Env) (ws : Workspace) (s : State) : Option GoString × State :=
  let (err, disk) := writeFile env (s.workspacePath ws.id) (.workspace ws) s.disk
  (err, { s with disk })

def createWorkspace (env : Env) (ws : Workspace) (s : State) : Option GoString × State :=
  saveWorkspace env ws { s with workspaces := s.workspaces.set ws.id ws }

def deleteWorkspace (env : Env) (id : GoString) (s : State) : State :=
  { s with
    workspaces := s.workspaces.erase id
    disk := removeAll env (s.workspaceDir id) s.disk }

def getSession (s : State) (id : GoString) : Option Session := s.sessions.get id

def listSessions (env : Env) (s : State) : List Session :=
  (s.sessions.range env.order).map Prod.snd

def listSessionsByWorkspace (env : Env) (workspaceID : GoString) (s : State) : List Session :=
  (s.listSessions env).filter fun se => se.workspaceID = workspaceID

def saveSession (env : Env) (se : Session) (s : State) : Option GoString × State :=
  let (err, disk) := writeFile env (s.sessionPath se.id) (.session se) s.disk
  (err, { s with disk })

def createSession (env : Env) (se : Session) (s : State) : Option GoString × State :=
  saveSession env se { s with sessions := s.sessions.set se.id se }

def deleteSession (env : Env) (id : GoString) (s : State) : State :=
  { s with
    sessions := s.sessions.erase id
    disk := remove env (s.sessionPath id) s.disk }

/-! ## Permission requests -/

def status (s : State) (p : PermissionPtr) : GoString := s.statuses.getD p.addr []

def listPermissions (env : Env) (s : State) : List PermissionPtr :=
  ((s.permissions.range env.order).map Prod.snd).filter fun p => s.status p = pending

/-- The new request gets the next free address. -/
def createPermission (p : PermissionRequest) (status : GoString) (s : State) : PermissionPtr × State :=
  let ptr : PermissionPtr := { p with addr := s.statuses.length }
  (ptr, { s with
    permissions := s.permissions.set p.id ptr
    statuses := s.statuses ++ [status] })

def getPermission (s : State) (id : GoString) : Option PermissionPtr := s.permissions.get id

/-- `p.Status = status`, outside the lock. -/
def setStatus (p : PermissionPtr) (status : GoString) (s : State) : State :=
  { s with statuses := s.statuses.set p.addr status }

def updatePermission (p : PermissionPtr) (s : State) : State :=
  { s with permissions := s.permissions.set p.id p }

/-! ## Approvals -/

def saveApproval (env : Env) (a : Approval) (s : State) : Option GoString × State :=
  let (err, disk) := writeFile env (s.approvalPath a.id) (.approval a) s.disk
  (err, { s with disk })

def createApproval (env : Env) (a : Approval) (s : State) : Option GoString × State :=
  saveApproval env a { s with approvals := s.approvals.set a.id a }

/-- The first approval met that covers `path` for the workspace, with its key. -/
def findApproval (env : Env) (workspaceID path : GoString) (s : State) : Option (GoString × Approval) :=
  (s.approvals.range env.order).find? fun entry =>
    decide (entry.2.workspaceID = workspaceID) && matchPattern entry.2.pattern path

def checkApproval (env : Env) (workspaceID path : GoString) (s : State) : Option Approval :=
  (s.findApproval env workspaceID path).map Prod.snd

def consumeApproval (env : Env) (workspaceID path : GoString) (s : State) : Option Approval × State :=
  match s.findApproval env workspaceID path with
  | none => (none, s)
  | some (id, a) =>
      if a.mode = once then
        (some a, { s with
          approvals := s.approvals.erase id
          disk := remove env (s.approvalPath id) s.disk })
      else (some a, s)

/-- A lookup can change the approvals and their files, and nothing else. -/
theorem consumeApproval_frame (env : Env) (workspaceID path : GoString) (s : State) :
    ∃ approvals disk, (s.consumeApproval env workspaceID path).2 = { s with approvals, disk } := by
  unfold consumeApproval
  split
  · exact ⟨s.approvals, s.disk, rfl⟩
  · split
    · exact ⟨_, _, rfl⟩
    · exact ⟨s.approvals, s.disk, rfl⟩

/-- The approval found is stored under the key it was found at, belongs to the workspace
    and matches the path. -/
theorem findApproval_some {env : Env} {workspaceID path id : GoString} {a : Approval} {s : State}
    (found : s.findApproval env workspaceID path = some (id, a)) :
    s.approvals.get id = some a ∧ a.workspaceID = workspaceID ∧ matchPattern a.pattern path = true := by
  have stored := OrderedMap.mem_range.mp (List.mem_of_find?_eq_some found)
  have tested := List.find?_some found
  simp only [Bool.and_eq_true, decide_eq_true_eq] at tested
  exact ⟨stored, tested.1, tested.2⟩

theorem findApproval_none {env : Env} {workspaceID path : GoString} {s : State}
    (missing : s.findApproval env workspaceID path = none) {id : GoString} {a : Approval}
    (stored : s.approvals.get id = some a) (own : a.workspaceID = workspaceID) :
    matchPattern a.pattern path = false := by
  have untested := List.find?_eq_none.mp missing (id, a) (OrderedMap.mem_range.mpr stored)
  simpa [own] using untested

/-- Whatever covers a path can be the first to be met. -/
theorem findApproval_first {env : Env} {workspaceID path id : GoString} {a : Approval} {s : State}
    (stored : s.approvals.get id = some a) (own : a.workspaceID = workspaceID)
    (matched : matchPattern a.pattern path = true) (first : env.order = [id]) :
    s.findApproval env workspaceID path = some (id, a) := by
  simp [findApproval, OrderedMap.range, first, stored, own, matched]

end State

end OpencodeRemote.Stub
