import OpencodeRemote.Stub.Mirror
import OpencodeRemote.Stub.Deletion

/-! # Workspaces and sessions across a restart

Both kinds of record are kept the same way: a table in memory, a file for each id, and a
loader that reads certain files of a directory. What is shown for one such kind is then
used for the two.
-/

namespace OpencodeRemote.Stub

open Concurrency Data Filepath

/-- A kind of record: its table, the file of each id and the files that its loader reads. -/
structure Kind (ν : Type) where
  key : ν → GoString
  record : ν → FileData
  unmarshal : FileData → Option ν
  /-- The record as it comes back from its file. -/
  again : ν → ν
  table : State → OrderedMap GoString ν
  path : State → GoString → CleanPath
  /-- Where the loader reads the file it finds under a name. -/
  slot : State → GoString → CleanPath
  create : ν → Op
  delete : GoString → Op
  found : State → List (GoString × FileData)
  unmarshal_garbled : unmarshal .garbled = none
  key_again : ∀ v, key (again v) = key v
  again_again : ∀ v, again (again v) = again v
  mem_found : ∀ s name data, (name, data) ∈ found s ↔ s.disk.get (slot s name) = some data
  table_restart : ∀ s, table s.restart = State.load unmarshal key (found s)
  path_root : ∀ s s', s'.root = s.root → path s' = path s
  slot_root : ∀ s s', s'.root = s.root → slot s' = slot s
  written_create : ∀ s v, written s (create v) = some (path s (key v), record v)
  removes_delete : ∀ env s id, Removes env s (delete id) (path s id)
  create_injective : ∀ v w, create v = create w → v = w
  delete_injective : ∀ id id', delete id = delete id' → id = id'
  create_ne_delete : ∀ v id, create v ≠ delete id
  table_exec : ∀ env o s, (∃ v, o = create v ∧ table (exec env o s).2 = (table s).set (key v) v) ∨
    (∃ id, o = delete id ∧ table (exec env o s).2 = (table s).erase id) ∨
    (∀ v, o ≠ create v) ∧ (∀ id, o ≠ delete id) ∧ table (exec env o s).2 = table s

variable {ν : Type} {K : Kind ν} {env : Env} {o : Op} {s : State}

theorem Kind.table_create (K : Kind ν) (env : Env) (s : State) (v : ν) :
    (K.table (exec env (K.create v) s).2).get (K.key v) = some v := by
  rcases K.table_exec env (K.create v) s with ⟨w, same, after⟩ | ⟨id, same, -⟩ | ⟨other, -, -⟩
  · obtain rfl := K.create_injective v w same
    rw [after, OrderedMap.get_set_self]
  · exact absurd same (K.create_ne_delete v id)
  · exact absurd rfl (other v)

theorem Kind.origin (K : Kind ν) {id : GoString} {v : ν}
    (inTable : (K.table (exec env o s).2).get id = some v) :
    ((K.table s).get id = some v ∧ o ≠ K.delete id ∧ ∀ w, o = K.create w → K.key w ≠ id) ∨
      o = K.create v ∧ K.key v = id := by
  rcases K.table_exec env o s with ⟨w, rfl, after⟩ | ⟨id', rfl, after⟩ | ⟨uncreated, undeleted, after⟩
  · rw [after, OrderedMap.get_set] at inTable
    split at inTable
    · rename_i same
      cases inTable
      exact .inr ⟨rfl, same.symm⟩
    · rename_i other
      refine .inl ⟨inTable, K.create_ne_delete w id, fun w' same key => ?_⟩
      obtain rfl := K.create_injective w w' same
      exact other key.symm
  · rw [after, OrderedMap.get_erase] at inTable
    split at inTable
    · cases inTable
    · rename_i other
      refine .inl ⟨inTable, fun same => other (K.delete_injective _ _ same).symm, fun w same => ?_⟩
      exact absurd same.symm (K.create_ne_delete w id')
  · rw [after] at inTable
    exact .inl ⟨inTable, undeleted id, fun w same => absurd same (uncreated w)⟩

theorem Kind.fate (K : Kind ν) {id : GoString} {v : ν} (inTable : (K.table s).get id = some v) :
    (K.table (exec env o s).2).get id = some v ∨ (∃ w, o = K.create w ∧ K.key w = id) ∨ o = K.delete id := by
  rcases K.table_exec env o s with ⟨w, rfl, after⟩ | ⟨id', rfl, after⟩ | ⟨-, -, after⟩
  · by_cases same : id = K.key w
    · exact .inr (.inl ⟨w, rfl, same.symm⟩)
    · left
      rw [after, OrderedMap.get_set_ne _ _ same]
      exact inTable
  · by_cases same : id = id'
    · exact .inr (.inr (by rw [same]))
    · left
      rw [after, OrderedMap.get_erase_ne _ same]
      exact inTable
  · left
    rw [after]
    exact inTable

/-- The loader would read what the table holds, and each record lies in its own file. -/
structure InStep (K : Kind ν) (s : State) : Prop where
  read : ∀ name data v, s.disk.get (K.slot s name) = some data → K.unmarshal data = some v →
    (∃ w, (K.table s).get (K.key v) = some w ∧ K.again w = v) ∧ K.slot s name = K.path s (K.key v)
  stored : ∀ id v, (K.table s).get id = some v → K.key v = id ∧ (∃ name, K.path s id = K.slot s name) ∧
    ∃ data, s.disk.get (K.path s id) = some data ∧ K.unmarshal data = some (K.again v)

/-- An operation that stores records of the kind in files of their own, which the loader
    reads, and leaves the files of the others alone. -/
structure Careful (K : Kind ν) (env : Env) (s : State) (o : Op) : Prop where
  own : ∀ v, o = K.create v → K.unmarshal (K.record v) = some (K.again v) ∧
    (∃ name, K.path s (K.key v) = K.slot s name) ∧
    ∀ id w, (K.table s).get id = some w → K.path s id = K.path s (K.key v) → id = K.key v
  foreign : ∀ name record, written s o = some (K.slot s name, record) → ∃ v, o = K.create v
  removal : ∀ id v, (K.table s).get id = some v → Removes env s o (K.path s id) → o = K.delete id

theorem InStep.step (inStep : InStep K s) (careful : Careful K env s o)
    (writes : ∀ v, o = K.create v → env.write = .ok) (removes : ∀ p, env.survives p = false) :
    InStep K (exec env o s).2 := by
  have paths := K.path_root s (exec env o s).2 exec_root
  have slots := K.slot_root s (exec env o s).2 exec_root
  constructor
  · intro name data v here read
    rw [slots] at here ⊢
    rw [paths]
    rcases file_origin here with before | ⟨record, wrote, same⟩
    · obtain ⟨⟨u, inTable, back⟩, place⟩ := inStep.read name data v before read
      refine ⟨?_, place⟩
      rcases @Kind.fate _ env o s K _ u inTable with after | ⟨w, rfl, key⟩ | rfl
      · exact ⟨u, after, back⟩
      · -- the file has been overwritten by the record stored now
        have wrote := file_written (K.written_create s w) (writes w rfl)
        rw [key, ← place, here] at wrote
        cases wrote
        cases (careful.own w rfl).1.symm.trans read
        exact ⟨w, key ▸ K.table_create env s w, rfl⟩
      · rw [place, file_removed (K.removes_delete env s _) (removes _)] at here
        cases here
    · obtain ⟨w, rfl⟩ := careful.foreign name record wrote
      rw [K.written_create] at wrote
      obtain ⟨place, rfl⟩ := Prod.mk.inj (Option.some.inj wrote)
      rcases same with rfl | rfl
      · cases (careful.own w rfl).1.symm.trans read
        rw [K.key_again]
        exact ⟨⟨w, K.table_create env s w, rfl⟩, place.symm⟩
      · rw [K.unmarshal_garbled] at read
        cases read
  · intro id v inTable
    rw [paths, slots]
    rcases K.origin inTable with ⟨before, undeleted, uncreated⟩ | ⟨rfl, rfl⟩
    · obtain ⟨key, ⟨name, place⟩, data, here, back⟩ := inStep.stored id v before
      refine ⟨key, ⟨name, place⟩, data, ?_, back⟩
      rcases @file_fate env o s _ _ here with same | ⟨record, wrote⟩ | ⟨gone, -⟩
      · exact same
      · obtain ⟨w, rfl⟩ := careful.foreign name record (place ▸ wrote)
        rw [K.written_create] at wrote
        have shared : K.path s id = K.path s (K.key w) := (Prod.mk.inj (Option.some.inj wrote)).1.symm
        exact absurd ((careful.own w rfl).2.2 id v before shared).symm (uncreated w rfl)
      · exact absurd (careful.removal id v before gone) undeleted
    · obtain ⟨back, place, -⟩ := careful.own v rfl
      exact ⟨rfl, place, _, file_written (K.written_create s v) (writes v rfl), back⟩

/-- A restart reads the table again. -/
theorem InStep.table_restart (inStep : InStep K s) (id : GoString) :
    (K.table s.restart).get id = ((K.table s).get id).map K.again := by
  have back : ∀ v, (K.table s.restart).get id = some v → ((K.table s).get id).map K.again = some v := by
    intro v loaded
    rw [K.table_restart] at loaded
    obtain ⟨rfl, ⟨name, data⟩, member, read⟩ := load_origin loaded
    obtain ⟨w, inTable, rfl⟩ := (inStep.read name data v ((K.mem_found s name data).mp member) read).1
    rw [inTable]
    rfl
  cases inTable : (K.table s).get id with
  | none =>
      cases loaded : (K.table s.restart).get id with
      | none => rfl
      | some v =>
          have there := back v loaded
          rw [inTable] at there
          cases there
  | some v =>
      obtain ⟨rfl, ⟨name, place⟩, data, here, read⟩ := inStep.stored id v inTable
      rw [place] at here
      have loaded := @load_complete _ K.unmarshal K.key _ _ _ ((K.mem_found s name _).mpr here) read
      rw [← K.table_restart, K.key_again] at loaded
      obtain ⟨w, found⟩ := Option.isSome_iff_exists.mp loaded
      rw [found, ← inTable, back w found]

theorem InStep.restart (inStep : InStep K s) : InStep K s.restart := by
  have paths := K.path_root s s.restart rfl
  have slots := K.slot_root s s.restart rfl
  constructor
  · intro name data v here read
    rw [slots] at here ⊢
    rw [paths, inStep.table_restart]
    obtain ⟨⟨w, inTable, rfl⟩, place⟩ := inStep.read name data v here read
    exact ⟨⟨K.again w, by rw [inTable]; rfl, K.again_again w⟩, place⟩
  · intro id v inTable
    rw [inStep.table_restart] at inTable
    obtain ⟨w, before, rfl⟩ := Option.map_eq_some_iff.mp inTable
    rw [paths, slots, K.key_again, K.again_again]
    exact inStep.stored id w before

/-! ## Workspaces and sessions as kinds -/

def workspaceKind : Kind Workspace where
  key := Workspace.id
  record := .workspace
  unmarshal := unmarshalWorkspace
  again := id
  table := State.workspaces
  path := State.workspacePath
  slot s name := (s.workspacesDir.child name).child (lit "workspace.json")
  create := .createWorkspace
  delete := .deleteWorkspace
  found s := workspaceFiles s.workspacesDir s.disk
  unmarshal_garbled := rfl
  key_again _ := rfl
  again_again _ := rfl
  mem_found _ _ _ := mem_workspaceFiles
  table_restart _ := rfl
  path_root s s' root := by
    funext id
    rw [State.workspacePath, State.workspaceDir, root, State.workspacePath, State.workspaceDir]
  slot_root s s' root := by
    funext name
    rw [State.workspacesDir, root, State.workspacesDir]
  written_create _ _ := rfl
  removes_delete _ s id := ⟨rfl, List.prefix_append _ _⟩
  create_injective _ _ := Op.createWorkspace.inj
  delete_injective _ _ := Op.deleteWorkspace.inj
  create_ne_delete := nofun
  table_exec env o s := by
    cases o with
    | createWorkspace ws => exact .inl ⟨ws, rfl, rfl⟩
    | deleteWorkspace id => exact .inr (.inl ⟨id, rfl, rfl⟩)
    | consumeApproval workspaceID path =>
        obtain ⟨approvals, disk, same⟩ := State.consumeApproval_frame env workspaceID path s
        refine .inr (.inr ⟨nofun, nofun, ?_⟩)
        rw [exec, same]
    | _ => exact .inr (.inr ⟨nofun, nofun, rfl⟩)

def sessionKind : Kind Session where
  key := Session.id
  record := .session
  unmarshal := unmarshalSession
  again := Session.reread
  table := State.sessions
  path := State.sessionPath
  slot s name := s.sessionsDir.child name
  create := .createSession
  delete := .deleteSession
  found s := files s.sessionsDir s.disk
  unmarshal_garbled := rfl
  key_again _ := rfl
  again_again := Session.reread_reread
  mem_found _ _ _ := mem_files
  table_restart _ := rfl
  path_root s s' root := by
    funext id
    rw [State.sessionPath, root, State.sessionPath]
  slot_root s s' root := by
    funext name
    rw [State.sessionsDir, root, State.sessionsDir]
  written_create _ _ := rfl
  removes_delete _ s id := rfl
  create_injective _ _ := Op.createSession.inj
  delete_injective _ _ := Op.deleteSession.inj
  create_ne_delete := nofun
  table_exec env o s := by
    cases o with
    | createSession se => exact .inl ⟨se, rfl, rfl⟩
    | deleteSession id => exact .inr (.inl ⟨id, rfl, rfl⟩)
    | consumeApproval workspaceID path =>
        obtain ⟨approvals, disk, same⟩ := State.consumeApproval_frame env workspaceID path s
        refine .inr (.inr ⟨nofun, nofun, ?_⟩)
        rw [exec, same]
    | _ => exact .inr (.inr ⟨nofun, nofun, rfl⟩)

/-! ## Operations that keep both kinds -/

def storesWorkspace : Op → Option Workspace
  | .createWorkspace ws => some ws
  | _ => none

def storesSession : Op → Option Session
  | .createSession se => some se
  | _ => none

def deletesSession : Op → Option GoString
  | .deleteSession id => some id
  | _ => none

/-- A new record goes to a file of its own, which the loader reads, and a workspace has
    something in `extra`; a deletion removes no file of another record in memory. -/
structure Separate (s : State) (o : Op) : Prop where
  workspace : ∀ ws ∈ storesWorkspace o, (ws.extra.any fun extra => !extra.entries.isEmpty) ∧
    (entryOf s.workspacesDir (s.workspaceDir ws.id)).isSome ∧
    ∀ id ∈ s.workspaces.keys, s.workspaceDir id = s.workspaceDir ws.id → id = ws.id
  session : ∀ se ∈ storesSession o, (entryOf s.sessionsDir (s.sessionPath se.id)).isSome ∧
    ∀ id ∈ s.sessions.keys, s.sessionPath id = s.sessionPath se.id → id = se.id
  deletion : ∀ id ∈ deletes o,
    (∀ id' ∈ s.workspaces.keys, (s.workspaceDir id).Under (s.workspacePath id') → id' = id) ∧
      ∀ id' ∈ s.sessions.keys, ¬(s.workspaceDir id).Under (s.sessionPath id')
  sessionDeletion : ∀ id ∈ deletesSession o,
    (∀ id' ∈ s.sessions.keys, s.sessionPath id' = s.sessionPath id → id' = id) ∧
      ∀ id' ∈ s.workspaces.keys, s.workspacePath id' ≠ s.sessionPath id

instance (s : State) (o : Op) : Decidable (Separate s o) :=
  decidable_of_iff (_ ∧ _ ∧ _ ∧ _)
    ⟨fun ⟨workspace, session, deletion, sessionDeletion⟩ => ⟨workspace, session, deletion, sessionDeletion⟩,
      fun ⟨workspace, session, deletion, sessionDeletion⟩ => ⟨workspace, session, deletion, sessionDeletion⟩⟩

/-- The creation, if it is one, went without an error. -/
def stored : StubEvent → Bool
  | ⟨.createWorkspace _, err⟩ => err.isNone
  | ⟨.createSession _, err⟩ => err.isNone
  | _ => true

/-- Approvals, in memory or readable in their directory, have plain ids. -/
structure PlainApprovals (s : State) : Prop where
  memory : ∀ id a, s.approvals.get id = some a → Plain id
  disk : ∀ name data a, s.disk.get (s.approvalsDir.child name) = some data →
    unmarshalApproval data = some a → Plain a.id

private theorem depth {dir dir' : CleanPath} {a b c : GoString}
    (level : dir.comps.length = dir'.comps.length) : (dir.child a).child b ≠ dir'.child c := by
  intro same
  have sizes := congrArg (fun p => p.comps.length) same
  simp only [CleanPath.child, List.length_append, List.length_singleton] at sizes
  omega

private theorem level_dirs (s : State) : s.workspacesDir.comps.length = s.sessionsDir.comps.length ∧
    s.workspacesDir.comps.length = s.approvalsDir.comps.length := by
  simp [State.workspacesDir_eq, State.sessionsDir_eq, State.approvalsDir_eq, CleanPath.child]

private theorem sessions_apart (s : State) (a b : GoString) : s.sessionsDir.child a ≠ s.approvalsDir.child b := by
  rw [State.sessionsDir_eq, State.approvalsDir_eq]
  intro same
  have comps := congrArg CleanPath.comps same
  simp only [CleanPath.child, List.append_assoc, List.append_cancel_left_eq] at comps
  have first := (List.cons.inj comps).1
  revert first
  decide

private theorem dir_of_child {dir dir' : CleanPath} {name : GoString} (same : dir.child name = dir'.child name) :
    dir = dir' := by
  cases dir
  cases dir'
  simpa [CleanPath.child] using same

theorem workspacePath_of_entry {id : GoString} (entry : (entryOf s.workspacesDir (s.workspaceDir id)).isSome) :
    ∃ name, s.workspacePath id = (s.workspacesDir.child name).child (lit "workspace.json") := by
  obtain ⟨name, entry⟩ := Option.isSome_iff_exists.mp entry
  exact ⟨name, by rw [State.workspacePath, entryOf_eq_some.mp entry]⟩

theorem sessionPath_of_entry {id : GoString} (entry : (entryOf s.sessionsDir (s.sessionPath id)).isSome) :
    ∃ name, s.sessionPath id = s.sessionsDir.child name := by
  obtain ⟨name, entry⟩ := Option.isSome_iff_exists.mp entry
  exact ⟨name, entryOf_eq_some.mp entry⟩

theorem mem_keys {κ ν : Type} [DecidableEq κ] {m : OrderedMap κ ν} {k : κ} {v : ν} (stored : m.get k = some v) :
    k ∈ m.keys := List.mem_map.mpr ⟨(k, v), OrderedMap.mem_entries.mpr stored, rfl⟩

theorem not_removes_consume {workspaceID path : GoString} {p : CleanPath} (approvals : PlainApprovals s)
    (elsewhere : ∀ name, p ≠ s.approvalsDir.child name) : ¬Removes env s (.consumeApproval workspaceID path) p := by
  rintro ⟨id, a, lookup, -, here⟩
  have plain := approvals.memory id a (State.findApproval_some lookup).1
  rw [s.approvalPath_eq plain] at here
  exact elsewhere _ here

theorem unmarshalWorkspace_of_extra {ws : Workspace}
    (given : ws.extra.any (fun extra => !extra.entries.isEmpty) = true) :
    unmarshalWorkspace (.workspace ws) = some ws := by
  obtain ⟨id, type, name, projectID, provider, host, status, createdAt, extra⟩ := ws
  cases extra with
  | none => cases given
  | some fields =>
      have nonempty : fields.entries ≠ [] := by simpa using given
      simp [unmarshalWorkspace, nonempty]

theorem careful_workspace (inStep : InStep workspaceKind s) (approvals : PlainApprovals s) (separate : Separate s o)
    (minted : ∀ a, o = .createApproval a → Plain a.id) : Careful workspaceKind env s o := by
  constructor
  · rintro ws rfl
    obtain ⟨extra, entry, apart⟩ := separate.workspace ws rfl
    refine ⟨unmarshalWorkspace_of_extra extra, workspacePath_of_entry entry, fun id w inTable same => ?_⟩
    exact apart id (mem_keys inTable) (dir_of_child same)
  · intro name record wrote
    cases o with
    | createWorkspace ws => exact ⟨ws, rfl⟩
    | createSession se =>
        obtain ⟨name', path⟩ := sessionPath_of_entry (separate.session se rfl).1
        have here := (Prod.mk.inj (Option.some.inj wrote)).1
        rw [path] at here
        exact absurd here.symm (depth (level_dirs s).1)
    | createApproval a =>
        have here := (Prod.mk.inj (Option.some.inj wrote)).1
        rw [s.approvalPath_eq (minted a rfl)] at here
        exact absurd here.symm (depth (level_dirs s).2)
    | _ => cases wrote
  · intro id ws inTable removes
    obtain ⟨name, place⟩ := (inStep.stored id ws inTable).2.1
    cases o with
    | deleteWorkspace id' =>
        have same := (separate.deletion id' rfl).1 id (mem_keys inTable) removes
        rw [same]
        rfl
    | deleteSession id' => exact absurd removes ((separate.sessionDeletion id' rfl).2 id (mem_keys inTable))
    | consumeApproval workspaceID path =>
        refine absurd removes (not_removes_consume approvals fun name' => ?_)
        rw [place]
        exact depth (level_dirs s).2
    | _ => cases removes

theorem careful_session (inStep : InStep sessionKind s) (approvals : PlainApprovals s) (separate : Separate s o)
    (minted : ∀ a, o = .createApproval a → Plain a.id) : Careful sessionKind env s o := by
  constructor
  · rintro se rfl
    obtain ⟨entry, apart⟩ := separate.session se rfl
    exact ⟨rfl, sessionPath_of_entry entry, fun id w inTable same => apart id (mem_keys inTable) same⟩
  · intro name record wrote
    cases o with
    | createSession se => exact ⟨se, rfl⟩
    | createWorkspace ws =>
        obtain ⟨name', path⟩ := workspacePath_of_entry (separate.workspace ws rfl).2.1
        have here := (Prod.mk.inj (Option.some.inj wrote)).1
        rw [path] at here
        exact absurd here (depth (level_dirs s).1)
    | createApproval a =>
        have here := (Prod.mk.inj (Option.some.inj wrote)).1
        rw [s.approvalPath_eq (minted a rfl)] at here
        exact absurd here.symm (sessions_apart s _ _)
    | _ => cases wrote
  · intro id se inTable removes
    obtain ⟨name, place⟩ := (inStep.stored id se inTable).2.1
    cases o with
    | deleteWorkspace id' => exact absurd removes ((separate.deletion id' rfl).2 id (mem_keys inTable))
    | deleteSession id' =>
        have same := (separate.sessionDeletion id' rfl).1 id (mem_keys inTable) removes
        rw [same]
        rfl
    | consumeApproval workspaceID path =>
        refine absurd removes (not_removes_consume approvals fun name' => ?_)
        rw [place]
        exact sessions_apart s _ _
    | _ => cases removes

theorem plainApprovals_step (approvals : PlainApprovals s) (separate : Separate s o)
    (minted : ∀ a, o = .createApproval a → Plain a.id) : PlainApprovals (exec env o s).2 := by
  constructor
  · intro id a inMemory
    rcases approval_origin inMemory with before | ⟨rfl, rfl⟩
    · exact approvals.memory id a before
    · exact minted a rfl
  · intro name data a here read
    rcases record_origin here read with before | wrote
    · exact approvals.disk name data a before read
    · cases o with
      | createApproval b =>
          obtain ⟨-, rfl⟩ := Prod.mk.inj (Option.some.inj wrote)
          cases read
          exact minted b rfl
      | createWorkspace ws =>
          obtain ⟨name', path⟩ := workspacePath_of_entry (separate.workspace ws rfl).2.1
          have same := (Prod.mk.inj (Option.some.inj wrote)).1
          rw [path] at same
          exact absurd same (depth (level_dirs s).2)
      | createSession se =>
          obtain ⟨name', path⟩ := sessionPath_of_entry (separate.session se rfl).1
          have same := (Prod.mk.inj (Option.some.inj wrote)).1
          rw [path] at same
          exact absurd same (sessions_apart s _ _)
      | _ => cases wrote

theorem plainApprovals_restart (approvals : PlainApprovals s) : PlainApprovals s.restart := by
  refine ⟨fun id a loaded => ?_, approvals.disk⟩
  obtain ⟨rfl, name, data, here, read⟩ := restart_origin loaded
  exact approvals.disk name data a here read

/-! ## Answers -/

mutual
/-- The value as it is sent, every string made valid UTF-8. -/
def Json.valid : Json → Json
  | .str s => .str (toValid s)
  | .arr items => .arr (validItems items)
  | .obj fields => .obj (validFields fields)
  | v => v

def validItems : List Json → List Json
  | [] => []
  | v :: rest => v.valid :: validItems rest

def validFields : List (GoString × Json) → List (GoString × Json)
  | [] => []
  | (key, v) :: rest => (toValid key, v.valid) :: validFields rest
end

theorem validItems_eq (items : List Json) : validItems items = items.map Json.valid := by
  induction items with
  | nil => rfl
  | cons v rest ih => rw [validItems, List.map_cons, ih]

/-- Two answers that a client reads alike, up to the order of a list. -/
def Alike (r r' : Response) : Prop :=
  r.code = r'.code ∧ (r.body.valid = r'.body.valid ∨ ∃ items items' : List Json, r.body = .arr items ∧
    r'.body = .arr items' ∧ (items.map Json.valid).Perm (items'.map Json.valid))

def answer (s : State) (handler : Handler Response) (env : Nat → Env) : Response := (handler.run exec env s).1

/-- Both stores answer the list of workspaces, the sessions of any workspace and any
    session alike, in whatever orders they walk their maps. -/
def AnswerAlike (s s' : State) : Prop :=
  ∀ env env', (∀ r, r.method = methodGet → Alike (answer s (workspaceList r) env) (answer s' (workspaceList r) env')) ∧
    (∀ workspaceID, Alike (answer s (workspaceSessionRestore workspaceID) env)
      (answer s' (workspaceSessionRestore workspaceID) env')) ∧
    ∀ r, Alike (answer s (sessionGet r) env) (answer s' (sessionGet r) env')

theorem Alike.of_eq {r r' : Response} (same : r = r') : Alike r r' := by
  subst same
  exact ⟨rfl, .inl rfl⟩

theorem Alike.of_perm {items items' : List Json} (code : Nat)
    (perm : (items.map Json.valid).Perm (items'.map Json.valid)) :
    Alike (json code (.arr items)) (json code (.arr items')) := ⟨rfl, .inr ⟨items, items', rfl, rfl, perm⟩⟩

theorem valid_sessionJson (se : Session) (projectID : GoString) :
    (sessionJson se.reread projectID).valid = (sessionJson se projectID).valid := by
  simp only [sessionJson, timeJson, Session.reread, Json.valid, validFields, toValid_toValid]

/-- Tables that are read again give like answers. -/
theorem answerAlike_of_tables {s s' : State} (workspaces : ∀ id, s'.workspaces.get id = s.workspaces.get id)
    (sessions : ∀ id, s'.sessions.get id = (s.sessions.get id).map Session.reread) : AnswerAlike s s' := by
  intro env env'
  refine ⟨?_, ?_, ?_⟩
  · intro r get
    have listed : (s.listWorkspaces (env 0)).Perm (s'.listWorkspaces (env' 0)) :=
      (OrderedMap.range_perm (fun id => (workspaces id).symm) _ _).map _
    simp only [answer, workspaceList, get, if_true, call, Program.bind_eq, Program.perform_bind, Program.pure_eq,
      Program.run_op, Program.run_pure, exec]
    exact .of_perm 200 ((listed.map _).map _)
  · intro workspaceID
    have reread : ∀ id, (s.sessions.mapValues Session.reread).get id = s'.sessions.get id :=
      fun id => (OrderedMap.get_mapValues Session.reread s.sessions id).trans (sessions id).symm
    have listed : ((s.listSessionsByWorkspace (env 1) workspaceID).map Session.reread).Perm
        (s'.listSessionsByWorkspace (env' 1) workspaceID) := by
      have walked := (OrderedMap.range_perm reread (env 1).order (env' 1).order).map Prod.snd
      rw [OrderedMap.range_mapValues, List.map_map] at walked
      have all : ((s.listSessions (env 1)).map Session.reread).Perm (s'.listSessions (env' 1)) := by
        rw [State.listSessions, List.map_map]
        exact walked
      have kept := all.filter fun se => decide (se.workspaceID = workspaceID)
      rw [List.filter_map] at kept
      exact kept
    simp only [answer, workspaceSessionRestore, call, Program.bind_eq, Program.perform_bind, Program.run_op, exec,
      State.getWorkspace, workspaces]
    cases s.workspaces.get workspaceID with
    | none => exact .of_eq rfl
    | some ws =>
        simp only [Program.run_op, Program.pure_eq, Program.run_pure, exec]
        refine .of_perm 200 ?_
        have sent := (listed.map fun se => Json.obj [(lit "id", .str se.id), (lit "workspaceID", .str se.workspaceID),
          (lit "directory", .str se.directory), (lit "title", .str se.title),
          (lit "status", statusJson se.status), (lit "time", timeJson se)]).map Json.valid
        simpa [Function.comp_def, Session.reread, timeJson, Json.valid, validFields, toValid_toValid] using sent
  · intro r
    simp only [answer, sessionGet, call, Program.bind_eq, Program.perform_bind, Program.run_op, exec,
      State.getSession, sessions]
    cases s.sessions.get (sessionPart r) with
    | none => exact .of_eq rfl
    | some se =>
        simp only [Option.map_some, Program.run_op, Program.pure_eq, Program.run_pure, exec, State.getWorkspace,
          workspaces]
        have same : se.reread.workspaceID = se.workspaceID := rfl
        rw [same]
        cases s.workspaces.get se.workspaceID with
        | none => exact ⟨rfl, .inl (valid_sessionJson se _).symm⟩
        | some ws => exact ⟨rfl, .inl (valid_sessionJson se _).symm⟩

/-! ## Runs -/

/-- What a run keeps while its steps keep records separate. -/
structure Reloadable (s : State) : Prop where
  workspaces : InStep workspaceKind s
  sessions : InStep sessionKind s
  approvals : PlainApprovals s

theorem Reloadable.restart (reloadable : Reloadable s) : Reloadable s.restart :=
  ⟨reloadable.workspaces.restart, reloadable.sessions.restart, plainApprovals_restart reloadable.approvals⟩

theorem answerAlike_of_reloadable (reloadable : Reloadable s) : AnswerAlike s s.restart :=
  answerAlike_of_tables (fun id => (reloadable.workspaces.table_restart id).trans (Option.map_id_apply))
    reloadable.sessions.table_restart

theorem startUp_reloadable {root : GoString} {disk : OrderedMap CleanPath FileData}
    (empty : EmptyRoot root disk) : Reloadable (State.startUp root disk) := by
  have vacant : ∀ names data, disk.get ⟨(stateDir root).rooted, (stateDir root).comps ++ names⟩ ≠ some data := by
    intro names data here
    have none : disk.get ⟨(stateDir root).rooted, (stateDir root).comps ++ names⟩ = none :=
      empty _ ⟨rfl, List.prefix_append _ _⟩
    rw [none] at here
    cases here
  -- a start is a restart over empty memory
  apply Reloadable.restart (s := State.new root disk)
  constructor
  · refine ⟨fun name data ws here _ => ?_, fun id ws inTable => by cases inTable⟩
    have path : workspaceKind.slot (State.new root disk) name = ⟨(stateDir root).rooted,
        (stateDir root).comps ++ [lit "workspaces", name, lit "workspace.json"]⟩ := by
      simp [workspaceKind, State.workspacesDir_eq, State.new, CleanPath.child]
    rw [path] at here
    exact absurd here (vacant _ data)
  · refine ⟨fun name data se here _ => ?_, fun id se inTable => by cases inTable⟩
    have path : sessionKind.slot (State.new root disk) name = ⟨(stateDir root).rooted,
        (stateDir root).comps ++ [lit "sessions", name]⟩ := by
      simp [sessionKind, State.sessionsDir_eq, State.new, CleanPath.child]
    rw [path] at here
    exact absurd here (vacant _ data)
  · refine ⟨fun id a inMemory => (by cases inMemory), fun name data a here _ => ?_⟩
    have path : (State.new root disk).approvalsDir.child name = ⟨(stateDir root).rooted,
        (stateDir root).comps ++ [lit "approvals", name]⟩ := by
      simp [State.approvalsDir_eq, State.new, CleanPath.child]
    rw [path] at here
    exact absurd here (vacant _ data)

/-- Removals succeed. -/
def removing : StubScope where
  env env := ∀ p, env.survives p = false

/-- What a step of a run has to meet: a creation succeeds and keeps records separate. -/
def Orderly (entry : StubEntry) : Prop := stored entry.event = true ∧ Separate entry.before entry.event.op

instance (entry : StubEntry) : Decidable (Orderly entry) := inferInstanceAs (Decidable (_ ∧ _))

theorem reloadable_preserved (startedAt : Int) :
    (server startedAt).Preserves Protocol removing fun s log => (∀ entry ∈ log, Orderly entry) → Reloadable s := by
  intro s log thread o env removes lawful inv orderly
  have reloadable := inv fun entry member => orderly entry (List.mem_append_left _ member)
  have here : Orderly ⟨thread, s, ⟨o, (exec env o s).1⟩⟩ := orderly _ (by
    apply List.mem_append_right
    exact List.mem_singleton.mpr rfl)
  have minted : ∀ a, o = .createApproval a → Plain a.id := by
    rintro a rfl
    exact plain_of_protocol (lawful_last lawful)
  have writes : ∀ {path data disk}, (writeFile env path data disk).1 = none → env.write = .ok := by
    intro path data disk answered
    unfold writeFile at answered
    cases write : env.write <;> simp_all
  constructor
  · apply reloadable.workspaces.step (careful_workspace reloadable.workspaces reloadable.approvals here.2 minted) _
      removes
    rintro ws rfl
    exact writes (Option.isNone_iff_eq_none.mp here.1)
  · apply reloadable.sessions.step (careful_session reloadable.sessions reloadable.approvals here.2 minted) _ removes
    rintro se rfl
    exact writes (Option.isNone_iff_eq_none.mp here.1)
  · exact plainApprovals_step reloadable.approvals here.2 minted

/-- In every run from an empty state directory in which removals and creations succeed and
    every step keeps records separate, a restart answers for workspaces and sessions as the
    stub would have answered without it. -/
theorem answers_survive_restart (startedAt : Int) (root : GoString) (disk : OrderedMap CleanPath FileData)
    (empty : EmptyRoot root disk) (labels : List StubLabel) (within : ∀ label ∈ labels, label.Within removing)
    (orderly : ∀ entry ∈ ((server startedAt).run (State.startUp root disk) labels).log, Orderly entry) :
    AnswerAlike ((server startedAt).run (State.startUp root disk) labels).store
      ((server startedAt).run (State.startUp root disk) labels).store.restart := by
  apply answerAlike_of_reloadable
  have kept := Machine.run_invariant (fun s log => (∀ entry ∈ log, Orderly entry) → Reloadable s)
    (reloadable_preserved startedAt) (fun request _ => serve_obeys startedAt request)
    (fun _ _ _ _ inv orderly => (inv orderly).restart) (fun _ => startUp_reloadable empty) within
  exact kept orderly

theorem script_removing (requests : List (Int × Request)) (first : Nat) :
    ∀ label ∈ script requests first, label.Within removing :=
  script_within (fun _ _ => rfl) (fun _ _ => trivial) first

/-- A workspace with the host in its `extra` object. -/
def workspacePostOn (id host : GoString) : Request :=
  ⟨methodPost, lit "/experimental/workspace", { noBody with
    workspace := .ok ⟨id, [], [], [], [], [], [], 0, some (OrderedMap.empty.set (lit "host") (.str host))⟩ }⟩

def sessionDeletion (id : GoString) : Request := ⟨methodDelete, lit "/session/" ++ id, noBody⟩

/-- A workspace on the host `h`, with two sessions of which one is deleted again, a restart
    and another workspace that comes and goes. -/
def sessionsComeAndGo : List StubLabel :=
  script [(1, workspacePostOn (lit "w") (lit "h")), (2, sessionPost (lit "s") (lit "w")),
    (3, sessionPost (lit "t") (lit "w")), (4, sessionDeletion (lit "s"))] ++
  .reboot (calm 5) :: script [(6, workspacePostOn (lit "v") (lit "h")), (7, workspaceDelete (lit "v"))] 4

theorem answers_survive_after_deletions :
    ((server 0).run (State.startUp (lit "/state") .empty) sessionsComeAndGo).store.sessions.keys = [lit "t"] ∧
      AnswerAlike ((server 0).run (State.startUp (lit "/state") .empty) sessionsComeAndGo).store
        ((server 0).run (State.startUp (lit "/state") .empty) sessionsComeAndGo).store.restart := by
  refine ⟨by decide +kernel, answers_survive_restart 0 (lit "/state") .empty (fun _ _ => rfl) _ ?_
    (by decide +kernel)⟩
  intro label member
  rcases List.mem_append.mp member with first | rest
  · exact script_removing _ 0 label first
  · cases List.mem_cons.mp rest with
    | inl reboot =>
        subst reboot
        trivial
    | inr second => exact script_removing _ 4 label second

def isNull : Json → Bool
  | .null => true
  | _ => false

def nullExtra : Json → Bool
  | .obj fields => fields.any fun field => decide (field.1 = lit "extra") && isNull field.2
  | _ => false

/-- How many workspaces of a list have `null` for `extra`. -/
def nullExtras (r : Response) : Nat :=
  match r.body.valid with
  | .arr items => items.countP nullExtra
  | _ => 0

theorem Alike.nullExtras {r r' : Response} (alike : Alike r r') : nullExtras r = nullExtras r' := by
  rcases alike.2 with same | ⟨items, items', body, body', perm⟩
  · rw [Stub.nullExtras, Stub.nullExtras, same]
  · simp only [Stub.nullExtras, body, body', Json.valid, validItems_eq]
    exact perm.countP_eq _

/-- An `extra` object without fields is written as none at all, and read back as `null`. -/
theorem not_alike_without_extra :
    ¬∀ startedAt root disk, EmptyRoot root disk → ∀ labels, (∀ label ∈ labels, label.Within removing) →
      (∀ entry ∈ ((server startedAt).run (State.startUp root disk) labels).log, stored entry.event = true) →
        AnswerAlike ((server startedAt).run (State.startUp root disk) labels).store
          ((server startedAt).run (State.startUp root disk) labels).store.restart := by
  intro always_alike
  have alike := (always_alike 0 (lit "/state") .empty (fun _ _ => rfl)
    (script [(1, workspacePost (lit "w"))]) (script_removing _ 0) (by decide +kernel)
    (fun _ => calm 2) (fun _ => calm 2)).1 ⟨methodGet, lit "/experimental/workspace", noBody⟩ rfl
  have counts := alike.nullExtras
  revert counts
  decide +kernel

end OpencodeRemote.Stub
