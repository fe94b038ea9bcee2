import OpencodeRemote.Stub.Mirror
import OpencodeRemote.Stub.Deletion

/-! # Which files a record's operations touch

The path of a file is joined from the id of the record and cleaned, and nobody looks at the
id before. The result says for which two records the one can be stored or deleted without
touching the file of the other.
-/

namespace OpencodeRemote.Stub

open Concurrency Data Filepath

inductive Record where
  | workspace (id : GoString)
  | session (id : GoString)
  | approval (id : GoString)
  deriving DecidableEq

inductive Change where
  | store (r : Record)
  | delete (r : Record)
  deriving DecidableEq

namespace Record

def id : Record → GoString
  | .workspace id => id
  | .session id => id
  | .approval id => id

/-- The file that stores the record. -/
def file (root : GoString) : Record → CleanPath
  | .workspace id => (join [root, lit "workspaces", id]).child (lit "workspace.json")
  | .session id => join [root, lit "sessions", id ++ lit ".json"]
  | .approval id => join [root, lit "approvals", id ++ lit ".json"]

end Record

namespace Change

def record : Change → Record
  | .store r => r
  | .delete r => r

/-- The paths that a change names: one file, or a directory and all below it. -/
def Touches (root : GoString) : Change → CleanPath → Prop
  | .store r, p => p = r.file root
  | .delete (.workspace id), p => (join [root, lit "workspaces", id]).Under p
  | .delete r, p => p = r.file root

instance (root : GoString) (change : Change) (p : CleanPath) : Decidable (change.Touches root p) :=
  match change with
  | .store _ => inferInstanceAs (Decidable (_ = _))
  | .delete (.workspace _) => inferInstanceAs (Decidable (CleanPath.Under _ _))
  | .delete (.session _) => inferInstanceAs (Decidable (_ = _))
  | .delete (.approval _) => inferInstanceAs (Decidable (_ = _))

end Change

/-- The change that an operation makes to a record. -/
def changeOf (env : Env) (s : State) : Op → Option Change
  | .createWorkspace ws => some (.store (.workspace ws.id))
  | .createSession se => some (.store (.session se.id))
  | .createApproval a => some (.store (.approval a.id))
  | .deleteWorkspace id => some (.delete (.workspace id))
  | .deleteSession id => some (.delete (.session id))
  | .consumeApproval workspaceID path =>
      match s.findApproval env workspaceID path with
      | some (id, a) => if a.mode = once then some (.delete (.approval id)) else none
      | none => none
  | _ => none

/-- No operation that makes the change writes, removes or reads the file of the other record. -/
def Isolated (root : GoString) (change : Change) (other : Record) : Prop :=
  ∀ env s o, s.root = root → changeOf env s o = some change →
    (exec env o s).2.disk.get (other.file root) = s.disk.get (other.file root) ∧
      ∀ data, (exec env o { s with disk := s.disk.set (other.file root) data }).1 = (exec env o s).1

/-! ## Operations -/

theorem touches_of_written {env : Env} {s : State} {o : Op} {change : Change} {p : CleanPath}
    {record : FileData} (makes : changeOf env s o = some change) (wrote : written s o = some (p, record)) :
    change.Touches s.root p := by
  cases o with
  | createWorkspace ws =>
      cases makes
      cases wrote
      rfl
  | createSession se =>
      cases makes
      cases wrote
      rfl
  | createApproval a =>
      cases makes
      cases wrote
      rfl
  | _ => cases wrote

theorem touches_of_removes {env : Env} {s : State} {o : Op} {change : Change} {p : CleanPath}
    (makes : changeOf env s o = some change) (removes : Removes env s o p) : change.Touches s.root p := by
  cases o with
  | deleteWorkspace id =>
      cases makes
      exact removes
  | deleteSession id =>
      cases makes
      exact removes
  | consumeApproval workspaceID path =>
      obtain ⟨id, a, lookup, single, rfl⟩ := removes
      simp only [changeOf, lookup, single, if_true, Option.some.injEq] at makes
      subst makes
      rfl
  | _ => cases removes

/-- Operations answer from memory. -/
theorem exec_unread (env : Env) (o : Op) (s : State) (disk : OrderedMap CleanPath FileData) :
    (exec env o { s with disk }).1 = (exec env o s).1 := by
  have writes : ∀ path data disk', (writeFile env path data disk').1 = (writeFile env path data s.disk).1 := by
    intro path data disk'
    unfold writeFile
    cases env.write <;> rfl
  cases o with
  | createWorkspace ws => exact writes _ _ _
  | createSession se => exact writes _ _ _
  | createApproval a => exact writes _ _ _
  | consumeApproval workspaceID path =>
      have same : ({ s with disk } : State).findApproval env workspaceID path =
          s.findApproval env workspaceID path := rfl
      simp only [exec, State.consumeApproval, same]
      cases s.findApproval env workspaceID path with
      | none => rfl
      | some entry =>
          simp only
          split <;> rfl
  | _ => rfl

/-! ## Changes that do touch a file -/

/-- A store whose disk holds one file. -/
def holding (root : GoString) (p : CleanPath) : State := State.new root (OrderedMap.empty.set p .garbled)

/-- Some operation that makes the change alters a file at each path the change names. -/
theorem exists_touching {root : GoString} {change : Change} {p : CleanPath} (touches : change.Touches root p) :
    ∃ env s o, s.root = root ∧ changeOf env s o = some change ∧
      (exec env o s).2.disk.get p ≠ s.disk.get p := by
  have present : (holding root p).disk.get p = some .garbled := OrderedMap.get_set_self _ _ _
  have overwritten : ∀ {o : Op} {record : FileData}, written (holding root p) o = some (p, record) →
      record ≠ .garbled → (exec (calm 0) o (holding root p)).2.disk.get p ≠ (holding root p).disk.get p := by
    intro o record wrote other
    rw [file_written wrote rfl, present]
    simpa using other
  have erased : ∀ gone : CleanPath → Bool, gone p = true →
      ((holding root p).disk.eraseAll gone).get p ≠ (holding root p).disk.get p := by
    intro gone here
    rw [OrderedMap.get_eraseAll, here, present]
    simp
  cases change with
  | store r => cases r with
    | workspace id =>
        cases touches
        exact ⟨calm 0, holding root _, .createWorkspace ⟨id, [], [], [], [], [], [], 0, none⟩, rfl, rfl,
          overwritten rfl (by simp)⟩
    | session id =>
        cases touches
        exact ⟨calm 0, holding root _, .createSession ⟨id, [], [], [], ⟨[], []⟩, 0, 0⟩, rfl, rfl,
          overwritten rfl (by simp)⟩
    | approval id =>
        cases touches
        exact ⟨calm 0, holding root _, .createApproval ⟨id, [], [], [], [], [], 0⟩, rfl, rfl,
          overwritten rfl (by simp)⟩
  | delete r => cases r with
    | workspace id =>
        have under : ((holding root p).workspaceDir id).Under p := touches
        refine ⟨calm 0, holding root p, .deleteWorkspace id, rfl, rfl, erased _ ?_⟩
        simpa [calm] using under
    | session id =>
        have here : p = (holding root p).sessionPath id := touches
        refine ⟨calm 0, holding root p, .deleteSession id, rfl, rfl, erased _ ?_⟩
        simpa [calm] using here
    | approval id =>
        have here : p = (holding root p).approvalPath id := touches
        let a : Approval := ⟨id, [], [], [], [], once, 0⟩
        let s : State := { holding root p with approvals := OrderedMap.empty.set id a }
        let env : Env := { calm 0 with order := [id] }
        have lookup : s.findApproval env [] [] = some (id, a) :=
          State.findApproval_first (OrderedMap.get_set_self _ _ _) rfl rfl rfl
        refine ⟨env, s, .consumeApproval [] [], rfl, ?_, ?_⟩
        · simp only [changeOf, lookup]
          rfl
        · simp only [exec, State.consumeApproval, lookup]
          apply erased
          have own : p = s.approvalPath id := here
          simpa [env, calm] using own

/-- A change leaves the file of another record alone exactly if it does not name it. -/
theorem isolated_iff_untouched (root : GoString) (change : Change) (other : Record) :
    Isolated root change other ↔ ¬change.Touches root (other.file root) := by
  constructor
  · intro isolated touches
    obtain ⟨env, s, o, own, makes, altered⟩ := exists_touching touches
    exact altered (isolated env s o own makes).1
  · intro untouched env s o own makes
    subst own
    constructor
    · rcases @exec_file env o s (other.file s.root) with same | ⟨record, wrote, -⟩ | ⟨-, removes, -⟩
      · exact same
      · exact absurd (touches_of_written makes wrote) untouched
      · exact absurd (touches_of_removes makes removes) untouched
    · exact fun data => exec_unread env o s _

/-! ## Plain names -/

/-- Where the file of a record with a plain name lies below the state directory. -/
def Record.names : Record → List GoString
  | .workspace id => [lit "workspaces", id, lit "workspace.json"]
  | .session id => [lit "sessions", id ++ lit ".json"]
  | .approval id => [lit "approvals", id ++ lit ".json"]

theorem workspaceDir_names (root : GoString) {id : GoString} (plain : Plain id) :
    join [root, lit "workspaces", id] =
      ⟨(stateDir root).rooted, (stateDir root).comps ++ [lit "workspaces", id]⟩ :=
  ((State.new root .empty).workspaceDir_eq plain).trans (by simp [CleanPath.child, State.new])

theorem file_names (root : GoString) {r : Record} (plain : Plain r.id) :
    r.file root = ⟨(stateDir root).rooted, (stateDir root).comps ++ r.names⟩ := by
  cases r with
  | workspace id =>
      have dir : join [root, lit "workspaces", id] = _ := workspaceDir_names root plain
      simp [Record.file, Record.names, dir, CleanPath.child]
  | session id =>
      have path := (State.new root .empty).sessionPath_eq plain
      rw [State.sessionsDir_eq] at path
      exact path.trans (by simp [CleanPath.child, State.new, Record.names, Record.id])
  | approval id =>
      have path := (State.new root .empty).approvalPath_eq plain
      rw [State.approvalsDir_eq] at path
      exact path.trans (by simp [CleanPath.child, State.new, Record.names, Record.id])

/-- Records with plain names have files of their own. -/
theorem file_injective {root : GoString} {r r' : Record} (plain : Plain r.id) (plain' : Plain r'.id)
    (same : r.file root = r'.file root) : r = r' := by
  rw [file_names root plain, file_names root plain', CleanPath.mk.injEq, List.append_cancel_left_eq] at same
  have names := same.2
  have apart : lit "sessions" ≠ lit "approvals" := by decide
  cases r <;> cases r' <;> simp_all [Record.names]

/-- Plain names keep every record apart from every other. -/
theorem untouched_of_plain {root : GoString} {change : Change} {other : Record}
    (plain : Plain change.record.id) (plain' : Plain other.id) (different : change.record ≠ other) :
    ¬change.Touches root (other.file root) := by
  intro touches
  have files : ∀ r : Record, Plain r.id → r ≠ other → other.file root ≠ r.file root :=
    fun r plain_r different same => different (file_injective plain_r plain' same.symm)
  cases change with
  | store r => exact files r plain different touches
  | delete r => cases r with
    | workspace id =>
        have under : (join [root, lit "workspaces", id]).Under (other.file root) := touches
        have dir : join [root, lit "workspaces", id] = _ := workspaceDir_names root plain
        rw [dir, file_names root plain'] at under
        have names := (List.prefix_append_right_inj _).mp under.2
        cases other with
        | workspace id' =>
            have same : id = id' := by simpa [Record.names] using names
            exact different (congrArg Record.workspace same)
        | session id' =>
            have first := (List.cons_prefix_cons.mp names).1
            revert first
            decide
        | approval id' =>
            have first := (List.cons_prefix_cons.mp names).1
            revert first
            decide
    | session id => exact files _ plain different touches
    | approval id => exact files _ plain different touches

/-- The store after these requests. -/
def storeAfter (requests : List (Int × Request)) : State :=
  ((server 0).run (State.startUp (lit "/state") .empty) (script requests)).store

/-- Workspace `w` is created, then the workspace with the empty id deleted, whose directory
    is that of all workspaces. -/
theorem not_isolated_from_empty_id :
    (storeAfter [(1, workspacePost (lit "w"))]).disk.keys =
        [Record.file (lit "/state") (.workspace (lit "w"))] ∧
      (storeAfter [(1, workspacePost (lit "w")), (2, workspaceDelete [])]).disk.keys = [] ∧
      ¬∀ root (change : Change) (other : Record), change.record.id ≠ other.id →
        Isolated root change other := by
  refine ⟨by decide +kernel, by decide +kernel, ?_⟩
  intro isolated
  have kept := (isolated (lit "/state") (.delete (.workspace [])) (.workspace (lit "w")) (by decide)
    (calm 2) (storeAfter [(1, workspacePost (lit "w"))]) (.deleteWorkspace []) (by decide +kernel) rfl).1
  have present : ((storeAfter [(1, workspacePost (lit "w"))]).disk.get
      (Record.file (lit "/state") (.workspace (lit "w")))).isSome = true := by
    decide +kernel
  rw [← kept] at present
  revert present
  decide +kernel

end OpencodeRemote.Stub
