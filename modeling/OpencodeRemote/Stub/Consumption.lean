import OpencodeRemote.Stub.Persistence

/-! # Used up for good

An approval that is used up goes in two steps, from memory and from the disk, and the
second can fail unnoticed. What follows is about one approval after its use, through any
later operations and any number of restarts.
-/

namespace OpencodeRemote.Stub

open Concurrency Data Filepath

/-- What can happen to the store afterwards. -/
inductive Later where
  | op (o : Op) (env : Env)
  | restart

def Later.apply (s : State) : Later → State
  | .op o env => (exec env o s).2
  | .restart => s.restart

/-- The two are one approval, as far as a file can tell. -/
def SameRecord (a b : Approval) : Prop := b.reread = a.reread

theorem SameRecord.same_id {a b : Approval} (same : SameRecord a b) : b.id = a.id := by
  have reread : b.reread.id = a.reread.id := congrArg Approval.id same
  exact reread

theorem SameRecord.same_mode {a b : Approval} (same : SameRecord a b) : b.mode = a.mode := by
  have reread : b.reread.mode = a.reread.mode := congrArg Approval.mode same
  exact reread

/-- No later lookup finds the approval, unless it is granted anew. -/
def GoneForGood (s : State) (a : Approval) : Prop :=
  ∀ laters : List Later, (∀ b env, .op (.createApproval b) env ∈ laters → ¬SameRecord a b) →
    ∀ env workspaceID path b,
      ((laters.foldl Later.apply s).consumeApproval env workspaceID path).1 = some b ∨
        (laters.foldl Later.apply s).checkApproval env workspaceID path = some b →
      ¬SameRecord a b

/-- Of the files in the approvals directory only the approval's own is read as the approval,
    if any, and that one is removed. -/
def LeavesNoFile (env : Env) (s : State) (a : Approval) : Prop :=
  ∀ file ∈ files s.approvalsDir s.disk, unmarshalApproval file.2 = some a.reread →
    s.approvalsDir.child file.1 = s.approvalPath a.id ∧ env.survives (s.approvalPath a.id) = false

instance (env : Env) (s : State) (a : Approval) : Decidable (LeavesNoFile env s a) :=
  inferInstanceAs (Decidable (∀ _ ∈ _, _))

/-! ## Records and files -/

/-- Only approvals are good for one use. -/
theorem approval_of_once {data : FileData} {a : Approval} (read : unmarshalApproval data = some a)
    (single : a.mode = once) : ∃ b, data = .approval b ∧ a = b.reread := by
  have named : ([] : GoString) ≠ once := by decide
  cases data with
  | approval b =>
      cases read
      exact ⟨b, rfl, rfl⟩
  | garbled => cases read
  | workspace ws =>
      cases read
      exact absurd single named
  | session se =>
      cases read
      exact absurd single named

theorem createApproval_of_written {s : State} {o : Op} {p : CleanPath} {a : Approval}
    (wrote : written s o = some (p, .approval a)) : o = .createApproval a := by
  cases o with
  | createApproval b =>
      cases (Prod.mk.inj (Option.some.inj wrote)).2
      rfl
  | createWorkspace ws => cases (Prod.mk.inj (Option.some.inj wrote)).2
  | createSession se => cases (Prod.mk.inj (Option.some.inj wrote)).2
  | _ => cases wrote

theorem exec_approvalsDir {env : Env} {o : Op} {s : State} :
    (exec env o s).2.approvalsDir = s.approvalsDir := by
  rw [State.approvalsDir, exec_root, State.approvalsDir]

/-- A record that can be read from the approvals directory after an operation could be read
    there before, or the operation has written it. -/
theorem record_origin {env : Env} {o : Op} {s : State} {name : GoString} {data : FileData} {a : Approval}
    (here : (exec env o s).2.disk.get ((exec env o s).2.approvalsDir.child name) = some data)
    (read : unmarshalApproval data = some a) :
    s.disk.get (s.approvalsDir.child name) = some data ∨
      written s o = some (s.approvalsDir.child name, data) := by
  rw [exec_approvalsDir] at here
  rcases file_origin here with before | ⟨record, wrote, rfl | rfl⟩
  · exact .inl before
  · exact .inr wrote
  · cases read

/-- What a restart has in memory it has read from a file. -/
theorem restart_origin {s : State} {id : GoString} {a : Approval}
    (loaded : s.restart.approvals.get id = some a) :
    a.id = id ∧ ∃ name data, s.disk.get (s.approvalsDir.child name) = some data ∧
      unmarshalApproval data = some a := by
  obtain ⟨own, ⟨name, data⟩, member, read⟩ := load_origin loaded
  exact ⟨own, name, data, mem_files.mp member, read⟩

/-! ## One approval -/

/-- The approval is neither in memory nor in its directory. -/
structure Absent (s : State) (a : Approval) : Prop where
  memory : ∀ id b, s.approvals.get id = some b → ¬SameRecord a b
  disk : ∀ name data, s.disk.get (s.approvalsDir.child name) = some data →
    unmarshalApproval data ≠ some a.reread

theorem absent_preserved {s : State} {a : Approval} (absent : Absent s a) (single : a.mode = once)
    {later : Later} (other : ∀ b env, later = .op (.createApproval b) env → ¬SameRecord a b) :
    Absent (later.apply s) a := by
  cases later with
  | restart =>
      refine ⟨fun id b loaded same => ?_, absent.disk⟩
      obtain ⟨-, name, data, here, read⟩ := restart_origin loaded
      have mode : b.mode = once := same.same_mode.trans single
      obtain ⟨c, rfl, rfl⟩ := approval_of_once read mode
      rw [SameRecord, Approval.reread_reread] at same
      exact absent.disk name _ here (congrArg some same)
  | op o env =>
      constructor
      · intro id b inMemory
        rcases approval_origin inMemory with before | ⟨rfl, -⟩
        · exact absent.memory id b before
        · exact other b env rfl
      · intro name data here read
        rcases record_origin here read with before | wrote
        · exact absent.disk name data before read
        · obtain ⟨b, rfl, same⟩ := approval_of_once read single
          exact other b env (by rw [createApproval_of_written wrote]) same.symm

theorem goneForGood_of_absent {s : State} {a : Approval} (absent : Absent s a) (single : a.mode = once) :
    GoneForGood s a := by
  intro laters others
  have still : Absent (laters.foldl Later.apply s) a := by
    induction laters generalizing s with
    | nil => exact absent
    | cons later rest ih =>
        have first : ∀ b env, later = .op (.createApproval b) env → ¬SameRecord a b :=
          fun b env same => others b env (same ▸ List.mem_cons_self)
        exact ih (absent_preserved absent single first)
          fun b env member => others b env (List.mem_cons_of_mem _ member)
  intro env workspaceID path b found
  rcases found with consumed | checked
  · obtain ⟨id, hit⟩ := consumeApproval_some consumed
    exact still.memory id b (State.findApproval_some hit).1
  · obtain ⟨⟨id, b⟩, hit, rfl⟩ := Option.map_eq_some_iff.mp checked
    exact still.memory id b (State.findApproval_some hit).1

/-! ## What a file brings back -/

/-- Everything in the approvals directory is removed except for one file. -/
def sweep (kept : CleanPath) (env : Env) : Later :=
  .op (.deleteWorkspace (lit "../approvals")) { env with survives := fun p => decide (p = kept) }

theorem sweep_disk (s : State) (env : Env) (kept name : GoString) :
    ((sweep (s.approvalsDir.child kept) env).apply s).disk.get (s.approvalsDir.child name) =
      if name = kept then s.disk.get (s.approvalsDir.child name) else none := by
  have under : s.approvalsDir.Under (s.approvalsDir.child name) := ⟨rfl, List.prefix_append _ _⟩
  change (removeAll _ (s.workspaceDir (lit "../approvals")) s.disk).get _ = _
  rw [removeAll, OrderedMap.get_eraseAll, s.workspaceDir_approvals]
  by_cases same : name = kept
  · simp [same]
  · have different : s.approvalsDir.child name ≠ s.approvalsDir.child kept :=
      fun here => same (CleanPath.child_injective here)
    simp [same, under, different]

/-- A file that is still read as the approval brings it back: at the latest after a restart
    that finds nothing else in the directory. -/
theorem not_gone_of_file {s : State} {a : Approval} {name : GoString} {data : FileData}
    (here : s.disk.get (s.approvalsDir.child name) = some data)
    (read : unmarshalApproval data = some a.reread) (env : Env) : ¬GoneForGood s a := by
  intro gone
  let swept := (sweep (s.approvalsDir.child name) env).apply s
  have there : swept.disk.get (swept.approvalsDir.child name) = some data :=
    (sweep_disk s env name name).trans (by simpa using here)
  have loaded := @load_complete _ unmarshalApproval Approval.id _ _ a.reread (mem_files.mpr there) read
  obtain ⟨b, found⟩ := Option.isSome_iff_exists.mp loaded
  change swept.restart.approvals.get a.id = some b at found
  have same : b = a.reread := by
    obtain ⟨-, other, data', there', read'⟩ := restart_origin found
    rw [show swept.approvalsDir = s.approvalsDir from rfl, sweep_disk] at there'
    split at there'
    · rename_i alone
      subst alone
      cases here.symm.trans there'
      exact Option.some.inj (read'.symm.trans read)
    · cases there'
  subst same
  have matched : matchPattern a.reread.pattern a.reread.pattern = true := by simp [matchPattern]
  have met : swept.restart.findApproval { env with order := [a.id] } a.workspaceID a.reread.pattern =
      some (a.id, a.reread) := State.findApproval_first found rfl matched rfl
  refine gone [sweep (s.approvalsDir.child name) env, .restart] (by simp [sweep])
    { env with order := [a.id] } a.workspaceID a.reread.pattern a.reread (.inr ?_) a.reread_reread
  exact congrArg (Option.map Prod.snd) met

/-! ## The use -/

/-- Approvals are stored under their ids. -/
def Keyed (s : State) : Prop := ∀ id a, s.approvals.get id = some a → a.id = id

/-- An approval that a lookup uses up is gone for good exactly if no file is left that is
    read as the approval. -/
theorem goneForGood_iff {s : State} (keyed : Keyed s) {env : Env} {workspaceID path : GoString}
    {a : Approval} (single : a.mode = once)
    (consumed : (s.consumeApproval env workspaceID path).1 = some a) :
    GoneForGood (s.consumeApproval env workspaceID path).2 a ↔ LeavesNoFile env s a := by
  obtain ⟨id, hit⟩ := consumeApproval_some consumed
  obtain ⟨stored, own, matched⟩ := State.findApproval_some hit
  obtain rfl := keyed id a stored
  have used : (s.consumeApproval env workspaceID path).2 = { s with
      approvals := s.approvals.erase a.id
      disk := remove env (s.approvalPath a.id) s.disk } := by
    simp only [State.consumeApproval, hit, single, if_true]
  generalize (s.consumeApproval env workspaceID path).2 = s' at used ⊢
  subst used
  constructor
  · intro gone file member read
    by_contra left
    have kept : (remove env (s.approvalPath a.id) s.disk).get (s.approvalsDir.child file.1) = some file.2 := by
      rw [remove, OrderedMap.get_eraseAll, mem_files.mp member]
      simp only [Bool.and_eq_true, decide_eq_true_eq, Bool.not_eq_true', ite_eq_right_iff]
      rintro ⟨same, removed⟩
      exact absurd ⟨same, same ▸ removed⟩ left
    exact not_gone_of_file kept read env gone
  · intro leaves
    apply goneForGood_of_absent _ single
    constructor
    · intro id b inMemory same
      change (s.approvals.erase a.id).get id = some b at inMemory
      rw [OrderedMap.get_erase] at inMemory
      split at inMemory
      · cases inMemory
      · rename_i other
        exact other ((keyed id b inMemory).symm.trans same.same_id)
    · intro name data here read
      change (remove env (s.approvalPath a.id) s.disk).get (s.approvalsDir.child name) = _ at here
      rw [remove, OrderedMap.get_eraseAll] at here
      split at here
      · cases here
      · rename_i kept
        obtain ⟨path, removed⟩ := leaves (name, data) (mem_files.mpr here) read
        simp [path, removed] at kept

/-! ## Runs -/

theorem run_keyed (startedAt : Int) (root : GoString) (disk : OrderedMap CleanPath FileData)
    (labels : List StubLabel) : Keyed ((server startedAt).run (State.startUp root disk) labels).store := by
  have loaded : ∀ s : State, Keyed s.restart := fun s id a found => (restart_origin found).1
  have kept : (server startedAt).Preserves Protocol {} fun s _ => Keyed s := by
    intro s log thread o env _ _ keyed id a inMemory
    rcases approval_origin inMemory with before | ⟨-, own⟩
    · exact keyed id a before
    · exact own
  -- a start is a restart over empty memory
  exact Machine.run_invariant (fun s _ => Keyed s) kept (fun request _ => serve_obeys startedAt request)
    (fun s _ _ _ _ => loaded s) (loaded (State.new root disk)) fun label _ => label.within_default

/-- In every run from any disk, with any failures of the disk and any restarts, whatever a
    lookup uses up is gone for good if and only if no file is left that is read as it. -/
theorem gone_iff_removed (startedAt : Int) (root : GoString) (disk : OrderedMap CleanPath FileData)
    (labels : List StubLabel) (env : Env) (workspaceID path : GoString) (a : Approval)
    (single : a.mode = once)
    (consumed : (((server startedAt).run (State.startUp root disk) labels).store.consumeApproval env
      workspaceID path).1 = some a) :
    GoneForGood (((server startedAt).run (State.startUp root disk) labels).store.consumeApproval env
        workspaceID path).2 a ↔
      LeavesNoFile env ((server startedAt).run (State.startUp root disk) labels).store a :=
  goneForGood_iff (run_keyed startedAt root disk labels) single consumed

/-- One approval for `/srv/app`, good for one use. -/
def oneApproval : List StubLabel :=
  script [(1, workspacePost (lit "w")), (2, sessionPost (lit "s") (lit "w")),
    (3, shellPost (lit "s") (lit "/srv/app")), (4, replyPost (lit "perm_3") once)]

def srvApproval : Approval :=
  ⟨lit "apr_4", lit "w", lit "default", lit "path.access", lit "/srv/app/**", once, 4⟩

theorem gone_after_removal :
    GoneForGood (((server 0).run (State.startUp (lit "/state") .empty) oneApproval).store.consumeApproval
      (calm 5) (lit "w") (lit "/srv/app")).2 srvApproval :=
  (gone_iff_removed 0 (lit "/state") .empty oneApproval (calm 5) (lit "w") (lit "/srv/app") srvApproval rfl
    (by decide +kernel)).mpr (by decide +kernel)

/-- Files cannot be removed. -/
def undeletable : Env := { calm 5 with survives := fun _ => true }

/-- The file stays and the restarted stub reads it again. -/
theorem not_gone_when_file_survives :
    ¬∀ (startedAt : Int) (root : GoString) (disk : OrderedMap CleanPath FileData) (labels : List StubLabel)
        (env : Env) (workspaceID path : GoString) (a : Approval), a.mode = once →
      (((server startedAt).run (State.startUp root disk) labels).store.consumeApproval env
        workspaceID path).1 = some a →
      GoneForGood (((server startedAt).run (State.startUp root disk) labels).store.consumeApproval env
        workspaceID path).2 a := by
  intro always_gone
  have gone := always_gone 0 (lit "/state") .empty oneApproval undeletable (lit "w") (lit "/srv/app")
    srvApproval rfl (by decide +kernel)
  exact gone [.restart] (by simp) (calm 6) (lit "w") (lit "/srv/app") srvApproval
    (.inr (by decide +kernel)) rfl

end OpencodeRemote.Stub
