import OpencodeRemote.Stub.Consumption

/-! # What a deletion ends

Rights are looked up by the id of a workspace, in approvals which a deletion leaves where
they are. What is shown here is which runs nevertheless end all rights with the workspace.
-/

namespace OpencodeRemote.Stub

open Concurrency Data Filepath

def deletedView (_ : List StubEvent) : StubEvent → Option GoString
  | ⟨.deleteWorkspace id, _⟩ => some id
  | _ => none

def createdView (_ : List StubEvent) : StubEvent → Option GoString
  | ⟨.createWorkspace ws, none⟩ => some ws.id
  | _ => none

/-- Entry `i` deletes this workspace. -/
def deleted (log : Log) (i : Nat) : Option GoString := observe deletedView log i

/-- Entry `i` creates this workspace, without an error. -/
def created (log : Log) (i : Nat) : Option GoString := observe createdView log i

/-- After a deletion no command runs for the workspace until it has been created again and
    then an approving reply has been given to one of its requests. -/
def RightsEnd (log : Log) : Prop :=
  ∀ d workspaceID, deleted log d = some workspaceID →
    ∀ i se cwd, ran log i = some (se, cwd) → se.workspaceID = workspaceID → d < i →
      ∃ j k p reply, d < j ∧ j < k ∧ k < i ∧ created log j = some workspaceID ∧
        replied log k = some (p, reply) ∧ Approving reply ∧ p.workspaceID = workspaceID

/-! ## Steps that leave no rights behind -/

/-- The approvals in memory and those that a restart would read. -/
def onHand (s : State) : List Approval :=
  s.approvals.values ++ (files s.approvalsDir s.disk).filterMap fun file => unmarshalApproval file.2

theorem mem_onHand {s : State} {a : Approval} :
    a ∈ onHand s ↔ (∃ id, s.approvals.get id = some a) ∨
      ∃ name data, s.disk.get (s.approvalsDir.child name) = some data ∧ unmarshalApproval data = some a := by
  simp only [onHand, List.mem_append, OrderedMap.mem_values, List.mem_filterMap, Prod.exists, mem_files]

/-- A workspace or session record that the operation writes where approvals are read from,
    as it reads there. -/
def misfiled (s : State) : Op → Option Approval
  | .createApproval _ => none
  | o => (written s o).bind fun file =>
      if (entryOf s.approvalsDir file.1).isSome then unmarshalApproval file.2 else none

def threadOf (log : Log) (i : Nat) : Option Nat := log[i]?.map Entry.thread

def deletes : Op → Option GoString
  | .deleteWorkspace id => some id
  | _ => none

/-- What has been deleted by entry `n` was deleted before entry `k`. -/
def NotDeletedSince (log : Log) (workspaceID : GoString) (k n : Nat) : Prop :=
  ∀ d < n, deleted log d = some workspaceID → d < k

/-- What has been deleted by entry `n` had come back before entry `r`. -/
def BackBy (log : Log) (workspaceID : GoString) (r n : Nat) : Prop :=
  ∀ d < n, deleted log d = some workspaceID → ∃ j < r, d < j ∧ created log j = some workspaceID

instance (log : Log) (workspaceID : GoString) (k n : Nat) : Decidable (NotDeletedSince log workspaceID k n) :=
  inferInstanceAs (Decidable (∀ _ < _, _ → _))

instance (log : Log) (workspaceID : GoString) (r n : Nat) : Decidable (BackBy log workspaceID r n) :=
  inferInstanceAs (Decidable (∀ _ < _, _ → ∃ _ < _, _))

/-- Entry `n` leaves no rights to a deleted workspace. -/
structure Clears (log : Log) (n : Nat) : Prop where
  /-- If it deletes a workspace, no approval of the workspace is on hand. -/
  deletion : ∀ entry ∈ log[n]?, ∀ workspaceID ∈ deletes entry.event.op, ∀ a ∈ onHand entry.before,
    a.workspaceID ≠ workspaceID
  /-- If it runs a command, the workspace has not been deleted since the approval was found. -/
  command : ∀ executed ∈ ran log n, ∀ k < n, (found log k).isSome → threadOf log k = threadOf log n →
    NotDeletedSince log executed.1.workspaceID k n
  /-- If it stores an approval, the workspace has come back before the reply to the request. -/
  reply : ∀ grant ∈ granted log n, ∀ r < n, (replied log r).isSome → threadOf log r = threadOf log n →
    BackBy log grant.2.workspaceID r n
  /-- It writes nothing else that reads as an approval of a deleted workspace. -/
  record : ∀ entry ∈ log[n]?, ∀ a ∈ misfiled entry.before entry.event.op,
    ∀ d < n, deleted log d ≠ some a.workspaceID

instance (log : Log) (n : Nat) : Decidable (Clears log n) :=
  decidable_of_iff (_ ∧ _ ∧ _ ∧ _) ⟨fun ⟨deletion, command, reply, record⟩ => ⟨deletion, command, reply, record⟩,
    fun ⟨deletion, command, reply, record⟩ => ⟨deletion, command, reply, record⟩⟩

/-- The runs in which every deletion finds the workspace without rights, and none come back
    before the workspace does. -/
def Cleared (log : Log) : Prop := ∀ n < log.length, Clears log n

instance (log : Log) : Decidable (Cleared log) := inferInstanceAs (Decidable (∀ _ < _, _))

theorem threadOf_eq {log : Log} {i j : Nat} (same : SameThread log i j) : threadOf log i = threadOf log j := by
  obtain ⟨thread, ⟨event, s, at_i⟩, event', s', at_j⟩ := same
  simp [threadOf, at_i, at_j]

theorem misfiled_of_written {s : State} {o : Op} {name : GoString} {record : FileData} {a : Approval}
    (wrote : written s o = some (s.approvalsDir.child name, record))
    (read : unmarshalApproval record = some a) :
    (∃ b, o = .createApproval b ∧ a = b.reread) ∨ misfiled s o = some a := by
  have here : (entryOf s.approvalsDir (s.approvalsDir.child name)).isSome = true := by
    rw [entryOf_eq_some.mpr rfl]
    rfl
  cases o with
  | createApproval b =>
      cases (Prod.mk.inj (Option.some.inj wrote)).2
      cases read
      exact .inl ⟨b, rfl, rfl⟩
  | createWorkspace ws => exact .inr (by simp [misfiled, wrote, here, read])
  | createSession se => exact .inr (by simp [misfiled, wrote, here, read])
  | _ => cases wrote

theorem deleted_snoc {log : Log} {thread : Nat} {s : State} {o : Op} {r : Res o} {d : Nat}
    {workspaceID : GoString} (here : deleted (log ++ [⟨thread, s, ⟨o, r⟩⟩]) d = some workspaceID) :
    deleted log d = some workspaceID ∨ d = log.length ∧ deletes o = some workspaceID := by
  rcases observe_snoc.mp here with older | ⟨rfl, viewed⟩
  · exact .inl older
  · cases o with
    | deleteWorkspace id => exact .inr ⟨rfl, viewed⟩
    | _ => cases viewed

/-! ## Runs -/

/-- While the workspace has an approval on hand after a deletion, one has been granted to it
    since, and so it has when a lookup found one. -/
structure Ended (s : State) (log : Log) : Prop where
  hand : ∀ d workspaceID, deleted log d = some workspaceID → ∀ a ∈ onHand s,
    a.workspaceID = workspaceID →
      ∃ m p b, d < m ∧ granted log m = some (p, b) ∧ b.workspaceID = workspaceID
  lookup : ∀ k workspaceID cwd a, found log k = some (workspaceID, cwd, a) → ∀ d < k,
    deleted log d = some workspaceID →
      ∃ m p b, d < m ∧ m < k ∧ granted log m = some (p, b) ∧ b.workspaceID = workspaceID

section Snoc

variable {log : Log} {entry : StubEntry}

theorem observe_init {β : Type} {view : List StubEvent → StubEvent → Option β} {i : Nat}
    (inside : i < log.length) : observe view (log ++ [entry]) i = observe view log i := by
  simp only [observe]
  rw [List.getElem?_append_left inside, List.take_append_of_le_length (Nat.le_of_lt inside)]

theorem threadOf_init {i : Nat} (inside : i < log.length) :
    threadOf (log ++ [entry]) i = threadOf log i := by
  rw [threadOf, List.getElem?_append_left inside, threadOf]

theorem Cleared.init (cleared : Cleared (log ++ [entry])) : Cleared log := by
  intro n inside
  have clears := cleared n (by rw [List.length_append]; omega)
  have same : (log ++ [entry])[n]? = log[n]? := List.getElem?_append_left inside
  constructor
  · exact same ▸ clears.deletion
  · intro executed ran_n k before found_k together d early deleted_d
    have inside_k := Nat.lt_trans before inside
    apply clears.command executed (observe_mono ran_n) k before _ _ d early (observe_mono deleted_d)
    · rwa [found, observe_init inside_k]
    · rwa [threadOf_init inside_k, threadOf_init inside]
  · intro grant granted_n r before replied_r together d early deleted_d
    have inside_r := Nat.lt_trans before inside
    obtain ⟨j, first, between, created_j⟩ := clears.reply grant (observe_mono granted_n) r before
      (by rwa [replied, observe_init inside_r]) (by rwa [threadOf_init inside_r, threadOf_init inside]) d early
      (observe_mono deleted_d)
    rw [created, observe_init (Nat.lt_trans first inside_r)] at created_j
    exact ⟨j, first, between, created_j⟩
  · intro e at_n a misfiled_a d early deleted_d
    exact clears.record e (by rwa [same]) a misfiled_a d early (observe_mono deleted_d)

end Snoc

/-- An approval on hand after an operation was on hand before, or it has just been granted,
    or another record has been written that reads as one. -/
theorem onHand_origin {env : Env} {o : Op} {s : State} {a : Approval} (held : a ∈ onHand (exec env o s).2) :
    a ∈ onHand s ∨ (∃ b, o = .createApproval b ∧ b.workspaceID = a.workspaceID) ∨ misfiled s o = some a := by
  rw [mem_onHand] at held ⊢
  rcases held with ⟨id, inMemory⟩ | ⟨name, data, here, read⟩
  · rcases approval_origin inMemory with before | ⟨rfl, -⟩
    · exact .inl (.inl ⟨id, before⟩)
    · exact .inr (.inl ⟨a, rfl, rfl⟩)
  · rcases record_origin here read with before | wrote
    · exact .inl (.inr ⟨name, data, before, read⟩)
    · rcases misfiled_of_written wrote read with ⟨b, rfl, rfl⟩ | misfiled_a
      · exact .inr (.inl ⟨b, rfl, rfl⟩)
      · exact .inr (.inr misfiled_a)

theorem onHand_restart {s : State} {a : Approval} (held : a ∈ onHand s.restart) : a ∈ onHand s := by
  rw [mem_onHand] at held ⊢
  rcases held with ⟨id, loaded⟩ | onDisk
  · exact .inr (restart_origin loaded).2
  · exact .inr onDisk

theorem ended_preserved (startedAt : Int) :
    (server startedAt).Preserves Protocol {} fun s log => Cleared log → Ended s log := by
  intro s log thread o env _ lawful inv cleared
  have ended := inv cleared.init
  have clears := cleared log.length (by simp)
  change Ended (exec env o s).2 (log ++ [⟨thread, s, ⟨o, (exec env o s).1⟩⟩])
  change Clears (log ++ [⟨thread, s, ⟨o, (exec env o s).1⟩⟩]) log.length at clears
  constructor
  · intro d workspaceID deleted_d a held own
    rcases deleted_snoc deleted_d with older | ⟨rfl, here⟩
    · rcases onHand_origin held with before | ⟨b, rfl, same⟩ | misfiled_a
      · obtain ⟨m, p, b, after, granted_m, own_b⟩ := ended.hand d workspaceID older a before own
        exact ⟨m, p, b, after, observe_mono granted_m, own_b⟩
      · obtain ⟨p, granted_now⟩ := granted_of_at lawful (at_last log thread s ⟨.createApproval b, _⟩)
        exact ⟨log.length, p, b, observe_lt older, granted_now, same.trans own⟩
      · have named := clears.record ⟨thread, s, ⟨o, (exec env o s).1⟩⟩ (by simp) a misfiled_a d (observe_lt older)
        rw [own] at named
        exact absurd (observe_mono older) named
    · have none_before := clears.deletion ⟨thread, s, ⟨o, (exec env o s).1⟩⟩ (by simp) workspaceID here
      rcases onHand_origin held with before | ⟨b, rfl, -⟩ | misfiled_a
      · exact absurd own (none_before a before)
      · cases here
      · cases o with
        | deleteWorkspace id => cases misfiled_a
        | _ => cases here
  · intro k workspaceID cwd a found_k d early deleted_d
    have older : deleted log d = some workspaceID := by
      rcases deleted_snoc deleted_d with older | ⟨rfl, -⟩
      · exact older
      · have := observe_lt found_k
        simp only [List.length_append, List.length_singleton] at this
        omega
    rcases observe_snoc.mp found_k with before | ⟨rfl, viewed⟩
    · obtain ⟨m, p, b, after, m_early, granted_m, own⟩ := ended.lookup k workspaceID cwd a before d early older
      exact ⟨m, p, b, after, m_early, observe_mono granted_m, own⟩
    · obtain ⟨rfl, -, id, hit⟩ := consumeApproval_of_foundView viewed
      obtain ⟨stored, own, -⟩ := State.findApproval_some hit
      obtain ⟨m, p, b, after, granted_m, own_b⟩ :=
        ended.hand d workspaceID older a (mem_onHand.mpr (.inl ⟨id, stored⟩)) own
      exact ⟨m, p, b, after, observe_lt granted_m, observe_mono granted_m, own_b⟩

theorem run_ended (startedAt : Int) (s : State) (labels : List StubLabel)
    (cleared : Cleared ((server startedAt).run s labels).log) :
    Ended ((server startedAt).run s labels).store ((server startedAt).run s labels).log := by
  have restarted : ∀ (s : State) (log : Log), (Cleared log → Ended s log) → Cleared log → Ended s.restart log := by
    intro s log inv cleared
    have ended := inv cleared
    refine ⟨fun d workspaceID deleted_d a held => ?_, ended.lookup⟩
    exact ended.hand d workspaceID deleted_d a (onHand_restart held)
  have start : Cleared [] → Ended s [] := fun _ => ⟨nofun, nofun⟩
  have within : ∀ label ∈ labels, label.Within {} := fun label _ => label.within_default
  exact Machine.run_invariant (fun s log => Cleared log → Ended s log) (ended_preserved startedAt)
    (fun request _ => serve_obeys startedAt request) (fun s log _ _ => restarted s log) start within cleared

/-- In every run, from any state directory and with any restarts, in which deletions find
    workspaces without rights and none come back before the workspace does, the rights of a
    workspace end with its deletion. -/
theorem rightsEnd_of_cleared (startedAt : Int) (root : GoString) (disk : OrderedMap CleanPath FileData)
    (labels : List StubLabel)
    (cleared : Cleared ((server startedAt).run (State.startUp root disk) labels).log) :
    RightsEnd ((server startedAt).run (State.startUp root disk) labels).log := by
  have ended := run_ended startedAt (State.startUp root disk) labels cleared
  have lawful : Lawful Protocol ((server startedAt).run (State.startUp root disk) labels).log :=
    run_protocol fun label _ => label.within_default
  intro d workspaceID deleted_d i se cwd executed own after
  subst own
  obtain ⟨k, before, a, lookup, same⟩ := ran_found lawful executed
  have d_first := (cleared i (observe_lt executed)).command (se, cwd) executed k before (by rw [lookup]; rfl)
    (threadOf_eq same.symm) d after deleted_d
  obtain ⟨m, p, b, d_m, m_k, granted_m, own⟩ := ended.lookup k _ cwd a lookup d d_first deleted_d
  obtain ⟨⟨r, r_m, answered, together⟩, approving, repeated, -⟩ := granted_replied lawful granted_m
  obtain ⟨j, j_r, d_j, created_j⟩ := (cleared m (observe_lt granted_m)).reply (p, b) granted_m r r_m
    (by rw [answered]; rfl) (threadOf_eq together.symm) d d_m (by rw [own]; exact deleted_d)
  exact ⟨j, r, p, b.mode, d_j, j_r, by omega, own ▸ created_j, answered, approving, by rw [← repeated, own]⟩

def workspaceDelete (id : GoString) : Request :=
  ⟨methodDelete, lit "/experimental/workspace/" ++ id, noBody⟩

/-- Workspace `w` is deleted after its one approval has been used, and created again. After
    a restart a new request is approved and the command runs. -/
def deletedAndBack : List StubLabel :=
  script [(1, workspacePost (lit "w")), (2, sessionPost (lit "s") (lit "w")),
    (3, shellPost (lit "s") (lit "/srv/app")), (4, replyPost (lit "perm_3") once),
    (5, shellPost (lit "s") (lit "/srv/app")), (6, workspaceDelete (lit "w")),
    (7, workspacePost (lit "w"))] ++
  .reboot (calm 8) :: script [(9, shellPost (lit "s") (lit "/srv/app")),
    (10, replyPost (lit "perm_9") always), (11, shellPost (lit "s") (lit "/srv/app"))] 7

/-- Workspace `w` is deleted while an approval of it is left. -/
def deletedWithApproval : List StubLabel :=
  script [(1, workspacePost (lit "w")), (2, sessionPost (lit "s") (lit "w")),
    (3, shellPost (lit "s") (lit "/srv/app")), (4, replyPost (lit "perm_3") always),
    (5, workspaceDelete (lit "w")), (6, shellPost (lit "s") (lit "/srv/app"))]

theorem rightsEnd_of_deletion_and_return :
    Cleared ((server 0).run (State.startUp (lit "/state") .empty) deletedAndBack).log ∧
      RightsEnd ((server 0).run (State.startUp (lit "/state") .empty) deletedAndBack).log :=
  have cleared : Cleared ((server 0).run (State.startUp (lit "/state") .empty) deletedAndBack).log := by
    decide +kernel
  ⟨cleared, rightsEnd_of_cleared 0 (lit "/state") .empty deletedAndBack cleared⟩

/-- The approval of the deleted workspace still lets a command run. -/
theorem not_rightsEnd_with_approval :
    ¬∀ startedAt root disk labels,
      RightsEnd ((server startedAt).run (State.startUp root disk) labels).log := by
  intro rights_end
  have ended := rights_end 0 (lit "/state") .empty deletedWithApproval
  have executed : ran ((server 0).run (State.startUp (lit "/state") .empty) deletedWithApproval).log 27 =
      some (⟨lit "s", lit "w", [], lit "/root", ⟨lit "idle", []⟩, 2, 2⟩, lit "/srv/app") := by
    decide +kernel
  have never_back : ∀ j < 27, 23 < j →
      created ((server 0).run (State.startUp (lit "/state") .empty) deletedWithApproval).log j = none := by
    decide +kernel
  obtain ⟨j, k, p, reply, after, early, before, back, -⟩ :=
    ended 23 (lit "w") (by decide +kernel) 27 _ _ executed rfl (by omega)
  rw [never_back j (by omega) after] at back
  cases back

end OpencodeRemote.Stub
