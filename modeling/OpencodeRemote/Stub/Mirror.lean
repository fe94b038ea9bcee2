import OpencodeRemote.Stub.Authorisation

/-! # The approvals directory is a copy of memory

From an empty state directory, and under the conditions of the mirror, the approvals
directory never holds anything but the approvals in memory, one file for each.
-/

namespace OpencodeRemote.Stub

open Concurrency Data Filepath

/-- One file for each approval in memory, under the approval's name, and no other file in
    the approvals directory; reading them gives the approvals in memory. -/
structure Mirrored (s : State) : Prop where
  files : ∀ p data, s.approvalsDir.Under p → s.disk.get p = some data →
    ∃ a, data = .approval a ∧ p = s.approvalsDir.child (a.id ++ lit ".json") ∧
      s.approvals.get a.id = some a
  approvals : ∀ id a, s.approvals.get id = some a → a.id = id ∧
    s.disk.get (s.approvalsDir.child (id ++ lit ".json")) = some (.approval a)
  reloaded : ∀ id, s.restart.approvals.get id = s.approvals.get id

/-- Nothing lies under the state directory. -/
def EmptyRoot (root : GoString) (disk : OrderedMap CleanPath FileData) : Prop :=
  ∀ p, (stateDir root).Under p → disk.get p = none

theorem EmptyRoot.approvals {root : GoString} {disk : OrderedMap CleanPath FileData}
    (empty : EmptyRoot root disk) {p : CleanPath}
    (under : (State.startUp root disk).approvalsDir.Under p) : disk.get p = none := by
  rw [State.approvalsDir_eq] at under
  exact empty p ⟨under.1, (List.prefix_append _ _).trans under.2⟩

/-- Whatever lies in the approvals directory is an approval, directly in it. -/
def ApprovalsOnly (s : State) : Prop :=
  ∀ p data, s.approvalsDir.Under p → s.disk.get p = some data →
    ∃ a name, data = .approval a ∧ p = s.approvalsDir.child name

/-- The files are read back as they were written. -/
structure Mirroring (s : State) : Prop where
  filed : Filed s
  only : ApprovalsOnly s
  valid : ValidPatterns s

theorem Mirroring.mirrored {s : State} (mirroring : Mirroring s) : Mirrored s := by
  obtain ⟨filed, only, valid⟩ := mirroring
  refine ⟨?_, ?_, restart_approvals filed valid⟩
  · intro p data under here
    obtain ⟨a, name, rfl, rfl⟩ := only p data under here
    obtain ⟨inMemory, rfl⟩ := filed.readable name _ a.reread here rfl
    rw [valid.map_reread] at inMemory
    -- the file of an approval in memory is the one it was written to
    obtain ⟨-, -, written⟩ := filed.written _ _ inMemory
    have same : FileData.approval a = .approval a.reread := Option.some.inj (here.symm.trans written)
    exact ⟨a.reread, same, rfl, inMemory⟩
  · intro id a inMemory
    obtain ⟨own, -, here⟩ := filed.written id a inMemory
    exact ⟨own, here⟩

namespace State

variable (s : State) {id : GoString}

private theorem not_under_sibling (dir : CleanPath) {a b : GoString} {names : List GoString}
    (different : a ≠ b) : ¬(dir.child a).Under ⟨dir.rooted, dir.comps ++ b :: names⟩ := by
  rintro ⟨-, front⟩
  simp only [CleanPath.child, List.prefix_append_right_inj] at front
  exact different (List.cons_prefix_cons.mp front).1

theorem workspacePath_outside (plain : Plain id) : ¬s.approvalsDir.Under (s.workspacePath id) := by
  rw [approvalsDir_eq, workspacePath, workspaceDir_eq s plain]
  simp only [CleanPath.child, List.append_assoc, List.singleton_append]
  exact not_under_sibling (stateDir s.root) (by decide)

theorem sessionPath_outside (plain : Plain id) : ¬s.approvalsDir.Under (s.sessionPath id) := by
  rw [approvalsDir_eq, sessionPath_eq s plain, sessionsDir_eq]
  simp only [CleanPath.child, List.append_assoc, List.singleton_append]
  exact not_under_sibling (stateDir s.root) (by decide)

end State

theorem exec_approvalsOnly {s : State} (only : ApprovalsOnly s) {env : Env} (writes : env.write = .ok)
    {o : Op} (minted : ∀ a, o = .createApproval a → Plain a.id)
    (plain : PlainNames ⟨o, (exec env o s).1⟩) : ApprovalsOnly (exec env o s).2 := by
  have dir : (exec env o s).2.approvalsDir = s.approvalsDir := by
    rw [State.approvalsDir, exec_root, State.approvalsDir]
  intro p data under here
  rw [dir] at under ⊢
  rcases file_origin here with before | ⟨record, wrote, -⟩
  · exact only p data under before
  · rw [file_written wrote writes] at here
    cases here
    cases o with
    | createWorkspace ws =>
        cases wrote
        exact absurd under (s.workspacePath_outside plain)
    | createSession se =>
        cases wrote
        exact absurd under (s.sessionPath_outside plain)
    | createApproval a =>
        cases wrote
        exact ⟨a, _, rfl, s.approvalPath_eq (minted a rfl)⟩
    | _ => cases wrote

/-- The approval comes back from its file unchanged. -/
def Undone (a : Approval) : Prop := unmarshalApproval (.approval a) = some a

instance (a : Approval) : Decidable (Undone a) := inferInstanceAs (Decidable (_ = _))

/-- Every approval stored in the run comes back unchanged. -/
def AllUndone (log : Log) : Prop := ∀ entry ∈ log, ∀ a ∈ newApprovalOf entry.event.op, Undone a

instance (log : Log) : Decidable (AllUndone log) := inferInstanceAs (Decidable (∀ _ ∈ _, ∀ _ ∈ _, _))

theorem Undone.valid {a : Approval} (undone : Undone a) : toValid a.pattern = a.pattern :=
  congrArg Approval.pattern (Option.some.inj undone)

theorem exec_validPatterns {s : State} (valid : ValidPatterns s) (env : Env) {o : Op}
    (undone : ∀ a ∈ newApprovalOf o, Undone a) : ValidPatterns (exec env o s).2 := by
  intro a member
  obtain ⟨id, inMemory⟩ := OrderedMap.mem_values.mp member
  rcases approval_origin inMemory with before | ⟨rfl, -⟩
  · exact valid a (OrderedMap.mem_values.mpr ⟨id, before⟩)
  · exact (undone a rfl).valid

theorem restart_mirroring {s : State} (mirroring : Mirroring s) : Mirroring s.restart := by
  obtain ⟨filed, only, valid⟩ := mirroring
  refine ⟨restart_filed filed valid, only, ?_⟩
  intro a member
  obtain ⟨id, inMemory⟩ := OrderedMap.mem_values.mp member
  rw [restart_approvals filed valid] at inMemory
  exact valid a (OrderedMap.mem_values.mpr ⟨id, inMemory⟩)

theorem startUp_mirroring {root : GoString} {disk : OrderedMap CleanPath FileData}
    (empty : EmptyRoot root disk) : Mirroring (State.startUp root disk) := by
  have unread : files (State.startUp root disk).approvalsDir disk = [] := by
    apply List.eq_nil_iff_forall_not_mem.mpr
    rintro ⟨name, data⟩ member
    have missing : disk.get ((State.startUp root disk).approvalsDir.child name) = none :=
      empty.approvals ⟨rfl, List.prefix_append _ _⟩
    rw [mem_files.mp member] at missing
    cases missing
  have none : (State.startUp root disk).approvals = .empty :=
    congrArg (State.load unmarshalApproval Approval.id) unread
  refine ⟨startUp_filed none, ?_, ?_⟩
  · intro p data under here
    change disk.get p = some data at here
    rw [empty.approvals under] at here
    cases here
  · intro a member
    obtain ⟨id, inMemory⟩ := OrderedMap.mem_values.mp member
    rw [none] at inMemory
    cases inMemory

theorem mirroring_preserved (startedAt : Int) : (server startedAt).Preserves Reliably reliableDisk
    fun s log => AllUndone log → Mirroring s := by
  intro s log thread o env within lawful inv undone
  have mirroring := inv fun entry member => undone entry (List.mem_append_left _ member)
  have last := lawful_last lawful
  have minted : ∀ a, o = .createApproval a → Plain a.id := by
    rintro a rfl
    exact plain_of_protocol last.1
  refine ⟨filed_preserved startedAt s log thread o env within lawful mirroring.filed,
    exec_approvalsOnly mirroring.only within.1 minted last.2, exec_validPatterns mirroring.valid env ?_⟩
  exact undone _ (List.mem_append_right _ (List.mem_singleton.mpr rfl))

/-- While file operations succeed, ids are plain names and approvals are read back as they
    were, in every run from an empty state directory, with any number of restarts, the
    approvals directory mirrors memory. -/
theorem mirrored_in_every_run (startedAt : Int) (root : GoString)
    (disk : OrderedMap CleanPath FileData) (empty : EmptyRoot root disk) (labels : List StubLabel)
    (reliable : ∀ label ∈ labels, label.Within reliableDisk)
    (undone : AllUndone ((server startedAt).run (State.startUp root disk) labels).log) :
    Mirrored ((server startedAt).run (State.startUp root disk) labels).store := by
  have inv := Machine.run_invariant (fun s log => AllUndone log → Mirroring s)
    (mirroring_preserved startedAt) (serve_reliably startedAt)
    (fun _ _ _ _ inv undone => restart_mirroring (inv undone))
    (fun _ => startUp_mirroring empty) reliable
  exact (inv undone).mirrored

/-- An approval for once, not used yet, and one for always are there after the restart. -/
theorem mirrored_across_restart :
    ((server 0).run (State.startUp (lit "/state") .empty) twoApprovals).store.approvals.values.map
        (fun a => (a.id, a.mode)) = [(lit "apr_4", once), (lit "apr_6", always)] ∧
      Mirrored ((server 0).run (State.startUp (lit "/state") .empty) twoApprovals).store :=
  ⟨by decide +kernel, mirrored_in_every_run 0 (lit "/state") .empty (fun _ _ => rfl) _
    twoApprovals_reliable (by decide +kernel)⟩

end OpencodeRemote.Stub
