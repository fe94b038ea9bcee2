import OpencodeRemote.Stub.Server

/-! # What an operation can do to the store

One inversion lemma for each table: where an entry found after an operation comes from,
and what can happen to an entry found before it. Everything said later about runs uses
these lemmas and never looks into `exec` again.
-/

namespace OpencodeRemote.Stub

open Concurrency Data

variable {env : Env} {o : Op} {s : State}

/-! ## Approvals -/

theorem approval_origin {id : GoString} {a : Approval}
    (after : (exec env o s).2.approvals.get id = some a) :
    s.approvals.get id = some a ∨ (o = .createApproval a ∧ a.id = id) := by
  cases o with
  | createApproval b =>
      change (s.approvals.set b.id b).get id = some a at after
      rw [OrderedMap.get_set] at after
      split at after
      · rename_i same
        cases after
        exact .inr ⟨rfl, same.symm⟩
      · exact .inl after
  | consumeApproval workspaceID path =>
      simp only [exec, State.consumeApproval] at after
      split at after
      · exact .inl after
      · split at after
        · rw [OrderedMap.get_erase] at after
          split at after
          · cases after
          · exact .inl after
        · exact .inl after
  | _ => exact .inl after

theorem approval_fate {id : GoString} {a : Approval} (before : s.approvals.get id = some a) :
    (exec env o s).2.approvals.get id = some a ∨
      (∃ b, o = .createApproval b ∧ b.id = id) ∨
      ∃ workspaceID path, o = .consumeApproval workspaceID path ∧
        s.findApproval env workspaceID path = some (id, a) ∧ a.mode = once := by
  cases o with
  | createApproval b =>
      by_cases same : id = b.id
      · exact .inr (.inl ⟨b, rfl, same.symm⟩)
      · left
        change (s.approvals.set b.id b).get id = some a
        rw [OrderedMap.get_set_ne _ _ same]
        exact before
  | consumeApproval workspaceID path =>
      simp only [exec, State.consumeApproval]
      split
      · exact .inl before
      · rename_i key b found
        split
        · rename_i single
          by_cases same : id = key
          · subst same
            cases before.symm.trans (State.findApproval_some found).1
            exact .inr (.inr ⟨workspaceID, path, rfl, found, single⟩)
          · left
            rw [OrderedMap.get_erase_ne _ same]
            exact before
        · exact .inl before
  | _ => exact .inl before

/-- What a lookup answers was stored, belongs to the workspace and matches the path. -/
theorem consumeApproval_some {workspaceID path : GoString} {a : Approval}
    (found : (exec env (.consumeApproval workspaceID path) s).1 = some a) :
    ∃ id, s.findApproval env workspaceID path = some (id, a) := by
  simp only [exec, State.consumeApproval] at found
  split at found
  · cases found
  · rename_i id b here
    refine ⟨id, ?_⟩
    split at found <;> (cases found; exact here)

/-! ## Permission requests -/

theorem permission_origin {id : GoString} {p : PermissionPtr}
    (after : (exec env o s).2.permissions.get id = some p) :
    s.permissions.get id = some p ∨
      (∃ status, o = .createPermission p.toPermissionRequest status ∧ p.id = id ∧
        p.addr = s.statuses.length) ∨
      (o = .updatePermission p ∧ p.id = id) := by
  cases o with
  | createPermission q status =>
      simp only [exec, State.createPermission, OrderedMap.get_set] at after
      split at after
      · rename_i same
        cases after
        exact .inr (.inl ⟨status, rfl, same.symm, rfl⟩)
      · exact .inl after
  | updatePermission q =>
      simp only [exec, State.updatePermission, OrderedMap.get_set] at after
      split at after
      · rename_i same
        cases after
        exact .inr (.inr ⟨rfl, same.symm⟩)
      · exact .inl after
  | consumeApproval workspaceID path =>
      obtain ⟨approvals, disk, same⟩ := State.consumeApproval_frame env workspaceID path s
      rw [exec, same] at after
      exact .inl after
  | _ => exact .inl after

theorem permission_fate {id : GoString} {p : PermissionPtr} (before : s.permissions.get id = some p) :
    (exec env o s).2.permissions.get id = some p ∨
      (∃ q status, o = .createPermission q status ∧ q.id = id) ∨
      ∃ q, o = .updatePermission q ∧ q.id = id := by
  cases o with
  | createPermission q status =>
      by_cases same : id = q.id
      · exact .inr (.inl ⟨q, status, rfl, same.symm⟩)
      · left
        simp only [exec, State.createPermission]
        rw [OrderedMap.get_set_ne _ _ same]
        exact before
  | updatePermission q =>
      by_cases same : id = q.id
      · exact .inr (.inr ⟨q, rfl, same.symm⟩)
      · left
        simp only [exec, State.updatePermission]
        rw [OrderedMap.get_set_ne _ _ same]
        exact before
  | consumeApproval workspaceID path =>
      obtain ⟨approvals, disk, same⟩ := State.consumeApproval_frame env workspaceID path s
      left
      rw [exec, same]
      exact before
  | _ => exact .inl before

theorem exec_statuses : (exec env o s).2.statuses =
    match o with
    | .createPermission _ status => s.statuses ++ [status]
    | .setStatus p status => s.statuses.set p.addr status
    | _ => s.statuses := by
  cases o with
  | consumeApproval workspaceID path =>
      obtain ⟨approvals, disk, same⟩ := State.consumeApproval_frame env workspaceID path s
      rw [exec, same]
  | _ => rfl

/-! ## Files -/

theorem exec_root : (exec env o s).2.root = s.root := by
  cases o with
  | consumeApproval workspaceID path =>
      obtain ⟨approvals, disk, same⟩ := State.consumeApproval_frame env workspaceID path s
      rw [exec, same]
  | _ => rfl

/-- The file that an operation writes, and the record it writes there. -/
def written (s : State) : Op → Option (CleanPath × FileData)
  | .createWorkspace ws => some (s.workspacePath ws.id, .workspace ws)
  | .createSession se => some (s.sessionPath se.id, .session se)
  | .createApproval a => some (s.approvalPath a.id, .approval a)
  | _ => none

/-- The files that an operation removes, as far as they can be removed. -/
def Removes (env : Env) (s : State) : Op → CleanPath → Prop
  | .deleteWorkspace id, p => (s.workspaceDir id).Under p
  | .deleteSession id, p => p = s.sessionPath id
  | .consumeApproval workspaceID path, p => ∃ id a,
      s.findApproval env workspaceID path = some (id, a) ∧ a.mode = once ∧ p = s.approvalPath id
  | _, _ => False

private theorem writeFile_get {path p : CleanPath} {record : FileData}
    {disk : OrderedMap CleanPath FileData} :
    (writeFile env path record disk).2.get p = disk.get p ∨
      p = path ∧ ((writeFile env path record disk).2.get p = some record ∨
        (writeFile env path record disk).2.get p = some .garbled) := by
  by_cases here : p = path
  · subst here
    unfold writeFile
    cases env.write <;> simp
  · left
    unfold writeFile
    cases env.write <;> simp [OrderedMap.get_set_ne _ _ here]

private theorem erased_get (disk : OrderedMap CleanPath FileData) (gone : CleanPath → Bool)
    (p : CleanPath) :
    (disk.eraseAll fun q => gone q && !env.survives q).get p = disk.get p ∨
      (disk.eraseAll fun q => gone q && !env.survives q).get p = none ∧ gone p = true ∧
        env.survives p = false := by
  rw [OrderedMap.get_eraseAll]
  by_cases erased : gone p = true ∧ env.survives p = false
  · exact .inr ⟨by simp [erased], erased⟩
  · exact .inl (by simpa using fun own removed => absurd ⟨own, removed⟩ erased)

/-- What becomes of one file in an operation. -/
theorem exec_file (p : CleanPath) :
    (exec env o s).2.disk.get p = s.disk.get p ∨
      (∃ record, written s o = some (p, record) ∧
        ((exec env o s).2.disk.get p = some record ∨ (exec env o s).2.disk.get p = some .garbled)) ∨
      ((exec env o s).2.disk.get p = none ∧ Removes env s o p ∧ env.survives p = false) := by
  cases o with
  | createWorkspace ws =>
      rcases @writeFile_get env (s.workspacePath ws.id) p (.workspace ws) s.disk with same | ⟨rfl, new⟩
      · exact .inl same
      · exact .inr (.inl ⟨_, rfl, new⟩)
  | createSession se =>
      rcases @writeFile_get env (s.sessionPath se.id) p (.session se) s.disk with same | ⟨rfl, new⟩
      · exact .inl same
      · exact .inr (.inl ⟨_, rfl, new⟩)
  | createApproval a =>
      rcases @writeFile_get env (s.approvalPath a.id) p (.approval a) s.disk with same | ⟨rfl, new⟩
      · exact .inl same
      · exact .inr (.inl ⟨_, rfl, new⟩)
  | deleteWorkspace id =>
      rcases @erased_get env s.disk (fun q => (s.workspaceDir id).Under q) p with same | ⟨gone, own, removed⟩
      · exact .inl same
      · have under : (s.workspaceDir id).Under p := of_decide_eq_true own
        exact .inr (.inr ⟨gone, under, removed⟩)
  | deleteSession id =>
      rcases @erased_get env s.disk (fun q => q = s.sessionPath id) p with same | ⟨gone, own, removed⟩
      · exact .inl same
      · have here : p = s.sessionPath id := of_decide_eq_true own
        exact .inr (.inr ⟨gone, here, removed⟩)
  | consumeApproval workspaceID path =>
      simp only [exec, State.consumeApproval, Removes]
      cases lookup : s.findApproval env workspaceID path with
      | none => exact .inl rfl
      | some entry =>
          obtain ⟨id, a⟩ := entry
          by_cases single : a.mode = once
          · simp only [single, if_true]
            rcases @erased_get env s.disk (fun q => q = s.approvalPath id) p with same | ⟨gone, own, removed⟩
            · exact .inl same
            · exact .inr (.inr ⟨gone, ⟨id, a, rfl, single, of_decide_eq_true own⟩, removed⟩)
          · exact .inl (by simp only [single, if_false])
  | _ => exact .inl rfl

/-- A file found after an operation was there before, or the operation has written it. -/
theorem file_origin {p : CleanPath} {data : FileData}
    (after : (exec env o s).2.disk.get p = some data) :
    s.disk.get p = some data ∨
      ∃ record, written s o = some (p, record) ∧ (data = record ∨ data = .garbled) := by
  rcases @exec_file env o s p with same | ⟨record, wrote, new⟩ | ⟨gone, -⟩
  · exact .inl (same ▸ after)
  · right
    rw [after, Option.some.injEq, Option.some.injEq] at new
    exact ⟨record, wrote, new⟩
  · rw [gone] at after
    cases after

/-- A file stays as it is unless the operation writes or removes it. -/
theorem file_fate {p : CleanPath} {data : FileData} (before : s.disk.get p = some data) :
    (exec env o s).2.disk.get p = some data ∨ (∃ record, written s o = some (p, record)) ∨
      Removes env s o p ∧ env.survives p = false := by
  rcases @exec_file env o s p with same | ⟨record, wrote, -⟩ | ⟨-, removes⟩
  · exact .inl (same.trans before)
  · exact .inr (.inl ⟨record, wrote⟩)
  · exact .inr (.inr removes)

/-- A write that succeeds leaves the record. -/
theorem file_written {p : CleanPath} {record : FileData} (wrote : written s o = some (p, record))
    (writes : env.write = .ok) : (exec env o s).2.disk.get p = some record := by
  cases o with
  | createWorkspace ws =>
      cases wrote
      simp [exec, State.createWorkspace, State.saveWorkspace, writeFile, writes, State.workspacePath,
        State.workspaceDir]
  | createSession se =>
      cases wrote
      simp [exec, State.createSession, State.saveSession, writeFile, writes, State.sessionPath]
  | createApproval a =>
      cases wrote
      simp [exec, State.createApproval, State.saveApproval, writeFile, writes, State.approvalPath]
  | _ => cases wrote

/-- What an operation removes, and can remove, is gone. -/
theorem file_removed {p : CleanPath} (removes : Removes env s o p) (removable : env.survives p = false) :
    (exec env o s).2.disk.get p = none := by
  cases o with
  | deleteWorkspace id =>
      have under : (s.workspaceDir id).Under p := removes
      simp [exec, State.deleteWorkspace, removeAll, OrderedMap.get_eraseAll, under, removable]
  | deleteSession id =>
      cases removes
      simp [exec, State.deleteSession, remove, OrderedMap.get_eraseAll, removable]
  | consumeApproval workspaceID path =>
      obtain ⟨id, a, lookup, single, rfl⟩ := removes
      simp [exec, State.consumeApproval, lookup, single, remove, OrderedMap.get_eraseAll, removable]
  | _ => cases removes

end OpencodeRemote.Stub
