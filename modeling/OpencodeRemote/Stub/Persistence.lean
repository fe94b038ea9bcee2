import OpencodeRemote.Stub.Accounts

/-! # Approvals on disk

The approvals directory mirrors the approvals in memory as long as file operations succeed
and the ids which clients choose are plain names, which keeps the other files out of it.
A restart then finds what was in memory.
-/

namespace OpencodeRemote.Stub

open Concurrency Data Filepath

/-! ## Directories -/

def stateDir (root : GoString) : CleanPath := join [root]

private theorem plain_workspaces : Plain (lit "workspaces") := by constructor <;> decide
private theorem plain_sessions : Plain (lit "sessions") := by constructor <;> decide
private theorem plain_approvals : Plain (lit "approvals") := by constructor <;> decide

private theorem plain_append {front : GoString} (plain : Plain front) {rest : GoString}
    (noSlash : slash ∉ rest) (long : 3 ≤ (front ++ rest).length) : Plain (front ++ rest) where
  nonempty := by simp [plain.nonempty]
  noSlash := by
    rw [List.mem_append, not_or]
    exact ⟨plain.noSlash, noSlash⟩
  notDot same := by simp [same] at long
  notDotdot same := by simp [same, dotdot] at long

theorem plain_json {id : GoString} (plain : Plain id) : Plain (id ++ lit ".json") :=
  plain_append plain (by decide) (by simp [lit])

private theorem digit_not_slash {c : Char} (digit : c.isDigit = true) : c.toNat.toUInt8 ≠ slash := by
  simp only [Char.isDigit, Bool.and_eq_true, decide_eq_true_eq] at digit
  have low : 48 ≤ c.toNat := digit.1
  have high : c.toNat ≤ 57 := digit.2
  intro same
  have code : c.toNat % 256 = 47 := by simpa [slash] using congrArg UInt8.toNat same
  omega

private theorem slash_not_mem_decimal (n : Int) : slash ∉ Strings.decimal n := by
  have digits : ∀ k : Nat, slash ∉ (Nat.toDigits 10 k).map fun c => c.toNat.toUInt8 := by
    intro k member
    obtain ⟨c, digit, same⟩ := List.mem_map.mp member
    exact digit_not_slash (Nat.isDigit_of_mem_toDigits (by omega) (by omega) digit) same
  cases n with
  | ofNat k => exact digits k
  | negSucc k =>
      intro member
      cases List.mem_cons.mp member with
      | inl sign =>
          revert sign
          decide
      | inr rest => exact digits (k + 1) rest

/-- The ids that the stub mints are plain names. -/
theorem plain_minted {front : GoString} (plain : Plain front) (long : 3 ≤ front.length) (n : Int) :
    Plain (front ++ Strings.decimal n) :=
  plain_append plain (slash_not_mem_decimal n) (by rw [List.length_append]; omega)

namespace State

variable (s : State)

theorem approvalsDir_eq : s.approvalsDir = (stateDir s.root).child (lit "approvals") :=
  @join_child [s.root] _ plain_approvals

theorem sessionsDir_eq : s.sessionsDir = (stateDir s.root).child (lit "sessions") :=
  @join_child [s.root] _ plain_sessions

theorem workspacesDir_eq : s.workspacesDir = (stateDir s.root).child (lit "workspaces") :=
  @join_child [s.root] _ plain_workspaces

theorem approvalPath_eq {id : GoString} (plain : Plain id) :
    s.approvalPath id = s.approvalsDir.child (id ++ lit ".json") :=
  @join_child [s.root, lit "approvals"] _ (plain_json plain)

theorem sessionPath_eq {id : GoString} (plain : Plain id) :
    s.sessionPath id = s.sessionsDir.child (id ++ lit ".json") :=
  @join_child [s.root, lit "sessions"] _ (plain_json plain)

theorem workspaceDir_eq {id : GoString} (plain : Plain id) :
    s.workspaceDir id = ((stateDir s.root).child (lit "workspaces")).child id := by
  rw [workspaceDir, stateDir, ← @join_child [s.root] _ plain_workspaces]
  exact @join_child [s.root, lit "workspaces"] _ plain

/-- The approvals directory is the directory of a workspace, too. -/
theorem workspaceDir_approvals : s.workspaceDir (lit "../approvals") = s.approvalsDir := by
  rw [approvalsDir_eq]
  exact @join_sibling [s.root] _ _ plain_workspaces plain_approvals

/-- The files of workspaces and sessions lie outside the approvals directory. -/
theorem workspacePath_elsewhere {id : GoString} (plain : Plain id) (name : GoString) :
    s.approvalsDir.child name ≠ s.workspacePath id := by
  rw [approvalsDir_eq, workspacePath, workspaceDir_eq s plain]
  intro same
  have sizes := congrArg (fun p => p.comps.length) same
  simp [CleanPath.child] at sizes

theorem workspaceDir_elsewhere {id : GoString} (plain : Plain id) (name : GoString) :
    ¬(s.workspaceDir id).Under (s.approvalsDir.child name) := by
  rw [approvalsDir_eq, workspaceDir_eq s plain]
  intro below
  have names := below.2
  simp only [CleanPath.child, List.append_assoc, List.prefix_append_right_inj] at names
  obtain ⟨same, -⟩ := List.cons_prefix_cons.mp names
  revert same
  decide

theorem sessionPath_elsewhere {id : GoString} (plain : Plain id) (name : GoString) :
    s.approvalsDir.child name ≠ s.sessionPath id := by
  rw [approvalsDir_eq, sessionPath_eq s plain, sessionsDir_eq]
  intro same
  have names := congrArg CleanPath.comps same
  simp only [CleanPath.child, List.append_assoc, List.append_cancel_left_eq] at names
  have first := (List.cons.inj names).1
  revert first
  decide

end State

/-! ## Loading -/

theorem entryOf_eq_some {dir p : CleanPath} {name : GoString} :
    entryOf dir p = some name ↔ p = dir.child name := by
  unfold entryOf
  constructor
  · intro entry
    split at entry
    · split at entry
      · rename_i here
        cases entry
        exact here
      · cases entry
    · cases entry
  · rintro rfl
    simp [CleanPath.child]

theorem mem_files {dir : CleanPath} {disk : OrderedMap CleanPath FileData} {name : GoString}
    {data : FileData} : (name, data) ∈ files dir disk ↔ disk.get (dir.child name) = some data := by
  simp only [files, List.mem_insertionSort, List.mem_filterMap, Prod.exists, Option.map_eq_some_iff,
    Prod.mk.injEq, entryOf_eq_some]
  constructor
  · rintro ⟨p, found, member, key, rfl, rfl, rfl⟩
    exact OrderedMap.mem_entries.mp member
  · intro here
    exact ⟨dir.child name, data, OrderedMap.mem_entries.mpr here, name, rfl, rfl, rfl⟩

theorem mem_workspaceFiles {dir : CleanPath} {disk : OrderedMap CleanPath FileData} {name : GoString}
    {data : FileData} : (name, data) ∈ workspaceFiles dir disk ↔
      disk.get ((dir.child name).child (lit "workspace.json")) = some data := by
  simp only [workspaceFiles, List.mem_insertionSort, List.mem_filterMap, Prod.exists]
  constructor
  · rintro ⟨p, found, member, read⟩
    split at read
    · rename_i last
      obtain ⟨key, entry, same⟩ := Option.map_eq_some_iff.mp read
      cases same
      have parent := entryOf_eq_some.mp entry
      have path : p = (dir.child name).child (lit "workspace.json") := by
        rw [← parent, CleanPath.child]
        simp only [List.dropLast_append_getLast? _ last]
      exact path ▸ OrderedMap.mem_entries.mp member
    · cases read
  · intro here
    refine ⟨_, data, OrderedMap.mem_entries.mpr here, ?_⟩
    have entry : entryOf dir (dir.child name) = some name := entryOf_eq_some.mpr rfl
    simpa [CleanPath.child] using entry

section Load

variable {ν : Type} {unmarshal : FileData → Option ν} {id : ν → GoString}

private theorem load_snoc (files : List (GoString × FileData)) (file : GoString × FileData) :
    State.load unmarshal id (files ++ [file]) = match unmarshal file.2 with
      | some v => (State.load unmarshal id files).set (id v) v
      | none => State.load unmarshal id files := by
  cases decoded : unmarshal file.2 with
  | none => simp [State.load, decoded]
  | some v => simp [State.load, decoded]

/-- Every record that a loader stores was read from some file. -/
theorem load_origin {files : List (GoString × FileData)} {key : GoString} {v : ν}
    (loaded : (State.load unmarshal id files).get key = some v) :
    id v = key ∧ ∃ file ∈ files, unmarshal file.2 = some v := by
  induction files using List.reverseRecOn with
  | nil => cases loaded
  | append_singleton files file ih =>
      have older : (State.load unmarshal id files).get key = some v →
          id v = key ∧ ∃ f ∈ files ++ [file], unmarshal f.2 = some v := by
        intro before
        obtain ⟨own, f, member, read⟩ := ih before
        exact ⟨own, f, List.mem_append_left _ member, read⟩
      rw [load_snoc] at loaded
      cases read : unmarshal file.2 with
      | none =>
          rw [read] at loaded
          exact older loaded
      | some w =>
          rw [read] at loaded
          simp only [OrderedMap.get_set] at loaded
          split at loaded
          · rename_i same
            cases loaded
            exact ⟨same.symm, file, by simp, read⟩
          · exact older loaded

/-- A loader misses no file that unmarshals. -/
theorem load_complete {files : List (GoString × FileData)} {file : GoString × FileData} {v : ν}
    (member : file ∈ files) (read : unmarshal file.2 = some v) :
    ((State.load unmarshal id files).get (id v)).isSome := by
  induction files using List.reverseRecOn with
  | nil => cases member
  | append_singleton files last ih =>
      rw [load_snoc]
      cases List.mem_append.mp member with
      | inl old =>
          cases unmarshal last.2 with
          | none => exact ih old
          | some w =>
              simp only [OrderedMap.get_set]
              split
              · rfl
              · exact ih old
      | inr new =>
          cases List.mem_singleton.mp new
          simp [read]

end Load

/-! ## The mirror -/

/-- Memory and the approvals directory hold the same approvals, as far as they come back. -/
structure Filed (s : State) : Prop where
  readable : ∀ name data a, s.disk.get (s.approvalsDir.child name) = some data →
    unmarshalApproval data = some a →
    (s.approvals.get a.id).map Approval.reread = some a ∧ name = a.id ++ lit ".json"
  written : ∀ id a, s.approvals.get id = some a → a.id = id ∧ Plain id ∧
    s.disk.get (s.approvalsDir.child (id ++ lit ".json")) = some (.approval a)

theorem startUp_filed {root : GoString} {disk : OrderedMap CleanPath FileData}
    (none : (State.startUp root disk).approvals = .empty) : Filed (State.startUp root disk) := by
  constructor
  · intro name data a here read
    have loaded := @load_complete _ unmarshalApproval Approval.id _ _ _ (mem_files.mpr here) read
    change ((State.startUp root disk).approvals.get a.id).isSome = true at loaded
    rw [none] at loaded
    cases loaded
  · intro id a inMemory
    rw [none] at inMemory
    cases inMemory

/-- The patterns of the approvals in memory are valid UTF-8. -/
def ValidPatterns (s : State) : Prop := ∀ a ∈ s.approvals.values, toValid a.pattern = a.pattern

instance (s : State) : Decidable (ValidPatterns s) := inferInstanceAs (Decidable (∀ _ ∈ _, _))

theorem reread_of_valid {a : Approval} (valid : toValid a.pattern = a.pattern) : a.reread = a := by
  rw [Approval.reread, valid]

theorem ValidPatterns.map_reread {s : State} (valid : ValidPatterns s) (id : GoString) :
    (s.approvals.get id).map Approval.reread = s.approvals.get id := by
  cases inMemory : s.approvals.get id with
  | none => rfl
  | some a => exact congrArg some (reread_of_valid (valid a (OrderedMap.mem_values.mpr ⟨id, inMemory⟩)))

/-- A restart reads back the approvals there were. -/
theorem restart_approvals {s : State} (filed : Filed s) (valid : ValidPatterns s) (id : GoString) :
    s.restart.approvals.get id = s.approvals.get id := by
  have back : ∀ a, s.restart.approvals.get id = some a → s.approvals.get id = some a := by
    intro a loaded
    obtain ⟨rfl, file, member, read⟩ := load_origin loaded
    rw [← valid.map_reread]
    exact (filed.readable _ _ a (mem_files.mp member) read).1
  cases inMemory : s.approvals.get id with
  | none =>
      cases loaded : s.restart.approvals.get id with
      | none => rfl
      | some a => rw [back a loaded] at inMemory; cases inMemory
  | some a =>
      obtain ⟨rfl, -, here⟩ := filed.written id a inMemory
      have loaded := @load_complete _ unmarshalApproval Approval.id _ _ a.reread (mem_files.mpr here) rfl
      obtain ⟨b, found⟩ := Option.isSome_iff_exists.mp loaded
      change s.restart.approvals.get a.id = some b at found
      rw [found, ← inMemory, back b found]

theorem restart_filed {s : State} (filed : Filed s) (valid : ValidPatterns s) : Filed s.restart := by
  constructor
  · intro name data a here read
    rw [restart_approvals filed valid]
    exact filed.readable name data a here read
  · intro id a inMemory
    rw [restart_approvals filed valid] at inMemory
    exact filed.written id a inMemory

/-- An operation that leaves the approvals and their directory alone. -/
theorem Filed.frame {s s' : State} (filed : Filed s) (root : s'.root = s.root)
    (approvals : s'.approvals = s.approvals)
    (disk : ∀ name, s'.disk.get (s.approvalsDir.child name) = s.disk.get (s.approvalsDir.child name)) :
    Filed s' := by
  have dir : s'.approvalsDir = s.approvalsDir := by rw [State.approvalsDir, root, State.approvalsDir]
  constructor
  · intro name data a here read
    rw [dir, disk] at here
    rw [approvals]
    exact filed.readable name data a here read
  · intro id a inMemory
    rw [approvals] at inMemory
    rw [dir, disk]
    exact filed.written id a inMemory

/-- Files that clients name have plain names. -/
def PlainNames : StubEvent → Prop
  | ⟨.createWorkspace ws, _⟩ => Plain ws.id
  | ⟨.deleteWorkspace id, _⟩ => Plain id
  | ⟨.createSession se, _⟩ => Plain se.id
  | ⟨.deleteSession id, _⟩ => Plain id
  | _ => True

theorem writeFile_elsewhere (env : Env) {path other : CleanPath} (different : other ≠ path)
    (data : FileData) (disk : OrderedMap CleanPath FileData) :
    (writeFile env path data disk).2.get other = disk.get other := by
  unfold writeFile
  split
  · exact OrderedMap.get_set_ne _ _ different
  · rfl
  · exact OrderedMap.get_set_ne _ _ different
  · exact OrderedMap.get_set_ne _ _ different

theorem plain_approvalID (minted : Int) : Plain (lit "apr_" ++ Strings.decimal minted) :=
  plain_minted (by constructor <;> decide) (by decide) minted

theorem createApproval_filed {s : State} (filed : Filed s) {env : Env} (writes : env.write = .ok)
    {a : Approval} (plain : Plain a.id) : Filed (s.createApproval env a).2 := by
  have disk : (s.createApproval env a).2.disk = s.disk.set (s.approvalPath a.id) (.approval a) := by
    simp only [State.createApproval, State.saveApproval, writeFile, writes]
    rfl
  have approvals : (s.createApproval env a).2.approvals = s.approvals.set a.id a := rfl
  have dir : (s.createApproval env a).2.approvalsDir = s.approvalsDir := rfl
  constructor
  · intro name data b here read
    rw [dir, disk, s.approvalPath_eq plain, OrderedMap.get_set] at here
    rw [approvals, OrderedMap.get_set]
    split at here
    · rename_i same
      cases here
      cases read
      exact ⟨by simp [Approval.reread], CleanPath.child_injective same⟩
    · rename_i other
      obtain ⟨inMemory, named⟩ := filed.readable name data b here read
      have different : b.id ≠ a.id := by
        intro same
        rw [named, same] at other
        exact other rfl
      simp only [different, if_false]
      exact ⟨inMemory, named⟩
  · intro id b inMemory
    rw [approvals, OrderedMap.get_set] at inMemory
    rw [dir, disk, s.approvalPath_eq plain, OrderedMap.get_set]
    split at inMemory
    · rename_i same
      cases inMemory
      cases same
      exact ⟨rfl, plain, by simp⟩
    · rename_i different
      obtain ⟨own, plain', here⟩ := filed.written id b inMemory
      have elsewhere : s.approvalsDir.child (id ++ lit ".json") ≠
          s.approvalsDir.child (a.id ++ lit ".json") := fun same =>
        different (List.append_cancel_right (CleanPath.child_injective same))
      simp only [elsewhere, if_false]
      exact ⟨own, plain', here⟩

theorem consumeApproval_filed {s : State} (filed : Filed s) {env : Env}
    (removes : ∀ p, env.survives p = false) (workspaceID path : GoString) :
    Filed (s.consumeApproval env workspaceID path).2 := by
  unfold State.consumeApproval
  split
  · exact filed
  · rename_i key a lookup
    obtain ⟨inMemory, -, -⟩ := State.findApproval_some lookup
    obtain ⟨own, plain, -⟩ := filed.written key a inMemory
    split
    · -- the map entry and its file go together
      constructor
      · intro name data b here read
        change (remove env (s.approvalPath key) s.disk).get (s.approvalsDir.child name) = some data at here
        change ((s.approvals.erase key).get b.id).map Approval.reread = some b ∧ name = b.id ++ lit ".json"
        rw [remove, OrderedMap.get_eraseAll, s.approvalPath_eq plain] at here
        split at here
        · cases here
        · rename_i kept
          obtain ⟨inMemory', named⟩ := filed.readable name data b here read
          have different : b.id ≠ key := by
            intro same
            apply kept
            simp [named, same, removes]
          rw [OrderedMap.get_erase_ne _ different]
          exact ⟨inMemory', named⟩
      · intro id b inMemory'
        change (s.approvals.erase key).get id = some b at inMemory'
        change b.id = id ∧ Plain id ∧ (remove env (s.approvalPath key) s.disk).get
          (s.approvalsDir.child (id ++ lit ".json")) = some (.approval b)
        rw [OrderedMap.get_erase] at inMemory'
        split at inMemory'
        · cases inMemory'
        · rename_i different
          obtain ⟨own', plain', here⟩ := filed.written id b inMemory'
          have elsewhere : s.approvalsDir.child (id ++ lit ".json") ≠
              s.approvalsDir.child (key ++ lit ".json") := fun same =>
            different (List.append_cancel_right (CleanPath.child_injective same))
          rw [remove, OrderedMap.get_eraseAll, s.approvalPath_eq plain]
          simp only [elsewhere, decide_false, Bool.false_and, Bool.false_eq_true, if_false]
          exact ⟨own', plain', here⟩
    · exact filed

/-- Every operation on plain names keeps the mirror, as long as file operations succeed. -/
theorem exec_filed {s : State} (filed : Filed s) {env : Env} (writes : env.write = .ok)
    (removes : ∀ p, env.survives p = false) {o : Op}
    (minted : ∀ a, o = .createApproval a → Plain a.id) (plain : PlainNames ⟨o, (exec env o s).1⟩) :
    Filed (exec env o s).2 := by
  cases o with
  | createApproval a => exact createApproval_filed filed writes (minted a rfl)
  | consumeApproval workspaceID path => exact consumeApproval_filed filed removes workspaceID path
  | createWorkspace ws =>
      refine filed.frame rfl rfl fun name => ?_
      exact writeFile_elsewhere env (s.workspacePath_elsewhere plain name) _ _
  | createSession se =>
      refine filed.frame rfl rfl fun name => ?_
      exact writeFile_elsewhere env (s.sessionPath_elsewhere plain name) _ _
  | deleteWorkspace id =>
      refine filed.frame rfl rfl fun name => ?_
      change (removeAll env (s.workspaceDir id) s.disk).get (s.approvalsDir.child name) = _
      rw [removeAll, OrderedMap.get_eraseAll]
      simp [s.workspaceDir_elsewhere plain name]
  | deleteSession id =>
      refine filed.frame rfl rfl fun name => ?_
      change (remove env (s.sessionPath id) s.disk).get (s.approvalsDir.child name) = _
      rw [remove, OrderedMap.get_eraseAll]
      simp [s.sessionPath_elsewhere plain name]
  | _ => exact filed.frame rfl rfl fun _ => rfl

end OpencodeRemote.Stub
