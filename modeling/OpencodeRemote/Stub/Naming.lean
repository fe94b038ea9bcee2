import OpencodeRemote.Stub.Server

/-! # The names in a request

Clients choose the names of workspaces and sessions. What names a request may come with is
what the operations of its handler are called with.
-/

namespace OpencodeRemote.Stub

open Concurrency Data

inductive Resource where
  | workspace (id : GoString)
  | session (id : GoString)
  deriving DecidableEq

/-- The resource which a DELETE of this path is about. -/
def addressee (path : GoString) : Option Resource :=
  if path = lit "/experimental/workspace/adaptor" ∨ path = lit "/experimental/workspace/status" ∨
      path = lit "/session/status" then none
  else if Strings.hasPrefix path (lit "/session/") then
    let id := path.drop (lit "/session/").length
    if Strings.hasSuffix id (lit "/shell") ∨ Strings.hasSuffix id (lit "/command") ∨
        Strings.contains id (lit "/permissions/") then none
    else some (.session id)
  else if Strings.hasPrefix path (lit "/experimental/workspace/") then
    let id := path.drop (lit "/experimental/workspace/").length
    if Strings.hasSuffix id (lit "/session-restore") then none else some (.workspace id)
  else none

theorem addressee_cases {path : GoString} {resource : Resource} (here : addressee path = some resource) :
    ¬(path = lit "/experimental/workspace/adaptor" ∨ path = lit "/experimental/workspace/status" ∨
        path = lit "/session/status") ∧
      ((Strings.hasPrefix path (lit "/session/") = true ∧
          ¬(Strings.hasSuffix (path.drop (lit "/session/").length) (lit "/shell") = true ∨
            Strings.hasSuffix (path.drop (lit "/session/").length) (lit "/command") = true ∨
            Strings.contains (path.drop (lit "/session/").length) (lit "/permissions/") = true) ∧
          resource = .session (path.drop (lit "/session/").length)) ∨
        (Strings.hasPrefix path (lit "/experimental/workspace/") = true ∧
          ¬Strings.hasSuffix (path.drop (lit "/experimental/workspace/").length) (lit "/session-restore") = true ∧
          resource = .workspace (path.drop (lit "/experimental/workspace/").length))) := by
  unfold addressee at here
  split at here
  · cases here
  rename_i exact_
  refine ⟨exact_, ?_⟩
  split at here
  · rename_i below
    dsimp only at here
    split at here
    · cases here
    · rename_i plain
      exact .inl ⟨below, plain, (Option.some.inj here).symm⟩
  split at here
  · rename_i below
    dsimp only at here
    split at here
    · cases here
    · rename_i plain
      exact .inr ⟨below, plain, (Option.some.inj here).symm⟩
  · cases here

/-- Which resources the operations on workspaces and sessions get. -/
structure Naming where
  creates : Resource → Prop
  deletes : Resource → Prop

namespace Naming

def Named (names : Naming) : StubEvent → Prop
  | ⟨.createWorkspace ws, _⟩ => names.creates (.workspace ws.id)
  | ⟨.deleteWorkspace id, _⟩ => names.deletes (.workspace id)
  | ⟨.createSession se, _⟩ => names.creates (.session se.id)
  | ⟨.deleteSession id, _⟩ => names.deletes (.session id)
  | _ => True

/-- A request in which these names stand; the stub itself names a session that has none. -/
structure Allows (names : Naming) (r : Request) : Prop where
  workspace : r.path = lit "/experimental/workspace" → r.method = methodPost →
    ∀ ws, r.body.workspace = .ok ws → names.creates (.workspace ws.id)
  session : r.path = lit "/session" → r.method = methodPost → ∀ req, r.body.session = .ok req →
    (req.id = [] → ∀ minted, names.creates (.session (lit "sess_" ++ Strings.decimal minted))) ∧
      (req.id ≠ [] → names.creates (.session req.id))
  deletion : r.method = methodDelete → ∀ resource, addressee r.path = some resource → names.deletes resource

end Naming

variable (names : Naming)

private abbrev Keeping {α : Type} (program : Handler α) (past : List StubEvent) : Prop :=
  program.Obeys (fun _ => names.Named) past fun _ _ => True

private theorem permissionListLoop_named (list : List PermissionPtr) (past : List StubEvent) :
    Keeping names (permissionListLoop list) past := by
  induction list generalizing past with
  | nil => trivial
  | cons p rest ih =>
      simp only [Keeping, permissionListLoop, call, Program.bind_eq, Program.perform_bind,
        Program.obeys_op, Program.obeys_bind]
      exact fun _ => ⟨trivial, (ih _).mono fun _ _ _ => trivial⟩

private theorem replyToPermission_named (p : PermissionPtr) (body : Except GoString ReplyBody)
    (past : List StubEvent) : Keeping names (replyToPermission p body) past := by
  cases body with
  | error err => trivial
  | ok req =>
      simp only [Keeping, replyToPermission, applyPermissionReply, call, Program.bind_eq,
        Program.perform_bind, Program.op_bind, Program.obeys_op]
      refine fun _ => ⟨trivial, fun _ => ⟨trivial, ?_⟩⟩
      split
      · cases p.patterns with
        | nil => trivial
        | cons pattern rest =>
            refine fun _ => ⟨trivial, fun _ => ⟨trivial, fun err => ⟨trivial, ?_⟩⟩⟩
            cases err <;> simp [publishReplied, publish, call, Naming.Named]
      · simp [publishReplied, publish, call, Naming.Named]

private theorem runOperation_named (r : Request) (suffix operation : GoString) :
    Keeping names (runOperation r suffix operation) [] := by
  simp only [Keeping, runOperation, call, Program.bind_eq, Program.perform_bind, Program.obeys_op]
  intro session
  refine ⟨trivial, ?_⟩
  cases session with
  | none => trivial
  | some se =>
      cases r.body.command with
      | error err => trivial
      | ok req =>
          simp only [executeCommandLike, call, publish, Program.bind_eq, Program.perform_bind,
            Program.obeys_op]
          intro approval
          refine ⟨trivial, ?_⟩
          cases approval <;> simp [Naming.Named]

private theorem sessionRoutes_named {r : Request} (allowed : names.Allows r)
    (exact_ : ¬(r.path = lit "/experimental/workspace/adaptor" ∨ r.path = lit "/experimental/workspace/status" ∨
      r.path = lit "/session/status"))
    (below : Strings.hasPrefix r.path (lit "/session/") = true) : Keeping names (sessionRoutes r) [] := by
  simp only [sessionRoutes]
  split
  · exact runOperation_named names r _ _
  rename_i shell
  split
  · exact runOperation_named names r _ _
  rename_i command
  split
  · unfold sessionPermissionReply
    split
    · split
      · trivial
      · refine fun session => ⟨trivial, ?_⟩
        cases session with
        | none => trivial
        | some se =>
            refine fun found => ⟨trivial, ?_⟩
            cases found with
            | none => trivial
            | some p => exact .ite (fun _ => trivial) fun _ => replyToPermission_named names p _ _
    · trivial
  rename_i permissions
  split
  · refine fun session => ⟨trivial, ?_⟩
    cases session with
    | none => trivial
    | some se => exact fun _ => ⟨trivial, trivial⟩
  split
  · rename_i deletion
    have here : addressee r.path = some (.session (sessionPart r)) := by
      rw [addressee, if_neg exact_, if_pos below]
      exact if_neg (not_or.mpr ⟨shell, not_or.mpr ⟨command, permissions⟩⟩)
    exact fun _ => ⟨allowed.deletion deletion _ here, fun _ => ⟨trivial, trivial⟩⟩
  · trivial

private theorem workspaceList_named {r : Request} (allowed : names.Allows r)
    (here : r.path = lit "/experimental/workspace") : Keeping names (workspaceList r) [] := by
  unfold workspaceList
  split
  · exact fun _ => ⟨trivial, trivial⟩
  split
  · rename_i post
    cases decoded : r.body.workspace with
    | error err => trivial
    | ok ws =>
        refine fun now => ⟨trivial, fun err => ⟨allowed.workspace here post ws decoded, ?_⟩⟩
        cases err with
        | some err => trivial
        | none => exact fun _ => ⟨trivial, trivial⟩
  · trivial

private theorem sessionCreate_named {r : Request} (allowed : names.Allows r)
    (here : r.path = lit "/session") : Keeping names (sessionCreate r) [] := by
  unfold sessionCreate
  split
  · trivial
  · rename_i post
    have posted : r.method = methodPost := of_not_not post
    cases decoded : r.body.session with
    | error err => trivial
    | ok req =>
        refine fun ws => ⟨trivial, ?_⟩
        cases ws with
        | none => trivial
        | some ws =>
            refine fun home => ⟨trivial, fun minted => ⟨trivial, fun created => ⟨trivial,
              fun updated => ⟨trivial, fun err => ⟨?_, ?_⟩⟩⟩⟩⟩
            · obtain ⟨unnamed, given⟩ := allowed.session here posted req decoded
              change names.creates (.session (newSession req home minted created updated).id)
              simp only [newSession]
              split
              · rename_i empty
                exact unnamed empty minted
              · rename_i given'
                exact given given'
            · cases err with
              | some err => trivial
              | none => exact fun _ => ⟨trivial, trivial⟩

theorem serve_named (startedAt : Int) {r : Request} (allowed : names.Allows r) :
    Keeping names (serve startedAt r) [] := by
  unfold serve
  refine .ite (fun _ => trivial) fun _ => ?_
  refine .ite (fun _ => fun _ => ⟨trivial, trivial⟩) fun _ => ?_
  refine .ite (fun _ => trivial) fun _ => ?_
  refine .ite (fun _ => trivial) fun adaptor => ?_
  refine .ite (fun here => workspaceList_named names allowed here) fun _ => ?_
  refine .ite (fun _ => fun _ => ⟨trivial, trivial⟩) fun status => ?_
  refine .ite (fun here => sessionCreate_named names allowed here) fun _ => ?_
  refine .ite (fun _ => fun _ => ⟨trivial, trivial⟩) fun sessions => ?_
  have exact_ := not_or.mpr ⟨adaptor, not_or.mpr ⟨status, sessions⟩⟩
  refine .ite (fun below => sessionRoutes_named names allowed exact_ below) fun other => ?_
  refine .ite (fun _ => ?_) fun _ => ?_
  · simp only [permissionList, call, Program.bind_eq, Program.perform_bind, Program.obeys_op,
      Program.obeys_bind]
    exact fun list => ⟨trivial, (permissionListLoop_named names list _).mono fun _ _ _ => trivial⟩
  refine .ite (fun _ => ?_) fun _ => ?_
  · unfold permissionRoutes
    refine .ite (fun _ => fun found => ⟨trivial, ?_⟩) fun _ => trivial
    cases found with
    | none => trivial
    | some p => exact replyToPermission_named names p _ _
  refine .ite (fun below => ?_) fun _ => trivial
  simp only [withWorkspaceRoutes]
  split
  · split
    · trivial
    · refine fun ws => ⟨trivial, ?_⟩
      cases ws with
      | none => trivial
      | some ws => exact fun _ => ⟨trivial, trivial⟩
  rename_i restore
  split
  · rename_i deletion
    have here : addressee r.path = some (.workspace (r.path.drop (lit "/experimental/workspace/").length)) := by
      rw [addressee, if_neg exact_, if_neg other, if_pos below]
      exact if_neg restore
    exact fun _ => ⟨allowed.deletion deletion _ here, trivial⟩
  · trivial

/-! ## Resources that are not named -/

def State.lookup (s : State) : Resource → Option (Workspace ⊕ Session)
  | .workspace id => (s.getWorkspace id).map .inl
  | .session id => (s.getSession id).map .inr

theorem lookup_kept {resource : Resource} (created : ¬names.creates resource) (deleted : ¬names.deletes resource)
    {env : Env} {o : Op} {s : State} (named : names.Named ⟨o, (exec env o s).1⟩) :
    (exec env o s).2.lookup resource = s.lookup resource := by
  cases o with
  | createWorkspace ws =>
      cases resource with
      | workspace id =>
          have other : id ≠ ws.id := fun same => created (same ▸ named)
          exact congrArg (Option.map Sum.inl) (OrderedMap.get_set_ne _ _ other)
      | session id => rfl
  | deleteWorkspace name =>
      cases resource with
      | workspace id =>
          have other : id ≠ name := fun same => deleted (same ▸ named)
          exact congrArg (Option.map Sum.inl) (OrderedMap.get_erase_ne _ other)
      | session id => rfl
  | createSession se =>
      cases resource with
      | workspace id => rfl
      | session id =>
          have other : id ≠ se.id := fun same => created (same ▸ named)
          exact congrArg (Option.map Sum.inr) (OrderedMap.get_set_ne _ _ other)
  | deleteSession name =>
      cases resource with
      | workspace id => rfl
      | session id =>
          have other : id ≠ name := fun same => deleted (same ▸ named)
          exact congrArg (Option.map Sum.inr) (OrderedMap.get_erase_ne _ other)
  | consumeApproval workspaceID path =>
      obtain ⟨approvals, disk, same⟩ := State.consumeApproval_frame env workspaceID path s
      rw [exec, same]
      cases resource <;> rfl
  | _ => cases resource <;> rfl

theorem serve_lookup (startedAt : Int) {r : Request} (allowed : names.Allows r) {resource : Resource}
    (created : ¬names.creates resource) (deleted : ¬names.deletes resource) (env : Nat → Env) (s : State) :
    ((serve startedAt r).run exec env s).2.1.lookup resource = s.lookup resource :=
  Program.Obeys.run_frame (f := fun s : State => s.lookup resource)
    (fun _ _ _ => lookup_kept names created deleted) (serve_named names startedAt allowed) env s

/-! ## Deletes -/

/-- Paths below a directory are not below another one beside it. -/
theorem not_hasPrefix_append {front other : GoString} (up : ¬other <+: front) (down : ¬front <+: other)
    (rest : GoString) : ¬Strings.hasPrefix (front ++ rest) other = true := by
  intro below
  have inside := List.isPrefixOf_iff_prefix.mp below
  rcases le_total front.length other.length with shorter | longer
  · exact down (List.prefix_of_prefix_length_le (List.prefix_append front rest) inside shorter)
  · exact up (List.prefix_of_prefix_length_le inside (List.prefix_append front rest) longer)

theorem append_ne {front other : GoString} (outside : ¬front <+: other) (rest : GoString) : front ++ rest ≠ other := by
  rintro rfl
  exact outside (List.prefix_append front rest)

theorem addressee_workspace_iff {path id : GoString} : addressee path = some (.workspace id) ↔
    path = lit "/experimental/workspace/" ++ id ∧ id ≠ lit "adaptor" ∧ id ≠ lit "status" ∧
      Strings.hasSuffix id (lit "/session-restore") = false := by
  have below : ∀ id, (lit "/experimental/workspace/" ++ id).drop (lit "/experimental/workspace/").length = id :=
    fun id => List.drop_left
  constructor
  · intro here
    obtain ⟨exact_, ⟨-, -, other⟩ | ⟨front, plain, same⟩⟩ := addressee_cases here
    · cases other
    obtain ⟨rest, rfl⟩ := List.isPrefixOf_iff_prefix.mp front
    rw [below] at plain same
    cases same
    refine ⟨rfl, ?_, ?_, by simpa using plain⟩
    · rintro rfl
      exact exact_ (.inl rfl)
    · rintro rfl
      exact exact_ (.inr (.inl rfl))
  · rintro ⟨rfl, adaptor, status, plain⟩
    have exact_ : ¬(lit "/experimental/workspace/" ++ id = lit "/experimental/workspace/adaptor" ∨
        lit "/experimental/workspace/" ++ id = lit "/experimental/workspace/status" ∨
        lit "/experimental/workspace/" ++ id = lit "/session/status") := by
      rintro (same | same | same)
      · exact adaptor (List.append_right_inj (lit "/experimental/workspace/") |>.mp same)
      · exact status (List.append_right_inj (lit "/experimental/workspace/") |>.mp same)
      · exact append_ne (by decide) id same
    have front : Strings.hasPrefix (lit "/experimental/workspace/" ++ id) (lit "/experimental/workspace/") = true :=
      List.isPrefixOf_iff_prefix.mpr (List.prefix_append _ _)
    rw [addressee, if_neg exact_, if_neg (not_hasPrefix_append (by decide) (by decide) id), if_pos front, below]
    exact if_neg (by simp [plain])

theorem mem_of_contains {s sub : GoString} (inside : Strings.contains s sub = true) : sub ⊆ s := by
  induction s with
  | nil =>
      simp only [Strings.contains, Strings.index] at inside
      split at inside
      · rename_i empty
        rw [empty]
        exact List.nil_subset _
      · cases inside
  | cons c s ih =>
      simp only [Strings.contains, Strings.index] at inside ih
      split at inside
      · rename_i here
        exact (List.isPrefixOf_iff_prefix.mp here).subset
      · rw [Option.isSome_map] at inside
        exact List.subset_cons_of_subset c (ih inside)

/-- The suffixes of the other routes below `/session/` have slashes. -/
theorem addressee_session {id : GoString} (flat : slash ∉ id) (status : id ≠ lit "status") :
    addressee (lit "/session/" ++ id) = some (.session id) := by
  have below : (lit "/session/" ++ id).drop (lit "/session/").length = id := List.drop_left
  have exact_ : ¬(lit "/session/" ++ id = lit "/experimental/workspace/adaptor" ∨
      lit "/session/" ++ id = lit "/experimental/workspace/status" ∨
      lit "/session/" ++ id = lit "/session/status") := by
    rintro (same | same | same)
    · exact append_ne (by decide) id same
    · exact append_ne (by decide) id same
    · exact status (List.append_right_inj (lit "/session/") |>.mp same)
  have front : Strings.hasPrefix (lit "/session/" ++ id) (lit "/session/") = true :=
    List.isPrefixOf_iff_prefix.mpr (List.prefix_append _ _)
  have deep : ∀ {suffix : GoString}, slash ∈ suffix → ¬Strings.hasSuffix id suffix = true := fun within ends =>
    flat ((List.isSuffixOf_iff_suffix.mp ends).subset within)
  rw [addressee, if_neg exact_, if_pos front, below]
  refine if_neg ?_
  rintro (shell | command | permissions)
  · exact deep (by decide) shell
  · exact deep (by decide) command
  · exact flat (mem_of_contains permissions (by decide))

def State.deleteResource (env : Env) (s : State) : Resource → State
  | .workspace id => s.deleteWorkspace env id
  | .session id => s.deleteSession env id

theorem State.lookup_deleteResource (env : Env) (s : State) (resource : Resource) :
    (s.deleteResource env resource).lookup resource = none := by
  cases resource with
  | workspace id => exact congrArg (Option.map Sum.inl) (OrderedMap.get_erase_self s.workspaces id)
  | session id => exact congrArg (Option.map Sum.inr) (OrderedMap.get_erase_self s.sessions id)

theorem serve_addressee (startedAt : Int) {path : GoString} (clean : cleanPath path = path) {resource : Resource}
    (here : addressee path = some resource) (body : Body) (env : Nat → Env) (s : State) :
    ((serve startedAt ⟨methodDelete, path, body⟩).run exec env s).2.1 = s.deleteResource (env 0) resource := by
  have get : methodDelete ≠ methodGet := by decide
  obtain ⟨exact_, at_⟩ := addressee_cases here
  obtain ⟨adaptor, status, sessions⟩ : _ ∧ _ ∧ _ := by simpa only [not_or] using exact_
  rcases at_ with ⟨below, plain, rfl⟩ | ⟨below, plain, rfl⟩
  · obtain ⟨shell, command, permissions⟩ : _ ∧ _ ∧ _ := by simpa only [not_or] using plain
    obtain ⟨id, rfl⟩ := List.isPrefixOf_iff_prefix.mp below
    rw [serve, if_neg (not_not.mpr clean), if_neg (append_ne (by decide) id), if_neg (append_ne (by decide) id),
      if_neg adaptor, if_neg (append_ne (by decide) id), if_neg status, if_neg (append_ne (by decide) id),
      if_neg sessions, if_pos below, sessionRoutes, sessionPart, if_neg shell, if_neg command, if_neg permissions,
      if_neg get, if_pos rfl]
    rfl
  · obtain ⟨id, rfl⟩ := List.isPrefixOf_iff_prefix.mp below
    rw [serve, if_neg (not_not.mpr clean), if_neg (append_ne (by decide) id), if_neg (append_ne (by decide) id),
      if_neg adaptor, if_neg (append_ne (by decide) id), if_neg status, if_neg (append_ne (by decide) id),
      if_neg sessions, if_neg (not_hasPrefix_append (by decide) (by decide) id), if_neg (append_ne (by decide) id),
      if_neg (not_hasPrefix_append (by decide) (by decide) id), if_pos below, withWorkspaceRoutes, if_neg plain,
      if_pos rfl]
    rfl

/-- A DELETE takes away the resource it is about, and no other. -/
theorem serve_delete_lookup (startedAt : Int) {path : GoString} (clean : cleanPath path = path) (body : Body)
    (env : Nat → Env) (s : State) (resource : Resource) :
    ((serve startedAt ⟨methodDelete, path, body⟩).run exec env s).2.1.lookup resource =
      if addressee path = some resource then none else s.lookup resource := by
  split
  · rename_i here
    rw [serve_addressee startedAt clean here, State.lookup_deleteResource]
  · rename_i elsewhere
    have delete : methodDelete ≠ methodPost := by decide
    let names : Naming := ⟨fun _ => False, fun resource => addressee path = some resource⟩
    have allowed : names.Allows ⟨methodDelete, path, body⟩ :=
      ⟨fun _ post => absurd post delete, fun _ post => absurd post delete, fun _ _ here => here⟩
    exact serve_lookup names startedAt allowed not_false elsewhere env s

end OpencodeRemote.Stub
