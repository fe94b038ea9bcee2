import OpencodeRemote.Stub.Replies

/-! # What a failed request leaves behind

Every mutating handler writes memory first and the disk afterwards, and answers with an
error when the disk fails. Here one request is served alone in a reachable state, and the
inputs are determined for which an error answer means that nothing has changed.
-/

namespace OpencodeRemote.Stub

open Concurrency Data

/-- A state of some process, after any number of requests. -/
def Reachable (s : State) : Prop :=
  ∃ startedAt root disk labels, (∀ label ∈ labels, label.Within oneProcess) ∧
    s = ((server startedAt).run (State.startUp root disk) labels).store

/-- The request in memory under an id has one pattern and an address in use. -/
theorem Reachable.request {s : State} (reachable : Reachable s) {id : GoString} {p : PermissionPtr}
    (inMemory : s.permissions.get id = some p) :
    (∃ asked, p.patterns = [asked ++ subtree]) ∧ p.addr < s.statuses.length := by
  obtain ⟨startedAt, root, disk, labels, running, rfl⟩ := reachable
  have inv := run_preserved running (fun _ => not_false) (replying_preserved startedAt oneProcess)
    (startUp_replying root disk)
  obtain ⟨m, asked, filed, patterns⟩ := inv.requests.sourced.inMemory id p inMemory
  exact ⟨⟨asked, patterns⟩, inv.addressed.below m p asked filed⟩

/-- Workspaces, sessions, statuses and approvals are as in `s`. -/
structure SameMemory (s s' : State) : Prop where
  workspaces : s'.workspaces = s.workspaces
  sessions : s'.sessions = s.sessions
  statuses : s'.statuses = s.statuses
  approvals : s'.approvals = s.approvals

/-- If the program answers 400 or 500, memory is as before. -/
def FailsClean (program : Handler Response) (env : Nat → Env) (s : State) : Prop :=
  (program.run exec env s).1.code = 400 ∨ (program.run exec env s).1.code = 500 →
    SameMemory s (program.run exec env s).2.1

/-! ## The mutating requests -/

inductive Route where
  | workspaceCreation
  | sessionCreation
  | reply
  | sessionReply

def Route.handler : Route → Request → Handler Response
  | .workspaceCreation => workspaceList
  | .sessionCreation => sessionCreate
  | .reply => permissionReply
  | .sessionReply => sessionPermissionReply

/-- The requests which the mux hands to the route's handler. -/
def Route.Takes : Route → Request → Prop
  | .workspaceCreation, r => r.method = methodPost ∧ r.path = lit "/experimental/workspace"
  | .sessionCreation, r => r.method = methodPost ∧ r.path = lit "/session"
  | .reply, r => r.method = methodPost ∧ cleanPath r.path = r.path ∧
      Strings.hasPrefix r.path (lit "/permission/") = true
  | .sessionReply, r => cleanPath r.path = r.path ∧
      Strings.hasPrefix r.path (lit "/session/") = true ∧
      Strings.hasSuffix (sessionPart r) (lit "/shell") = false ∧
      Strings.hasSuffix (sessionPart r) (lit "/command") = false ∧
      Strings.contains (sessionPart r) (lit "/permissions/") = true

private theorem hasPrefix_separate {s a b : GoString} (below : Strings.hasPrefix s a = true)
    (apart : ¬a <+: b ∧ ¬b <+: a) : Strings.hasPrefix s b = false := by
  rw [Bool.eq_false_iff]
  intro other
  rcases List.prefix_or_prefix_of_prefix (List.isPrefixOf_iff_prefix.mp below)
    (List.isPrefixOf_iff_prefix.mp other) with inside | inside
  · exact apart.1 inside
  · exact apart.2 inside

private theorem ne_of_hasPrefix {s a b : GoString} (below : Strings.hasPrefix s a = true)
    (outside : Strings.hasPrefix b a = false) : s ≠ b := by
  rintro rfl
  rw [below] at outside
  cases outside

theorem serve_route (startedAt : Int) {route : Route} {r : Request} (takes : route.Takes r) :
    serve startedAt r = route.handler r := by
  unfold serve
  cases route with
  | workspaceCreation =>
      rw [takes.2, if_neg (by decide), if_neg (by decide), if_neg (by decide), if_neg (by decide),
        if_pos rfl]
      rfl
  | sessionCreation =>
      rw [takes.2, if_neg (by decide), if_neg (by decide), if_neg (by decide), if_neg (by decide),
        if_neg (by decide), if_neg (by decide), if_pos rfl]
      rfl
  | reply =>
      obtain ⟨post, tidy, below⟩ := takes
      rw [if_neg (not_not.mpr tidy), if_neg (ne_of_hasPrefix below (by decide)),
        if_neg (ne_of_hasPrefix below (by decide)), if_neg (ne_of_hasPrefix below (by decide)),
        if_neg (ne_of_hasPrefix below (by decide)), if_neg (ne_of_hasPrefix below (by decide)),
        if_neg (ne_of_hasPrefix below (by decide)), if_neg (ne_of_hasPrefix below (by decide)),
        hasPrefix_separate below (by decide), if_neg Bool.false_ne_true,
        if_neg (ne_of_hasPrefix below (by decide)), if_pos below]
      simp only [permissionRoutes, post, if_true]
      rfl
  | sessionReply =>
      obtain ⟨tidy, below, noShell, noCommand, route⟩ := takes
      have not_status : r.path ≠ lit "/session/status" := by
        intro same
        rw [sessionPart, same] at route
        exact absurd route (by decide)
      rw [if_neg (not_not.mpr tidy), if_neg (ne_of_hasPrefix below (by decide)),
        if_neg (ne_of_hasPrefix below (by decide)), if_neg (ne_of_hasPrefix below (by decide)),
        if_neg (ne_of_hasPrefix below (by decide)), if_neg (ne_of_hasPrefix below (by decide)),
        if_neg (ne_of_hasPrefix below (by decide)), if_neg not_status, if_pos below]
      simp only [sessionRoutes, noShell, noCommand, route, Bool.false_eq_true, if_false, if_true]
      rfl

/-! ## When an error is clean -/

/-- The reply to `p` is no approval, or its approval is written, or the status and the
    approval are there already. `env` is the outside from the first operation after the
    lookups on. -/
def CleanReply (s : State) (env : Nat → Env) (p : PermissionPtr) (body : Except GoString ReplyBody) :
    Prop :=
  ∀ req, body = .ok req → Approving req.reply → (env 4).write = .ok ∨
    (s.status p = req.reply ∧ ∀ pattern ∈ p.patterns.head?,
      let a := newApproval p pattern req.reply (env 2).now (env 3).now
      s.approvals.get a.id = some a)

/-- What the request would store can be written, or is there already. -/
def Route.Clean (s : State) (env : Nat → Env) : Route → Request → Prop
  | .workspaceCreation, r => ∀ decoded, r.body.workspace = .ok decoded →
      let ws := newWorkspace decoded (env 0).now
      (env 1).write = .ok ∨ s.workspaces.get ws.id = some ws
  | .sessionCreation, r => ∀ req, r.body.session = .ok req →
      (s.getWorkspace req.workspaceID).isSome →
      let se := newSession req (env 1).home (env 2).now (env 3).now (env 4).now
      (env 5).write = .ok ∨ s.sessions.get se.id = some se
  | .reply, r => ∀ p ∈ s.getPermission (permissionID r),
      CleanReply s (fun n => env (n + 1)) p r.body.reply
  | .sessionReply, r => ∀ sessionID permissionID,
      (sessionPart r).splitOn slash = [sessionID, lit "permissions", permissionID] →
      (s.getSession sessionID).isSome → ∀ p ∈ s.getPermission permissionID, p.sessionID = sessionID →
      CleanReply s (fun n => env (n + 2)) p r.body.reply

theorem writeFile_error {env : Env} {path : CleanPath} {data : FileData}
    {disk : OrderedMap CleanPath FileData} :
    (writeFile env path data disk).1 = if env.write = .ok then none else some env.errText := by
  unfold writeFile
  cases env.write <;> rfl

/-- The outcome of a store that answers 200 if `written` and `code` otherwise. -/
private theorem failsClean_iff {program : Handler Response} {env : Nat → Env} {s : State}
    {written stored : Prop}
    (ok : written → (program.run exec env s).1.code = 200)
    (failed : ¬written → (program.run exec env s).1.code = 400 ∨ (program.run exec env s).1.code = 500)
    (same : ¬written → (SameMemory s (program.run exec env s).2.1 ↔ stored)) :
    FailsClean program env s ↔ (written ∨ stored) := by
  by_cases w : written
  · have code := ok w
    refine ⟨fun _ => .inl w, fun _ bad => ?_⟩
    omega
  · constructor
    · intro clean
      exact .inr ((same w).mp (clean (failed w)))
    · rintro (w' | kept) _
      · exact absurd w' w
      · exact (same w).mpr kept

theorem sameMemory_createWorkspace {s : State} {env : Env} {ws : Workspace} :
    SameMemory s (s.createWorkspace env ws).2 ↔ s.workspaces.get ws.id = some ws :=
  ⟨fun same => (OrderedMap.set_eq_self _).mp same.workspaces,
    fun stored => ⟨(OrderedMap.set_eq_self _).mpr stored, rfl, rfl, rfl⟩⟩

theorem sameMemory_createSession {s : State} {env : Env} {se : Session} :
    SameMemory s (s.createSession env se).2 ↔ s.sessions.get se.id = some se :=
  ⟨fun same => (OrderedMap.set_eq_self _).mp same.sessions,
    fun stored => ⟨rfl, (OrderedMap.set_eq_self _).mpr stored, rfl, rfl⟩⟩

theorem sameMemory_refl (s : State) : SameMemory s s := ⟨rfl, rfl, rfl, rfl⟩

theorem workspaceList_clean {s : State} {env : Nat → Env} {r : Request} (post : r.method = methodPost) :
    FailsClean (workspaceList r) env s ↔ Route.Clean s env .workspaceCreation r := by
  have not_get : methodPost ≠ methodGet := by decide
  unfold workspaceList Route.Clean
  simp only [post, not_get, if_false, if_true]
  cases r.body.workspace with
  | error err =>
      constructor
      · intro _ decoded same
        cases same
      · intro _ _
        exact sameMemory_refl s
  | ok decoded =>
      simp only [Except.ok.injEq, forall_eq']
      have answer : (s.createWorkspace (env 1) (newWorkspace decoded (env 0).now)).1 =
          if (env 1).write = .ok then none else some (env 1).errText := writeFile_error
      apply failsClean_iff
      · intro written
        simp [call, publish, exec, answer, written, json]
      · intro failed
        simp [call, exec, answer, failed, error, json]
      · intro failed
        simp [call, exec, answer, failed, sameMemory_createWorkspace]

theorem sessionCreate_clean {s : State} {env : Nat → Env} {r : Request} (post : r.method = methodPost) :
    FailsClean (sessionCreate r) env s ↔ Route.Clean s env .sessionCreation r := by
  unfold sessionCreate Route.Clean
  simp only [post, ne_eq, not_true_eq_false, if_false]
  cases r.body.session with
  | error err =>
      constructor
      · intro _ req same
        cases same
      · intro _ _
        exact sameMemory_refl s
  | ok req =>
      simp only [Except.ok.injEq, forall_eq']
      cases workspace : s.getWorkspace req.workspaceID with
      | none => simp [FailsClean, call, exec, workspace, error, json]
      | some ws =>
          have answer : (s.createSession (env 5)
              (newSession req (env 1).home (env 2).now (env 3).now (env 4).now)).1 =
                if (env 5).write = .ok then none else some (env 5).errText := writeFile_error
          simp only [Option.isSome_some, forall_const]
          apply failsClean_iff
          · intro written
            simp [call, publish, exec, workspace, answer, written, json]
          · intro failed
            simp [call, exec, workspace, answer, failed, error, json]
          · intro failed
            simp [call, exec, workspace, answer, failed, sameMemory_createSession]

private theorem set_eq_self_iff {statuses : List GoString} {addr : Nat} {v : GoString}
    (inUse : addr < statuses.length) : statuses.set addr v = statuses ↔ statuses.getD addr [] = v := by
  have here : statuses.getD addr [] = statuses[addr] := by simp [inUse]
  rw [here]
  constructor
  · intro same
    have at_addr := List.getElem_set_self (l := statuses) (i := addr) (a := v) (by simpa using inUse)
    simpa only [same] using at_addr
  · rintro rfl
    exact List.set_getElem_self inUse

theorem replyToPermission_clean {s : State} {env : Nat → Env} {p : PermissionPtr} {pattern : GoString}
    (patterns : p.patterns = [pattern]) (inUse : p.addr < s.statuses.length)
    (body : Except GoString ReplyBody) :
    FailsClean (replyToPermission p body) env s ↔ CleanReply s env p body := by
  unfold replyToPermission CleanReply
  cases body with
  | error err =>
      constructor
      · intro _ req same
        cases same
      · intro _ _
        exact sameMemory_refl s
  | ok req =>
      simp only [Except.ok.injEq, forall_eq', patterns, List.head?_cons, Option.mem_some_iff]
      by_cases approving : Approving req.reply
      · have answer : ∀ t : State,
            (t.createApproval (env 4) (newApproval p pattern req.reply (env 2).now (env 3).now)).1 =
              if (env 4).write = .ok then none else some (env 4).errText := fun t => writeFile_error
        have branch : req.reply = always ∨ req.reply = once := approving
        simp only [approving, forall_const]
        apply failsClean_iff
        · intro written
          simp [applyPermissionReply, publishReplied, call, publish, exec, branch, patterns, answer,
            written, json]
        · intro failed
          simp [applyPermissionReply, call, exec, branch, patterns, answer, failed, error, json]
        · intro failed
          simp only [applyPermissionReply, call, exec, branch, patterns, if_true, Program.bind_eq,
            Program.perform_bind, Program.op_bind, Program.run_op, answer, failed, if_false]
          constructor
          · intro same
            exact ⟨(set_eq_self_iff inUse).mp same.statuses,
              (OrderedMap.set_eq_self _).mp same.approvals⟩
          · rintro ⟨status, stored⟩
            exact ⟨rfl, rfl, (set_eq_self_iff inUse).mpr status,
              (OrderedMap.set_eq_self _).mpr stored⟩
      · have branch : ¬(req.reply = always ∨ req.reply = once) := approving
        simp [FailsClean, applyPermissionReply, publishReplied, call, publish, exec, approving, branch,
          json]

/-- A lookup before the rest of a handler changes nothing. -/
private theorem failsClean_lookup {s : State} {env : Nat → Env} {o : Op}
    {next : Res o → Handler Response} (reads : (exec (env 0) o s).2 = s) :
    FailsClean (.op o next) env s ↔
      FailsClean (next (exec (env 0) o s).1) (fun n => env (n + 1)) s := by
  simp only [FailsClean, Program.run_op, reads]

theorem permissionReply_clean {s : State} (reachable : Reachable s) {env : Nat → Env} {r : Request} :
    FailsClean (permissionReply r) env s ↔ Route.Clean s env .reply r := by
  unfold permissionReply Route.Clean
  simp only [call, Program.bind_eq, Program.perform_bind]
  rw [failsClean_lookup rfl]
  simp only [exec]
  cases inMemory : s.getPermission (permissionID r) with
  | none => simp [FailsClean, error, json]
  | some p =>
      obtain ⟨⟨asked, patterns⟩, inUse⟩ := reachable.request inMemory
      simp only [Option.mem_some_iff, forall_eq']
      exact replyToPermission_clean patterns inUse r.body.reply

private theorem failsClean_notFound {s : State} {env : Nat → Env} {message : GoString} :
    FailsClean (.pure (error 404 (lit "not_found") message)) env s := by
  simp [FailsClean, error, json]

theorem sessionPermissionReply_clean {s : State} (reachable : Reachable s) {env : Nat → Env}
    {r : Request} : FailsClean (sessionPermissionReply r) env s ↔ Route.Clean s env .sessionReply r := by
  unfold sessionPermissionReply
  simp only [Route.Clean]
  split
  · rename_i sessionID route permissionID parts
    rw [parts]
    by_cases named : route = lit "permissions"
    · simp only [named, ne_eq, not_true_eq_false, if_false, List.cons.injEq, and_true, true_and,
        and_imp, call, Program.bind_eq, Program.perform_bind]
      rw [failsClean_lookup rfl]
      simp only [exec]
      cases session : s.getSession sessionID with
      | none => simp [session, failsClean_notFound]
      | some se =>
          rw [failsClean_lookup rfl]
          simp only [exec]
          cases inMemory : s.getPermission permissionID with
          | none => simp [inMemory, failsClean_notFound]
          | some p =>
              obtain ⟨⟨asked, patterns⟩, inUse⟩ := reachable.request inMemory
              by_cases own : p.sessionID = sessionID
              · simp [session, inMemory, own, replyToPermission_clean patterns inUse, CleanReply]
              · simp [inMemory, own, failsClean_notFound]
    · simp [named, failsClean_notFound]
  · rename_i other
    refine ⟨fun _ sessionID permissionID parts => absurd parts (other sessionID _ permissionID), fun _ => ?_⟩
    exact failsClean_notFound

/-- In every reachable state, a mutating request that is answered with an error changes
    nothing if and only if what it stores can be written or is there already. -/
theorem failsClean_iff_clean (startedAt : Int) {s : State} (reachable : Reachable s) (route : Route)
    {r : Request} (takes : route.Takes r) (env : Nat → Env) :
    FailsClean (serve startedAt r) env s ↔ route.Clean s env r := by
  rw [serve_route startedAt takes]
  cases route with
  | workspaceCreation => exact workspaceList_clean takes.1
  | sessionCreation => exact sessionCreate_clean takes.1
  | reply => exact permissionReply_clean reachable
  | sessionReply => exact sessionPermissionReply_clean reachable

/-- A session of `w` has asked for `/srv/app` and waits for an answer. -/
def waiting : State :=
  ((server 0).run (State.startUp (lit "/state") .empty) (script [(1, workspacePost (lit "w")),
    (2, sessionPost (lit "s") (lit "w")), (3, shellPost (lit "s") (lit "/srv/app"))])).store

theorem waiting_reachable : Reachable waiting :=
  ⟨0, lit "/state", .empty, _, script_oneProcess _, rfl⟩

/-- The disk is full. -/
def full (_ : Nat) : Env := { calm 4 with write := .refused }

theorem rejection_fails_clean :
    FailsClean (serve 0 (replyPost (lit "perm_3") reject)) full waiting ↔
      Route.Clean waiting full .reply (replyPost (lit "perm_3") reject) :=
  failsClean_iff_clean 0 waiting_reachable .reply ⟨rfl, by decide, by decide⟩ full

/-- On a full disk the user is told that the approval failed, but it is in memory. -/
theorem not_fails_clean_on_full_disk :
    ¬∀ startedAt s, Reachable s → ∀ (route : Route) r, route.Takes r → ∀ env,
      FailsClean (serve startedAt r) env s := by
  intro always_clean
  have clean := always_clean 0 waiting waiting_reachable .reply (replyPost (lit "perm_3") once)
    ⟨rfl, by decide, by decide⟩ full
  have code : ((serve 0 (replyPost (lit "perm_3") once)).run exec full waiting).1.code = 400 := by
    decide +kernel
  have same := (clean (.inl code)).approvals
  have kept : ((serve 0 (replyPost (lit "perm_3") once)).run exec full waiting).2.1.approvals ≠
      waiting.approvals := by
    decide +kernel
  exact kept same

end OpencodeRemote.Stub
