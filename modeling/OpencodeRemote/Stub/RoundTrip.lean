import OpencodeRemote.Stub.Interchange
import OpencodeRemote.Stub.Persistence

/-! # From a denial to an approval and back

An operation that no approval covers is denied and files a request. What the next
operations are told depends on the reply to it and on nothing else in the store, however
crowded that is.
-/

namespace OpencodeRemote.Stub

open Concurrency Data Filepath

variable {startedAt : Int} {s : State} {r : Request} {env : Nat → Env} {workspaceID cwd : GoString}

/-- One request, served while no other one is. -/
def respond (startedAt : Int) (r : Request) (env : Nat → Env) (s : State) : Response × State :=
  let (response, s', _) := (serve startedAt r).run exec env s
  (response, s')

def commandRun : StubEvent → Option GoString
  | ⟨.runCommand _ cwd _, _⟩ => some cwd
  | _ => none

/-- The directories in which the request runs commands. -/
def commandsRun (startedAt : Int) (r : Request) (env : Nat → Env) (s : State) : List GoString :=
  ((serve startedAt r).trace exec env s).filterMap commandRun

/-- The request runs one command, in this directory. -/
structure Executes (startedAt : Int) (s : State) (r : Request) (env : Nat → Env) (cwd : GoString) : Prop where
  answer : (respond startedAt r env s).1.code = 200
  commands : commandsRun startedAt r env s = [cwd]

structure Denied (startedAt : Int) (s : State) (r : Request) (env : Nat → Env) : Prop where
  answer : (respond startedAt r env s).1.code = 403
  commands : commandsRun startedAt r env s = []

/-- A shell or command request of a session of the workspace, in this effective directory. -/
def Asks (s : State) (r : Request) (workspaceID cwd : GoString) : Prop :=
  cleanPath r.path = r.path ∧ Strings.hasPrefix r.path (lit "/session/") ∧
    ∃ suffix ∈ [lit "/shell", lit "/command"], Strings.hasSuffix (sessionPart r) suffix ∧
      ∃ se req, s.getSession ((sessionPart r).take ((sessionPart r).length - suffix.length)) = some se ∧
        r.body.command = .ok req ∧ se.workspaceID = workspaceID ∧ effectiveCwd se req.cwd = cwd

/-- No approval of the workspace matches the directory. -/
def Uncovered (s : State) (workspaceID cwd : GoString) : Prop :=
  ∀ id a, s.approvals.get id = some a → ¬Covers a workspaceID cwd

/-! ## Operations -/

variable (startedAt) in
theorem serve_of_session (clean : cleanPath r.path = r.path)
    (below : Strings.hasPrefix r.path (lit "/session/") = true) (other : sessionPart r ≠ lit "status") :
    serve startedAt r = sessionRoutes r := by
  have differs : ∀ path, Strings.hasPrefix path (lit "/session/") = false → r.path ≠ path := by
    intro path outside same
    rw [same, outside] at below
    cases below
  have status : r.path ≠ lit "/session/status" := by
    intro same
    refine other ?_
    rw [sessionPart, same]
    decide
  rw [serve, if_neg (not_not.mpr clean), if_neg (differs _ (by decide)), if_neg (differs _ (by decide)),
    if_neg (differs _ (by decide)), if_neg (differs _ (by decide)), if_neg (differs _ (by decide)),
    if_neg (differs _ (by decide)), if_neg status, if_pos below]

theorem isSuffixOf_iff {s suffix : GoString} : Strings.hasSuffix s suffix = true ↔ suffix <:+ s :=
  List.isSuffixOf_iff_suffix

/-- A path does not end in both suffixes. -/
theorem not_shell_of_command {path : GoString} (ends : Strings.hasSuffix path (lit "/command") = true) :
    Strings.hasSuffix path (lit "/shell") = false := by
  rw [Bool.eq_false_iff, ne_eq, isSuffixOf_iff]
  intro both
  have nested := List.suffix_or_suffix_of_suffix both (isSuffixOf_iff.mp ends)
  revert nested
  decide

variable (startedAt) in
/-- The operation behind a request that asks for a directory. -/
theorem serve_of_asks (asks : Asks s r workspaceID cwd) :
    ∃ id kind se req, s.getSession id = some se ∧ se.workspaceID = workspaceID ∧
      effectiveCwd se req.cwd = cwd ∧ serve startedAt r = .op (.getSession id) fun
        | none => .pure (error 404 (lit "not_found") (lit "session not found"))
        | some se => executeCommandLike se kind req := by
  obtain ⟨clean, below, suffix, listed, ends, se, req, stored, decoded, own, asked⟩ := asks
  have other : sessionPart r ≠ lit "status" := by
    intro same
    rw [same] at ends
    simp only [List.mem_cons, List.not_mem_nil, or_false] at listed
    rcases listed with rfl | rfl <;> revert ends <;> decide
  have routed := serve_of_session startedAt clean below other
  have operation : ∃ kind, serve startedAt r = runOperation r suffix kind := by
    simp only [List.mem_cons, List.not_mem_nil, or_false] at listed
    rcases listed with rfl | rfl
    · exact ⟨lit "shell", by rw [routed, sessionRoutes, if_pos ends, shell]⟩
    · refine ⟨lit "command", ?_⟩
      rw [routed, sessionRoutes, not_shell_of_command ends, if_neg Bool.false_ne_true, if_pos ends, command]
  obtain ⟨kind, operation⟩ := operation
  refine ⟨_, kind, se, req, stored, own, asked, ?_⟩
  rw [operation, runOperation, decoded]
  simp only [call, Program.bind_eq, Program.perform_bind]
  congr 1
  funext found
  cases found <;> rfl

/-- What an operation comes to, by what its lookup finds. -/
structure Refusal (startedAt : Int) (s : State) (r : Request) (env : Nat → Env) (workspaceID cwd : GoString)
    (p : PermissionRequest) : Prop where
  denied : Denied startedAt s r env
  store : (respond startedAt r env s).2 = (s.createPermission p pending).2
  workspace : p.workspaceID = workspaceID
  patterns : p.patterns = [cwd ++ subtree]
  session : ∃ id se, s.getSession id = some se ∧ se.id = p.sessionID
  minted : ∃ now, p.id = lit "perm_" ++ Strings.decimal now

variable (startedAt env) in
theorem refusal_of_missing (asks : Asks s r workspaceID cwd)
    (missing : s.findApproval (env 1) workspaceID cwd = none) :
    ∃ p, Refusal startedAt s r env workspaceID cwd p := by
  obtain ⟨id, kind, se, req, stored, rfl, rfl, served⟩ := serve_of_asks startedAt asks
  have answer : s.consumeApproval (env 1) se.workspaceID (effectiveCwd se req.cwd) = (none, s) := by
    rw [State.consumeApproval, missing]
  refine ⟨newPermission se kind (effectiveCwd se req.cwd) (env 2).now (env 3).now, ⟨?_, ?_⟩, ?_, rfl, rfl,
    ⟨id, se, stored, rfl⟩, ⟨_, rfl⟩⟩
  · simp [respond, served, exec, stored, executeCommandLike, call, publish, answer, error, json]
  · simp [commandsRun, served, exec, stored, executeCommandLike, call, publish, answer, commandRun]
  · simp [respond, served, exec, stored, executeCommandLike, call, publish, answer]

variable (startedAt env) in
theorem executes_of_found (asks : Asks s r workspaceID cwd) {id : GoString} {a : Approval}
    (found : s.findApproval (env 1) workspaceID cwd = some (id, a)) :
    Executes startedAt s r env cwd ∧ (respond startedAt r env s).2.sessions = s.sessions ∧
      (respond startedAt r env s).2.approvals = if a.mode = once then s.approvals.erase id else s.approvals := by
  obtain ⟨id', kind, se, req, stored, rfl, rfl, served⟩ := serve_of_asks startedAt asks
  have answer : ∃ s', s.consumeApproval (env 1) se.workspaceID (effectiveCwd se req.cwd) = (some a, s') ∧
      s'.sessions = s.sessions ∧
      s'.approvals = if a.mode = once then s.approvals.erase id else s.approvals := by
    rw [State.consumeApproval, found]
    by_cases single : a.mode = once
    · simp only [single, if_true]
      exact ⟨_, rfl, rfl, rfl⟩
    · simp only [single, if_false]
      exact ⟨_, rfl, rfl, rfl⟩
  obtain ⟨s', answer, same, left⟩ := answer
  refine ⟨⟨?_, ?_⟩, ?_, ?_⟩
  · simp [respond, served, exec, stored, executeCommandLike, call, answer, json]
  · simp only [commandsRun, served, Program.trace_op, exec, stored, executeCommandLike, call, Program.bind_eq,
      Program.perform_bind, answer]
    rfl
  · simp [respond, served, exec, stored, executeCommandLike, call, answer, same]
  · simp [respond, served, exec, stored, executeCommandLike, call, answer, left]

/-! ## Replies -/

/-- A reply to this permission request, by either route. -/
structure RepliesTo (s : State) (r : Request) (p : PermissionPtr) (reply : GoString) : Prop where
  clean : cleanPath r.path = r.path
  body : ∃ message, r.body.reply = .ok ⟨reply, message⟩
  filed : s.getPermission p.id = some p
  route : Strings.hasPrefix r.path (lit "/permission/") ∧ r.method = methodPost ∧ permissionID r = p.id ∨
    Strings.hasPrefix r.path (lit "/session/") ∧
      (sessionPart r).splitOn slash = [p.sessionID, lit "permissions", p.id] ∧
      (s.getSession p.sessionID).isSome

theorem contains_append (front sub rest : GoString) : Strings.contains (front ++ sub ++ rest) sub = true := by
  induction front with
  | nil =>
      have here : sub.isPrefixOf (sub ++ rest) = true := List.isPrefixOf_iff_prefix.mpr (List.prefix_append ..)
      cases whole : sub ++ rest with
      | nil =>
          obtain ⟨rfl, rfl⟩ := List.append_eq_nil_iff.mp whole
          rfl
      | cons c tail =>
          rw [whole] at here
          simp [Strings.contains, Strings.index, whole, here]
  | cons c front ih =>
      simp only [List.cons_append, Strings.contains, Strings.index]
      split
      · rfl
      · rw [Option.isSome_map]
        exact ih

/-- A path that ends in an id minted for a request does not end in the name of an operation. -/
theorem not_operation_of_minted {path : GoString} {now : Int}
    (ends : lit "perm_" ++ Strings.decimal now <:+ path) {suffix : GoString}
    (listed : suffix ∈ [lit "/shell", lit "/command"]) : Strings.hasSuffix path suffix = false := by
  have plain : Plain (lit "perm_" ++ Strings.decimal now) :=
    plain_minted (by constructor <;> decide) (by decide) now
  have letter : (112 : UInt8) ∈ lit "perm_" ++ Strings.decimal now :=
    List.mem_append_left _ (by decide)
  have marked : slash ∈ suffix ∧ (112 : UInt8) ∉ suffix := by
    simp only [List.mem_cons, List.not_mem_nil, or_false] at listed
    rcases listed with rfl | rfl <;> decide
  rw [Bool.eq_false_iff, ne_eq, isSuffixOf_iff]
  intro both
  cases List.suffix_or_suffix_of_suffix both ends with
  | inl inside => exact plain.noSlash (inside.subset marked.1)
  | inr around => exact marked.2 (around.subset letter)

theorem serve_of_permission (clean : cleanPath r.path = r.path)
    (below : Strings.hasPrefix r.path (lit "/permission/") = true) :
    serve startedAt r = permissionRoutes r := by
  have differs : ∀ path, Strings.hasPrefix path (lit "/permission/") = false → r.path ≠ path := by
    intro path outside same
    rw [same, outside] at below
    cases below
  have elsewhere : Strings.hasPrefix r.path (lit "/session/") = false := by
    rw [Bool.eq_false_iff, ne_eq, Strings.hasPrefix, List.isPrefixOf_iff_prefix]
    intro both
    have nested := List.prefix_or_prefix_of_prefix both (List.isPrefixOf_iff_prefix.mp below)
    revert nested
    decide
  rw [serve, if_neg (not_not.mpr clean), if_neg (differs _ (by decide)), if_neg (differs _ (by decide)),
    if_neg (differs _ (by decide)), if_neg (differs _ (by decide)), if_neg (differs _ (by decide)),
    if_neg (differs _ (by decide)), if_neg (differs _ (by decide)), elsewhere, if_neg Bool.false_ne_true,
    if_neg (differs _ (by decide)), if_pos below]

theorem sessionRoutes_of_reply {sessionID id : GoString} {now : Int}
    (minted : id = lit "perm_" ++ Strings.decimal now)
    (parts : (sessionPart r).splitOn slash = [sessionID, lit "permissions", id]) :
    sessionPart r ≠ lit "status" ∧ sessionRoutes r = sessionPermissionReply r := by
  have split : sessionPart r = sessionID ++ lit "/permissions/" ++ id := by
    have joined : [slash].intercalate ((sessionPart r).splitOn slash) = sessionPart r :=
      List.intercalate_splitOn slash
    rw [parts] at joined
    simpa [List.intercalate, lit, slash] using joined.symm
  have ends : lit "perm_" ++ Strings.decimal now <:+ sessionPart r := by
    rw [split, minted]
    exact List.suffix_append ..
  constructor
  · intro same
    rw [same] at parts
    revert parts
    simp only [show (lit "status").splitOn slash = [lit "status"] by decide]
    simp
  · rw [sessionRoutes, not_operation_of_minted ends (by simp), if_neg Bool.false_ne_true,
      not_operation_of_minted ends (by simp), if_neg Bool.false_ne_true, if_pos]
    rw [split]
    exact contains_append ..

/-- The part of a reply that both routes share. -/
def replying (p : PermissionPtr) (reply message : GoString) (env : Nat → Env) (s : State) : Response × State :=
  let (response, s', _) := (replyToPermission p (.ok ⟨reply, message⟩)).run exec env s
  (response, s')

variable (startedAt env) in
/-- Either route comes down to the handler of replies, after one lookup or two. -/
theorem respond_of_reply {p : PermissionPtr} {reply : GoString} {now : Int}
    (minted : p.id = lit "perm_" ++ Strings.decimal now) (replies : RepliesTo s r p reply) :
    ∃ message lookups, respond startedAt r env s = replying p reply message (fun n => env (n + lookups)) s := by
  obtain ⟨clean, ⟨message, decoded⟩, filed, route⟩ := replies
  rcases route with ⟨below, post, identified⟩ | ⟨below, parts, known⟩
  · have served : serve startedAt r = permissionReply r := by
      rw [serve_of_permission clean below, permissionRoutes, if_pos post]
    refine ⟨message, 1, ?_⟩
    simp only [respond, replying, served, permissionReply, call, Program.bind_eq, Program.perform_bind,
      Program.run_op, exec, identified, filed, decoded]
  · obtain ⟨other, routed⟩ := sessionRoutes_of_reply minted parts
    have served : serve startedAt r = sessionPermissionReply r := by
      rw [serve_of_session startedAt clean below other, routed]
    obtain ⟨se, known⟩ := Option.isSome_iff_exists.mp known
    have first : exec (env 0) (.getSession p.sessionID) s = (some se, s) := congrArg (·, s) known
    have second : exec (env 1) (.getPermission p.id) s = (some p, s) := congrArg (·, s) filed
    refine ⟨message, 2, ?_⟩
    simp [respond, replying, served, sessionPermissionReply, parts, call, first, second, decoded]

variable (s) in
/-- A reply that grants stores an approval of its mode for the request's directory. -/
theorem reply_grants {p : PermissionPtr} {pattern reply : GoString} (message : GoString) {rest : List GoString}
    (patterns : p.patterns = pattern :: rest) (approving : Approving reply) (writes : ∀ n, (env n).write = .ok) :
    ∃ a : Approval, a.workspaceID = p.workspaceID ∧ a.pattern = pattern ∧ a.mode = reply ∧
      (replying p reply message env s).1.code = 200 ∧
      (replying p reply message env s).2.approvals = s.approvals.set a.id a := by
  refine ⟨newApproval p pattern reply (env 2).now (env 3).now, rfl, rfl, rfl, ?_⟩
  have granting : reply = always ∨ reply = once := approving
  have written : ∀ (s : State) (a : Approval), (s.createApproval (env 4) a).1 = none ∧
      (s.createApproval (env 4) a).2.approvals = s.approvals.set a.id a := by
    intro s a
    simp [State.createApproval, State.saveApproval, writeFile, writes]
  simp [replying, replyToPermission, applyPermissionReply, granting, patterns, publishReplied, publish, call, exec, json,
    State.setStatus, State.updatePermission, written]

variable (env s) in
/-- Any other reply leaves all approvals as they are. -/
theorem reply_refuses (p : PermissionPtr) {reply : GoString} (message : GoString) (other : ¬Approving reply) :
    (replying p reply message env s).1.code = 200 ∧
      (replying p reply message env s).2.sessions = s.sessions ∧
      (replying p reply message env s).2.approvals = s.approvals := by
  have refused : ¬(reply = always ∨ reply = once) := other
  simp [replying, replyToPermission, applyPermissionReply, refused, publishReplied, publish, call, exec, json,
    State.setStatus, State.updatePermission]

/-! ## What later operations find -/

theorem findApproval_eq_none {env : Env} :
    s.findApproval env workspaceID cwd = none ↔ Uncovered s workspaceID cwd := by
  constructor
  · intro missing id a stored covers
    have unmatched := State.findApproval_none missing stored covers.1
    rw [covers.2] at unmatched
    cases unmatched
  · intro uncovered
    apply Option.eq_none_iff_forall_ne_some.mpr
    rintro ⟨id, a⟩ found
    obtain ⟨stored, own, matched⟩ := State.findApproval_some found
    exact uncovered id a stored ⟨own, matched⟩

/-- This approval covers the directory for the workspace, and no other one does. -/
structure Sole (s : State) (workspaceID cwd : GoString) (a : Approval) : Prop where
  stored : s.approvals.get a.id = some a
  covers : Covers a workspaceID cwd
  only : ∀ id b, s.approvals.get id = some b → Covers b workspaceID cwd → id = a.id

theorem Sole.found {a : Approval} (sole : Sole s workspaceID cwd a) (env : Env) :
    s.findApproval env workspaceID cwd = some (a.id, a) := by
  cases lookup : s.findApproval env workspaceID cwd with
  | none => exact absurd sole.covers (findApproval_eq_none.mp lookup a.id a sole.stored)
  | some entry =>
      obtain ⟨id, b⟩ := entry
      obtain ⟨stored, own, matched⟩ := State.findApproval_some lookup
      have key := sole.only id b stored ⟨own, matched⟩
      rw [key, sole.stored] at stored
      cases stored
      rw [key]

theorem executes_iff (asks : Asks s r workspaceID cwd) :
    Executes startedAt s r env cwd ↔ (s.findApproval (env 1) workspaceID cwd).isSome := by
  cases lookup : s.findApproval (env 1) workspaceID cwd with
  | none =>
      obtain ⟨p, refusal⟩ := refusal_of_missing startedAt env asks lookup
      refine iff_of_false (fun executes => ?_) Bool.false_ne_true
      have code := executes.answer
      rw [refusal.denied.answer] at code
      cases code
  | some entry => exact iff_of_true (executes_of_found startedAt env asks lookup).1 rfl

theorem denied_iff (asks : Asks s r workspaceID cwd) :
    Denied startedAt s r env ↔ s.findApproval (env 1) workspaceID cwd = none := by
  cases lookup : s.findApproval (env 1) workspaceID cwd with
  | none =>
      obtain ⟨p, refusal⟩ := refusal_of_missing startedAt env asks lookup
      exact iff_of_true refusal.denied rfl
  | some entry =>
      refine iff_of_false (fun denied => ?_) (Option.some_ne_none _)
      have code := denied.answer
      rw [(executes_of_found startedAt env asks lookup).1.answer] at code
      cases code

/-- The directory itself, or a spelling below it. -/
def Within (cwd path : GoString) : Prop := path = cwd ∨ cwd ++ [slash] <+: path

/-- No approval is granted. -/
def NoGrants (log : List StubEntry) : Prop := ∀ entry ∈ log, ∀ a, entry.event.op ≠ .createApproval a

/-- The workspace does not ask for the directory or anything below it. -/
def NoUses (workspaceID cwd : GoString) (log : List StubEntry) : Prop :=
  ∀ entry ∈ log, ∀ path, entry.event.op = .consumeApproval workspaceID path → ¬Within cwd path

/-- What all operations but some keep is kept by every run that avoids these, and each
    operation of the run was performed where it holds. -/
theorem run_avoiding {bad : Op → Prop} {P : State → Prop}
    (keeps : ∀ env o s, ¬bad o → P s → P (exec env o s).2) {labels : List StubLabel}
    (running : ∀ label ∈ labels, label.Within oneProcess)
    (avoided : ∀ entry ∈ ((server startedAt).run s labels).log, ¬bad entry.event.op) (start : P s) :
    P ((server startedAt).run s labels).store ∧ ∀ event ∈ ((server startedAt).run s labels).log.map Entry.event,
      ∃ env o before, P before ∧ event = ⟨o, (exec env o before).1⟩ := by
  have preserves : (server startedAt).Preserves Protocol oneProcess fun s log =>
      (∀ entry ∈ log, ¬bad entry.event.op) → P s ∧ ∀ event ∈ log.map Entry.event,
        ∃ env o before, P before ∧ event = ⟨o, (exec env o before).1⟩ := by
    intro s log thread o env _ _ inv avoided
    obtain ⟨before, events⟩ := inv fun entry member => avoided entry (List.mem_append_left _ member)
    refine ⟨keeps env o s (avoided _ (List.mem_append_right _ (List.mem_singleton.mpr rfl))) before, ?_⟩
    intro event member
    rw [List.map_append, List.mem_append] at member
    cases member with
    | inl old => exact events event old
    | inr new => exact ⟨env, o, s, before, List.mem_singleton.mp new⟩
  exact run_preserved running (fun _ reboots => reboots.elim) preserves
    (fun _ => ⟨start, by simp⟩) avoided

def Grant (o : Op) : Prop := ∃ a, o = .createApproval a

def Use (workspaceID cwd : GoString) (o : Op) : Prop :=
  ∃ path, o = .consumeApproval workspaceID path ∧ Within cwd path

theorem uncovered_step (env : Env) (o : Op) (s : State) (other : ¬Grant o)
    (uncovered : Uncovered s workspaceID cwd) : Uncovered (exec env o s).2 workspaceID cwd := by
  intro id a stored
  cases approval_origin stored with
  | inl before => exact uncovered id a before
  | inr new => exact absurd ⟨a, new.1⟩ other

theorem stored_step {a : Approval} (lasting : a.mode ≠ once) (env : Env) (o : Op) (s : State)
    (other : ¬Grant o) (stored : s.approvals.get a.id = some a) :
    (exec env o s).2.approvals.get a.id = some a := by
  rcases approval_fate stored with kept | ⟨b, grant, -⟩ | ⟨_, _, _, _, single⟩
  · exact kept
  · exact absurd ⟨b, grant⟩ other
  · exact absurd single lasting

theorem sole_step {a : Approval} (pattern : a.pattern = cwd ++ subtree) (env : Env) (o : Op) (s : State)
    (other : ¬(Grant o ∨ Use workspaceID cwd o)) (sole : Sole s workspaceID cwd a) :
    Sole (exec env o s).2 workspaceID cwd a := by
  rw [not_or] at other
  refine ⟨?_, sole.covers, ?_⟩
  · rcases approval_fate sole.stored with kept | ⟨b, grant, -⟩ | ⟨user, path, use, found, -⟩
    · exact kept
    · exact absurd ⟨b, grant⟩ other.1
    · obtain ⟨-, own, matched⟩ := State.findApproval_some found
      rw [pattern, matchPattern_subtree] at matched
      rw [← own, sole.covers.1] at use
      exact absurd ⟨path, use, matched⟩ other.2
  · intro id b stored covers
    cases approval_origin stored with
    | inl before => exact sole.only id b before covers
    | inr new => exact absurd ⟨b, new.1⟩ other.1

theorem uncovered_run {labels : List StubLabel} (running : ∀ label ∈ labels, label.Within oneProcess)
    (grants : NoGrants ((server startedAt).run s labels).log) (uncovered : Uncovered s workspaceID cwd) :
    Uncovered ((server startedAt).run s labels).store workspaceID cwd :=
  (run_avoiding uncovered_step running (fun entry member ⟨b, grant⟩ => grants entry member b grant) uncovered).1

/-! ## The round trip -/

/-- One operation in the directory executes, and the next one is denied. -/
def GrantedOnce (startedAt : Int) (s : State) (workspaceID cwd : GoString) : Prop :=
  ∀ labels, (∀ label ∈ labels, label.Within oneProcess) →
    NoGrants ((server startedAt).run s labels).log →
    NoUses workspaceID cwd ((server startedAt).run s labels).log →
    let σ := ((server startedAt).run s labels).store
    ∀ r env, Asks σ r workspaceID cwd → Executes startedAt σ r env cwd ∧
      ∀ labels', (∀ label ∈ labels', label.Within oneProcess) →
        NoGrants ((server startedAt).run (respond startedAt r env σ).2 labels').log →
        let σ' := ((server startedAt).run (respond startedAt r env σ).2 labels').store
        ∀ r' env', Asks σ' r' workspaceID cwd → Denied startedAt σ' r' env'

/-- Every operation in the directory or below it executes, and every lookup for one succeeds. -/
def GrantedAlways (startedAt : Int) (s : State) (workspaceID cwd : GoString) : Prop :=
  ∀ labels, (∀ label ∈ labels, label.Within oneProcess) →
    NoGrants ((server startedAt).run s labels).log →
    let σ := ((server startedAt).run s labels).store
    ∀ path, Within cwd path →
      (∀ r env, Asks σ r workspaceID path → Executes startedAt σ r env path) ∧
      ⟨.consumeApproval workspaceID path, none⟩ ∉ ((server startedAt).run s labels).log.map Entry.event

/-- Every operation is answered as before, and those in the directory are denied. -/
def GrantedNothing (startedAt : Int) (before after : State) (workspaceID cwd : GoString) : Prop :=
  (∀ r env anyone path, Asks before r anyone path →
    (Executes startedAt after r env path ↔ Executes startedAt before r env path) ∧
    (Denied startedAt after r env ↔ Denied startedAt before r env)) ∧
  ∀ labels, (∀ label ∈ labels, label.Within oneProcess) →
    NoGrants ((server startedAt).run after labels).log →
    let σ := ((server startedAt).run after labels).store
    ∀ r env, Asks σ r workspaceID cwd → Denied startedAt σ r env

theorem denied_of_uncovered (asks : Asks s r workspaceID cwd) (uncovered : Uncovered s workspaceID cwd) :
    Denied startedAt s r env := by
  obtain ⟨p, refusal⟩ := refusal_of_missing startedAt env asks
    (findApproval_eq_none.mpr uncovered)
  exact refusal.denied

theorem grantedOnce_of_sole {a : Approval} (sole : Sole s workspaceID cwd a)
    (pattern : a.pattern = cwd ++ subtree) (mode : a.mode = once) :
    GrantedOnce startedAt s workspaceID cwd := by
  intro labels running grants uses σ r env asks
  have here : Sole σ workspaceID cwd a := by
    refine (run_avoiding (sole_step pattern) running (fun entry member bad => ?_) sole).1
    rcases bad with ⟨b, grant⟩ | ⟨path, use, under⟩
    · exact grants entry member b grant
    · exact uses entry member path use under
  obtain ⟨executes, -, left⟩ := executes_of_found startedAt env asks (here.found (env 1))
  refine ⟨executes, ?_⟩
  intro labels' running' grants' σ' r' env' asks'
  have spent : Uncovered (respond startedAt r env σ).2 workspaceID cwd := by
    intro id b stored covers
    rw [left, if_pos mode, OrderedMap.get_erase] at stored
    split at stored
    · cases stored
    · rename_i different
      exact different (here.only id b stored covers)
  exact denied_of_uncovered asks' (uncovered_run running' grants' spent)

theorem grantedAlways_of_stored {a : Approval} (stored : s.approvals.get a.id = some a)
    (own : a.workspaceID = workspaceID) (pattern : a.pattern = cwd ++ subtree) (mode : a.mode = always) :
    GrantedAlways startedAt s workspaceID cwd := by
  intro labels running grants σ path under
  have lasting : a.mode ≠ once := by
    rw [mode]
    decide
  have covers : Covers a workspaceID path := ⟨own, by rw [pattern]; exact matchPattern_subtree.mpr under⟩
  have found : ∀ (s : State) env, s.approvals.get a.id = some a → s.findApproval env workspaceID path ≠ none := by
    intro s env here missing
    exact findApproval_eq_none.mp missing a.id a here covers
  obtain ⟨here, lookups⟩ := run_avoiding (stored_step lasting) running
    (fun entry member ⟨b, grant⟩ => grants entry member b grant) stored
  constructor
  · intro r env asks
    exact (executes_iff asks).mpr (Option.isSome_iff_ne_none.mpr (found σ (env 1) here))
  · intro member
    obtain ⟨env, o, before, here, same⟩ := lookups _ member
    cases o with
    | consumeApproval user asked =>
        simp only [exec, Event.mk.injEq, Op.consumeApproval.injEq] at same
        obtain ⟨⟨rfl, rfl⟩, answer⟩ := same
        have missing := found before env here
        simp only [State.consumeApproval] at answer
        split at answer
        · exact missing ‹_›
        · split at answer <;> cases answer
    | _ => cases same

theorem grantedNothing_of_same {before after : State} (sessions : after.sessions = before.sessions)
    (approvals : after.approvals = before.approvals) (uncovered : Uncovered before workspaceID cwd) :
    GrantedNothing startedAt before after workspaceID cwd := by
  constructor
  · intro r env anyone path asks
    have asks' : Asks after r anyone path := by simpa only [Asks, State.getSession, sessions] using asks
    have lookup : after.findApproval (env 1) anyone path = before.findApproval (env 1) anyone path := by
      simp only [State.findApproval, approvals]
    rw [executes_iff asks, executes_iff asks', denied_iff asks, denied_iff asks', lookup]
    exact ⟨Iff.rfl, Iff.rfl⟩
  · intro labels running grants σ r env asks
    have start : Uncovered after workspaceID cwd := by rwa [Uncovered, approvals]
    exact denied_of_uncovered asks (uncovered_run running grants start)

/-- What the operations after a reply are told. -/
structure Outcome (startedAt : Int) (s : State) (r : Request) (env : Nat → Env) (reply : GoString)
    (workspaceID cwd : GoString) : Prop where
  answer : (respond startedAt r env s).1.code = 200
  once : reply = once → GrantedOnce startedAt (respond startedAt r env s).2 workspaceID cwd
  always : reply = always → GrantedAlways startedAt (respond startedAt r env s).2 workspaceID cwd
  other : ¬Approving reply → GrantedNothing startedAt s (respond startedAt r env s).2 workspaceID cwd

theorem outcome_of_reply (uncovered : Uncovered s workspaceID cwd) {p : PermissionPtr} {now : Int}
    (minted : p.id = lit "perm_" ++ Strings.decimal now) (own : p.workspaceID = workspaceID)
    (patterns : p.patterns = [cwd ++ subtree]) {reply : GoString} (replies : RepliesTo s r p reply)
    (writes : ∀ n, (env n).write = .ok) : Outcome startedAt s r env reply workspaceID cwd := by
  obtain ⟨message, lookups, same⟩ := respond_of_reply startedAt env minted replies
  by_cases approving : Approving reply
  · obtain ⟨a, workspace, pattern, mode, answer, approvals⟩ :=
      reply_grants s message patterns approving fun n => writes (n + lookups)
    have stored : (respond startedAt r env s).2.approvals = s.approvals.set a.id a := by rw [same, approvals]
    have covers : Covers a workspaceID cwd :=
      ⟨workspace.trans own, by rw [pattern]; exact matchPattern_subtree.mpr (.inl rfl)⟩
    have sole : Sole (respond startedAt r env s).2 workspaceID cwd a := by
      refine ⟨by rw [stored, OrderedMap.get_set_self], covers, fun id b found covered => ?_⟩
      by_contra different
      rw [stored, OrderedMap.get_set_ne _ _ different] at found
      exact uncovered id b found covered
    refine ⟨by rw [same, answer], fun once => ?_, fun always => ?_, fun other => absurd approving other⟩
    · exact grantedOnce_of_sole sole pattern (mode.trans once)
    · exact grantedAlways_of_stored sole.stored covers.1 pattern (mode.trans always)
  · obtain ⟨answer, sessions, approvals⟩ :=
      reply_refuses s (fun n => env (n + lookups)) p message approving
    refine ⟨by rw [same, answer], fun once => absurd (.inr once) approving,
      fun always => absurd (.inl always) approving, fun _ => ?_⟩
    exact grantedNothing_of_same (by rw [same, sessions]) (by rw [same, approvals]) uncovered

/-- Sessions are keyed by their ids. -/
theorem run_sessions_keyed (startedAt : Int) (root : GoString) (disk : OrderedMap CleanPath FileData)
    (labels : List StubLabel) (id : GoString) (se : Session)
    (stored : ((server startedAt).run (State.startUp root disk) labels).store.sessions.get id = some se) :
    se.id = id := by
  have loaded : ∀ root disk id se, (State.startUp root disk).sessions.get id = some se → se.id = id := by
    intro root disk id se stored
    have read : (State.load unmarshalSession Session.id _).get id = some se := stored
    exact (load_origin read).1
  have preserves : (server startedAt).Preserves (fun _ _ => True) {}
      fun s _ => ∀ id se, s.sessions.get id = some se → se.id = id := by
    intro s log thread o env _ _ keyed id se stored
    cases o with
    | createSession new =>
        change (s.sessions.set new.id new).get id = some se at stored
        rw [OrderedMap.get_set] at stored
        split at stored
        · rename_i same
          cases stored
          exact same.symm
        · exact keyed id se stored
    | deleteSession gone =>
        change (s.sessions.erase gone).get id = some se at stored
        rw [OrderedMap.get_erase] at stored
        split at stored
        · cases stored
        · exact keyed id se stored
    | consumeApproval workspaceID path =>
        obtain ⟨approvals, disk, same⟩ := State.consumeApproval_frame env workspaceID path s
        change (s.consumeApproval env workspaceID path).2.sessions.get id = some se at stored
        rw [same] at stored
        exact keyed id se stored
    | _ => exact keyed id se stored
  exact Machine.run_invariant _ preserves (fun request _ => Program.obeys_free _ _)
    (fun s log env _ _ => loaded s.root s.disk) (loaded root disk) (fun label _ => Label.within_default label) id se stored

/-- A request filed by a denial, to which both routes of a reply lead. -/
structure PendingFor (before after : State) (workspaceID cwd : GoString) (p : PermissionPtr) : Prop where
  found : after.getPermission p.id = some p
  asked : after.status p = pending
  fresh : p.addr = before.statuses.length
  workspace : p.workspaceID = workspaceID
  patterns : p.patterns = [cwd ++ subtree]
  session : (after.getSession p.sessionID).isSome

/-- An operation that nothing covers is denied and files a request, and what the operations
    after a reply are told depends on the reply alone. -/
theorem permission_round_trip (startedAt : Int) (root : GoString) (disk : OrderedMap CleanPath FileData)
    (labels : List StubLabel) {r : Request} (env : Nat → Env) {workspaceID cwd : GoString}
    (asks : Asks ((server startedAt).run (.startUp root disk) labels).store r workspaceID cwd)
    (uncovered : Uncovered ((server startedAt).run (.startUp root disk) labels).store workspaceID cwd) :
    let s := ((server startedAt).run (.startUp root disk) labels).store
    let denied := (respond startedAt r env s).2
    Denied startedAt s r env ∧ ∃ p, PendingFor s denied workspaceID cwd p ∧
      ∀ waiting, (∀ label ∈ waiting, label.Within oneProcess) →
        NoGrants ((server startedAt).run denied waiting).log →
        let σ := ((server startedAt).run denied waiting).store
        ∀ reply answer env', RepliesTo σ answer p reply → (∀ n, (env' n).write = .ok) →
          Outcome startedAt σ answer env' reply workspaceID cwd := by
  intro s denied
  obtain ⟨p, refusal⟩ := refusal_of_missing startedAt env asks
    (findApproval_eq_none.mpr uncovered)
  obtain ⟨id, se, known, own⟩ := refusal.session
  obtain ⟨now, minted⟩ := refusal.minted
  have after : denied = (s.createPermission p pending).2 := refusal.store
  have keyed : se.id = id := run_sessions_keyed startedAt root disk labels id se known
  refine ⟨refusal.denied, { p with addr := s.statuses.length },
    ⟨?_, ?_, rfl, refusal.workspace, refusal.patterns, ?_⟩, ?_⟩
  · simp [after, State.getPermission, State.createPermission]
  · simp [after, State.status, State.createPermission]
  · rw [after]
    simp only [State.getSession, State.createPermission, ← own, keyed]
    exact Option.isSome_of_eq_some known
  · intro waiting running grants σ reply answer env' replies writes
    have start : Uncovered denied workspaceID cwd := by
      rw [after]
      exact uncovered
    exact outcome_of_reply (uncovered_run running grants start) minted refusal.workspace refusal.patterns replies writes

/-- A store with a workspace and a session in it. -/
def oneSession : State :=
  ((server 0).run (.startUp (lit "/root") .empty)
    (script [(1, workspacePost (lit "w")), (2, sessionPost (lit "s") (lit "w"))])).store

/-- The session asks for a directory. -/
def askedOnce : State := (respond 0 (shellPost (lit "s") (lit "/srv")) (fun _ => calm 5) oneSession).2

/-- The request is allowed once, and the session asks again. -/
theorem executes_after_once :
    Executes 0 (respond 0 (replyPost (lit "perm_5") once) (fun _ => calm 6) askedOnce).2
      (shellPost (lit "s") (lit "/srv")) (fun _ => calm 7) (lit "/srv") := by
  have session : oneSession.getSession (lit "s") =
      some ⟨lit "s", lit "w", [], lit "/root", ⟨lit "idle", []⟩, 2, 2⟩ := by decide +kernel
  have asks : ∀ s : State, s.sessions = oneSession.sessions →
      Asks s (shellPost (lit "s") (lit "/srv")) (lit "w") (lit "/srv") := by
    intro s same
    refine ⟨by decide, by decide, lit "/shell", List.mem_cons_self .., by decide,
      ⟨lit "s", lit "w", [], lit "/root", ⟨lit "idle", []⟩, 2, 2⟩, _, ?_, rfl, rfl, rfl⟩
    rw [State.getSession, same]
    exact session
  have uncovered : Uncovered oneSession (lit "w") (lit "/srv") := by
    have none : oneSession.approvals = .empty := by decide +kernel
    intro id a stored
    rw [none] at stored
    cases stored
  obtain ⟨-, p, filed, outcome⟩ := permission_round_trip 0 (lit "/root") .empty
    (script [(1, workspacePost (lit "w")), (2, sessionPost (lit "s") (lit "w"))]) (fun _ => calm 5)
    (asks _ rfl) uncovered
  have identified : p.id = lit "perm_5" := by
    have keys : askedOnce.permissions.keys = [lit "perm_5"] := by decide +kernel
    have member : p.id ∈ askedOnce.permissions.keys :=
      List.mem_map.mpr ⟨(p.id, p), OrderedMap.mem_entries.mpr filed.found, rfl⟩
    rw [keys] at member
    exact List.mem_singleton.mp member
  have replies : RepliesTo askedOnce (replyPost (lit "perm_5") once) p once :=
    ⟨by decide, ⟨[], rfl⟩, filed.found, .inl ⟨by decide, rfl, by rw [identified]; decide⟩⟩
  have granted := (outcome [] (by simp) (by simp [NoGrants, Machine.init]) once _ (fun _ => calm 6) replies fun _ => rfl).once rfl
  exact (granted [] (by simp) (by simp [NoGrants, Machine.init]) (by simp [NoUses, Machine.init]) _ (fun _ => calm 7)
    (asks _ (by decide +kernel))).1

end OpencodeRemote.Stub
