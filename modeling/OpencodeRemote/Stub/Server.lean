import OpencodeRemote.Concurrency.Pool
import OpencodeRemote.Stub.Handler

/-! # The running stub

Requests are served concurrently and every operation of a handler is a scheduling point.
`Protocol` says what the events of one request look like in order: which lookup precedes
a command, which reply precedes an approval. It is checked once against all handlers and
holds in every interleaving.
-/

namespace OpencodeRemote.Stub

open Concurrency

abbrev StubEvent := Event Op Res
abbrev StubEntry := Entry State Op Res
abbrev StubLabel := Label Request Env
abbrev StubScope := Scope Request Env

def server (startedAt : Int) : Machine Request Op Res Env State Response where
  exec := exec
  suspends _ := true
  serve := serve startedAt
  reboot _ s := s.restart

/-- The runs of one process: nobody restarts the stub. -/
def oneProcess : StubScope := { reboot := fun _ => False }

/-- One process, and its writes succeed. -/
def writing : StubScope where
  env env := env.write = .ok
  reboot _ := False

def IsSetStatus : StubEvent → Prop
  | ⟨.setStatus _ _, _⟩ => True
  | _ => False

def IsRunCommand : StubEvent → Prop
  | ⟨.runCommand _ _ _, _⟩ => True
  | _ => False

def IsCreateApproval : StubEvent → Prop
  | ⟨.createApproval _, _⟩ => True
  | _ => False

/-- The lookups of the two reply routes, up to the request they reply to. -/
def Looked (past : List StubEvent) (p : PermissionPtr) : Prop :=
  (∃ id, past = [⟨.getPermission id, some p⟩]) ∨
    ∃ sessionID se id, past = [⟨.getSession sessionID, some se⟩, ⟨.getPermission id, some p⟩]

/-- A reply that grants something. -/
def Approving (reply : GoString) : Prop := reply = always ∨ reply = once

instance (reply : GoString) : Decidable (Approving reply) := inferInstanceAs (Decidable (_ ∨ _))

/-- What a request has done before it performs an operation. -/
def Protocol (past : List StubEvent) : StubEvent → Prop
  | ⟨.consumeApproval workspaceID _, _⟩ =>
      ∃ id se, past = [⟨.getSession id, some se⟩] ∧ se.workspaceID = workspaceID
  | ⟨.runCommand _ cwd _, _⟩ =>
      ∃ id se a start, past = [⟨.getSession id, some se⟩,
        ⟨.consumeApproval se.workspaceID cwd, some a⟩, ⟨.now, start⟩]
  | ⟨.createPermission p status, _⟩ =>
      ∃ id se operation cwd minted created, past = [⟨.getSession id, some se⟩,
          ⟨.consumeApproval se.workspaceID cwd, none⟩, ⟨.now, minted⟩, ⟨.now, created⟩] ∧
        p = newPermission se operation cwd minted created ∧ status = pending
  | ⟨.publish eventType props, _⟩ =>
      eventType = lit "permission.asked" → ∃ id se p ptr, ⟨.getSession id, some se⟩ ∈ past ∧
        ⟨.createPermission p pending, ptr⟩ ∈ past ∧ props = permissionAsked ptr se
  | ⟨.setStatus p _, _⟩ => Looked past p
  | ⟨.updatePermission p, _⟩ =>
      ∃ before reply, Looked before p ∧ past = before ++ [⟨.setStatus p reply, ()⟩]
  | ⟨.createApproval a, _⟩ =>
      ∃ before p pattern minted created, Looked before p ∧
        past = before ++ [⟨.setStatus p a.mode, ()⟩, ⟨.updatePermission p, ()⟩, ⟨.now, minted⟩,
          ⟨.now, created⟩] ∧
        pattern ∈ p.patterns.head? ∧ Approving a.mode ∧ a = newApproval p pattern a.mode minted created
  | _ => True

/-- A request answered 403 has filed a permission request; an approving reply answered
    200 has stored an approval, and only a failure of that keeps a reply from the 200. -/
def Answered (past : List StubEvent) (response : Response) : Prop :=
  (response.code = 403 → ∃ p ptr, ⟨.createPermission p pending, ptr⟩ ∈ past) ∧
    ∀ p reply, ⟨.setStatus p reply, ()⟩ ∈ past →
      (response.code = 200 → Approving reply →
        ∃ a, ⟨.createApproval a, none⟩ ∈ past ∧ a.mode = reply) ∧
      (response.code = 200 ∨ p.patterns = [] ∨ ∃ a err, ⟨.createApproval a, some err⟩ ∈ past)

private theorem answered_quiet {response : Response} {past : List StubEvent}
    (other : response.code ≠ 403) (unset : ∀ e ∈ past, ¬IsSetStatus e) : Answered past response :=
  ⟨fun same => absurd same other, fun _ _ member => absurd trivial (unset _ member)⟩

private theorem other_code {response : Response} (other : response.code ≠ 403) :
    (pure response : Handler Response).Obeys Protocol [] Answered :=
  answered_quiet other (by simp)

/-- The other events on the bus have other names. -/
private theorem not_asked :
    lit "workspace.ready" ≠ lit "permission.asked" ∧ lit "session.created" ≠ lit "permission.asked" ∧
    lit "session.deleted" ≠ lit "permission.asked" ∧
    lit "permission.replied" ≠ lit "permission.asked" := by decide

private theorem quiet_snoc {past : List StubEvent} {event : StubEvent}
    (unset : ∀ e ∈ past, ¬IsSetStatus e) (other : ¬IsSetStatus event) :
    ∀ e ∈ past ++ [event], ¬IsSetStatus e := by
  intro e member
  cases List.mem_append.mp member with
  | inl old => exact unset e old
  | inr new =>
      cases List.mem_singleton.mp new
      exact other

private theorem permissionListLoop_obeys (list : List PermissionPtr) {past : List StubEvent}
    (unset : ∀ e ∈ past, ¬IsSetStatus e) :
    (permissionListLoop list).Obeys Protocol past fun past' _ => ∀ e ∈ past', ¬IsSetStatus e := by
  induction list generalizing past with
  | nil => exact unset
  | cons p rest ih =>
      simp only [permissionListLoop, call, Program.bind_eq, Program.perform_bind, Program.obeys_op,
        Program.obeys_bind]
      intro approval
      exact ⟨trivial, (ih (quiet_snoc unset (by exact not_false))).mono fun past' _ still => still⟩

theorem executeCommandLike_obeys (se : Session) (operation id : GoString) (req : CommandBody) :
    (executeCommandLike se operation req).Obeys Protocol [⟨.getSession id, some se⟩] Answered := by
  simp only [executeCommandLike, call, publish, Program.bind_eq, Program.perform_bind, Program.obeys_op]
  intro approval
  refine ⟨⟨id, se, rfl, rfl⟩, ?_⟩
  cases approval with
  | none =>
      simp only [Program.obeys_op, Program.pure_eq, Program.obeys_pure]
      intro minted
      refine ⟨trivial, fun created => ⟨trivial, fun p => ⟨?_, fun _ => ⟨fun _ => ?_, fun _ => ?_,
        by simp [error, json]⟩⟩⟩⟩
      · exact ⟨id, se, operation, _, minted, created, rfl, rfl, rfl⟩
      · exact ⟨id, se, newPermission se operation (effectiveCwd se req.cwd) minted created, p,
          by simp, by simp, rfl⟩
      · exact ⟨newPermission se operation (effectiveCwd se req.cwd) minted created, p, by simp⟩
  | some a =>
      simp only [Program.obeys_op, Program.pure_eq, Program.obeys_pure]
      intro start
      refine ⟨trivial, fun result => ⟨⟨id, se, a, start, rfl⟩, fun stop => ⟨trivial, ?_⟩⟩⟩
      simp [Answered, json]

private theorem runOperation_obeys (r : Request) (suffix operation : GoString) :
    (runOperation r suffix operation).Obeys Protocol [] Answered := by
  simp only [runOperation, call, Program.bind_eq, Program.perform_bind, Program.obeys_op]
  intro session
  refine ⟨trivial, ?_⟩
  cases session with
  | none => simp [Answered, error, json]
  | some se =>
      cases r.body.command with
      | error err => simp [Answered, error, json]
      | ok req => exact executeCommandLike_obeys se operation _ req

theorem Looked.quiet {past : List StubEvent} {p : PermissionPtr} (looked : Looked past p) :
    ∀ e ∈ past, ¬IsSetStatus e := by
  rcases looked with ⟨id, rfl⟩ | ⟨sessionID, se, id, rfl⟩ <;> simp [IsSetStatus]

private theorem own_reply {before after : List StubEvent} {p p' : PermissionPtr}
    {reply reply' : GoString} (looked : Looked before p) (unset : ∀ e ∈ after, ¬IsSetStatus e)
    (member : ⟨.setStatus p' reply', ()⟩ ∈ before ++ ⟨.setStatus p reply, ()⟩ :: after) :
    p' = p ∧ reply' = reply := by
  cases List.mem_append.mp member with
  | inl old => exact absurd trivial (looked.quiet _ old)
  | inr rest =>
      cases List.mem_cons.mp rest with
      | inl own =>
          cases own
          exact ⟨rfl, rfl⟩
      | inr new => exact absurd trivial (unset _ new)

private theorem publishReplied_obeys {before after : List StubEvent} {p : PermissionPtr}
    {reply : GoString} (looked : Looked before p) (unset : ∀ e ∈ after, ¬IsSetStatus e)
    (granted : Approving reply → ∃ a, ⟨.createApproval a, none⟩ ∈ after ∧ a.mode = reply) :
    ((publishReplied p reply).bind fun err => match err with
      | some err => (pure (error 400 (lit "invalid_request") err) : Handler Response)
      | none => pure (json 200 (.bool true))).Obeys Protocol
        (before ++ ⟨.setStatus p reply, ()⟩ :: after) Answered := by
  simp only [publishReplied, publish, call, Program.bind_eq, Program.perform_bind, Program.op_bind,
    Program.obeys_op, List.append_assoc, List.cons_append]
  intro _
  refine ⟨fun asked => absurd asked not_asked.2.2.2, by simp [json], fun p' reply' member => ?_⟩
  obtain ⟨rfl, rfl⟩ := own_reply looked (quiet_snoc unset (by exact not_false)) member
  refine ⟨fun _ approving => ?_, .inl rfl⟩
  obtain ⟨a, stored, mode⟩ := granted approving
  exact ⟨a, by simp [stored], mode⟩

/-- A reply, after the lookups of either route. -/
theorem replyToPermission_obeys {p : PermissionPtr} {past : List StubEvent}
    (looked : Looked past p) (body : Except GoString ReplyBody) :
    (replyToPermission p body).Obeys Protocol past Answered := by
  cases body with
  | error err => exact answered_quiet (by simp [error, json]) looked.quiet
  | ok req =>
      simp only [replyToPermission, applyPermissionReply, call, Program.bind_eq, Program.perform_bind,
        Program.op_bind, Program.obeys_op]
      refine fun _ => ⟨looked, fun _ => ⟨⟨past, req.reply, looked, rfl⟩, ?_⟩⟩
      split
      · rename_i approving
        cases patterns : p.patterns with
        | nil =>
            refine ⟨by simp [error, json], fun p' reply' member => ?_⟩
            rw [List.append_assoc] at member
            obtain ⟨rfl, rfl⟩ := own_reply looked (by simp [IsSetStatus]) member
            exact ⟨by simp [error, json], .inr (.inl patterns)⟩
        | cons pattern rest =>
            simp only [Program.op_bind, Program.obeys_op]
            refine fun minted => ⟨trivial, fun created => ⟨trivial, fun err => ⟨?_, ?_⟩⟩⟩
            · exact ⟨past, p, pattern, minted, created, looked, by simp [newApproval],
                by simp [patterns], approving, rfl⟩
            · cases err with
              | some err =>
                  refine ⟨by simp [error, json], fun p' reply' _ => ⟨by simp [error, json], ?_⟩⟩
                  exact .inr (.inr ⟨newApproval p pattern req.reply minted created, err, by simp⟩)
              | none =>
                  simp only [List.append_assoc, List.cons_append, List.nil_append]
                  apply publishReplied_obeys looked
                  · simp [IsSetStatus]
                  · exact fun _ => ⟨newApproval p pattern req.reply minted created, by simp, rfl⟩
      · rename_i rejecting
        simp only [List.append_assoc, List.cons_append, List.nil_append]
        apply publishReplied_obeys looked
        · simp [IsSetStatus]
        · exact fun approving => absurd approving rejecting

private theorem permissionReply_obeys (r : Request) :
    (permissionReply r).Obeys Protocol [] Answered := by
  simp only [permissionReply, call, Program.bind_eq, Program.perform_bind, Program.obeys_op]
  intro found
  refine ⟨trivial, ?_⟩
  cases found with
  | none => simp [Answered, error, json]
  | some p => exact replyToPermission_obeys (.inl ⟨_, rfl⟩) _

private theorem sessionPermissionReply_obeys (r : Request) :
    (sessionPermissionReply r).Obeys Protocol [] Answered := by
  unfold sessionPermissionReply
  split
  · rename_i sessionID route permissionID _
    split
    · simp [Answered, error, json]
    · simp only [call, Program.bind_eq, Program.perform_bind, Program.obeys_op]
      intro session
      refine ⟨trivial, ?_⟩
      cases session with
      | none => simp [Answered, error, json]
      | some se =>
          simp only [Program.obeys_op]
          intro found
          refine ⟨trivial, ?_⟩
          cases found with
          | none => simp [Answered, error, json]
          | some p =>
              simp only
              split
              · simp [Answered, error, json]
              · exact replyToPermission_obeys (.inr ⟨sessionID, se, _, rfl⟩) _
  · simp [Answered, error, json]

private theorem workspaceList_obeys (r : Request) :
    (workspaceList r).Obeys Protocol [] Answered := by
  unfold workspaceList
  split
  · simp [call, Protocol, Answered, json]
  split
  · cases r.body.workspace with
    | error err => simp [Answered, error, json]
    | ok decoded =>
        simp only [call, publish, Program.bind_eq, Program.perform_bind, Program.obeys_op]
        refine fun now => ⟨trivial, fun err => ⟨trivial, ?_⟩⟩
        cases err <;> simp [Protocol, Answered, error, json, not_asked]
  · simp [Answered, error, json]

private theorem sessionCreate_obeys (r : Request) :
    (sessionCreate r).Obeys Protocol [] Answered := by
  unfold sessionCreate
  split
  · simp [Answered, error, json]
  · cases r.body.session with
    | error err => simp [Answered, error, json]
    | ok req =>
        simp only [call, publish, Program.bind_eq, Program.perform_bind, Program.obeys_op]
        intro ws
        refine ⟨trivial, ?_⟩
        cases ws with
        | none => simp [Answered, error, json]
        | some ws =>
            simp only [Program.obeys_op]
            refine fun home => ⟨trivial, fun minted => ⟨trivial, fun created => ⟨trivial,
              fun updated => ⟨trivial, fun err => ⟨trivial, ?_⟩⟩⟩⟩⟩
            cases err <;> simp [Protocol, Answered, error, json, not_asked]

private theorem sessionRoutes_obeys (r : Request) :
    (sessionRoutes r).Obeys Protocol [] Answered := by
  simp only [sessionRoutes]
  split
  · exact runOperation_obeys r _ _
  split
  · exact runOperation_obeys r _ _
  split
  · exact sessionPermissionReply_obeys r
  split
  · simp only [sessionGet, call, Program.bind_eq, Program.perform_bind, Program.obeys_op]
    intro session
    refine ⟨trivial, ?_⟩
    cases session <;> simp [Protocol, Answered, error, json]
  split
  · simp [sessionDelete, call, publish, Protocol, Answered, json, not_asked]
  · simp [Answered, error, json]

private theorem permissionList_obeys : permissionList.Obeys Protocol [] Answered := by
  simp only [permissionList, call, Program.bind_eq, Program.perform_bind, Program.obeys_op,
    Program.obeys_bind]
  intro list
  have listed : ∀ e ∈ ([] ++ [⟨.listPermissions, list⟩] : List StubEvent), ¬IsSetStatus e := by
    simp [IsSetStatus]
  have loop := permissionListLoop_obeys list listed
  exact ⟨trivial, loop.mono fun _ _ unset => answered_quiet (by simp [json]) unset⟩

private theorem permissionRoutes_obeys (r : Request) :
    (permissionRoutes r).Obeys Protocol [] Answered := by
  unfold permissionRoutes
  split
  · exact permissionReply_obeys r
  · simp [Answered, error, json]

private theorem withWorkspaceRoutes_obeys (r : Request) :
    (withWorkspaceRoutes r).Obeys Protocol [] Answered := by
  simp only [withWorkspaceRoutes]
  split
  · split
    · simp [Answered, error, json]
    · simp only [workspaceSessionRestore, call, Program.bind_eq, Program.perform_bind,
        Program.obeys_op]
      intro ws
      refine ⟨trivial, ?_⟩
      cases ws <;> simp [Protocol, Answered, error, json]
  split
  · simp [call, Protocol, Answered, json]
  · simp [Answered, error, json]

/-- Every handler of the mux follows the protocol. -/
theorem serve_obeys (startedAt : Int) (r : Request) :
    (serve startedAt r).Obeys Protocol [] Answered := by
  unfold serve
  refine .ite (fun _ => other_code (by simp)) fun _ => ?_
  refine .ite (fun _ => by simp [health, call, Protocol, Answered, json]) fun _ => ?_
  refine .ite (fun _ => other_code (by simp)) fun _ => ?_
  refine .ite (fun _ => other_code (by simp [json])) fun _ => ?_
  refine .ite (fun _ => workspaceList_obeys r) fun _ => ?_
  refine .ite (fun _ => by simp [workspaceStatus, call, Protocol, Answered, json]) fun _ => ?_
  refine .ite (fun _ => sessionCreate_obeys r) fun _ => ?_
  refine .ite (fun _ => by simp [sessionStatus, call, Protocol, Answered, json]) fun _ => ?_
  refine .ite (fun _ => sessionRoutes_obeys r) fun _ => ?_
  refine .ite (fun _ => permissionList_obeys) fun _ => ?_
  refine .ite (fun _ => permissionRoutes_obeys r) fun _ => ?_
  exact .ite (fun _ => withWorkspaceRoutes_obeys r) fun _ => other_code (by simp)

section Runs

variable {startedAt : Int} {scope : StubScope} {s : State} {labels : List StubLabel}
  (running : ∀ label ∈ labels, label.Within scope)

include running

/-- The protocol is followed in every run. -/
theorem run_protocol : Lawful Protocol ((server startedAt).run s labels).log :=
  Machine.run_lawful (fun request _ => serve_obeys startedAt request) running

theorem run_answered {i started : Nat} {request : Request} {response : Response}
    (answered : ((server startedAt).run s labels).threads[i]? =
      some ⟨request, started, some (.pure response)⟩) :
    Answered (past ((server startedAt).run s labels).log i) response :=
  Machine.run_post (fun request _ => serve_obeys startedAt request) running answered

/-- The run rule for a stub that nobody restarts. -/
theorem run_preserved {Inv : State → List StubEntry → Prop} (single : ∀ env, ¬scope.reboot env)
    (preserves : (server startedAt).Preserves Protocol scope Inv) (start : Inv s []) :
    Inv ((server startedAt).run s labels).store ((server startedAt).run s labels).log :=
  Machine.run_invariant Inv preserves (fun request _ => serve_obeys startedAt request)
    (fun _ _ env reboots => absurd reboots (single env)) start running

end Runs

/-! ## Scripts

Requests for runs on fixed inputs, served one after the other. -/

def noBody : Body := ⟨.error [], .error [], .error [], .error []⟩

def workspacePost (id : GoString) : Request :=
  ⟨methodPost, lit "/experimental/workspace",
    { noBody with workspace := .ok ⟨id, [], [], [], [], [], [], 0, none⟩ }⟩

def sessionPost (id workspaceID : GoString) : Request :=
  ⟨methodPost, lit "/session", { noBody with session := .ok ⟨id, [], workspaceID⟩ }⟩

def shellPost (sessionID cwd : GoString) : Request :=
  ⟨methodPost, lit "/session/" ++ sessionID ++ lit "/shell",
    { noBody with command := .ok ⟨lit "ls", cwd, []⟩ }⟩

def replyPost (permissionID reply : GoString) : Request :=
  ⟨methodPost, lit "/permission/" ++ permissionID ++ lit "/reply",
    { noBody with reply := .ok ⟨reply, []⟩ }⟩

/-- Nothing fails, and the clock stands at `now`. -/
def calm (now : Int) : Env :=
  ⟨now, .ok, fun _ => false, [], lit "/root", lit "host", 1, [], [], 0⟩

/-- What the environment contributes to the operations of a label. -/
def contribution : StubLabel → Nat → Env
  | .arrive _ env => env
  | .resume _ env => env
  | .reboot env => fun _ => env

/-- The clock does not go back. -/
structure SteadyClock (labels : List StubLabel) : Prop where
  within : ∀ label ∈ labels, ∀ m n, m ≤ n → (contribution label m).now ≤ (contribution label n).now
  across : labels.Pairwise fun label later =>
    ∀ m n, (contribution label m).now ≤ (contribution later n).now

/-- One request served to its end at its own time, as thread number `i`. -/
def served : (Int × Request) × Nat → List StubLabel
  | ((now, request), i) =>
      .arrive request (fun _ => calm now) :: List.replicate 10 (.resume i fun _ => calm now)

/-- Serve the requests one after the other, as threads from number `first` on. -/
def script (requests : List (Int × Request)) (first : Nat := 0) : List StubLabel :=
  (requests.zipIdx first).flatMap served

theorem script_within {scope : StubScope} (env : ∀ now, scope.env (calm now))
    {requests : List (Int × Request)} (admitted : ∀ entry ∈ requests, scope.request entry.2)
    (first : Nat) : ∀ label ∈ script requests first, label.Within scope := by
  intro label member
  obtain ⟨⟨⟨now, request⟩, i⟩, entry, own⟩ := List.mem_flatMap.mp member
  cases List.mem_cons.mp own with
  | inl arrival =>
      subst arrival
      exact ⟨admitted (now, request) (List.fst_mem_of_mem_zipIdx entry), fun _ => env now⟩
  | inr resumed =>
      rw [List.eq_of_mem_replicate resumed]
      exact fun _ => env now

theorem now_of_served {entry : (Int × Request) × Nat} {label : StubLabel} (own : label ∈ served entry)
    (n : Nat) : (contribution label n).now = entry.1.1 := by
  cases List.mem_cons.mp own with
  | inl arrival =>
      subst arrival
      rfl
  | inr resumed =>
      rw [List.eq_of_mem_replicate resumed]
      rfl

theorem script_steady {requests : List (Int × Request)}
    (ordered : requests.Pairwise fun entry later => entry.1 ≤ later.1) : SteadyClock (script requests) := by
  constructor
  · intro label member m n _
    obtain ⟨entry, -, own⟩ := List.mem_flatMap.mp member
    rw [now_of_served own, now_of_served own]
  · apply List.pairwise_flatMap.mpr
    constructor
    · intro entry _
      apply List.pairwise_of_forall_mem_list
      intro label own later own' m n
      rw [now_of_served own, now_of_served own']
    · have numbered : (requests.zipIdx 0).map Prod.fst = requests := List.zipIdx_map_fst ..
      rw [← numbered] at ordered
      apply (List.pairwise_map.mp ordered).imp
      intro entry later before label own label' own' m n
      rw [now_of_served own, now_of_served own']
      exact before

theorem script_oneProcess (requests : List (Int × Request)) :
    ∀ label ∈ script requests, label.Within oneProcess :=
  script_within (fun _ => trivial) (fun _ _ => trivial) 0

theorem script_writing (requests : List (Int × Request)) : ∀ label ∈ script requests, label.Within writing :=
  script_within (fun _ => rfl) (fun _ _ => trivial) 0

end OpencodeRemote.Stub
