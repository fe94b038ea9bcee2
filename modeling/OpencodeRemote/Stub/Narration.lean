import OpencodeRemote.Stub.Marshal
import OpencodeRemote.Stub.Server

/-! # What the handlers announce

There are five kinds of events. A request that has been served has announced the permission
requests that it filed and the replies that it applied, and nothing else about either.
-/

namespace OpencodeRemote.Stub

open Concurrency Data

/-- The events that there are. -/
def eventTypes : List GoString :=
  [lit "workspace.ready", lit "session.created", lit "session.deleted", lit "permission.asked",
    lit "permission.replied"]

def Announced : Op → Prop
  | .publish eventType props => eventType ∈ eventTypes ∧ props.numeric = true
  | _ => True

def permissionReplied (p : PermissionPtr) (reply : GoString) : Json :=
  .obj [(lit "requestID", .str p.id), (lit "reply", .str reply)]

/-- An announcement about permission requests tells what its thread has done. -/
def Truthful (past : List StubEvent) : StubEvent → Prop
  | ⟨.publish eventType props, _⟩ =>
      (eventType = lit "permission.asked" →
        ∃ q status p se, ⟨.createPermission q status, p⟩ ∈ past ∧ props = permissionAsked p se) ∧
      (eventType = lit "permission.replied" →
        ∃ p reply, ⟨.setStatus p reply, ()⟩ ∈ past ∧ props = permissionReplied p reply)
  | _ => True

/-- What was filed and what was replied has been announced; only a reply that could not
    store its approval is kept quiet. -/
structure Complete (past : List StubEvent) : Prop where
  asked : ∀ q status p, ⟨.createPermission q status, p⟩ ∈ past →
    ∃ se, ⟨.publish (lit "permission.asked") (permissionAsked p se), ()⟩ ∈ past
  replied : ∀ p reply, ⟨.setStatus p reply, ()⟩ ∈ past →
    ⟨.publish (lit "permission.replied") (permissionReplied p reply), ()⟩ ∈ past ∨ p.patterns = [] ∨
      ∃ a err, ⟨.createApproval a, some err⟩ ∈ past

def Narrates (past : List StubEvent) (event : StubEvent) : Prop := Announced event.op ∧ Truthful past event

/-! ## Operations that are not about permission requests -/

def Quiet : Op → Prop
  | .publish eventType props =>
      eventType ∈ [lit "workspace.ready", lit "session.created", lit "session.deleted"] ∧ props.numeric = true
  | .createPermission _ _ => False
  | .setStatus _ _ => False
  | _ => True

theorem narrates_of_quiet {past : List StubEvent} {event : StubEvent} (quiet : Quiet event.op) :
    Narrates past event := by
  obtain ⟨o, r⟩ := event
  cases o with
  | publish eventType props =>
      have known : ∀ other ∈ [lit "workspace.ready", lit "session.created", lit "session.deleted"],
          other ∈ eventTypes ∧ other ≠ lit "permission.asked" ∧ other ≠ lit "permission.replied" := by decide
      obtain ⟨announced, asked, replied⟩ := known eventType quiet.1
      exact ⟨⟨announced, quiet.2⟩, fun same => absurd same asked, fun same => absurd same replied⟩
  | _ => exact ⟨trivial, trivial⟩

/-- The operation files a request or answers one. -/
def Settles : Op → Prop
  | .createPermission _ _ => True
  | .setStatus _ _ => True
  | _ => False

def AllQuiet (past : List StubEvent) : Prop := ∀ event ∈ past, Quiet event.op

theorem AllQuiet.snoc {past : List StubEvent} {event : StubEvent} (quiet : AllQuiet past) (newest : Quiet event.op) :
    AllQuiet (past ++ [event]) :=
  List.forall_mem_append.mpr ⟨quiet, List.forall_mem_singleton.mpr newest⟩

theorem AllQuiet.complete {past : List StubEvent} (quiet : AllQuiet past) : Complete past :=
  ⟨fun _ _ _ member => (quiet _ member).elim, fun _ _ member => (quiet _ member).elim⟩

variable {α β : Type}

/-- Whatever the answers are, the handler performs such operations only. -/
def Quietly (t : Handler α) : Prop := ∀ past, t.Obeys (fun _ event => Quiet event.op) past fun _ _ => True

/-- Behind such operations the handler tells the truth and, if `Complete`, all of it. -/
def Narrating (t : Handler α) : Prop := ∀ past, AllQuiet past → t.Obeys Narrates past fun past' _ => Complete past'

theorem quietly_pure (a : α) : Quietly (pure a : Handler α) := fun _ => trivial

theorem quietly_call {o : Op} (quiet : Quiet o) : Quietly (call o) := fun _ _ => ⟨quiet, trivial⟩

theorem quietly_bind {t : Handler α} {f : α → Handler β} (first : Quietly t) (later : ∀ a, Quietly (f a)) :
    Quietly (t >>= f) :=
  fun past => Program.obeys_bind.mpr ((first past).mono fun past' a _ => later a past')

theorem quietly_ite {p : Prop} [Decidable p] {t e : Handler α} (yes : Quietly t) (no : Quietly e) :
    Quietly (if p then t else e) := by
  split
  · exact yes
  · exact no

theorem Quietly.narrates {t : Handler α} (quietly : Quietly t) {past : List StubEvent} (quiet : AllQuiet past) :
    t.Obeys Narrates past fun past' _ => AllQuiet past' := by
  replace quietly := quietly past
  induction t generalizing past with
  | pure a => exact quiet
  | op o next ih =>
      exact fun r => ⟨narrates_of_quiet (quietly r).1, ih r (quiet.snoc (quietly r).1) (quietly r).2⟩

theorem Quietly.narrating {t : Handler α} (quietly : Quietly t) : Narrating t :=
  fun _ quiet => (quietly.narrates quiet).mono fun _ _ quiet => quiet.complete

theorem narrating_bind {t : Handler α} {f : α → Handler β} (first : Quietly t) (later : ∀ a, Narrating (f a)) :
    Narrating (t >>= f) :=
  fun _ quiet => Program.obeys_bind.mpr ((first.narrates quiet).mono fun past' a quiet => later a past' quiet)

theorem narrating_ite {p : Prop} [Decidable p] {t e : Handler α} (yes : Narrating t) (no : Narrating e) :
    Narrating (if p then t else e) := by
  split
  · exact yes
  · exact no

/-! ## Workspaces and sessions -/

theorem quietly_workspaceList (r : Request) : Quietly (workspaceList r) := by
  refine quietly_ite (quietly_bind (quietly_call trivial) fun _ => quietly_pure _) (quietly_ite ?_ (quietly_pure _))
  cases r.body.workspace with
  | error err => exact quietly_pure _
  | ok decoded =>
      refine quietly_bind (quietly_call trivial) fun now => quietly_bind (quietly_call trivial) fun err => ?_
      cases err with
      | some err => exact quietly_pure _
      | none => exact quietly_bind (quietly_call ⟨by decide, rfl⟩) fun _ => quietly_pure _

theorem quietly_withWorkspaceRoutes (r : Request) : Quietly (withWorkspaceRoutes r) := by
  refine quietly_ite (quietly_ite (quietly_pure _) (quietly_bind (quietly_call trivial) fun ws => ?_)) ?_
  · cases ws with
    | none => exact quietly_pure _
    | some ws => exact quietly_bind (quietly_call trivial) fun sessions => quietly_pure _
  · exact quietly_ite (quietly_bind (quietly_call trivial) fun _ => quietly_pure _) (quietly_pure _)

theorem quietly_sessionCreate (r : Request) : Quietly (sessionCreate r) := by
  refine quietly_ite (quietly_pure _) ?_
  cases r.body.session with
  | error err => exact quietly_pure _
  | ok req =>
      refine quietly_bind (quietly_call trivial) fun ws => ?_
      cases ws with
      | none => exact quietly_pure _
      | some ws =>
          refine quietly_bind (quietly_call trivial) fun home => quietly_bind (quietly_call trivial) fun minted => ?_
          refine quietly_bind (quietly_call trivial) fun created => quietly_bind (quietly_call trivial) fun updated => ?_
          refine quietly_bind (quietly_call trivial) fun err => ?_
          cases err with
          | some err => exact quietly_pure _
          | none => exact quietly_bind (quietly_call ⟨by decide, rfl⟩) fun _ => quietly_pure _

theorem quietly_sessionGet (r : Request) : Quietly (sessionGet r) := by
  refine quietly_bind (quietly_call trivial) fun session => ?_
  cases session with
  | none => exact quietly_pure _
  | some se => exact quietly_bind (quietly_call trivial) fun ws => quietly_pure _

theorem quietly_sessionDelete (r : Request) : Quietly (sessionDelete r) :=
  quietly_bind (quietly_call trivial) fun _ => quietly_bind (quietly_call ⟨by decide, rfl⟩) fun _ => quietly_pure _

theorem quietly_permissionListLoop (list : List PermissionPtr) : Quietly (permissionListLoop list) := by
  induction list with
  | nil => exact quietly_pure _
  | cons p rest ih =>
      exact quietly_bind (quietly_call trivial) fun approval => quietly_bind ih fun _ => quietly_pure _

/-! ## Replies -/

section Replies

variable {past : List StubEvent}

/-- What is announced about the only reply of a thread is all there is to announce. -/
theorem complete_of_reply {after : List StubEvent} {p : PermissionPtr} {reply : GoString} (quiet : AllQuiet past)
    (still : ∀ event ∈ after, ¬Settles event.op)
    (told : ⟨.publish (lit "permission.replied") (permissionReplied p reply), ()⟩ ∈ after ∨
      p.patterns = [] ∨ ∃ a err, ⟨.createApproval a, some err⟩ ∈ after) :
    Complete (past ++ ⟨.setStatus p reply, ()⟩ :: after) := by
  constructor
  · intro q status p' member
    rcases List.mem_append.mp member with old | later
    · exact (quiet _ old).elim
    · rcases List.mem_cons.mp later with set | new
      · cases set
      · exact absurd trivial (still _ new)
  · intro p' reply' member
    rcases List.mem_append.mp member with old | later
    · exact (quiet _ old).elim
    · rcases List.mem_cons.mp later with set | new
      · cases set
        rcases told with told | empty | ⟨a, err, failed⟩
        · exact .inl (List.mem_append_right _ (List.mem_cons_of_mem _ told))
        · exact .inr (.inl empty)
        · exact .inr (.inr ⟨a, err, List.mem_append_right _ (List.mem_cons_of_mem _ failed)⟩)
      · exact absurd trivial (still _ new)

/-- The end of a reply that nothing has failed in. -/
theorem publishReplied_narrates {after : List StubEvent} (quiet : AllQuiet past)
    (still : ∀ event ∈ after, ¬Settles event.op) (p : PermissionPtr) (reply : GoString) :
    ((publishReplied p reply).bind fun err => match err with
      | some err => (pure (error 400 (lit "invalid_request") err) : Handler Response)
      | none => pure (json 200 (.bool true))).Obeys Narrates
        (past ++ ⟨.setStatus p reply, ()⟩ :: after) fun past' _ => Complete past' := by
  simp only [publishReplied, publish, call, Program.bind_eq, Program.perform_bind, Program.op_bind,
    Program.obeys_op, List.append_assoc, List.cons_append]
  intro _
  refine ⟨⟨⟨by decide, rfl⟩, fun same => absurd same (by decide), fun _ => ⟨p, reply, by simp, rfl⟩⟩, ?_⟩
  refine complete_of_reply quiet (List.forall_mem_append.mpr ⟨still, ?_⟩) (.inl ?_)
  · exact List.forall_mem_singleton.mpr not_false
  · exact List.mem_append_right _ (List.mem_singleton_self _)

theorem narrating_replyToPermission (p : PermissionPtr) (body : Except GoString ReplyBody) :
    Narrating (replyToPermission p body) := by
  intro past quiet
  cases body with
  | error err => exact quiet.complete
  | ok req =>
      simp only [replyToPermission, applyPermissionReply, call, Program.bind_eq, Program.perform_bind,
        Program.op_bind, Program.obeys_op]
      refine fun _ => ⟨⟨trivial, trivial⟩, fun _ => ⟨⟨trivial, trivial⟩, ?_⟩⟩
      split
      · cases patterns : p.patterns with
        | nil =>
            rw [List.append_assoc]
            exact complete_of_reply quiet (List.forall_mem_singleton.mpr not_false) (.inr (.inl patterns))
        | cons pattern rest =>
            simp only [Program.op_bind, Program.obeys_op]
            refine fun minted => ⟨⟨trivial, trivial⟩, fun created => ⟨⟨trivial, trivial⟩, fun err =>
              ⟨⟨trivial, trivial⟩, ?_⟩⟩⟩
            simp only [List.append_assoc, List.cons_append, List.nil_append]
            cases err with
            | some err =>
                refine complete_of_reply quiet (by simp [Settles]) (.inr (.inr ⟨?_, err, ?_⟩))
                · exact newApproval p pattern req.reply minted created
                · simp
            | none => exact publishReplied_narrates quiet (by simp [Settles]) p req.reply
      · rw [List.append_assoc]
        exact publishReplied_narrates quiet (by simp [Settles]) p req.reply

theorem narrating_permissionRoutes (r : Request) : Narrating (permissionRoutes r) := by
  refine narrating_ite (narrating_bind (quietly_call trivial) fun found => ?_) (quietly_pure _).narrating
  cases found with
  | none => exact (quietly_pure _).narrating
  | some p => exact narrating_replyToPermission p _

theorem narrating_sessionPermissionReply (r : Request) : Narrating (sessionPermissionReply r) := by
  unfold sessionPermissionReply
  split
  · refine narrating_ite (quietly_pure _).narrating (narrating_bind (quietly_call trivial) fun session => ?_)
    cases session with
    | none => exact (quietly_pure _).narrating
    | some se =>
        refine narrating_bind (quietly_call trivial) fun found => ?_
        cases found with
        | none => exact (quietly_pure _).narrating
        | some p => exact narrating_ite (quietly_pure _).narrating (narrating_replyToPermission p _)
  · exact (quietly_pure _).narrating

end Replies

/-! ## Commands -/

theorem numeric_strs (items : List GoString) : (Json.strs items).numeric = true := by
  rw [Json.strs, Json.numeric]
  induction items with
  | nil => rfl
  | cons s items ih =>
      have here : (Json.str s).numeric = true := rfl
      rwa [List.map_cons, numericItems, here, Bool.true_and]

theorem numeric_strMap (fields : List (GoString × GoString)) : (Json.strMap fields).numeric = true := by
  rw [Json.strMap, Json.numeric, numericFields_eq, List.all_map, List.all_eq_true]
  exact fun _ _ => rfl

theorem numeric_permissionAsked (p : PermissionPtr) (se : Session) : (permissionAsked p se).numeric = true := by
  simp [permissionAsked, Json.numeric, numericFields, numeric_strs, numeric_strMap]

/-- A refused operation announces the request that it files. -/
theorem narrating_ask (q : PermissionRequest) (se : Session) (response : Response) :
    Narrating (do
      let p ← call (.createPermission q pending)
      publish (lit "permission.asked") (permissionAsked p se)
      return response) := by
  intro past quiet
  simp only [publish, call, Program.bind_eq, Program.perform_bind, Program.obeys_op, Program.pure_eq, Program.obeys_pure]
  refine fun p => ⟨⟨trivial, trivial⟩, fun _ => ⟨⟨⟨by decide, numeric_permissionAsked p se⟩,
    fun _ => ⟨q, pending, p, se, by simp, rfl⟩, fun same => absurd same (by decide)⟩, ?_⟩⟩
  rw [List.append_assoc]
  constructor
  · intro q' status p' member
    rcases List.mem_append.mp member with old | new
    · exact (quiet _ old).elim
    · obtain ⟨⟨rfl, rfl⟩, rfl⟩ : (q' = q ∧ status = pending) ∧ p' = p := by simpa using new
      exact ⟨se, by simp⟩
  · intro p' reply member
    rcases List.mem_append.mp member with old | new
    · exact (quiet _ old).elim
    · simp at new

theorem narrating_executeCommandLike (se : Session) (operation : GoString) (req : CommandBody) :
    Narrating (executeCommandLike se operation req) := by
  refine narrating_bind (quietly_call trivial) fun approval => ?_
  cases approval with
  | none =>
      refine narrating_bind (quietly_call trivial) fun minted => narrating_bind (quietly_call trivial) fun created => ?_
      exact narrating_ask _ se _
  | some approval =>
      refine narrating_bind (quietly_call trivial) fun start => narrating_bind (quietly_call trivial) fun ended => ?_
      exact narrating_bind (quietly_call trivial) fun stop => (quietly_pure _).narrating

theorem narrating_runOperation (r : Request) (suffix operation : GoString) :
    Narrating (runOperation r suffix operation) := by
  refine narrating_bind (quietly_call trivial) fun session => ?_
  cases session with
  | none => exact (quietly_pure _).narrating
  | some se =>
      cases r.body.command with
      | error err => exact (quietly_pure _).narrating
      | ok req => exact narrating_executeCommandLike se operation req

theorem narrating_sessionRoutes (r : Request) : Narrating (sessionRoutes r) := by
  refine narrating_ite (narrating_runOperation r _ _) (narrating_ite (narrating_runOperation r _ _) ?_)
  refine narrating_ite (narrating_sessionPermissionReply r) (narrating_ite (quietly_sessionGet r).narrating ?_)
  exact narrating_ite (quietly_sessionDelete r).narrating (quietly_pure _).narrating

/-- Every handler of the mux announces what it does. -/
theorem narrating_serve (startedAt : Int) (r : Request) : Narrating (serve startedAt r) := by
  have plain (response : Response) : Narrating (pure response : Handler Response) := (quietly_pure _).narrating
  refine narrating_ite (plain _) (narrating_ite (narrating_bind (quietly_call trivial) fun _ => plain _) ?_)
  refine narrating_ite (plain _) (narrating_ite (plain _) ?_)
  refine narrating_ite (quietly_workspaceList r).narrating ?_
  refine narrating_ite (narrating_bind (quietly_call trivial) fun _ => plain _) ?_
  refine narrating_ite (quietly_sessionCreate r).narrating ?_
  refine narrating_ite (narrating_bind (quietly_call trivial) fun _ => plain _) ?_
  refine narrating_ite (narrating_sessionRoutes r) ?_
  refine narrating_ite (narrating_bind (quietly_call trivial) fun list =>
    narrating_bind (quietly_permissionListLoop list) fun _ => plain _) ?_
  refine narrating_ite (narrating_permissionRoutes r) ?_
  exact narrating_ite (quietly_withWorkspaceRoutes r).narrating (plain _)

/-! ## Runs -/

section Runs

variable (startedAt : Int) (s : State) (labels : List StubLabel)

theorem run_narrates : Lawful Narrates ((server startedAt).run s labels).log :=
  Machine.run_lawful (fun request _ => narrating_serve startedAt request [] nofun)
    fun label _ => label.within_default

theorem run_announced : Lawful (fun _ event => Announced event.op) ((server startedAt).run s labels).log :=
  (run_narrates startedAt s labels).weaken fun _ _ narrates => narrates.1

variable {startedAt s labels}

/-- What is done is announced. -/
theorem run_complete {i started : Nat} {request : Request} {response : Response}
    (answered : ((server startedAt).run s labels).threads[i]? = some ⟨request, started, some (.pure response)⟩) :
    Complete (past ((server startedAt).run s labels).log i) :=
  Machine.run_post (fun request _ => narrating_serve startedAt request [] nofun)
    (fun label _ => label.within_default) answered

end Runs

end OpencodeRemote.Stub
