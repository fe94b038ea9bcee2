import OpencodeRemote.Data.Vouchers
import OpencodeRemote.Stub.Confinement

/-! # Decisions and the order of a map

A lookup takes the first approval that the walk over the map meets, and the walk's order is
left open. Approvals are vouchers, good for one use or not, and an operation draws on them.
-/

namespace OpencodeRemote.Stub

open Concurrency Data Vouchers

/-- A shell or command request of a session that has been looked up. -/
structure Operation where
  session : Session
  operation : GoString
  body : CommandBody

/-- The workspace and the directory that an operation asks for. -/
def Operation.query (op : Operation) : GoString × GoString :=
  (op.session.workspaceID, effectiveCwd op.session op.body.cwd)

def operate (s : State) (op : Operation) (env : Nat → Env) : Response × State :=
  let (response, s', _) := (executeCommandLike op.session op.operation op.body).run exec env s
  (response, s')

/-- Which of the operations are allowed, one after the other. -/
def answers : State → List (Operation × (Nat → Env)) → List Bool
  | _, [] => []
  | s, (op, env) :: rest =>
      let (response, s') := operate s op env
      decide (response.code = 200) :: answers s' rest

/-- The orders in which an operation's lookups walk the map, the rest of the environment as it is. -/
def walking (env : Nat → Env) (orders : Nat → List GoString) : Nat → Env :=
  fun i => { env i with order := orders i }

/-- Operations, with two choices of the orders for each. -/
abbrev Schedule := List (Operation × (Nat → Env) × (Nat → List GoString) × (Nat → List GoString))

/-- Every sequence of operations is answered in one way, in whatever orders the map is walked. -/
def OrderFree (s : State) : Prop :=
  ∀ schedule : Schedule,
    answers s (schedule.map fun (op, env, orders, _) => (op, walking env orders)) =
      answers s (schedule.map fun (op, env, _, orders) => (op, walking env orders))

def covering (a : Approval) (query : GoString × GoString) : Bool := decide (Covers a query.1 query.2)

def singleUse (a : Approval) : Bool := decide (a.mode = once)

theorem operate_refused {s : State} {op : Operation} {env : Nat → Env}
    (missing : s.findApproval (env 0) op.query.1 op.query.2 = none) :
    (operate s op env).1.code = 403 ∧ (operate s op env).2.approvals = s.approvals := by
  have answer : s.consumeApproval (env 0) op.query.1 op.query.2 = (none, s) := by
    rw [State.consumeApproval, missing]
  simp only [Operation.query] at answer
  simp [operate, executeCommandLike, call, publish, exec, answer, State.createPermission, error, json]

theorem operate_granted {s : State} {op : Operation} {env : Nat → Env} {id : GoString} {a : Approval}
    (found : s.findApproval (env 0) op.query.1 op.query.2 = some (id, a)) :
    (operate s op env).1.code = 200 ∧
      (operate s op env).2.approvals = if a.mode = once then s.approvals.erase id else s.approvals := by
  have answer : ∃ s', s.consumeApproval (env 0) op.query.1 op.query.2 = (some a, s') ∧
      s'.approvals = if a.mode = once then s.approvals.erase id else s.approvals := by
    rw [State.consumeApproval, found]
    by_cases single : a.mode = once
    · simp only [single, if_true]
      exact ⟨_, rfl, rfl⟩
    · simp only [single, if_false]
      exact ⟨_, rfl, rfl⟩
  obtain ⟨s', answer, left⟩ := answer
  simp only [Operation.query] at answer
  simp [operate, executeCommandLike, call, exec, answer, left, json]

/-- An operation draws on the approvals. -/
theorem operate_draw (s : State) (op : Operation) (env : Nat → Env) :
    Draw covering singleUse s.approvals op.query (decide ((operate s op env).1.code = 200))
      (operate s op env).2.approvals := by
  cases lookup : s.findApproval (env 0) op.query.1 op.query.2 with
  | none =>
      obtain ⟨code, same⟩ := operate_refused lookup
      rw [code, same]
      apply Draw.refused
      intro id a stored
      by_cases own : a.workspaceID = op.query.1
      · simp [covering, Covers, State.findApproval_none lookup stored own]
      · simp [covering, Covers, own]
  | some entry =>
      obtain ⟨id, a⟩ := entry
      obtain ⟨code, left⟩ := operate_granted lookup
      obtain ⟨stored, own, matched⟩ := State.findApproval_some lookup
      rw [code, left]
      have drawn : Draw covering singleUse s.approvals op.query true
          (if singleUse a then s.approvals.erase id else s.approvals) :=
        .granted stored (by simp [covering, Covers, own, matched])
      simpa [singleUse] using drawn

theorem answers_draws (s : State) (schedule : List (Operation × (Nat → Env))) :
    Draws covering singleUse s.approvals (schedule.map fun (op, _) => op.query) (answers s schedule) := by
  induction schedule generalizing s with
  | nil => exact .nil
  | cons play rest ih => exact .cons (operate_draw s play.1 play.2) (ih _)

/-- An operation that asks for the directory, in some session of the workspace. -/
def asking (query : GoString × GoString) : Operation :=
  ⟨⟨lit "s", query.1, [], query.2, ⟨lit "idle", []⟩, 0, 0⟩, lit "shell", ⟨lit "ls", query.2, []⟩⟩

@[simp] theorem asking_query (query : GoString × GoString) : (asking query).query = query := by
  obtain ⟨workspaceID, cwd⟩ := query
  by_cases blank : cwd = [] <;> simp [asking, Operation.query, effectiveCwd, blank]

/-- Every draw is an operation in some order of the map. -/
theorem draw_operate {s : State} {query : GoString × GoString} {b : Bool}
    {m : OrderedMap GoString Approval} (draw : Draw covering singleUse s.approvals query b m) :
    ∃ orders, decide ((operate s (asking query) (walking (fun _ => calm 0) orders)).1.code = 200) = b ∧
      (operate s (asking query) (walking (fun _ => calm 0) orders)).2.approvals = m := by
  cases draw with
  | refused uncovered =>
      have missing : s.findApproval (walking (fun _ => calm 0) (fun _ => []) 0) (asking query).query.1
          (asking query).query.2 = none := by
        apply Option.eq_none_iff_forall_ne_some.mpr
        rintro ⟨id, a⟩ found
        obtain ⟨stored, own, matched⟩ := State.findApproval_some found
        have uncovers := uncovered id a stored
        simp only [asking_query] at own matched
        simp [covering, Covers, own, matched] at uncovers
      obtain ⟨code, same⟩ := operate_refused missing
      exact ⟨fun _ => [], by rw [code]; rfl, same⟩
  | @granted id a stored covered =>
      obtain ⟨own, matched⟩ := of_decide_eq_true covered
      have found : s.findApproval (walking (fun _ => calm 0) (fun _ => [id]) 0) (asking query).query.1
          (asking query).query.2 = some (id, a) := by
        rw [asking_query]
        exact State.findApproval_first stored own matched rfl
      obtain ⟨code, left⟩ := operate_granted found
      refine ⟨fun _ => [id], by rw [code]; rfl, ?_⟩
      rw [left]
      simp [singleUse]

theorem draws_answers {queries : List (GoString × GoString)} {s s' : State} {bs bs' : List Bool}
    (draws : Draws covering singleUse s.approvals queries bs)
    (draws' : Draws covering singleUse s'.approvals queries bs') :
    ∃ schedule : Schedule,
      answers s (schedule.map fun (op, env, orders, _) => (op, walking env orders)) = bs ∧
        answers s' (schedule.map fun (op, env, _, orders) => (op, walking env orders)) = bs' := by
  induction queries generalizing s s' bs bs' with
  | nil =>
      cases draws
      cases draws'
      exact ⟨[], rfl, rfl⟩
  | cons query queries ih =>
      cases draws with
      | cons first rest => cases draws' with
        | cons first' rest' =>
            obtain ⟨orders, answer, left⟩ := draw_operate first
            obtain ⟨orders', answer', left'⟩ := draw_operate first'
            obtain ⟨schedule, tail, tail'⟩ := ih (left ▸ rest) (left' ▸ rest')
            exact ⟨(asking query, fun _ => calm 0, orders, orders') :: schedule, by rw [← answer, ← tail]; rfl,
              by rw [← answer', ← tail']; rfl⟩

/-- Answers that are free of the orders are answers that the vouchers settle. -/
theorem orderFree_iff_settled (s : State) : OrderFree s ↔ Settled covering singleUse s.approvals := by
  constructor
  · intro free queries bs bs' draws draws'
    obtain ⟨schedule, answers_bs, answers_bs'⟩ := draws_answers draws draws'
    rw [← answers_bs, ← answers_bs']
    exact free schedule
  · intro settled schedule
    have left := answers_draws s (schedule.map fun (op, env, orders, _) => (op, walking env orders))
    have right := answers_draws s (schedule.map fun (op, env, _, orders) => (op, walking env orders))
    simp only [List.map_map, Function.comp_def] at left right
    exact settled _ _ _ left right

/-- Decisions are independent of the order of the approvals map exactly if approvals which
    answer one lookup in common, and of which one is good for one use, can stand in for
    each other. -/
theorem orderFree_iff_interchangeable (s : State) :
    OrderFree s ↔ ∀ id a id' a', s.approvals.get id = some a → s.approvals.get id' = some a' →
      id ≠ id' → a.mode = once → ∀ workspaceID cwd, Covers a workspaceID cwd → Covers a' workspaceID cwd →
      ∀ other, Covers a workspaceID other → Covers a' workspaceID other ∨
        ∃ id'' a'', s.approvals.get id'' = some a'' ∧ a''.mode ≠ once ∧ Covers a'' workspaceID other := by
  rw [orderFree_iff_settled, settled_iff_interchangeable]
  simp only [Interchangeable, Lasting, covering, singleUse, decide_eq_true_eq, decide_eq_false_iff_not,
    Prod.forall]
  constructor
  · intro free id a id' a' stored stored' different single workspaceID cwd covered covered' other also
    exact free id a id' a' stored stored' different single workspaceID cwd covered covered' workspaceID
      other also
  · intro free id a id' a' stored stored' different single workspaceID cwd covered covered' w other also
    obtain rfl : workspaceID = w := covered.1.symm.trans also.1
    exact free id a id' a' stored stored' different single workspaceID cwd covered covered' other also

/-- Approvals for `/srv/app`, good for one use, and for its directory `logs`, good for all. -/
def overlapping : List StubLabel :=
  script [(1, workspacePost (lit "w")), (2, sessionPost (lit "s") (lit "w")),
    (3, shellPost (lit "s") (lit "/srv/app")), (4, shellPost (lit "s") (lit "/srv/app/logs")),
    (5, replyPost (lit "perm_3") once), (6, replyPost (lit "perm_4") always)]

/-- Either approval covers `/srv/app/logs`; if the first is used up there, none is left for
    `/srv/app`. -/
theorem not_orderFree_with_overlap :
    ¬∀ (startedAt : Int) (root : GoString) (labels : List StubLabel),
      OrderFree ((server startedAt).run (State.startUp root .empty) labels).store := by
  intro free
  have same := free 0 (lit "/state") overlapping
    [(asking (lit "w", lit "/srv/app/logs"), fun _ => calm 7, fun _ => [lit "apr_5"], fun _ => [lit "apr_6"]),
     (asking (lit "w", lit "/srv/app"), fun _ => calm 8, fun _ => [], fun _ => [])]
  revert same
  decide +kernel

end OpencodeRemote.Stub
