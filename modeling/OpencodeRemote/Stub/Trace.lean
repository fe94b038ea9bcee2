import OpencodeRemote.Stub.Effects

/-! # Reading the log

What the log says in the words of the permission model: which commands ran and in which
directory, which requests were raised, which replies were processed, which approvals were
stored and which were found. The readings are functions of the log, so a run can be
evaluated; the protocol links each of them to the one before it.
-/

namespace OpencodeRemote.Stub

open Concurrency

abbrev Log := List StubEntry

def newApprovalOf : Op → Option Approval
  | .createApproval a => some a
  | _ => none

/-- The session a thread looked up. -/
def sessionOf (past : List StubEvent) : Option Session :=
  past.findSome? fun
    | ⟨.getSession _, answer⟩ => answer
    | _ => none

/-- The directory for which a thread found no approval. -/
def deniedCwd (past : List StubEvent) : Option GoString :=
  past.findSome? fun
    | ⟨.consumeApproval _ cwd, none⟩ => some cwd
    | _ => none

/-- The request to which a thread replies. -/
def repliedRequest (past : List StubEvent) : Option PermissionPtr :=
  past.findSome? fun
    | ⟨.setStatus p _, _⟩ => some p
    | _ => none

def ranView (past : List StubEvent) : StubEvent → Option (Session × GoString)
  | ⟨.runCommand _ cwd _, _⟩ => (sessionOf past).map fun se => (se, cwd)
  | _ => none

def raisedView (past : List StubEvent) : StubEvent → Option (PermissionPtr × GoString)
  | ⟨.createPermission _ _, p⟩ => (deniedCwd past).map fun cwd => (p, cwd)
  | _ => none

def repliedView (_ : List StubEvent) : StubEvent → Option (PermissionPtr × GoString)
  | ⟨.setStatus p reply, _⟩ => some (p, reply)
  | _ => none

def grantedView (past : List StubEvent) : StubEvent → Option (PermissionPtr × Approval)
  | ⟨.createApproval a, _⟩ => (repliedRequest past).map fun p => (p, a)
  | _ => none

def foundView (_ : List StubEvent) : StubEvent → Option (GoString × GoString × Approval)
  | ⟨.consumeApproval workspaceID cwd, some a⟩ => some (workspaceID, cwd, a)
  | _ => none

/-- Entry `i` runs a command, for this session and in this directory. -/
def ran (log : Log) (i : Nat) : Option (Session × GoString) := observe ranView log i

/-- Entry `i` files this request, raised by an operation in this directory. -/
def raised (log : Log) (i : Nat) : Option (PermissionPtr × GoString) := observe raisedView log i

/-- Entry `i` processes this reply to this request. -/
def replied (log : Log) (i : Nat) : Option (PermissionPtr × GoString) := observe repliedView log i

/-- Entry `i` stores this approval, on a reply to this request. -/
def granted (log : Log) (i : Nat) : Option (PermissionPtr × Approval) := observe grantedView log i

/-- Entry `i` looks for an approval of this workspace and directory and finds this one. -/
def found (log : Log) (i : Nat) : Option (GoString × GoString × Approval) := observe foundView log i

/-! ## What one operation adds to the readings -/

/-- An operation that is refused raises a request for its own directory and workspace. -/
theorem raisedView_of_protocol {past : List StubEvent} {q : PermissionRequest} {status : GoString}
    {p : PermissionPtr} (allowed : Protocol past ⟨.createPermission q status, p⟩) :
    ∃ (se : Session) (cwd : GoString), ⟨.consumeApproval se.workspaceID cwd, none⟩ ∈ past ∧
      status = pending ∧
      raisedView past ⟨.createPermission q status, p⟩ = some (p, cwd) ∧
      q.workspaceID = se.workspaceID ∧ q.sessionID = se.id ∧ q.patterns = [cwd ++ subtree] := by
  obtain ⟨id, se, operation, cwd, minted, created, rfl, rfl, rfl⟩ := allowed
  exact ⟨se, cwd, by simp, rfl, rfl, rfl, rfl, rfl⟩

/-- An approval is stored by the thread that has just processed the approving reply, for
    the workspace and the first pattern of the request. -/
theorem grantedView_of_protocol {past : List StubEvent} {a : Approval} {err : Option GoString}
    (allowed : Protocol past ⟨.createApproval a, err⟩) :
    ∃ p, ⟨.setStatus p a.mode, ()⟩ ∈ past ∧
      grantedView past ⟨.createApproval a, err⟩ = some (p, a) ∧ Approving a.mode ∧
      a.workspaceID = p.workspaceID ∧ a.pattern ∈ p.patterns.head? ∧
      ∃ minted, a.id = lit "apr_" ++ Strings.decimal minted := by
  obtain ⟨before, p, pattern, minted, created, looked, rfl, first, approving, made⟩ := allowed
  refine ⟨p, by simp, ?_, approving, by rw [made]; rfl, by rw [made]; exact first,
    minted, by rw [made]; rfl⟩
  rcases looked with ⟨id, rfl⟩ | ⟨sessionID, se, id, rfl⟩ <;> rfl

theorem Looked.mem {past : List StubEvent} {p : PermissionPtr} (looked : Looked past p) :
    ∃ id, ⟨.getPermission id, some p⟩ ∈ past := by
  rcases looked with ⟨id, rfl⟩ | ⟨sessionID, se, id, rfl⟩ <;> exact ⟨id, by simp⟩

theorem setStatus_of_repliedView {past : List StubEvent} {o : Op} {r : Res o} {p : PermissionPtr}
    {reply : GoString} (viewed : repliedView past ⟨o, r⟩ = some (p, reply)) :
    o = .setStatus p reply := by
  cases o with
  | setStatus q value =>
      cases viewed
      rfl
  | _ => cases viewed

/-- What is found is in memory: only a lookup finds something, and it finds what it answers. -/
theorem consumeApproval_of_foundView {past : List StubEvent} {env : Env} {o : Op} {s : State}
    {workspaceID cwd : GoString} {a : Approval}
    (viewed : foundView past ⟨o, (exec env o s).1⟩ = some (workspaceID, cwd, a)) :
    o = .consumeApproval workspaceID cwd ∧
      (exec env (.consumeApproval workspaceID cwd) s).1 = some a ∧
      ∃ id, s.findApproval env workspaceID cwd = some (id, a) := by
  cases o with
  | consumeApproval w c =>
      change foundView _ ⟨.consumeApproval w c, (exec env (.consumeApproval w c) s).1⟩ = _ at viewed
      cases answer : (exec env (.consumeApproval w c) s).1 with
      | none =>
          rw [answer] at viewed
          cases viewed
      | some b =>
          rw [answer] at viewed
          cases viewed
          exact ⟨rfl, answer, consumeApproval_some answer⟩
  | _ => cases viewed

theorem createApproval_of_grantedView {past : List StubEvent} {o : Op} {r : Res o}
    {p : PermissionPtr} {a : Approval} (viewed : grantedView past ⟨o, r⟩ = some (p, a)) :
    o = .createApproval a := by
  cases o with
  | createApproval b =>
      obtain ⟨q, -, same⟩ := Option.map_eq_some_iff.mp viewed
      cases same
      rfl
  | _ => cases viewed

section Links

variable {log : Log} {i : Nat}

/-- A command runs after its own thread has found an approval of the session's workspace
    for its directory. -/
theorem ran_found (lawful : Lawful Protocol log) {se : Session} {cwd : GoString}
    (executed : ran log i = some (se, cwd)) :
    ∃ k < i, ∃ a, found log k = some (se.workspaceID, cwd, a) ∧ SameThread log i k := by
  obtain ⟨thread, event, here, viewed⟩ := observe_eq_some.mp executed
  obtain ⟨op, result⟩ := event
  cases op with
  | runCommand command dir env =>
      obtain ⟨id, se', a, start, before⟩ := lawful i thread _ here
      rw [before] at viewed
      cases viewed
      have lookup : ⟨.consumeApproval se.workspaceID cwd, some a⟩ ∈ past (log.take i) thread := by
        simp [before]
      obtain ⟨k, early, at_k⟩ := mem_past_take.mp lookup
      exact ⟨k, early, a, observe_eq_some.mpr ⟨thread, _, at_k, rfl⟩, thread, ⟨_, here⟩, _, at_k⟩
  | _ => cases viewed

/-- A thread runs at most one command. -/
theorem ran_once (lawful : Lawful Protocol log) {j : Nat} (same : SameThread log i j)
    {executed executed' : Session × GoString} (ran_i : ran log i = some executed)
    (ran_j : ran log j = some executed') : i = j := by
  apply lawful.observe_once IsRunCommand _ _ same ran_i ran_j
  · intro past ⟨op, result⟩ seen viewed
    cases op with
    | runCommand command cwd env => trivial
    | _ => cases viewed
  · intro earlier ⟨op, result⟩ allowed kind e member
    cases op with
    | runCommand command cwd env =>
        obtain ⟨id, se, a, start, rfl⟩ := allowed
        simp only [List.mem_cons, List.not_mem_nil, or_false] at member
        rcases member with rfl | rfl | rfl <;> exact not_false
    | _ => exact kind.elim

theorem raised_of_at (lawful : Lawful Protocol log) {thread : Nat} {q : PermissionRequest}
    {status : GoString} {p : PermissionPtr} (here : At log i thread ⟨.createPermission q status, p⟩) :
    ∃ asked, raised log i = some (p, asked) := by
  obtain ⟨se, cwd, -, -, seen, -⟩ := raisedView_of_protocol (lawful i thread _ here)
  exact ⟨cwd, observe_eq_some.mpr ⟨thread, _, here, seen⟩⟩

theorem granted_of_at (lawful : Lawful Protocol log) {thread : Nat} {a : Approval}
    {err : Option GoString} (here : At log i thread ⟨.createApproval a, err⟩) :
    ∃ p, granted log i = some (p, a) := by
  obtain ⟨p, -, seen, -⟩ := grantedView_of_protocol (lawful i thread _ here)
  exact ⟨p, observe_eq_some.mpr ⟨thread, _, here, seen⟩⟩

/-- A stored approval was granted by an earlier reply of its own thread, and repeats the
    request replied to. -/
theorem granted_replied (lawful : Lawful Protocol log) {p : PermissionPtr} {a : Approval}
    (stored : granted log i = some (p, a)) :
    (∃ k < i, replied log k = some (p, a.mode) ∧ SameThread log i k) ∧ Approving a.mode ∧
      a.workspaceID = p.workspaceID ∧ a.pattern ∈ p.patterns.head? := by
  obtain ⟨thread, event, here, viewed⟩ := observe_eq_some.mp stored
  obtain ⟨op, result⟩ := event
  cases op with
  | createApproval b =>
      obtain ⟨q, set, seen, approving, own, first, -⟩ := grantedView_of_protocol (lawful i thread _ here)
      cases seen.symm.trans viewed
      obtain ⟨k, early, at_k⟩ := mem_past_take.mp set
      exact ⟨⟨k, early, observe_eq_some.mpr ⟨thread, _, at_k, rfl⟩, thread, ⟨_, here⟩, _, at_k⟩,
        approving, own, first⟩
  | _ => cases viewed

/-- A thread stores at most one approval. -/
theorem granted_once (lawful : Lawful Protocol log) {j : Nat} (same : SameThread log i j)
    {stored stored' : PermissionPtr × Approval} (granted_i : granted log i = some stored)
    (granted_j : granted log j = some stored') : i = j := by
  apply lawful.observe_once IsCreateApproval _ _ same granted_i granted_j
  · intro past ⟨op, result⟩ seen viewed
    obtain rfl := createApproval_of_grantedView viewed
    trivial
  · intro earlier ⟨op, result⟩ allowed kind e member
    cases op with
    | createApproval a =>
        obtain ⟨before, p, pattern, minted, created, looked, rfl, -⟩ := allowed
        simp only [List.mem_append, List.mem_cons, List.not_mem_nil, or_false] at member
        rcases member with old | rfl | rfl | rfl | rfl
        · rcases looked with ⟨id, rfl⟩ | ⟨sessionID, se, id, rfl⟩
          · cases List.mem_singleton.mp old
            exact not_false
          · rcases List.mem_pair.mp old with rfl | rfl <;> exact not_false
        all_goals exact not_false
    | _ => exact kind.elim

/-- A reply is to a request which its thread has looked up. -/
theorem replied_lookedUp (lawful : Lawful Protocol log) {p : PermissionPtr} {reply : GoString}
    (answered : replied log i = some (p, reply)) :
    ∃ k < i, ∃ thread id, At log k thread ⟨.getPermission id, some p⟩ := by
  obtain ⟨thread, event, here, viewed⟩ := observe_eq_some.mp answered
  obtain ⟨op, result⟩ := event
  cases op with
  | setStatus q value =>
      cases viewed
      obtain ⟨id, member⟩ := Looked.mem (lawful i thread _ here)
      obtain ⟨k, early, at_k⟩ := mem_past_take.mp member
      exact ⟨k, early, thread, id, at_k⟩
  | _ => cases viewed

/-- A thread processes at most one reply. -/
theorem replied_once (lawful : Lawful Protocol log) {j : Nat} (same : SameThread log i j)
    {reply reply' : PermissionPtr × GoString} (replied_i : replied log i = some reply)
    (replied_j : replied log j = some reply') : i = j := by
  apply lawful.observe_once IsSetStatus _ _ same replied_i replied_j
  · intro past ⟨op, result⟩ seen viewed
    obtain rfl := setStatus_of_repliedView viewed
    trivial
  · intro earlier ⟨op, result⟩ allowed kind
    cases op with
    | setStatus p value => exact Looked.quiet allowed
    | _ => exact kind.elim

end Links

/-! ## Where requests and approvals come from -/

/-- The requests in memory were raised, and so were all that any thread has looked up. -/
structure RequestsRaised (s : State) (log : Log) : Prop where
  inMemory : ∀ id p, s.permissions.get id = some p → ∃ m asked, raised log m = some (p, asked) ∧
    p.patterns = [asked ++ subtree]
  lookedUp : ∀ k thread id p, At log k thread ⟨.getPermission id, some p⟩ →
    ∃ m < k, ∃ asked, raised log m = some (p, asked) ∧ p.patterns = [asked ++ subtree]

theorem startUp_requestsRaised (root : GoString) (disk : Data.OrderedMap CleanPath FileData) :
    RequestsRaised (State.startUp root disk) [] := by
  constructor
  · intro id p inMemory
    cases inMemory
  · intro k thread id p here
    exact absurd here.lt (Nat.not_lt_zero k)

theorem requestsRaised_preserved (startedAt : Int) (scope : StubScope) :
    (server startedAt).Preserves Protocol scope RequestsRaised := by
  intro s log thread o env _ lawful inv
  change RequestsRaised (exec env o s).2 (log ++ [⟨thread, s, ⟨o, (exec env o s).1⟩⟩])
  have allowed : Protocol (past log thread) ⟨o, (exec env o s).1⟩ := lawful_last lawful
  constructor
  · intro id p after
    rcases permission_origin after with before | ⟨status, rfl, -, here⟩ | ⟨rfl, -⟩
    · obtain ⟨m, asked, seen, patterns⟩ := inv.inMemory id p before
      exact ⟨m, asked, observe_mono seen, patterns⟩
    · obtain ⟨se, cwd, -, -, viewed, -, -, patterns⟩ := raisedView_of_protocol allowed
      have same : (exec env (.createPermission p.toPermissionRequest status) s).1 = p := by
        rw [show p = { p.toPermissionRequest with addr := s.statuses.length } by rw [← here]]
        rfl
      rw [same] at viewed ⊢
      exact ⟨log.length, cwd, observe_snoc.mpr (.inr ⟨rfl, viewed⟩), patterns⟩
    · obtain ⟨before, reply, looked, shape⟩ := allowed
      obtain ⟨id', member⟩ := looked.mem
      have lookup : ⟨.getPermission id', some p⟩ ∈ past log thread := by simp [shape, member]
      obtain ⟨k, at_k⟩ := mem_past.mp lookup
      obtain ⟨m, -, asked, seen, patterns⟩ := inv.lookedUp k thread id' p at_k
      exact ⟨m, asked, observe_mono seen, patterns⟩
  · intro k thread' id p here
    rcases at_snoc.mp here with older | ⟨rfl, rfl, same⟩
    · obtain ⟨m, early, asked, seen, patterns⟩ := inv.lookedUp k thread' id p older
      exact ⟨m, early, asked, observe_mono seen, patterns⟩
    · obtain ⟨rfl, answer⟩ := Event.mk.inj same
      obtain ⟨m, asked, seen, patterns⟩ := inv.inMemory id p (eq_of_heq answer).symm
      exact ⟨m, observe_lt seen, asked, observe_mono seen, patterns⟩

end OpencodeRemote.Stub
