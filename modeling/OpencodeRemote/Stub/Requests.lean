import OpencodeRemote.Stub.Trace

/-! # What a request id stands for

Ids of permission requests are read off a millisecond clock and inserted without a check.
As long as no id is taken when it is minted, a request in memory is never replaced: every
id keeps the meaning with which it was shown.
-/

namespace OpencodeRemote.Stub

open Concurrency Data

/-- The requests a thread has filed. -/
def filedBy (past : List StubEvent) : List PermissionPtr :=
  past.filterMap fun
    | ⟨.createPermission _ _, p⟩ => some p
    | _ => none

def shownView (past : List StubEvent) : StubEvent → Option (List PermissionPtr)
  | ⟨.publish eventType _, _⟩ => if eventType = lit "permission.asked" then some (filedBy past) else none
  | ⟨.listPermissions, list⟩ => some list
  | _ => none

/-- The id under which a thread looked its request up. -/
def lookedUpID (past : List StubEvent) : Option GoString :=
  past.findSome? fun
    | ⟨.getPermission id, _⟩ => some id
    | _ => none

def grantedForView (past : List StubEvent) : StubEvent → Option (GoString × Approval)
  | ⟨.createApproval a, _⟩ => (lookedUpID past).map fun id => (id, a)
  | _ => none

/-- Entry `i` shows these requests to clients, by an event or in a listing. -/
def shown (log : Log) (i : Nat) : Option (List PermissionPtr) := observe shownView log i

/-- Entry `i` stores this approval, on a reply to this id. -/
def grantedFor (log : Log) (i : Nat) : Option (GoString × Approval) := observe grantedForView log i

/-- What `permission.asked` publishes is the request its thread has just filed. -/
theorem asked_is_filed {past : List StubEvent} {props : Json}
    (allowed : Protocol past ⟨.publish (lit "permission.asked") props, ()⟩) :
    ∃ se p, p ∈ filedBy past ∧ props = permissionAsked p se := by
  obtain ⟨id, se, q, p, -, filed, same⟩ := allowed rfl
  exact ⟨se, p, List.mem_filterMap.mpr ⟨_, filed, rfl⟩, same⟩

theorem grantedForView_of_protocol {past : List StubEvent} {a : Approval} {err : Option GoString}
    (allowed : Protocol past ⟨.createApproval a, err⟩) :
    ∃ id p, ⟨.getPermission id, some p⟩ ∈ past ∧
      grantedForView past ⟨.createApproval a, err⟩ = some (id, a) ∧
      a.workspaceID = p.workspaceID ∧ a.pattern ∈ p.patterns.head? := by
  obtain ⟨before, p, pattern, minted, created, looked, rfl, first, -, made⟩ := allowed
  have copied : a.workspaceID = p.workspaceID ∧ a.pattern ∈ p.patterns.head? := by
    rw [made]
    exact ⟨rfl, first⟩
  rcases looked with ⟨id, rfl⟩ | ⟨sessionID, se, id, rfl⟩
  · exact ⟨id, p, by simp, rfl, copied⟩
  · exact ⟨id, p, by simp, rfl, copied⟩

/-! ## The property -/

abbrev StubPool := Pool Request Op Res State Response

/-- Shown ids stand for what was shown, and every refused operation has a request of its
    own that can be looked up. -/
structure Standing (pool : StubPool) : Prop where
  shown : ∀ i list p, shown pool.log i = some list → p ∈ list → pool.store.getPermission p.id = some p
  approved : ∀ i k list p a, Stub.shown pool.log i = some list → p ∈ list → i < k →
    grantedFor pool.log k = some (p.id, a) → a.workspaceID = p.workspaceID ∧ p.patterns = [a.pattern]
  refused : ∀ i request started response,
    pool.threads[i]? = some ⟨request, started, some (.pure response)⟩ → response.code = 403 →
    ∃ m p asked, raised pool.log m = some (p, asked) ∧ (∃ event, At pool.log m i event) ∧
      pool.store.getPermission p.id = some p
  own : ∀ m m' p p' asked asked', raised pool.log m = some (p, asked) →
    raised pool.log m' = some (p', asked') → p.id = p'.id → m = m'

def newRequest : Op → Option PermissionRequest
  | .createPermission p _ => some p
  | _ => none

/-- If the entry files a request, its id is free. -/
def FreshRequest (entry : StubEntry) : Prop :=
  ∀ p ∈ newRequest entry.event.op, entry.before.permissions.get p.id = none

instance (entry : StubEntry) : Decidable (FreshRequest entry) :=
  inferInstanceAs (Decidable (∀ p ∈ newRequest entry.event.op, _))

/-! ## The invariant -/

/-- Every request that was filed is in memory under its id. -/
structure Kept (s : State) (log : Log) : Prop where
  inMemory : ∀ m p asked, raised log m = some (p, asked) → s.permissions.get p.id = some p
  own : ∀ m m' p p' asked asked', raised log m = some (p, asked) →
    raised log m' = some (p', asked') → p.id = p'.id → m = m'

/-- Requests are keyed by their ids and were raised before they are shown; and while no
    minted id is taken, they are kept. -/
structure RequestsKept (s : State) (log : Log) : Prop where
  sourced : RequestsRaised s log
  keyed : ∀ id p, s.permissions.get id = some p → p.id = id
  lookups : ∀ k thread id p, At log k thread ⟨.getPermission id, some p⟩ → p.id = id
  shown : ∀ i list p, shown log i = some list → p ∈ list → ∃ m asked, raised log m = some (p, asked)
  kept : (∀ entry ∈ log, FreshRequest entry) → Kept s log

theorem startUp_requestsKept (root : GoString) (disk : OrderedMap CleanPath FileData) :
    RequestsKept (State.startUp root disk) [] := by
  refine ⟨startUp_requestsRaised root disk, ?_, ?_, ?_, fun _ => ⟨?_, ?_⟩⟩
  · intro id p inMemory
    cases inMemory
  · intro k thread id p here
    exact absurd here.lt (Nat.not_lt_zero k)
  · intro i list p seen
    cases seen
  · intro m p asked filed
    cases filed
  · intro m m' p p' asked asked' filed
    cases filed

theorem mem_listPermissions {s : State} {env : Env} {p : PermissionPtr}
    (listed : p ∈ s.listPermissions env) : ∃ id, s.permissions.get id = some p := by
  obtain ⟨⟨id, q⟩, walked, rfl⟩ := List.mem_map.mp (List.mem_filter.mp listed).1
  exact ⟨id, OrderedMap.mem_range.mp walked⟩

/-- A request that is in memory under its id stays there, unless a new one takes the id. -/
theorem request_stays {s : State} {log : Log} {thread : Nat} {env : Env} {o : Op}
    (allowed : Protocol (past log thread) ⟨o, (exec env o s).1⟩)
    (known : ∀ q id, ⟨.getPermission id, some q⟩ ∈ past log thread → s.permissions.get q.id = some q)
    {p : PermissionPtr} (inMemory : s.permissions.get p.id = some p)
    (fresh : ∀ q ∈ newRequest o, s.permissions.get q.id = none) :
    (exec env o s).2.permissions.get p.id = some p := by
  rcases @permission_fate env o s p.id p inMemory with same | ⟨q, status, rfl, taken⟩ | ⟨q, rfl, updated⟩
  · exact same
  · have free := fresh q rfl
    rw [taken, inMemory] at free
    cases free
  · -- the pointer written back is the one in memory
    obtain ⟨before, reply, looked, shape⟩ := allowed
    obtain ⟨id, member⟩ := looked.mem
    have same := known q id (by simp [shape, member])
    rw [updated, inMemory] at same
    cases same
    exact OrderedMap.get_set_self _ _ _

/-- What an entry shows was raised before it. -/
theorem raised_of_shownView {s : State} {log : Log} {thread : Nat} {env : Env} {o : Op}
    (lawful : Lawful Protocol log) (sourced : RequestsRaised s log) {list : List PermissionPtr}
    (viewed : shownView (past log thread) ⟨o, (exec env o s).1⟩ = some list) {p : PermissionPtr}
    (listed : p ∈ list) : ∃ m asked, raised log m = some (p, asked) := by
  cases o with
  | publish eventType props =>
      simp only [shownView] at viewed
      split at viewed
      · cases viewed
        obtain ⟨⟨op, res⟩, earlier, same⟩ := List.mem_filterMap.mp listed
        cases op with
        | createPermission q status =>
            cases same
            obtain ⟨m, at_m⟩ := mem_past.mp earlier
            obtain ⟨asked, filed⟩ := raised_of_at lawful at_m
            exact ⟨m, asked, filed⟩
        | _ => cases same
      · cases viewed
  | listPermissions =>
      cases viewed
      obtain ⟨id, inMemory⟩ := mem_listPermissions listed
      obtain ⟨m, asked, filed, -⟩ := sourced.inMemory id p inMemory
      exact ⟨m, asked, filed⟩
  | _ => cases viewed

/-- An entry whose id is free keeps what is filed. -/
theorem Kept.snoc {s : State} {log : Log} {thread : Nat} {env : Env} {o : Op} (kept : Kept s log)
    (sourced : RequestsRaised s log) (allowed : Protocol (past log thread) ⟨o, (exec env o s).1⟩)
    (free : ∀ q ∈ newRequest o, s.permissions.get q.id = none) :
    Kept (exec env o s).2 (log ++ [⟨thread, s, ⟨o, (exec env o s).1⟩⟩]) := by
  have known : ∀ q id, ⟨.getPermission id, some q⟩ ∈ past log thread →
      s.permissions.get q.id = some q := by
    intro q id member
    obtain ⟨k, at_k⟩ := mem_past.mp member
    obtain ⟨m, -, asked, filed, -⟩ := sourced.lookedUp k thread id q at_k
    exact kept.inMemory m q asked filed
  -- a new request is at the end of the log and its id was free
  have newest : ∀ p asked, raisedView (past log thread) ⟨o, (exec env o s).1⟩ = some (p, asked) →
      (exec env o s).2.permissions.get p.id = some p ∧ s.permissions.get p.id = none := by
    intro p asked viewed
    cases o with
    | createPermission q status =>
        obtain ⟨se, cwd, -, -, seen, -⟩ := raisedView_of_protocol allowed
        cases seen.symm.trans viewed
        exact ⟨OrderedMap.get_set_self _ _ _, free q rfl⟩
    | _ => cases viewed
  constructor
  · intro m p asked filed
    rcases observe_snoc.mp filed with older | ⟨-, viewed⟩
    · exact request_stays allowed known (kept.inMemory m p asked older) free
    · exact (newest p asked viewed).1
  · intro m m' p p' asked asked' filed filed' same
    rcases observe_snoc.mp filed with older | ⟨rfl, viewed⟩ <;>
      rcases observe_snoc.mp filed' with older' | ⟨rfl, viewed'⟩
    · exact kept.own m m' p p' asked asked' older older' same
    · have taken := kept.inMemory m p asked older
      rw [same, (newest p' asked' viewed').2] at taken
      cases taken
    · have taken := kept.inMemory m' p' asked' older'
      rw [← same, (newest p asked viewed).2] at taken
      cases taken
    · rfl

theorem requestsKept_preserved (startedAt : Int) (scope : StubScope) :
    (server startedAt).Preserves Protocol scope RequestsKept := by
  intro s log thread o env within lawful inv
  have sourced := requestsRaised_preserved startedAt scope s log thread o env within lawful inv.sourced
  change RequestsRaised (exec env o s).2 (log ++ [⟨thread, s, ⟨o, (exec env o s).1⟩⟩]) at sourced
  change RequestsKept (exec env o s).2 (log ++ [⟨thread, s, ⟨o, (exec env o s).1⟩⟩])
  refine ⟨sourced, ?_, ?_, ?_, ?_⟩
  · intro id p after
    rcases permission_origin after with before | ⟨status, rfl, own, -⟩ | ⟨rfl, own⟩
    · exact inv.keyed id p before
    · exact own
    · exact own
  · intro k thread' id p here
    rcases at_snoc.mp here with older | ⟨-, -, same⟩
    · exact inv.lookups k thread' id p older
    · obtain ⟨rfl, answer⟩ := Event.mk.inj same
      exact inv.keyed id p (eq_of_heq answer).symm
  · intro i list p seen listed
    have before : ∃ m asked, raised log m = some (p, asked) := by
      rcases observe_snoc.mp seen with older | ⟨-, viewed⟩
      · exact inv.shown i list p older listed
      · exact raised_of_shownView (lawful_init lawful) inv.sourced viewed listed
    obtain ⟨m, asked, filed⟩ := before
    exact ⟨m, asked, observe_mono filed⟩
  · intro fresh
    have kept := inv.kept fun entry member => fresh entry (List.mem_append_left _ member)
    have free := fresh _ (List.mem_append_right _ (List.mem_singleton.mpr rfl))
    exact kept.snoc inv.sourced (lawful_last lawful) free

/-- In every run of one process, while no request takes an id in use, ids keep the meaning
    with which they were shown. -/
theorem standing_of_fresh_ids (startedAt : Int) (root : GoString)
    (disk : OrderedMap CleanPath FileData) (labels : List StubLabel)
    (running : ∀ label ∈ labels, label.Within oneProcess)
    (fresh : ∀ entry ∈ ((server startedAt).run (State.startUp root disk) labels).log,
      FreshRequest entry) :
    Standing ((server startedAt).run (State.startUp root disk) labels) := by
  have lawful : Lawful Protocol ((server startedAt).run (State.startUp root disk) labels).log :=
    run_protocol running
  have inv := run_preserved running (fun _ => not_false) (requestsKept_preserved startedAt oneProcess)
    (startUp_requestsKept root disk)
  have kept := inv.kept fresh
  refine ⟨?_, ?_, ?_, kept.own⟩
  · intro i list p seen listed
    obtain ⟨m, asked, filed⟩ := inv.shown i list p seen listed
    exact kept.inMemory m p asked filed
  · intro i k list p a seen listed _ stored
    obtain ⟨m, asked, filed⟩ := inv.shown i list p seen listed
    obtain ⟨thread, ⟨op, res⟩, here, viewed⟩ := observe_eq_some.mp stored
    cases op with
    | createApproval b =>
        obtain ⟨id, q, looked, seen', own, first⟩ := grantedForView_of_protocol (lawful k thread _ here)
        cases seen'.symm.trans viewed
        obtain ⟨l, -, at_l⟩ := mem_past_take.mp looked
        obtain ⟨m', -, asked', filed', patterns⟩ := inv.sourced.lookedUp l thread _ q at_l
        -- the request looked up under the shown id is the one that was shown
        obtain rfl := kept.own m m' p q asked asked' filed filed' (inv.lookups l thread _ q at_l).symm
        cases filed.symm.trans filed'
        rw [patterns] at first ⊢
        have pattern : asked ++ subtree = a.pattern := Option.mem_some.mp first
        exact ⟨own, by rw [pattern]⟩
    | _ => cases viewed
  · intro i request started response answered code
    obtain ⟨q, p, member⟩ := (run_answered running answered).1 code
    obtain ⟨m, at_m⟩ := mem_past.mp member
    obtain ⟨asked, filed⟩ := raised_of_at lawful at_m
    exact ⟨m, p, asked, filed, ⟨_, at_m⟩, kept.inMemory m p asked filed⟩

/-- Sessions of two workspaces ask at 3 and at `second`; then the first request is approved. -/
def twoAsk (second : Int) : List StubLabel :=
  script [(1, workspacePost (lit "w")), (1, workspacePost (lit "v")),
    (2, sessionPost (lit "s") (lit "w")), (2, sessionPost (lit "t") (lit "v")),
    (3, shellPost (lit "s") (lit "/srv/app")), (second, shellPost (lit "t") (lit "/etc")),
    (5, replyPost (lit "perm_3") once)]

theorem standing_of_separate_requests :
    Standing ((server 0).run (State.startUp (lit "/state") .empty) (twoAsk 4)) :=
  standing_of_fresh_ids 0 (lit "/state") .empty (twoAsk 4) (script_oneProcess _) (by decide +kernel)

/-- Both ask in one millisecond: what was shown for `/srv/app` in one workspace approves
    `/etc` in the other. -/
theorem not_standing_within_one_millisecond :
    ¬∀ startedAt root disk labels, (∀ label ∈ labels, label.Within oneProcess) → SteadyClock labels →
      Standing ((server startedAt).run (State.startUp root disk) labels) := by
  intro always_standing
  have standing := always_standing 0 (lit "/state") .empty (twoAsk 3) (script_oneProcess _)
    (script_steady (by decide))
  have first : shown ((server 0).run (State.startUp (lit "/state") .empty) (twoAsk 3)).log 25 =
      some [⟨newPermission ⟨lit "s", lit "w", [], lit "/root", ⟨lit "idle", []⟩, 2, 2⟩ (lit "shell")
        (lit "/srv/app") 3 3, 0⟩] := by
    decide +kernel
  have approval : grantedFor ((server 0).run (State.startUp (lit "/state") .empty) (twoAsk 3)).log 37 =
      some (lit "perm_3", ⟨lit "apr_5", lit "v", lit "default", lit "path.access", lit "/etc/**", once, 5⟩) := by
    decide +kernel
  have same := (standing.approved 25 37 _ _ _ first (List.mem_singleton.mpr rfl) (by omega) approval).1
  revert same
  decide

end OpencodeRemote.Stub
