import OpencodeRemote.Stub.Requests

/-! # One answer per request

A reply writes the status of its request without looking at it. If every reply finds the
request pending, or repeats a rejection, then the first reply is the answer: the status
stays, and a request leads to at most one approval.
-/

namespace OpencodeRemote.Stub

open Concurrency Data

/-- The replies that mean something. -/
def Valid (reply : GoString) : Prop := reply = once ∨ reply = always ∨ reply = reject

instance (reply : GoString) : Decidable (Valid reply) := inferInstanceAs (Decidable (_ ∨ _))

theorem valid_ne_pending {reply : GoString} (valid : Valid reply) : reply ≠ pending := by
  rcases valid with rfl | rfl | rfl <;> decide

theorem not_approving_reject : ¬Approving reject := by decide

/-- `p` is pending and has no reply; or entry `j` holds the first one, which was valid and
    gave the status, later ones only repeated a rejection, and approvals for `p` come from
    the thread of the first and have its mode. -/
def Settled (s : State) (log : Log) (p : PermissionPtr) : Prop :=
  (s.status p = pending ∧ ∀ i v, replied log i ≠ some (p, v)) ∨
    ∃ j v, replied log j = some (p, v) ∧ Valid v ∧ s.status p = v ∧
      (∀ i w, replied log i = some (p, w) → i = j ∨ (j < i ∧ v = reject ∧ w = reject)) ∧
      ∀ k a, granted log k = some (p, a) → SameThread log k j ∧ a.mode = v

structure AnsweredOnce (pool : Pool Request Op Res State Response) : Prop where
  settled : ∀ m p asked, raised pool.log m = some (p, asked) → Settled pool.store pool.log p
  /-- A reply to the id of a request is a reply to that request. -/
  byID : ∀ m p asked i q v, raised pool.log m = some (p, asked) → replied pool.log i = some (q, v) →
    q.id = p.id → q = p
  accepted : ∀ i request started response p v,
    pool.threads[i]? = some ⟨request, started, some (.pure response)⟩ →
    ⟨.setStatus p v, ()⟩ ∈ past pool.log i → response.code = 200
  single : ∀ k k' p a a', granted pool.log k = some (p, a) → granted pool.log k' = some (p, a') → k = k'
  rejected : ∀ p, pool.store.status p = reject → ∀ k a, granted pool.log k ≠ some (p, a)

def setStatusOf : Op → Option (PermissionPtr × GoString)
  | .setStatus p v => some (p, v)
  | _ => none

/-- If the entry is a reply, its request is pending and the reply valid, or both are
    rejections. -/
def FirstReply (entry : StubEntry) : Prop :=
  ∀ reply ∈ setStatusOf entry.event.op,
    (entry.before.status reply.1 = pending ∧ Valid reply.2) ∨
      (entry.before.status reply.1 = reject ∧ reply.2 = reject)

instance (entry : StubEntry) : Decidable (FirstReply entry) :=
  inferInstanceAs (Decidable (∀ reply ∈ setStatusOf entry.event.op, _))

/-! ## Addresses -/

/-- Requests have addresses of their own, which are in use. -/
structure Addressed (s : State) (log : Log) : Prop where
  below : ∀ m p asked, raised log m = some (p, asked) → p.addr < s.statuses.length
  own : ∀ m m' p p' asked asked', raised log m = some (p, asked) →
    raised log m' = some (p', asked') → p.addr = p'.addr → m = m'

theorem statuses_grow (env : Env) (o : Op) (s : State) :
    s.statuses.length ≤ (exec env o s).2.statuses.length := by
  rw [exec_statuses]
  split
  · simp
  · simp
  · exact Nat.le_refl _

/-- A request that is being filed gets the first free address. -/
theorem raised_address {past : List StubEvent} {env : Env} {o : Op} {s : State} {p : PermissionPtr}
    {asked : GoString} (viewed : raisedView past ⟨o, (exec env o s).1⟩ = some (p, asked)) :
    p.addr = s.statuses.length ∧ ∃ q status, o = .createPermission q status := by
  cases o with
  | createPermission q status =>
      obtain ⟨cwd, -, same⟩ := Option.map_eq_some_iff.mp viewed
      cases same
      exact ⟨rfl, q, status, rfl⟩
  | _ => cases viewed

theorem addressed_preserved (startedAt : Int) (scope : StubScope) :
    (server startedAt).Preserves Protocol scope Addressed := by
  intro s log thread o env _ _ inv
  change Addressed (exec env o s).2 (log ++ [⟨thread, s, ⟨o, (exec env o s).1⟩⟩])
  constructor
  · intro m p asked filed
    rcases observe_snoc.mp filed with older | ⟨-, viewed⟩
    · exact Nat.lt_of_lt_of_le (inv.below m p asked older) (statuses_grow env o s)
    · obtain ⟨here, q, status, rfl⟩ := raised_address viewed
      rw [here, exec_statuses]
      simp
  · intro m m' p p' asked asked' filed filed' same
    rcases observe_snoc.mp filed with older | ⟨rfl, viewed⟩ <;>
      rcases observe_snoc.mp filed' with older' | ⟨rfl, viewed'⟩
    · exact inv.own m m' p p' asked asked' older older' same
    · have low := inv.below m p asked older
      have high := (raised_address viewed').1
      omega
    · have low := inv.below m' p' asked' older'
      have high := (raised_address viewed).1
      omega
    · rfl

/-! ## Replies -/

/-- The status of a request changes only by a reply to its address. -/
theorem status_stays {env : Env} {o : Op} {s : State} {p : PermissionPtr}
    (inUse : p.addr < s.statuses.length) (other : ∀ q v, o = .setStatus q v → q.addr ≠ p.addr) :
    (exec env o s).2.status p = s.status p := by
  unfold State.status
  rw [exec_statuses]
  split
  · rw [List.getD_eq_getElem?_getD, List.getElem?_append_left inUse, List.getD_eq_getElem?_getD]
  · rename_i q v
    rw [List.getD_eq_getElem?_getD, List.getElem?_set_ne (other q v rfl), List.getD_eq_getElem?_getD]
  · rfl

theorem status_set {env : Env} {s : State} {p : PermissionPtr} {v : GoString}
    (inUse : p.addr < s.statuses.length) : (exec env (.setStatus p v) s).2.status p = v := by
  simp [State.status, exec_statuses, inUse]

theorem status_new {env : Env} {s : State} {q : PermissionRequest} {v : GoString} {p : PermissionPtr}
    (here : p.addr = s.statuses.length) : (exec env (.createPermission q v) s).2.status p = v := by
  simp [State.status, exec_statuses, here]

/-- An operation that is no reply to `p` and stores nothing for it leaves `p` settled. -/
theorem Settled.frame {s : State} {log : Log} {thread : Nat} {env : Env} {o : Op} {p : PermissionPtr}
    (settled : Settled s log p) (status : (exec env o s).2.status p = s.status p)
    (unreplied : ∀ v, repliedView (past log thread) ⟨o, (exec env o s).1⟩ ≠ some (p, v))
    (ungranted : ∀ a, grantedView (past log thread) ⟨o, (exec env o s).1⟩ ≠ some (p, a)) :
    Settled (exec env o s).2 (log ++ [⟨thread, s, ⟨o, (exec env o s).1⟩⟩]) p := by
  rcases settled with ⟨waiting, silent⟩ | ⟨j, v, first, valid, answer, later, grants⟩
  · refine .inl ⟨status.trans waiting, fun i w answered => ?_⟩
    rcases observe_snoc.mp answered with older | ⟨-, viewed⟩
    · exact silent i w older
    · exact unreplied w viewed
  · refine .inr ⟨j, v, observe_mono first, valid, status.trans answer, ?_, ?_⟩
    · intro i w answered
      rcases observe_snoc.mp answered with older | ⟨-, viewed⟩
      · exact later i w older
      · exact absurd viewed (unreplied w)
    · intro k a stored
      rcases observe_snoc.mp stored with older | ⟨-, viewed⟩
      · obtain ⟨same, mode⟩ := grants k a older
        exact ⟨same.append _, mode⟩
      · exact absurd viewed (ungranted a)

/-- A reply that finds `p` pending, or repeats its rejection, leaves `p` settled. -/
theorem Settled.reply {s : State} {log : Log} {thread : Nat} {env : Env} {p : PermissionPtr}
    {v : GoString} (lawful : Lawful Protocol log) (inUse : p.addr < s.statuses.length)
    (settled : Settled s log p)
    (first : (s.status p = pending ∧ Valid v) ∨ (s.status p = reject ∧ v = reject)) :
    Settled (exec env (.setStatus p v) s).2
      (log ++ [⟨thread, s, ⟨.setStatus p v, (exec env (.setStatus p v) s).1⟩⟩]) p := by
  have newest : replied (log ++ [⟨thread, s, ⟨.setStatus p v, (exec env (.setStatus p v) s).1⟩⟩])
      log.length = some (p, v) := observe_snoc.mpr (.inr ⟨rfl, rfl⟩)
  right
  rcases settled with ⟨waiting, silent⟩ | ⟨j, w, opening, valid, answer, later, grants⟩
  · have valid : Valid v := by
      rcases first with ⟨-, valid⟩ | ⟨rejected, -⟩
      · exact valid
      · rw [waiting] at rejected
        exact absurd rejected (by decide)
    refine ⟨log.length, v, newest, valid, status_set inUse, ?_, ?_⟩
    · intro i u answered
      rcases observe_snoc.mp answered with older | ⟨rfl, -⟩
      · exact absurd older (silent i u)
      · exact .inl rfl
    · intro k a stored
      rcases observe_snoc.mp stored with older | ⟨-, viewed⟩
      · obtain ⟨⟨i, -, answered, -⟩, -⟩ := granted_replied lawful older
        exact absurd answered (silent i a.mode)
      · cases createApproval_of_grantedView viewed
  · have repeated : w = reject ∧ v = reject := by
      rcases first with ⟨waiting, -⟩ | ⟨rejected, same⟩
      · exact absurd (answer.symm.trans waiting) (valid_ne_pending valid)
      · exact ⟨answer.symm.trans rejected, same⟩
    obtain ⟨rfl, rfl⟩ := repeated
    refine ⟨j, reject, observe_mono opening, valid, status_set inUse, ?_, ?_⟩
    · intro i u answered
      rcases observe_snoc.mp answered with older | ⟨rfl, viewed⟩
      · exact later i u older
      · cases setStatus_of_repliedView viewed
        exact .inr ⟨observe_lt opening, rfl, rfl⟩
    · intro k a stored
      rcases observe_snoc.mp stored with older | ⟨-, viewed⟩
      · obtain ⟨same, mode⟩ := grants k a older
        exact ⟨same.append _, mode⟩
      · cases createApproval_of_grantedView viewed

/-- Storing an approval for `p` leaves it settled: the reply of the storing thread is the
    first one, since a repeated rejection stores nothing. -/
theorem Settled.grant {s : State} {log : Log} {thread : Nat} {env : Env} {p : PermissionPtr}
    {a : Approval} (lawful : Lawful Protocol
      (log ++ [⟨thread, s, ⟨.createApproval a, (exec env (.createApproval a) s).1⟩⟩]))
    (settled : Settled s log p)
    (viewed : grantedView (past log thread) ⟨.createApproval a, (exec env (.createApproval a) s).1⟩ =
      some (p, a)) :
    Settled (exec env (.createApproval a) s).2
      (log ++ [⟨thread, s, ⟨.createApproval a, (exec env (.createApproval a) s).1⟩⟩]) p := by
  have stored : granted (log ++ [⟨thread, s, ⟨.createApproval a, (exec env (.createApproval a) s).1⟩⟩])
      log.length = some (p, a) := observe_snoc.mpr (.inr ⟨rfl, viewed⟩)
  obtain ⟨⟨i, early, answered, same⟩, approving, -⟩ := granted_replied lawful stored
  have older : replied log i = some (p, a.mode) := by
    rcases observe_snoc.mp answered with older | ⟨-, now⟩
    · exact older
    · cases now
  rcases settled with ⟨-, silent⟩ | ⟨j, v, first, valid, answer, later, grants⟩
  · exact absurd older (silent i a.mode)
  · have opening : i = j := by
      rcases later i a.mode older with here | ⟨-, -, rejection⟩
      · exact here
      · exact absurd (rejection ▸ approving) not_approving_reject
    subst opening
    cases first.symm.trans older
    refine .inr ⟨i, a.mode, observe_mono older, valid, answer, ?_, ?_⟩
    · intro k w again
      rcases observe_snoc.mp again with earlier | ⟨-, now⟩
      · exact later k w earlier
      · cases now
    · intro k b grant
      rcases observe_snoc.mp grant with earlier | ⟨rfl, now⟩
      · obtain ⟨own, mode⟩ := grants k b earlier
        exact ⟨own.append _, mode⟩
      · cases createApproval_of_grantedView now
        exact ⟨same, rfl⟩

/-- While every reply finds its request pending or repeats a rejection, requests are
    settled. -/
structure Replying (s : State) (log : Log) : Prop where
  requests : RequestsKept s log
  addressed : Addressed s log
  settled : (∀ entry ∈ log, FirstReply entry) → ∀ m p asked, raised log m = some (p, asked) →
    Settled s log p

theorem startUp_replying (root : GoString) (disk : OrderedMap CleanPath FileData) :
    Replying (State.startUp root disk) [] := by
  refine ⟨startUp_requestsKept root disk, ⟨?_, ?_⟩, ?_⟩
  · intro m p asked filed
    cases filed
  · intro m m' p p' asked asked' filed
    cases filed
  · intro _ m p asked filed
    cases filed

theorem replying_preserved (startedAt : Int) (scope : StubScope) :
    (server startedAt).Preserves Protocol scope Replying := by
  intro s log thread o env within lawful inv
  have requests := requestsKept_preserved startedAt scope s log thread o env within lawful inv.requests
  have addressed := addressed_preserved startedAt scope s log thread o env within lawful inv.addressed
  refine ⟨requests, addressed, ?_⟩
  change Lawful Protocol (log ++ [⟨thread, s, ⟨o, (exec env o s).1⟩⟩]) at lawful
  change (∀ entry ∈ log ++ [⟨thread, s, ⟨o, (exec env o s).1⟩⟩], FirstReply entry) →
    ∀ m p asked, raised (log ++ [⟨thread, s, ⟨o, (exec env o s).1⟩⟩]) m = some (p, asked) →
      Settled (exec env o s).2 (log ++ [⟨thread, s, ⟨o, (exec env o s).1⟩⟩]) p
  intro firsts m p asked filed
  have allowed : Protocol (past log thread) ⟨o, (exec env o s).1⟩ := lawful_last lawful
  have first := firsts _ (List.mem_append_right _ (List.mem_singleton.mpr rfl))
  rcases observe_snoc.mp filed with older | ⟨rfl, viewed⟩
  · have inUse := inv.addressed.below m p asked older
    have settled := inv.settled (fun entry member => firsts entry (List.mem_append_left _ member))
      m p asked older
    -- only a reply to `p` and an approval stored for `p` concern it
    by_cases answer : ∃ v, o = .setStatus p v
    · obtain ⟨v, rfl⟩ := answer
      exact settled.reply (lawful_init lawful) inUse (first _ rfl)
    · by_cases stores : ∃ a, grantedView (past log thread) ⟨o, (exec env o s).1⟩ = some (p, a)
      · obtain ⟨a, stored⟩ := stores
        obtain rfl := createApproval_of_grantedView stored
        exact settled.grant lawful stored
      · apply settled.frame
        · apply status_stays inUse
          rintro q v rfl same
          obtain ⟨id, member⟩ := Looked.mem allowed
          obtain ⟨k, at_k⟩ := mem_past.mp member
          obtain ⟨m', -, asked', filed', -⟩ := inv.requests.sourced.lookedUp k thread id q at_k
          obtain rfl := inv.addressed.own m m' p q asked asked' older filed' same.symm
          cases older.symm.trans filed'
          exact answer ⟨v, rfl⟩
        · intro v viewed
          exact answer ⟨v, setStatus_of_repliedView viewed⟩
        · intro a stored
          exact stores ⟨a, stored⟩
  · -- a new request is pending, and no reply can have been for it
    obtain ⟨here, q, status, rfl⟩ := raised_address viewed
    obtain ⟨-, -, -, rfl, -⟩ := raisedView_of_protocol allowed
    refine .inl ⟨status_new here, fun i v answered => ?_⟩
    rcases observe_snoc.mp answered with old | ⟨-, now⟩
    · obtain ⟨k, -, thread', id, at_k⟩ := replied_lookedUp (lawful_init lawful) old
      obtain ⟨m', -, asked', filed', -⟩ := inv.requests.sourced.lookedUp k thread' id p at_k
      have below := inv.addressed.below m' p asked' filed'
      omega
    · cases setStatus_of_repliedView now

/-- If the event stores an approval, its file is written. -/
def approvalWritten : StubEvent → Bool
  | ⟨.createApproval _, err⟩ => err.isNone
  | _ => true

/-- In every run of one process, while approvals can be written, ids are fresh and every
    reply finds its request pending or repeats a rejection, a request has one answer. -/
theorem answered_once_of_first_replies (startedAt : Int) (root : GoString)
    (disk : OrderedMap CleanPath FileData) (labels : List StubLabel)
    (running : ∀ label ∈ labels, label.Within oneProcess)
    (written : ∀ entry ∈ ((server startedAt).run (State.startUp root disk) labels).log,
      approvalWritten entry.event = true)
    (fresh : ∀ entry ∈ ((server startedAt).run (State.startUp root disk) labels).log,
      FreshRequest entry)
    (first : ∀ entry ∈ ((server startedAt).run (State.startUp root disk) labels).log,
      FirstReply entry) :
    AnsweredOnce ((server startedAt).run (State.startUp root disk) labels) := by
  have lawful : Lawful Protocol ((server startedAt).run (State.startUp root disk) labels).log :=
    run_protocol running
  have inv := run_preserved running (fun _ => not_false) (replying_preserved startedAt oneProcess)
    (startUp_replying root disk)
  have settled := inv.settled first
  have sourced : ∀ {i q v}, replied ((server startedAt).run (State.startUp root disk) labels).log i =
      some (q, v) → ∃ m asked,
        raised ((server startedAt).run (State.startUp root disk) labels).log m = some (q, asked) ∧
        q.patterns = [asked ++ subtree] := by
    intro i q v answered
    obtain ⟨k, -, thread, id, at_k⟩ := replied_lookedUp lawful answered
    obtain ⟨m, -, asked, filed⟩ := inv.requests.sourced.lookedUp k thread id q at_k
    exact ⟨m, asked, filed⟩
  refine ⟨settled, ?_, ?_, ?_, ?_⟩
  · intro m p asked i q v filed answered same
    obtain ⟨m', asked', filed', -⟩ := sourced answered
    obtain rfl := (inv.requests.kept fresh).own m' m q p asked' asked filed' filed same
    cases filed'.symm.trans filed
    rfl
  · intro i request started response p v finished set
    obtain ⟨j, at_j⟩ := mem_past.mp set
    obtain ⟨-, asked, -, patterns⟩ := sourced (observe_eq_some.mpr ⟨i, _, at_j, rfl⟩)
    rcases ((run_answered running finished).2 p v set).2 with code | empty | ⟨a, err, failed⟩
    · exact code
    · rw [patterns] at empty
      cases empty
    · obtain ⟨k, before, here⟩ := mem_past.mp failed
      exact absurd (written _ (List.mem_of_getElem? here)) Bool.false_ne_true
  · intro k k' p a a' stored stored'
    obtain ⟨⟨i, -, answered, -⟩, -⟩ := granted_replied lawful stored
    obtain ⟨m, asked, filed, -⟩ := sourced answered
    rcases settled m p asked filed with ⟨-, silent⟩ | ⟨j, v, -, -, -, -, grants⟩
    · exact absurd answered (silent i a.mode)
    · exact granted_once lawful ((grants k a stored).1.trans (grants k' a' stored').1.symm) stored stored'
  · intro p rejected k a stored
    obtain ⟨⟨i, -, answered, -⟩, approving, -⟩ := granted_replied lawful stored
    obtain ⟨m, asked, filed, -⟩ := sourced answered
    rcases settled m p asked filed with ⟨-, silent⟩ | ⟨j, v, -, -, status, -, grants⟩
    · exact silent i a.mode answered
    · rw [(grants k a stored).2, ← status, rejected] at approving
      exact not_approving_reject approving

/-- A session asks at 3 and at 6. The first request is rejected twice, the second gets
    these replies. -/
def repliesTo (replies : List (Int × Request)) : List StubLabel :=
  script ([(1, workspacePost (lit "w")), (2, sessionPost (lit "s") (lit "w")),
    (3, shellPost (lit "s") (lit "/srv/app")), (4, replyPost (lit "perm_3") reject),
    (5, replyPost (lit "perm_3") reject), (6, shellPost (lit "s") (lit "/srv/app"))] ++ replies)

def secondRequest : PermissionPtr :=
  ⟨newPermission ⟨lit "s", lit "w", [], lit "/root", ⟨lit "idle", []⟩, 2, 2⟩ (lit "shell")
    (lit "/srv/app") 6 6, 1⟩

theorem answered_once_for_each :
    AnsweredOnce ((server 0).run (State.startUp (lit "/state") .empty)
      (repliesTo [(7, replyPost (lit "perm_6") once)])) :=
  answered_once_of_first_replies 0 (lit "/state") .empty _ (script_oneProcess _) (by decide +kernel)
    (by decide +kernel) (by decide +kernel)

/-- A rejected request is approved by a second reply. -/
theorem not_answered_once_after_rejection :
    ¬∀ startedAt root disk labels, (∀ label ∈ labels, label.Within writing) →
      AnsweredOnce ((server startedAt).run (State.startUp root disk) labels) := by
  intro always_once
  have answered := always_once 0 (lit "/state") .empty
    (repliesTo [(7, replyPost (lit "perm_6") reject), (8, replyPost (lit "perm_6") once)])
    (script_writing _)
  have filed : raised ((server 0).run (State.startUp (lit "/state") .empty) (repliesTo
      [(7, replyPost (lit "perm_6") reject), (8, replyPost (lit "perm_6") once)])).log 28 =
        some (secondRequest, lit "/srv/app") := by
    decide +kernel
  have rejection : replied ((server 0).run (State.startUp (lit "/state") .empty) (repliesTo
      [(7, replyPost (lit "perm_6") reject), (8, replyPost (lit "perm_6") once)])).log 31 =
        some (secondRequest, reject) := by
    decide +kernel
  have approval : replied ((server 0).run (State.startUp (lit "/state") .empty) (repliesTo
      [(7, replyPost (lit "perm_6") reject), (8, replyPost (lit "perm_6") once)])).log 35 =
        some (secondRequest, once) := by
    decide +kernel
  rcases answered.settled 28 _ _ filed with ⟨-, silent⟩ | ⟨j, v, first, -, -, later, -⟩
  · exact silent 31 reject rejection
  · rcases later 35 once approval with here | ⟨-, -, repeated⟩
    · rcases later 31 reject rejection with there | ⟨after, -⟩
      · omega
      · omega
    · exact absurd repeated (by decide)

end OpencodeRemote.Stub
