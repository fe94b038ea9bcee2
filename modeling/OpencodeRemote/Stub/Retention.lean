import OpencodeRemote.Stub.Trace

/-! # Granted approvals are not lost

Approvals of all workspaces share one map, keyed by ids read off a millisecond clock. As
long as an approval is stored under a free id, granting one never touches another, and
only a lookup that uses it up takes it away.
-/

namespace OpencodeRemote.Stub

open Concurrency Data

/-- Nothing is granted under `id` between the entries `k` and `n`. -/
def Undisturbed (log : Log) (k n : Nat) (id : GoString) : Prop :=
  ∀ l p b, k < l → l < n → granted log l = some (p, b) → b.id ≠ id

/-- The approval that entry `k` grants is in memory, or it was good for one use and an
    operation of its workspace, in a directory that it matches, has used it up. -/
def Retained (s : State) (log : Log) (k : Nat) (a : Approval) : Prop :=
  (s.approvals.get a.id = some a ∧ Undisturbed log k log.length a.id) ∨
    (a.mode = once ∧ ∃ j cwd, k < j ∧ found log j = some (a.workspaceID, cwd, a) ∧
      matchPattern a.pattern cwd = true ∧ Undisturbed log k j a.id)

/-- Every approving reply answered 200 has granted an approval, and what was granted is
    retained. -/
structure Retentive (pool : Pool Request Op Res State Response) : Prop where
  answered : ∀ i request started response p reply,
    pool.threads[i]? = some ⟨request, started, some (.pure response)⟩ → response.code = 200 →
    ⟨.setStatus p reply, ()⟩ ∈ past pool.log i → Approving reply →
    ∃ k a, granted pool.log k = some (p, a) ∧ (∃ event, At pool.log k i event) ∧ a.mode = reply ∧
      a.workspaceID = p.workspaceID ∧ a.pattern ∈ p.patterns.head?
  retained : ∀ k p a, granted pool.log k = some (p, a) → Retained pool.store pool.log k a

/-- If the entry stores an approval, its id is free. -/
def FreshApproval (entry : StubEntry) : Prop :=
  ∀ a ∈ newApprovalOf entry.event.op, entry.before.approvals.get a.id = none

instance (entry : StubEntry) : Decidable (FreshApproval entry) :=
  inferInstanceAs (Decidable (∀ a ∈ newApprovalOf entry.event.op, _))

theorem Undisturbed.snoc {log : Log} {k n : Nat} {id : GoString} (quiet : Undisturbed log k n id)
    (inside : n ≤ log.length) {entry : StubEntry} : Undisturbed (log ++ [entry]) k n id := by
  intro l p b after before stored
  rcases observe_snoc.mp stored with older | ⟨rfl, -⟩
  · exact quiet l p b after before older
  · omega

/-- One operation keeps what is retained, if it stores no approval under an id in use. -/
theorem Retained.step {s : State} {log : Log} {thread : Nat} {env : Env} {o : Op} {k : Nat}
    {a : Approval} (inside : k < log.length) (retained : Retained s log k a)
    (fresh : FreshApproval ⟨thread, s, ⟨o, (exec env o s).1⟩⟩) :
    Retained (exec env o s).2 (log ++ [⟨thread, s, ⟨o, (exec env o s).1⟩⟩]) k a := by
  rcases retained with ⟨inMemory, quiet⟩ | ⟨single, j, cwd, after, used, matched, quiet⟩
  · have taken : ∀ b, o = .createApproval b → b.id ≠ a.id := by
      rintro b rfl same
      have free := fresh b rfl
      change s.approvals.get b.id = none at free
      rw [same, inMemory] at free
      cases free
    rcases @approval_fate env o s a.id a inMemory with still | ⟨b, stored, same⟩ | ⟨w, cwd, rfl, hit, single⟩
    · left
      refine ⟨still, fun l p b after before stored => ?_⟩
      rcases observe_snoc.mp stored with older | ⟨-, viewed⟩
      · exact quiet l p b after (observe_lt older) older
      · exact taken b (createApproval_of_grantedView viewed)
    · exact absurd same (taken b stored)
    · right
      obtain ⟨-, own, matched⟩ := State.findApproval_some hit
      have answer : (exec env (.consumeApproval w cwd) s).1 = some a := by
        simp only [exec, State.consumeApproval, hit]
        split <;> rfl
      refine ⟨single, log.length, cwd, inside, observe_snoc.mpr (.inr ⟨rfl, ?_⟩), matched,
        quiet.snoc (Nat.le_refl _)⟩
      rw [answer, own]
      rfl
  · exact .inr ⟨single, j, cwd, after, observe_mono used, matched,
      quiet.snoc (Nat.le_of_lt (observe_lt used))⟩

/-- While approvals are stored under free ids, every grant is retained. -/
def Retaining (s : State) (log : Log) : Prop :=
  (∀ entry ∈ log, FreshApproval entry) → ∀ k p a, granted log k = some (p, a) → Retained s log k a

theorem retaining_preserved (startedAt : Int) (scope : StubScope) :
    (server startedAt).Preserves Protocol scope Retaining := by
  intro s log thread o env _ lawful inv fresh k p a stored
  change Retained (exec env o s).2 (log ++ [⟨thread, s, ⟨o, (exec env o s).1⟩⟩]) k a
  have newest := fresh _ (List.mem_append_right _ (List.mem_singleton.mpr rfl))
  rcases observe_snoc.mp stored with older | ⟨rfl, viewed⟩
  · apply Retained.step (observe_lt older) _ newest
    exact inv (fun entry member => fresh entry (List.mem_append_left _ member)) k p a older
  · left
    obtain rfl := createApproval_of_grantedView viewed
    refine ⟨OrderedMap.get_set_self _ _ _, fun l q b after before _ => ?_⟩
    simp only [List.length_append, List.length_singleton] at before
    omega

/-- In every run of one process in which no approval is stored under an id in use, no
    granted approval is lost. -/
theorem retentive_of_fresh_ids (startedAt : Int) (root : GoString)
    (disk : OrderedMap CleanPath FileData) (labels : List StubLabel)
    (running : ∀ label ∈ labels, label.Within oneProcess)
    (fresh : ∀ entry ∈ ((server startedAt).run (State.startUp root disk) labels).log,
      FreshApproval entry) :
    Retentive ((server startedAt).run (State.startUp root disk) labels) := by
  have lawful : Lawful Protocol ((server startedAt).run (State.startUp root disk) labels).log :=
    run_protocol running
  have start : Retaining (State.startUp root disk) [] := by
    intro _ k p a stored
    cases stored
  have retaining := run_preserved running (fun _ => not_false) (retaining_preserved startedAt oneProcess) start
  refine ⟨?_, retaining fresh⟩
  intro i request started response p reply finished code set approving
  obtain ⟨a, member, mode⟩ := ((run_answered running finished).2 p reply set).1 code approving
  obtain ⟨k, at_k⟩ := mem_past.mp member
  obtain ⟨q, stored⟩ := granted_of_at lawful at_k
  obtain ⟨⟨l, -, answered, own⟩, -, workspace, first⟩ := granted_replied lawful stored
  -- the thread has one reply only, so it granted the approval for this request
  obtain ⟨l', at_l'⟩ := mem_past.mp set
  have seen : replied ((server startedAt).run (State.startUp root disk) labels).log l' =
      some (p, reply) := observe_eq_some.mpr ⟨i, _, at_l', rfl⟩
  have same : SameThread _ l' l := SameThread.trans ⟨i, ⟨_, at_l'⟩, _, at_k⟩ own
  obtain rfl := replied_once lawful same seen answered
  cases seen.symm.trans answered
  exact ⟨k, a, stored, ⟨_, at_k⟩, mode, workspace, first⟩

/-- Two requests, one of each of two workspaces, are approved at 5 and at `second`. -/
def twoApproved (second : Int) : List StubLabel :=
  script [(1, workspacePost (lit "w")), (1, workspacePost (lit "v")),
    (2, sessionPost (lit "s") (lit "w")), (2, sessionPost (lit "t") (lit "v")),
    (3, shellPost (lit "s") (lit "/srv/app")), (4, shellPost (lit "t") (lit "/etc")),
    (5, replyPost (lit "perm_3") always), (second, replyPost (lit "perm_4") once)]

theorem retentive_of_separate_replies :
    Retentive ((server 0).run (State.startUp (lit "/state") .empty) (twoApproved 6)) :=
  retentive_of_fresh_ids 0 (lit "/state") .empty (twoApproved 6) (script_oneProcess _)
    (by decide +kernel)

/-- Both are approved in one millisecond: the second grant replaces the first. -/
theorem not_retentive_within_one_millisecond :
    ¬∀ startedAt root disk labels, (∀ label ∈ labels, label.Within writing) → SteadyClock labels →
      Retentive ((server startedAt).run (State.startUp root disk) labels) := by
  intro always_retentive
  have retentive := always_retentive 0 (lit "/state") .empty (twoApproved 5) (script_writing _)
    (script_steady (by decide))
  have stored : (granted ((server 0).run (State.startUp (lit "/state") .empty)
      (twoApproved 5)).log 37).map Prod.snd =
        some ⟨lit "apr_5", lit "w", lit "default", lit "path.access", lit "/srv/app/**", always, 5⟩ := by
    decide +kernel
  have now : ((server 0).run (State.startUp (lit "/state") .empty) (twoApproved 5)).store.approvals.get
      (lit "apr_5") =
        some ⟨lit "apr_5", lit "v", lit "default", lit "path.access", lit "/etc/**", once, 5⟩ := by
    decide +kernel
  obtain ⟨⟨p, a⟩, grant, rfl⟩ := Option.map_eq_some_iff.mp stored
  rcases retentive.retained 37 p _ grant with ⟨inMemory, -⟩ | ⟨single, -⟩
  · rw [now] at inMemory
    revert inMemory
    decide
  · revert single
    decide

end OpencodeRemote.Stub
