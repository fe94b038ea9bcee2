import OpencodeRemote.Stub.Persistence
import OpencodeRemote.Stub.Naming

/-! # Every command has a reply of its own

The ledger assigns each command to the reply which granted the approval it ran under.
Across restarts this needs the mirror on disk: file operations succeed here, clients choose
plain names, and the approvals that a restart reads back are those there were.
-/

namespace OpencodeRemote.Stub

open Concurrency Data Filepath

def PlainResource : Resource → Prop
  | .workspace id => Plain id
  | .session id => Plain id

/-- What the request creates or deletes has a plain name; a session may come without one. -/
structure PlainRequest (r : Request) : Prop where
  workspace : r.path = lit "/experimental/workspace" → r.method = methodPost →
    ∀ ws, r.body.workspace = .ok ws → Plain ws.id
  session : r.path = lit "/session" → r.method = methodPost →
    ∀ req, r.body.session = .ok req → req.id = [] ∨ Plain req.id
  deletion : r.method = methodDelete → cleanPath r.path = r.path →
    ∀ resource, addressee r.path = some resource → PlainResource resource

/-- A POST names files in its body only. -/
theorem PlainRequest.of_post {r : Request} (post : r.method = methodPost)
    (workspace : r.path = lit "/experimental/workspace" →
      ∀ ws, r.body.workspace = .ok ws → Plain ws.id)
    (session : r.path = lit "/session" → ∀ req, r.body.session = .ok req → req.id = [] ∨ Plain req.id) :
    PlainRequest r := by
  refine ⟨fun here _ => workspace here, fun here _ => session here, fun deletion => ?_⟩
  rw [post] at deletion
  exact absurd deletion (by decide)

/-- File operations succeed, ids are plain names, and the stub may be restarted. -/
def reliableDisk : StubScope where
  request := PlainRequest
  env env := env.write = .ok ∧ ∀ p, env.survives p = false

private abbrev Plainly {α : Type} (program : Handler α) (past : List StubEvent) : Prop :=
  program.Obeys (fun _ => PlainNames) past fun _ _ => True

theorem serve_plain (startedAt : Int) {r : Request} (plain : PlainRequest r) :
    Plainly (serve startedAt r) [] := by
  by_cases clean : cleanPath r.path = r.path
  · let names : Naming := ⟨PlainResource, PlainResource⟩
    have allowed : names.Allows r := by
      refine ⟨plain.workspace, ?_, fun deletion => plain.deletion deletion clean⟩
      intro here post req decoded
      refine ⟨fun _ minted => ?_, (plain.session here post req decoded).resolve_left⟩
      exact plain_minted (by constructor <;> decide) (by decide) minted
    have same : names.Named = PlainNames := by
      funext event
      obtain ⟨call, outcome⟩ := event
      cases call <;> rfl
    have within : (serve startedAt r).Obeys (fun _ => names.Named) [] fun _ _ => True :=
      serve_named names startedAt allowed
    rw [same] at within
    exact within
  · -- the mux redirects
    rw [serve, if_pos clean]
    trivial

/-- The protocol, with plain names only. -/
abbrev Reliably (past : List StubEvent) (event : StubEvent) : Prop := Protocol past event ∧ PlainNames event

theorem serve_reliably (startedAt : Int) (request : Request) (plain : reliableDisk.request request) :
    ((server startedAt).serve request).Obeys Reliably [] fun past a => Answered past a ∧ True :=
  (serve_obeys startedAt request).and (serve_plain startedAt plain)

/-- The stub itself chooses the names of approvals. -/
theorem plain_of_protocol {past : List StubEvent} {a : Approval} {err : Option GoString}
    (allowed : Protocol past ⟨.createApproval a, err⟩) : Plain a.id := by
  obtain ⟨-, -, -, -, -, -, minted, same⟩ := grantedView_of_protocol allowed
  rw [same]
  exact plain_approvalID minted

theorem filed_preserved (startedAt : Int) :
    (server startedAt).Preserves Reliably reliableDisk fun s _ => Filed s := by
  intro s log thread o env within lawful filed
  have last := lawful_last lawful
  refine exec_filed filed within.1 within.2 ?_ last.2
  rintro a rfl
  exact plain_of_protocol last.1

/-! ## The assignment -/

/-- `reply` gives every command an earlier approving reply to a request of its workspace
    with a pattern that matches its directory, and no two commands the same `once`. -/
structure Assignment (log : Log) (reply : Nat → Nat) : Prop where
  authorised : ∀ i se cwd, ran log i = some (se, cwd) → reply i < i ∧
    ∃ p mode, replied log (reply i) = some (p, mode) ∧ Approving mode ∧
      p.workspaceID = se.workspaceID ∧ ∃ pattern ∈ p.patterns, matchPattern pattern cwd = true
  single : ∀ i j p, (ran log i).isSome → (ran log j).isSome → reply i = reply j →
    replied log (reply i) = some (p, once) → i = j

/-- The way from a command to its reply: the lookup of its own thread, the grant drawn on,
    the reply of the granting thread. -/
private structure Chain (log : Log) (source : Nat → Nat) (i r : Nat) (se : Session) (cwd : GoString) :
    Prop where
  way : ∃ k a p, k < i ∧ found log k = some (se.workspaceID, cwd, a) ∧ SameThread log i k ∧
    granted log (source k) = some (p, a) ∧ source k < k ∧ SameThread log (source k) r ∧
    r < source k ∧ replied log r = some (p, a.mode)

private theorem chain_of_ran {log : Log} (lawful : Lawful Protocol log) {source : Nat → Nat}
    (sourced : ∀ i key a, draw log i = some (key, a) →
      source i < i ∧ (ledger log)[source i]? = some (.grant key a))
    {i : Nat} {se : Session} {cwd : GoString} (executed : ran log i = some (se, cwd)) :
    ∃ r, Chain log source i r se cwd := by
  obtain ⟨k, early, a, lookup, same⟩ := ran_found lawful executed
  obtain ⟨earlier, grant⟩ := sourced k a.id a (Option.map_eq_some_iff.mpr ⟨_, lookup, rfl⟩)
  obtain ⟨-, thread, err, here⟩ := grant_stored grant
  obtain ⟨p, stored⟩ := granted_of_at lawful here
  obtain ⟨⟨r, before, answered, own⟩, -⟩ := granted_replied lawful stored
  exact ⟨r, k, a, p, early, lookup, same, stored, earlier, own, before, answered⟩

theorem assignment_of_accounted {s : State} {log : Log} (lawful : Lawful Protocol log)
    (accounted : Accounted s log) : ∃ reply, Assignment log reply := by
  obtain ⟨source, sourced, apart⟩ := accounted.covered.assignment
  have chained : ∀ i, ∃ r, ∀ se cwd, ran log i = some (se, cwd) → Chain log source i r se cwd := by
    intro i
    cases executed : ran log i with
    | none => exact ⟨0, by simp⟩
    | some command =>
        obtain ⟨r, chain⟩ := chain_of_ran lawful sourced executed
        exact ⟨r, by rintro se cwd ⟨rfl⟩; exact chain⟩
  choose reply chain using chained
  refine ⟨reply, ?_, ?_⟩
  · intro i se cwd executed
    obtain ⟨k, a, p, early, lookup, -, stored, earlier, -, before, answered⟩ := (chain i se cwd executed).way
    obtain ⟨-, approving, own, first⟩ := granted_replied lawful stored
    obtain ⟨same, matched⟩ := accounted.matched k _ _ a lookup
    refine ⟨by omega, p, a.mode, answered, approving, own.symm.trans same, a.pattern, ?_, matched⟩
    exact List.mem_of_mem_head? first
  · intro i j p some_i some_j same once_i
    obtain ⟨⟨se, cwd⟩, ran_i⟩ := Option.isSome_iff_exists.mp some_i
    obtain ⟨⟨se', cwd'⟩, ran_j⟩ := Option.isSome_iff_exists.mp some_j
    obtain ⟨k, a, q, -, lookup, thread, stored, -, own, -, answered⟩ := (chain i se cwd ran_i).way
    obtain ⟨k', a', q', -, lookup', thread', stored', -, own', -, answered'⟩ := (chain j se' cwd' ran_j).way
    -- one reply, hence one thread, hence one grant, one lookup and one command
    have grants : source k = source k' := by
      apply granted_once lawful _ stored stored'
      rw [← same] at own'
      exact own.trans own'.symm
    have mode : a.mode = once :=
      (congrArg Prod.snd (Option.some.inj (once_i.symm.trans answered))).symm
    have lookups : k = k' :=
      apart k k' a.id a (Option.map_eq_some_iff.mpr ⟨_, lookup, rfl⟩) mode (by simp [draw, lookup']) grants
    subst lookups
    exact ran_once lawful (thread.trans thread'.symm) ran_i ran_j

/-! ## Restarts -/

/-- The label restarts the stub. -/
def Restarts : Option StubLabel → Prop
  | some (.reboot _) => True
  | _ => False

instance : DecidablePred Restarts
  | some (.reboot _) => inferInstanceAs (Decidable True)
  | some (.arrive _ _) => inferInstanceAs (Decidable False)
  | some (.resume _ _) => inferInstanceAs (Decidable False)
  | none => inferInstanceAs (Decidable False)

/-- Whenever the stub is restarted, the patterns of the approvals in memory are valid UTF-8. -/
def RestartsValid (startedAt : Int) (s : State) (labels : List StubLabel) : Prop :=
  ∀ n < labels.length, Restarts labels[n]? → ValidPatterns ((server startedAt).run s (labels.take n)).store

instance (startedAt : Int) (s : State) (labels : List StubLabel) : Decidable (RestartsValid startedAt s labels) :=
  inferInstanceAs (Decidable (∀ _ < _, _ → _))

theorem RestartsValid.at {startedAt : Int} {s : State} {labels before after : List StubLabel} {env : Env}
    (valid : RestartsValid startedAt s labels) (split : labels = before ++ .reboot env :: after) :
    ValidPatterns ((server startedAt).run s before).store := by
  have here := valid before.length (by simp [split])
  rw [split, List.take_left' rfl, List.getElem?_append_right (Nat.le_refl _), Nat.sub_self] at here
  exact here trivial

/-- While file operations succeed and ids are plain names, in every run whose restarts find
    valid patterns in memory, each command has an earlier approving reply, a `once` never
    for two. -/
theorem commands_assigned (startedAt : Int) (root : GoString) (disk : OrderedMap CleanPath FileData)
    (none : (State.startUp root disk).approvals = .empty) (labels : List StubLabel)
    (reliable : ∀ label ∈ labels, label.Within reliableDisk)
    (valid : RestartsValid startedAt (State.startUp root disk) labels) :
    ∃ reply, Assignment ((server startedAt).run (State.startUp root disk) labels).log reply := by
  have kept : (server startedAt).Preserves Reliably reliableDisk fun s log => Accounted s log ∧ Filed s := by
    intro s log thread o env within lawful inv
    refine ⟨accounted_preserved startedAt reliableDisk s log thread o env within
      (lawful.weaken fun _ _ => And.left) inv.1, ?_⟩
    exact filed_preserved startedAt s log thread o env within lawful inv.2
  have inv := Machine.run_invariant_across (fun s log => Accounted s log ∧ Filed s) kept
    (serve_reliably startedAt) ⟨startUp_accounted none, startUp_filed none⟩ reliable
    fun before env after split inv => by
      have same := restart_approvals inv.2 (valid.at split)
      exact ⟨⟨fun id => (same id).trans (inv.1.balanced id), inv.1.covered, inv.1.matched⟩,
        restart_filed inv.2 (valid.at split)⟩
  exact assignment_of_accounted (run_protocol reliable) inv.1

/-! ## A run with restarts -/

theorem calm_reliable (now : Int) : reliableDisk.env (calm now) := ⟨rfl, fun _ => rfl⟩

private theorem other_route : lit "/experimental/workspace" ≠ lit "/session" := by decide

theorem plain_workspacePost {id : GoString} (plain : Plain id) : PlainRequest (workspacePost id) :=
  .of_post rfl (by rintro _ _ ⟨rfl⟩; exact plain) fun here => absurd here other_route

theorem plain_sessionPost {id : GoString} (plain : Plain id) (workspaceID : GoString) :
    PlainRequest (sessionPost id workspaceID) :=
  .of_post rfl (fun here => absurd here.symm other_route) (by rintro _ _ ⟨rfl⟩; exact .inr plain)

theorem plain_shellPost (sessionID cwd : GoString) : PlainRequest (shellPost sessionID cwd) :=
  .of_post rfl (fun _ _ body => by cases body) fun _ _ body => by cases body

theorem plain_replyPost (permissionID reply : GoString) : PlainRequest (replyPost permissionID reply) :=
  .of_post rfl (fun _ _ body => by cases body) fun _ _ body => by cases body

/-- A session of workspace `w` gets `/srv/app` approved for once and `/etc` for always, and
    the stub is restarted. -/
def twoApprovals : List StubLabel :=
  script [(1, workspacePost (lit "w")), (2, sessionPost (lit "s") (lit "w")),
    (3, shellPost (lit "s") (lit "/srv/app")), (4, replyPost (lit "perm_3") once),
    (5, shellPost (lit "s") (lit "/etc")), (6, replyPost (lit "perm_5") always)] ++
  [.reboot (calm 7)]

theorem twoApprovals_reliable : ∀ label ∈ twoApprovals, label.Within reliableDisk := by
  have w : Plain (lit "w") := by constructor <;> decide
  have s : Plain (lit "s") := by constructor <;> decide
  intro label member
  cases List.mem_append.mp member with
  | inl before =>
      refine script_within calm_reliable ?_ 0 label before
      intro entry listed
      simp only [List.mem_cons, List.not_mem_nil, or_false] at listed
      rcases listed with rfl | rfl | rfl | rfl | rfl | rfl
      · exact plain_workspacePost w
      · exact plain_sessionPost s _
      · exact plain_shellPost _ _
      · exact plain_replyPost _ _
      · exact plain_shellPost _ _
      · exact plain_replyPost _ _
  | inr reboot =>
      cases List.mem_singleton.mp reboot
      trivial

/-- Both approvals are used after the restart. -/
def approvedAcrossRestart : List StubLabel :=
  twoApprovals ++ script [(8, shellPost (lit "s") (lit "/srv/app")), (9, shellPost (lit "s") (lit "/etc"))] 6

theorem approvedAcrossRestart_reliable : ∀ label ∈ approvedAcrossRestart, label.Within reliableDisk := by
  intro label member
  cases List.mem_append.mp member with
  | inl before => exact twoApprovals_reliable label before
  | inr after =>
      refine script_within calm_reliable ?_ 6 label after
      intro entry listed
      rcases List.mem_pair.mp listed with rfl | rfl
      · exact plain_shellPost _ _
      · exact plain_shellPost _ _

theorem commands_assigned_across_restart :
    ((List.range 60).filter fun i =>
      (ran ((server 0).run (State.startUp (lit "/state") .empty) approvedAcrossRestart).log i).isSome).length = 2 ∧
      ∃ reply, Assignment
        ((server 0).run (State.startUp (lit "/state") .empty) approvedAcrossRestart).log reply :=
  ⟨by decide +kernel, commands_assigned 0 (lit "/state") .empty rfl approvedAcrossRestart
    approvedAcrossRestart_reliable (by decide +kernel)⟩

/-- A label while `$HOME` is `home`. -/
def atHome (home : GoString) : StubLabel → StubLabel
  | .arrive request env => .arrive request fun n => { env n with home }
  | .resume i env => .resume i fun n => { env n with home }
  | .reboot env => .reboot { env with home }

theorem atHome_reliable {home : GoString} {label : StubLabel} (within : label.Within reliableDisk) :
    (atHome home label).Within reliableDisk := by
  cases label with
  | arrive request env => exact within
  | resume i env => exact within
  | reboot env => trivial

/-- The session's own directory is approved always. After a restart it is another one. -/
def moved : List StubLabel :=
  (script [(1, workspacePost (lit "w")), (2, sessionPost (lit "s") (lit "w")), (3, shellPost (lit "s") []),
    (4, replyPost (lit "perm_3") always)] ++
  .reboot (calm 5) :: script [(6, shellPost (lit "s") [])] 4).map (atHome (lit "/home/" ++ [255]))

theorem moved_reliable : ∀ label ∈ moved, label.Within reliableDisk := by
  have w : Plain (lit "w") := by constructor <;> decide
  have s : Plain (lit "s") := by constructor <;> decide
  intro label member
  obtain ⟨calmly, own, rfl⟩ := List.mem_map.mp member
  apply atHome_reliable
  rcases List.mem_append.mp own with before | after
  · refine script_within calm_reliable ?_ 0 calmly before
    intro entry listed
    simp only [List.mem_cons, List.not_mem_nil, or_false] at listed
    rcases listed with rfl | rfl | rfl | rfl
    · exact plain_workspacePost w
    · exact plain_sessionPost s _
    · exact plain_shellPost _ _
    · exact plain_replyPost _ _
  · cases List.mem_cons.mp after with
    | inl reboot =>
        subst reboot
        trivial
    | inr after =>
        refine script_within calm_reliable ?_ 4 calmly after
        intro entry listed
        cases List.mem_singleton.mp listed
        exact plain_shellPost _ _

/-- Under a `$HOME` that is not UTF-8, a command runs where no reply allows it. -/
theorem not_assigned_under_invalid_home :
    ¬∀ startedAt root disk, (State.startUp root disk).approvals = .empty → ∀ labels : List StubLabel,
      (∀ label ∈ labels, label.Within reliableDisk) →
      ∃ reply, Assignment ((server startedAt).run (State.startUp root disk) labels).log reply := by
  intro always_assigned
  obtain ⟨reply, assigned⟩ := always_assigned 0 (lit "/state") .empty rfl moved moved_reliable
  -- the directory ends in the replacement character
  have executed : (ran ((server 0).run (State.startUp (lit "/state") .empty) moved).log 26).map Prod.snd =
      some (lit "/home/" ++ [239, 191, 189]) := by decide +kernel
  have nowhere : ∀ r < 26, ∀ answered ∈ replied ((server 0).run (State.startUp (lit "/state") .empty) moved).log r,
      ∀ pattern ∈ answered.1.patterns, matchPattern pattern (lit "/home/" ++ [239, 191, 189]) = false := by
    decide +kernel
  obtain ⟨⟨se, cwd⟩, ran, rfl⟩ := Option.map_eq_some_iff.mp executed
  obtain ⟨earlier, p, mode, answered, -, -, pattern, listed, matched⟩ := assigned.authorised 26 se _ ran
  rw [nowhere _ earlier _ answered pattern listed] at matched
  cases matched

end OpencodeRemote.Stub
