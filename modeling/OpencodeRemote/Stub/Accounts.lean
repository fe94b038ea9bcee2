import OpencodeRemote.Data.Ledger
import OpencodeRemote.Stub.Trace

/-! # Approvals as a ledger

Storing an approval grants a permit under its id, finding one that is good for a single
use spends it. The approvals in memory are the balance of what the log has posted so, and
every lookup that finds something draws on a permit then outstanding.
-/

namespace OpencodeRemote.Stub

open Concurrency Data

def posting : StubEvent → Posting GoString Approval
  | ⟨.createApproval a, _⟩ => .grant a.id a
  | ⟨.consumeApproval _ _, some a⟩ => if a.mode = once then .spend a.id else .idle
  | _ => .idle

def ledger (log : Log) : List (Posting GoString Approval) := log.map fun entry => posting entry.event

def draw (log : Log) (i : Nat) : Option (GoString × Approval) :=
  (found log i).map fun lookup => (lookup.2.2.id, lookup.2.2)

@[simp] theorem ledger_snoc (log : Log) (entry : StubEntry) :
    ledger (log ++ [entry]) = ledger log ++ [posting entry.event] := by
  simp [ledger]

@[simp] theorem length_ledger (log : Log) : (ledger log).length = log.length := by simp [ledger]

/-- A grant in the ledger is an approval stored by the same entry of the log. -/
theorem grant_stored {log : Log} {k : Nat} {id : GoString} {a : Approval}
    (granted : (ledger log)[k]? = some (.grant id a)) :
    a.id = id ∧ ∃ thread err, At log k thread ⟨.createApproval a, err⟩ := by
  simp only [ledger, List.getElem?_map, Option.map_eq_some_iff] at granted
  obtain ⟨⟨thread, s, op, res⟩, here, posted⟩ := granted
  cases op with
  | createApproval b =>
      cases posted
      exact ⟨rfl, thread, res, s, here⟩
  | consumeApproval workspaceID path =>
      cases res with
      | none => cases posted
      | some b =>
          simp only [posting] at posted
          split at posted <;> cases posted
  | _ => cases posted

theorem balance_id {log : Log} {id : GoString} {a : Approval}
    (outstanding : balance (ledger log) id = some a) : a.id = id := by
  obtain ⟨k, granted, -⟩ := balance_eq_some.mp outstanding
  exact (grant_stored granted).1

/-- The approvals are the balance, and every lookup that found one drew on the balance. -/
structure Accounted (s : State) (log : Log) : Prop where
  balanced : ∀ id, s.approvals.get id = balance (ledger log) id
  covered : Covered (fun a => a.mode = once) (ledger log) (draw log)
  matched : ∀ i workspaceID cwd a, found log i = some (workspaceID, cwd, a) →
    a.workspaceID = workspaceID ∧ matchPattern a.pattern cwd = true

variable {s : State} {log : Log}

theorem Accounted.keyed (accounted : Accounted s log) {id : GoString} {a : Approval}
    (inMemory : s.approvals.get id = some a) : a.id = id := by
  rw [accounted.balanced] at inMemory
  exact balance_id inMemory

/-- One operation does to the approvals what its event posts. -/
theorem exec_posting {env : Env} {o : Op} (keyed : ∀ id a, s.approvals.get id = some a → a.id = id)
    (id : GoString) :
    (exec env o s).2.approvals.get id = (posting ⟨o, (exec env o s).1⟩).apply s.approvals.get id := by
  cases o with
  | createApproval a => exact OrderedMap.get_set _ _ _ _
  | consumeApproval workspaceID path =>
      simp only [exec, State.consumeApproval]
      cases lookup : s.findApproval env workspaceID path with
      | none => rfl
      | some entry =>
          obtain ⟨key, a⟩ := entry
          have own := keyed key a (State.findApproval_some lookup).1
          by_cases single : a.mode = once
          · simp only [single, if_true, posting, own]
            exact OrderedMap.get_erase _ _ _
          · simp only [single, if_false, posting]
            rfl
  | _ => rfl

theorem startUp_accounted {root : GoString} {disk : OrderedMap CleanPath FileData}
    (none : (State.startUp root disk).approvals = .empty) : Accounted (State.startUp root disk) [] := by
  constructor
  · intro id
    rw [none]
    rfl
  · intro i key permit drawn
    cases drawn
  · intro i workspaceID cwd a lookup
    cases lookup

theorem accounted_preserved (startedAt : Int) (scope : StubScope) :
    (server startedAt).Preserves Protocol scope Accounted := by
  intro s log thread o env _ lawful inv
  change Accounted (exec env o s).2 (log ++ [⟨thread, s, ⟨o, (exec env o s).1⟩⟩])
  -- what the newest entry finds, it finds outstanding
  have newest : ∀ workspaceID cwd a,
      foundView (past log thread) ⟨o, (exec env o s).1⟩ = some (workspaceID, cwd, a) →
      s.approvals.get a.id = some a ∧ a.workspaceID = workspaceID ∧
        matchPattern a.pattern cwd = true ∧
        (a.mode = once → posting ⟨o, (exec env o s).1⟩ = .spend a.id) := by
    intro workspaceID cwd a seen
    obtain ⟨rfl, answer, key, lookup⟩ := consumeApproval_of_foundView seen
    obtain ⟨stored, own, matched⟩ := State.findApproval_some lookup
    rw [inv.keyed stored]
    refine ⟨stored, own, matched, fun single => ?_⟩
    rw [answer]
    simp only [posting, single, if_true, inv.keyed stored]
  constructor
  · intro id
    rw [exec_posting (fun id a => inv.keyed) id, ledger_snoc, balance_snoc]
    exact congrArg (fun table => Posting.apply _ table id) (funext inv.balanced)
  · intro i key permit drawn
    obtain ⟨⟨workspaceID, cwd, a⟩, lookup, same⟩ := Option.map_eq_some_iff.mp drawn
    cases same
    rcases observe_snoc.mp lookup with older | ⟨rfl, seen⟩
    · have early := observe_lt older
      have old := inv.covered i a.id a (Option.map_eq_some_iff.mpr ⟨_, older, rfl⟩)
      rw [ledger_snoc, List.take_append_of_le_length (by simp; omega),
        List.getElem?_append_left (by simpa using early)]
      exact old
    · obtain ⟨stored, -, -, spends⟩ := newest workspaceID cwd a seen
      rw [ledger_snoc, List.take_left' (length_ledger log), ← inv.balanced]
      refine ⟨stored, fun single => ?_⟩
      rw [← length_ledger log, List.getElem?_concat_length, spends single]
  · intro i workspaceID cwd a lookup
    rcases observe_snoc.mp lookup with older | ⟨-, seen⟩
    · exact inv.matched i workspaceID cwd a older
    · obtain ⟨-, own, matched, -⟩ := newest workspaceID cwd a seen
      exact ⟨own, matched⟩

/-- An approval in memory goes back to an approving reply, and that to a request for the
    directory of its pattern. -/
theorem approval_provenance (lawful : Lawful Protocol log) (requests : RequestsRaised s log)
    (accounted : Accounted s log) {id : GoString} {a : Approval}
    (inMemory : s.approvals.get id = some a) :
    ∃ k p m asked, k < log.length ∧ replied log k = some (p, a.mode) ∧ Approving a.mode ∧
      m < k ∧ raised log m = some (p, asked) ∧ p.workspaceID = a.workspaceID ∧
      a.pattern = asked ++ subtree := by
  rw [accounted.balanced] at inMemory
  obtain ⟨j, grant, -⟩ := balance_eq_some.mp inMemory
  obtain ⟨-, thread, err, here⟩ := grant_stored grant
  obtain ⟨p, stored⟩ := granted_of_at lawful here
  obtain ⟨⟨k, early, answered, -⟩, approving, own, first⟩ := granted_replied lawful stored
  obtain ⟨l, earlier, thread', id', looked⟩ := replied_lookedUp lawful answered
  obtain ⟨m, earliest, asked, filed, patterns⟩ := requests.lookedUp l thread' id' p looked
  refine ⟨k, p, m, asked, observe_lt answered, answered, approving, by omega, filed, own.symm, ?_⟩
  rw [patterns] at first
  exact (Option.mem_some.mp first).symm

end OpencodeRemote.Stub
