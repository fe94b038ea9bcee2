import OpencodeRemote.Data.Since
import OpencodeRemote.Plugin.Leases

/-! # Shared leases

In shared mode every workspace gets a lease on every host it asks for. The table has one
record for each host, so it can stand for one holder; what is said here is when that is
enough.
-/

namespace OpencodeRemote.Plugin

open Data

/-- A call on a `LeaseManager` in shared mode. -/
inductive LeaseCall where
  | acquire (host workspaceID : String) (now : Nat)
  | release (host workspaceID : String)

namespace LeaseCall

def workspaceID : LeaseCall → String
  | .acquire _ workspaceID _ => workspaceID
  | .release _ workspaceID => workspaceID

/-- An acquisition that throws leaves the table. -/
def run (leases : LeaseManager) : LeaseCall → LeaseManager
  | .acquire host workspaceID now =>
      match leases.acquire host workspaceID .shared now with
      | .ok (_, leases) => leases
      | .error _ => leases
  | .release host workspaceID => leases.release host workspaceID

def Acquires (host workspaceID : String) (c : LeaseCall) : Prop := ∃ now, c = .acquire host workspaceID now

def Releases (host workspaceID : String) (c : LeaseCall) : Prop := c = .release host workspaceID

end LeaseCall

namespace LeaseManager

def after (calls : List LeaseCall) : LeaseManager := calls.foldl LeaseCall.run .empty

/-- The workspace has acquired the host and not released it since. -/
def Holds (calls : List LeaseCall) (host workspaceID : String) : Prop :=
  Since (LeaseCall.Acquires host workspaceID) (LeaseCall.Releases host workspaceID) calls

/-- Every holder is counted, and a call ends no lease of another workspace than its own. -/
structure Counted (calls : List LeaseCall) : Prop where
  hosts : ∀ host, ((after calls).get host).isSome ↔ ∃ workspaceID, Holds calls host workspaceID
  workspaces : ∀ workspaceID, (after calls).hasWorkspace workspaceID ↔ ∃ host, Holds calls host workspaceID
  unaffected : Throughout (fun before newest => ∀ host workspaceID, workspaceID ≠ newest.workspaceID →
    (after before).holder host = some workspaceID →
    (after (before ++ [newest])).holder host = some workspaceID) calls

/-- A host is acquired only by a workspace that no other workspace shares it with. -/
def Alone (before : List LeaseCall) : LeaseCall → Prop
  | .acquire host workspaceID _ => ∀ other, Holds before host other → other = workspaceID
  | .release _ _ => True

theorem after_concat (calls : List LeaseCall) (newest : LeaseCall) :
    after (calls ++ [newest]) = newest.run (after calls) := by
  simp only [after, List.foldl_append, List.foldl_cons, List.foldl_nil]

theorem holder_run_acquire (leases : LeaseManager) (host workspaceID : String) (now : Nat) :
    holder (LeaseCall.run leases (.acquire host workspaceID now)) =
      Function.update leases.holder host (some workspaceID) :=
  holder_set leases host ⟨host, workspaceID, .shared, now⟩

theorem hasWorkspace_iff {leases : LeaseManager} {workspaceID : String} :
    leases.hasWorkspace workspaceID ↔ ∃ host, leases.holder host = some workspaceID := by
  simp only [hasWorkspace, List.any_eq_true, OrderedMap.mem_values, decide_eq_true_eq, holder,
    Option.map_eq_some_iff]
  constructor
  · rintro ⟨lease, ⟨host, found⟩, own⟩
    exact ⟨host, lease, found, own⟩
  · rintro ⟨host, lease, found, own⟩
    exact ⟨lease, ⟨host, found⟩, own⟩

theorem isSome_get_iff {leases : LeaseManager} {host : String} :
    (leases.get host).isSome ↔ ∃ workspaceID, leases.holder host = some workspaceID := by
  simp only [holder, Option.isSome_iff_exists, Option.map_eq_some_iff]
  constructor
  · rintro ⟨lease, found⟩
    exact ⟨_, lease, found, rfl⟩
  · rintro ⟨_, lease, found, -⟩
    exact ⟨lease, found⟩

theorem holds_acquire {calls : List LeaseCall} {host workspaceID other holder : String} {now : Nat} :
    Holds (calls ++ [.acquire host workspaceID now]) other holder ↔
      other = host ∧ holder = workspaceID ∨ Holds calls other holder := by
  simp only [Holds, since_concat, LeaseCall.Acquires, LeaseCall.Releases, LeaseCall.acquire.injEq,
    reduceCtorEq, not_false_eq_true, and_true, exists_and_left]
  grind

theorem holds_release {calls : List LeaseCall} {host workspaceID other holder : String} :
    Holds (calls ++ [.release host workspaceID]) other holder ↔
      Holds calls other holder ∧ ¬(other = host ∧ holder = workspaceID) := by
  simp only [Holds, since_concat, LeaseCall.Acquires, LeaseCall.Releases, LeaseCall.release.injEq,
    reduceCtorEq, exists_false, false_or]
  grind

/-- As long as no host is shared, its record names its one holder. -/
theorem holder_after {calls : List LeaseCall} (alone : Throughout Alone calls) (host workspaceID : String) :
    (after calls).holder host = some workspaceID ↔ Holds calls host workspaceID := by
  induction calls using List.reverseRecOn generalizing host workspaceID with
  | nil => exact iff_of_false (by simp [after, holder]) since_nil
  | append_singleton calls newest ih =>
      obtain ⟨before, last⟩ := throughout_concat.mp alone
      have known := ih before
      cases newest with
      | acquire taken taker now =>
          rw [after_concat, holder_run_acquire, holds_acquire]
          by_cases same : host = taken
          · subst same
            have single : Holds calls host workspaceID → workspaceID = taker := last workspaceID
            rw [Function.update_self]
            grind
          · rw [Function.update_of_ne same, known]
            grind
      | release given giver =>
          rw [after_concat, holds_release, ← known]
          simp only [LeaseCall.run, holder_release]
          split
          · by_cases same : host = given
            · subst same
              rw [Function.update_self]
              grind
            · rw [Function.update_of_ne same]
              grind
          · grind

/-- Every holder is counted exactly if no workspace acquires a host while another one holds it. -/
theorem counted_iff_alone (calls : List LeaseCall) : Counted calls ↔ Throughout Alone calls := by
  constructor
  · intro counted
    have unaffected := counted.unaffected
    clear counted
    induction calls using List.reverseRecOn with
    | nil => exact throughout_nil _
    | append_singleton calls newest ih =>
        obtain ⟨before, last⟩ := throughout_concat.mp unaffected
        have alone := ih before
        refine throughout_concat.mpr ⟨alone, ?_⟩
        cases newest with
        | release host workspaceID => trivial
        | acquire host workspaceID now =>
            intro other holds
            by_contra different
            -- the record of the host is overwritten
            have kept := last host other different ((holder_after alone host other).mpr holds)
            rw [after_concat, holder_run_acquire, Function.update_self] at kept
            exact different (Option.some.inj kept).symm
  · intro alone
    refine ⟨fun host => ?_, fun workspaceID => ?_, ?_⟩
    · simp only [isSome_get_iff, holder_after alone]
    · simp only [hasWorkspace_iff, holder_after alone]
    · intro before newest rest split host workspaceID different held
      rw [split] at alone
      have whole : Throughout Alone (before ++ [newest]) := by
        intro earlier event later cut
        exact alone earlier event (later ++ rest) (by rw [← List.cons_append, ← List.append_assoc, ← cut]; simp)
      obtain ⟨start, last⟩ := throughout_concat.mp whole
      rw [holder_after whole]
      have holds := (holder_after start host workspaceID).mp held
      cases newest with
      | acquire taken taker now => exact holds_acquire.mpr (.inr holds)
      | release given giver => exact holds_release.mpr ⟨holds, fun own => different own.2⟩

/-- Two workspaces acquire a host and the second one releases it. -/
theorem not_counted_after_sharing :
    ¬Counted [.acquire "web" "w" 1, .acquire "web" "v" 2, .release "web" "v"] := by
  intro counted
  have holds : Holds [.acquire "web" "w" 1, .acquire "web" "v" 2, .release "web" "v"] "web" "w" := by
    refine ⟨[], _, _, rfl, ⟨1, rfl⟩, ?_⟩
    simp [LeaseCall.Releases]
  have found := (counted.hosts "web").mpr ⟨"w", holds⟩
  revert found
  decide

end LeaseManager

end OpencodeRemote.Plugin
