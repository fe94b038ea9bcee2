import Mathlib.Data.List.Induction
import OpencodeRemote.Plugin.Leases

/-! # Bindings of workspaces to hosts

`RuntimeState` is the map of bindings under their workspace ids, which the structure makes
sure of. A binding is a value here; the source changes one of its fields in place, the
session id, each time right before it stores the object again.

What the exclusivity results need of the state is `uses`, the host that a workspace is bound to.
-/

namespace OpencodeRemote.Plugin

open Data

inductive BindingStatus where
  | creating
  | ready
  | failed
  | removed
  deriving DecidableEq

structure WorkspaceBinding where
  workspaceID : String
  provider : String
  host : String
  remotePort : Nat
  localPort : Int
  token : String
  leaseMode : LeaseMode
  status : BindingStatus
  tunnelPID : Option Nat
  sessionID : Option String
  deriving DecidableEq

structure RuntimeState where
  bindings : OrderedMap String WorkspaceBinding
  keyed : ∀ workspaceID binding,
    bindings.get workspaceID = some binding → binding.workspaceID = workspaceID
  deriving DecidableEq

namespace RuntimeState

def empty : RuntimeState := ⟨.empty, fun _ _ found => by cases found⟩

def set (state : RuntimeState) (binding : WorkspaceBinding) : RuntimeState :=
  ⟨state.bindings.set binding.workspaceID binding, fun workspaceID other found => by
    rw [OrderedMap.get_set] at found
    split at found
    · rename_i same
      cases found
      exact same.symm
    · exact state.keyed workspaceID other found⟩

def get (state : RuntimeState) (workspaceID : String) : Option WorkspaceBinding :=
  state.bindings.get workspaceID

def delete (state : RuntimeState) (workspaceID : String) : RuntimeState :=
  ⟨state.bindings.erase workspaceID, fun other binding found => by
    rw [OrderedMap.get_erase] at found
    split at found
    · cases found
    · exact state.keyed other binding found⟩

def list (state : RuntimeState) : List WorkspaceBinding := state.bindings.values

def replace (state : RuntimeState) (binding : WorkspaceBinding) : RuntimeState := state.set binding

/-- The constructor, from what the state file parses to; an entry without a workspace id,
    provider, host or token is left out. -/
def load (parsed : List WorkspaceBinding) : RuntimeState :=
  parsed.foldl (fun state binding =>
    if binding.workspaceID = "" ∨ binding.provider = "" ∨ binding.host = "" ∨ binding.token = "" then
      state
    else state.set binding) empty

theorem get_set (state : RuntimeState) (binding : WorkspaceBinding) (workspaceID : String) :
    (state.set binding).get workspaceID =
      if workspaceID = binding.workspaceID then some binding else state.get workspaceID :=
  OrderedMap.get_set state.bindings binding.workspaceID workspaceID binding

theorem get_delete (state : RuntimeState) (workspaceID other : String) :
    (state.delete workspaceID).get other = if other = workspaceID then none else state.get other :=
  OrderedMap.get_erase state.bindings workspaceID other

theorem get_empty (workspaceID : String) : empty.get workspaceID = none := rfl

theorem mem_list {state : RuntimeState} {binding : WorkspaceBinding} :
    binding ∈ state.list ↔ state.get binding.workspaceID = some binding := by
  constructor
  · intro member
    obtain ⟨workspaceID, found⟩ := OrderedMap.mem_values.mp member
    exact state.keyed workspaceID binding found ▸ found
  · intro found
    exact OrderedMap.mem_values.mpr ⟨_, found⟩

theorem list_distinct (state : RuntimeState) : (state.list.map WorkspaceBinding.workspaceID).Nodup := by
  have keys : state.list.map WorkspaceBinding.workspaceID = state.bindings.keys := by
    simp only [list, OrderedMap.values, OrderedMap.keys, List.map_map]
    apply List.map_congr_left
    intro entry member
    exact state.keyed entry.1 entry.2 (OrderedMap.mem_entries.mp member)
  exact keys ▸ state.bindings.keysNodup

/-! ## The order of the bindings -/

theorem entries_eq (state : RuntimeState) :
    state.bindings.entries = state.list.map fun binding => (binding.workspaceID, binding) := by
  simp only [list, OrderedMap.values, List.map_map]
  refine (List.map_id _).symm.trans (List.map_congr_left fun entry member => ?_)
  exact Prod.ext (state.keyed entry.1 entry.2 (OrderedMap.mem_entries.mp member)).symm rfl

theorem list_set_of_fresh {state : RuntimeState} {binding : WorkspaceBinding}
    (fresh : binding.workspaceID ∉ state.list.map WorkspaceBinding.workspaceID) :
    (state.set binding).list = state.list ++ [binding] := by
  have absent : binding.workspaceID ∉ state.bindings.keys := by
    simpa [OrderedMap.keys, entries_eq] using fresh
  simp [set, list, OrderedMap.values, OrderedMap.entries_set_of_fresh absent]

private theorem entries_split {state : RuntimeState} {old : WorkspaceBinding}
    {front back : List WorkspaceBinding} (split : state.list = front ++ old :: back) :
    state.bindings.entries = front.map (fun binding => (binding.workspaceID, binding)) ++
      (old.workspaceID, old) :: back.map fun binding => (binding.workspaceID, binding) := by
  rw [entries_eq, split, List.map_append, List.map_cons]

/-- The new binding stands where the one of its workspace stood. -/
theorem list_replace {state : RuntimeState} {old binding : WorkspaceBinding}
    {front back : List WorkspaceBinding} (split : state.list = front ++ old :: back)
    (same : binding.workspaceID = old.workspaceID) :
    (state.replace binding).list = front ++ binding :: back := by
  have written := OrderedMap.entries_set_of_split (v := binding) (same ▸ entries_split split)
  simp [replace, set, list, OrderedMap.values, written, Function.comp_def]

theorem list_delete {state : RuntimeState} {old : WorkspaceBinding} {front back : List WorkspaceBinding}
    (split : state.list = front ++ old :: back) :
    (state.delete old.workspaceID).list = front ++ back := by
  simp [delete, list, OrderedMap.values, OrderedMap.entries_erase_of_split (entries_split split),
    Function.comp_def]

/-- An entry of the state file that is taken over. -/
def WellFormed (binding : WorkspaceBinding) : Prop :=
  binding.workspaceID ≠ "" ∧ binding.provider ≠ "" ∧ binding.host ≠ "" ∧ binding.token ≠ ""

instance (binding : WorkspaceBinding) : Decidable (WellFormed binding) := inferInstanceAs (Decidable (_ ∧ _))

/-- What is read from a file with one entry for each workspace stands in the file's order. -/
theorem list_load {parsed : List WorkspaceBinding}
    (distinct : (parsed.map WorkspaceBinding.workspaceID).Nodup) :
    (load parsed).list = parsed.filter WellFormed := by
  induction parsed using List.reverseRecOn with
  | nil => rfl
  | append_singleton earlier binding ih =>
      rw [List.map_append] at distinct
      obtain ⟨before, -, apart⟩ := List.nodup_append.mp distinct
      have loaded := ih before
      rw [load, List.foldl_append, List.filter_append, ← loaded]
      by_cases stored : WellFormed binding
      · have fresh : binding.workspaceID ∉ (load earlier).list.map WorkspaceBinding.workspaceID := by
          rw [loaded]
          intro member
          obtain ⟨other, kept, same⟩ := List.mem_map.mp member
          exact apart other.workspaceID (List.mem_map_of_mem (List.mem_filter.mp kept).1)
            binding.workspaceID (List.mem_singleton_self _) same
        have taken : ¬(binding.workspaceID = "" ∨ binding.provider = "" ∨ binding.host = "" ∨
            binding.token = "") := by simpa [WellFormed] using stored
        simp only [List.foldl_cons, List.foldl_nil, if_neg taken]
        rw [← load, list_set_of_fresh fresh]
        simp [stored]
      · have left : binding.workspaceID = "" ∨ binding.provider = "" ∨ binding.host = "" ∨
            binding.token = "" := by
          simp only [WellFormed, ne_eq, not_and_or, not_not] at stored
          exact stored
        simp only [List.foldl_cons, List.foldl_nil, if_pos left]
        rw [← load]
        simp [stored]

/-- The host that a workspace is bound to. -/
def uses (state : RuntimeState) (workspaceID : String) : Option String :=
  (state.get workspaceID).map WorkspaceBinding.host

theorem uses_set (state : RuntimeState) (binding : WorkspaceBinding) :
    (state.set binding).uses = Function.update state.uses binding.workspaceID (some binding.host) := by
  funext workspaceID
  by_cases same : workspaceID = binding.workspaceID
  · subst same
    simp [uses, get_set]
  · simp [uses, get_set, same]

theorem uses_delete (state : RuntimeState) (workspaceID : String) :
    (state.delete workspaceID).uses = Function.update state.uses workspaceID none := by
  funext other
  by_cases same : other = workspaceID
  · subst same
    simp [uses, get_delete]
  · simp [uses, get_delete, same]

end RuntimeState

end OpencodeRemote.Plugin
