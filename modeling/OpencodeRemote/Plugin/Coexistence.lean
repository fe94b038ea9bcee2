import OpencodeRemote.Data.Since
import OpencodeRemote.Plugin.State

/-! # Several processes on one state file

A `RuntimeState` reads the state file when it is built, and each later save writes its own
map over whatever the file has by then. The measure is a single map, `latest`, on which all
calls of all objects are made.
-/

namespace OpencodeRemote.Plugin

open Data

/-- A call that ends in `save`. -/
inductive SaveCall where
  | set (binding : WorkspaceBinding)
  | replace (binding : WorkspaceBinding)
  | delete (workspaceID : String)
  deriving DecidableEq

namespace SaveCall

def apply (state : RuntimeState) : SaveCall → RuntimeState
  | .set binding => state.set binding
  | .replace binding => state.replace binding
  | .delete workspaceID => state.delete workspaceID

/-- The workspace it is about. -/
def workspaceID : SaveCall → String
  | .set binding => binding.workspaceID
  | .replace binding => binding.workspaceID
  | .delete workspaceID => workspaceID

/-- What there is of this workspace afterwards. -/
def written : SaveCall → Option WorkspaceBinding
  | .set binding => some binding
  | .replace binding => some binding
  | .delete _ => none

theorem get_apply (state : RuntimeState) (c : SaveCall) (workspaceID : String) :
    (c.apply state).get workspaceID =
      if workspaceID = c.workspaceID then c.written else state.get workspaceID := by
  cases c with
  | set binding => exact state.get_set binding workspaceID
  | replace binding => exact state.get_set binding workspaceID
  | delete deleted => exact state.get_delete deleted workspaceID

theorem workspaceID_of_written {c : SaveCall} {binding : WorkspaceBinding}
    (written : c.written = some binding) : binding.workspaceID = c.workspaceID := by
  cases c <;> cases written <;> rfl

end SaveCall

inductive ProcessEvent (ι : Type) where
  | construct (object : ι)
  | call (object : ι) (c : SaveCall)
  deriving DecidableEq

/-- The file is the list of bindings that it parses to; one that is missing or cannot be
    parsed counts as empty. `latest` is not part of the program. -/
structure Shared (ι : Type) where
  file : List WorkspaceBinding
  objects : ι → Option RuntimeState
  latest : String → Option WorkspaceBinding

namespace Shared

variable {ι : Type} [DecidableEq ι]

def step (w : Shared ι) : ProcessEvent ι → Shared ι
  | .construct object => { w with objects := Function.update w.objects object (some (.load w.file)) }
  | .call object c =>
      match w.objects object with
      -- nobody can call an object before it is built
      | none => w
      | some state =>
          { file := (c.apply state).list
            objects := Function.update w.objects object (some (c.apply state))
            latest := Function.update w.latest c.workspaceID c.written }

def after (file : List WorkspaceBinding) (events : List (ProcessEvent ι)) : Shared ι :=
  events.foldl step ⟨file, fun _ => none, fun _ => none⟩

/-- The file has every binding that was set and not deleted since, with its latest value. -/
def Retained (w : Shared ι) : Prop :=
  ∀ workspaceID binding, w.latest workspaceID = some binding → binding ∈ w.file

/-- After every call the file has what it should have. -/
def Durable (file : List WorkspaceBinding) : List (ProcessEvent ι) → Prop :=
  Throughout fun before newest => ∀ object c, newest = .call object c →
    ((after file before).objects object).isSome → Retained (after file (before ++ [newest]))

/-- The object knows all that is to be kept, except for the binding that the call is about. -/
def Informed (w : Shared ι) (object : ι) (c : SaveCall) : Prop :=
  ∀ state, w.objects object = some state → ∀ workspaceID binding, workspaceID ≠ c.workspaceID →
    w.latest workspaceID = some binding → state.get workspaceID = some binding

theorem after_concat (file : List WorkspaceBinding) (events : List (ProcessEvent ι))
    (newest : ProcessEvent ι) : after file (events ++ [newest]) = (after file events).step newest := by
  simp only [after, List.foldl_append, List.foldl_cons, List.foldl_nil]

theorem latest_keyed (file : List WorkspaceBinding) (events : List (ProcessEvent ι))
    (workspaceID : String) (binding : WorkspaceBinding)
    (found : (after file events).latest workspaceID = some binding) : binding.workspaceID = workspaceID := by
  induction events using List.reverseRecOn with
  | nil => cases found
  | append_singleton events newest ih =>
      rw [after_concat] at found
      cases newest with
      | construct object => exact ih found
      | call object c =>
          cases built : (after file events).objects object with
          | none =>
              simp only [step, built] at found
              exact ih found
          | some state =>
              simp only [step, built] at found
              by_cases same : workspaceID = c.workspaceID
              · rw [same, Function.update_self] at found
                exact (SaveCall.workspaceID_of_written found).trans same.symm
              · rw [Function.update_of_ne same] at found
                exact ih found

/-- One call leaves a right file exactly if its object was informed, whatever the file was. -/
theorem retained_call_iff {w : Shared ι} (keyed : ∀ workspaceID binding,
      w.latest workspaceID = some binding → binding.workspaceID = workspaceID)
    {object : ι} (c : SaveCall) {state : RuntimeState} (built : w.objects object = some state) :
    Retained (w.step (.call object c)) ↔ Informed w object c := by
  simp only [Retained, step, built, Informed, Option.some.injEq, forall_eq', RuntimeState.mem_list,
    SaveCall.get_apply]
  constructor
  · intro retained workspaceID binding different found
    have kept := retained workspaceID binding (by rw [Function.update_of_ne different, found])
    rwa [keyed workspaceID binding found, if_neg different] at kept
  · intro informed workspaceID binding found
    by_cases same : workspaceID = c.workspaceID
    · rw [same, Function.update_self] at found
      rw [if_pos (SaveCall.workspaceID_of_written found), found]
    · rw [Function.update_of_ne same] at found
      rw [keyed workspaceID binding found, if_neg same, informed workspaceID binding same found]

/-- No binding is ever lost exactly if every call is made on an object that knows all the others. -/
theorem durable_iff_informed (file : List WorkspaceBinding) (events : List (ProcessEvent ι)) :
    Durable file events ↔ Throughout (fun before newest => ∀ object c, newest = .call object c →
      Informed (after file before) object c) events := by
  have step_iff : ∀ (before : List (ProcessEvent ι)) object c, ((after file before).objects object).isSome →
      (Retained (after file (before ++ [.call object c])) ↔ Informed (after file before) object c) := by
    intro before object c built
    obtain ⟨state, built⟩ := Option.isSome_iff_exists.mp built
    rw [after_concat]
    exact retained_call_iff (latest_keyed file before) c built
  constructor
  · intro durable before newest rest split object c same state built
    have known := Option.isSome_of_eq_some built
    have retained := durable before newest rest split object c same known
    rw [same] at retained
    exact (step_iff before object c known).mp retained state built
  · intro informed before newest rest split object c same known
    rw [same]
    exact (step_iff before object c known).mpr (informed before newest rest split object c same)

/-! ## One process after the other -/

/-- The object was built and no other one has been called since. -/
def Undisturbed (events : List (ProcessEvent ι)) (object : ι) : Prop :=
  Since (· = .construct object) (fun event => ∃ other c, event = .call other c ∧ other ≠ object) events

/-- A process saves only as long as it is the last one that was started. -/
def Handover : List (ProcessEvent ι) → Prop :=
  Throughout fun before newest => ∀ object c, newest = .call object c → Undisturbed before object

/-- Nothing is set that a later process would not read. -/
def Readable : ProcessEvent ι → Prop
  | .construct _ => True
  | .call _ c => ∀ binding, c.written = some binding → RuntimeState.WellFormed binding

/-- A right file. It has one entry for each workspace once anything has been saved. -/
structure Orderly (w : Shared ι) : Prop where
  retained : Retained w
  readable : ∀ workspaceID binding, w.latest workspaceID = some binding → RuntimeState.WellFormed binding
  distinct : ∀ workspaceID binding, w.latest workspaceID = some binding →
    (w.file.map WorkspaceBinding.workspaceID).Nodup

/-- The object knows all that is to be kept. -/
def Knows (w : Shared ι) (object : ι) : Prop :=
  ∃ state, w.objects object = some state ∧
    ∀ workspaceID binding, w.latest workspaceID = some binding → state.get workspaceID = some binding

omit [DecidableEq ι] in
theorem get_load {w : Shared ι} (orderly : Orderly w) {workspaceID : String} {binding : WorkspaceBinding}
    (keyed : binding.workspaceID = workspaceID) (found : w.latest workspaceID = some binding) :
    (RuntimeState.load w.file).get workspaceID = some binding := by
  rw [← keyed, ← RuntimeState.mem_list, RuntimeState.list_load (orderly.distinct workspaceID binding found)]
  exact List.mem_filter.mpr ⟨orderly.retained workspaceID binding found,
    by simpa using orderly.readable workspaceID binding found⟩

omit [DecidableEq ι] in
theorem undisturbed_construct {events : List (ProcessEvent ι)} {object other : ι} :
    Undisturbed (events ++ [.construct object]) other ↔ object = other ∨ Undisturbed events other := by
  simp [Undisturbed, since_concat]

omit [DecidableEq ι] in
theorem undisturbed_call {events : List (ProcessEvent ι)} {object other : ι} {c : SaveCall} :
    Undisturbed (events ++ [.call object c]) other ↔ Undisturbed events other ∧ object = other := by
  simp [Undisturbed, since_concat]

/-- A call on an object that knows everything leaves it so. -/
theorem orderly_call {w : Shared ι} (orderly : Orderly w) (keyed : ∀ workspaceID binding,
      w.latest workspaceID = some binding → binding.workspaceID = workspaceID)
    {object : ι} (knows : Knows w object) {c : SaveCall} (readable : Readable (.call object c)) :
    Orderly (w.step (.call object c)) ∧ Knows (w.step (.call object c)) object := by
  obtain ⟨state, built, known⟩ := knows
  have informed : Informed w object c := by
    intro state' built' workspaceID binding _ found
    rw [built, Option.some.injEq] at built'
    exact built' ▸ known workspaceID binding found
  refine ⟨⟨(retained_call_iff keyed c built).mpr informed, ?_, ?_⟩, ?_⟩
  · intro workspaceID binding found
    simp only [step, built] at found
    by_cases same : workspaceID = c.workspaceID
    · rw [same, Function.update_self] at found
      exact readable binding found
    · rw [Function.update_of_ne same] at found
      exact orderly.readable workspaceID binding found
  · intro workspaceID binding _
    simp only [step, built]
    exact (c.apply state).list_distinct
  · refine ⟨c.apply state, by simp only [step, built, Function.update_self], ?_⟩
    intro workspaceID binding found
    simp only [step, built] at found
    rw [SaveCall.get_apply]
    by_cases same : workspaceID = c.workspaceID
    · rw [same, Function.update_self] at found
      rw [if_pos same, found]
    · rw [Function.update_of_ne same] at found
      rw [if_neg same, known workspaceID binding found]

/-- Every process is told what there is when it starts, if no other one is still at work. -/
theorem orderly_of_handover (file : List WorkspaceBinding) {events : List (ProcessEvent ι)}
    (readable : ∀ event ∈ events, Readable event) (handover : Handover events) :
    Orderly (after file events) ∧ ∀ object, Undisturbed events object → Knows (after file events) object := by
  induction events using List.reverseRecOn with
  | nil =>
      refine ⟨⟨?_, ?_, ?_⟩, fun object undisturbed => absurd undisturbed since_nil⟩ <;>
        · intro workspaceID binding found
          cases found
  | append_singleton events newest ih =>
      obtain ⟨before, last⟩ := throughout_concat.mp handover
      obtain ⟨orderly, knows⟩ := ih (fun event member => readable event (List.mem_append_left _ member)) before
      rw [after_concat]
      cases newest with
      | construct object =>
          refine ⟨⟨orderly.retained, orderly.readable, orderly.distinct⟩, fun other undisturbed => ?_⟩
          by_cases same : other = object
          · refine ⟨_, by rw [same]; exact Function.update_self .., ?_⟩
            intro workspaceID binding found
            exact get_load orderly (latest_keyed file events workspaceID binding found) found
          · obtain ⟨state, built, known⟩ :=
              knows other ((undisturbed_construct.mp undisturbed).resolve_left (Ne.symm same))
            exact ⟨state, by simp only [step, Function.update_of_ne same, built], known⟩
      | call object c =>
          obtain ⟨orderly', knows'⟩ := orderly_call orderly (latest_keyed file events)
            (knows object (last object c rfl)) (readable _ (List.mem_append_right _ (List.mem_singleton.mpr rfl)))
          exact ⟨orderly', fun other undisturbed => (undisturbed_call.mp undisturbed).2 ▸ knows'⟩

/-- Processes that follow one another lose nothing. -/
theorem durable_of_handover (file : List WorkspaceBinding) {events : List (ProcessEvent ι)}
    (readable : ∀ event ∈ events, Readable event) (handover : Handover events) : Durable file events := by
  apply (durable_iff_informed file events).mpr
  intro before newest rest split object c same state built workspaceID binding _ found
  have earlier : Handover before := by
    intro first event later cut
    exact handover first event (later ++ newest :: rest) (by rw [split, cut]; simp)
  obtain ⟨state', built', known⟩ := (orderly_of_handover file
    (fun event member => readable event (split ▸ List.mem_append_left _ member)) earlier).2 object
    (handover before newest rest split object c same)
  rw [built, Option.some.injEq] at built'
  exact built' ▸ known workspaceID binding found

def connection (workspaceID host : String) : WorkspaceBinding :=
  ⟨workspaceID, "lab", host, 39217, 39000, "token", .exclusive, .ready, none, none⟩

/-- Two processes start, and what the first one saves is gone when the second one saves. -/
theorem not_durable_of_two_writers :
    ¬Durable [] [.construct true, .construct false, .call true (.set (connection "w" "web")),
      .call false (.set (connection "v" "db"))] := by
  intro durable
  have retained := durable [_, _, _] _ [] rfl false (.set (connection "v" "db")) rfl rfl
  have kept := retained "w" (connection "w" "web") (by decide)
  revert kept
  decide

end Shared

end OpencodeRemote.Plugin
