import OpencodeRemote.Data.JSONFields
import OpencodeRemote.Plugin.State

/-! # The state file

Each call that changes a `RuntimeState` writes the whole list of bindings to one file, over
what was there. The process may die at any point of a call; the next one starts from what
the file holds then.
-/

namespace OpencodeRemote.Plugin

open Data JSON

/-! ## Bindings in JSON -/

def LeaseMode.text : LeaseMode → String
  | .exclusive => "exclusive"
  | .shared => "shared"

def LeaseMode.ofText (s : String) : Option LeaseMode :=
  if s = "exclusive" then some .exclusive else if s = "shared" then some .shared else none

def BindingStatus.text : BindingStatus → String
  | .creating => "creating"
  | .ready => "ready"
  | .failed => "failed"
  | .removed => "removed"

def BindingStatus.ofText (s : String) : Option BindingStatus :=
  if s = "creating" then some .creating
  else if s = "ready" then some .ready
  else if s = "failed" then some .failed
  else if s = "removed" then some .removed
  else none

/-- A property that is `undefined` is left out. -/
def optional {α : Type} (key : String) (f : α → JSON) : Option α → List (Bytes × JSON)
  | some a => [(bytes key, f a)]
  | none => []

namespace WorkspaceBinding

def toJSON (binding : WorkspaceBinding) : JSON :=
  .obj ([(bytes "workspaceID", ofString binding.workspaceID),
      (bytes "provider", ofString binding.provider),
      (bytes "host", ofString binding.host),
      (bytes "remotePort", ofInt binding.remotePort),
      (bytes "localPort", ofInt binding.localPort),
      (bytes "token", ofString binding.token),
      (bytes "leaseMode", ofString binding.leaseMode.text),
      (bytes "status", ofString binding.status.text)] ++
    optional "tunnelPID" (fun pid : Nat => ofInt pid) binding.tunnelPID ++
    optional "sessionID" ofString binding.sessionID)

/-- A property that may be missing, or else has to be of its type. -/
def property {α : Type} (fields : List (Bytes × JSON)) (key : String) (f : JSON → Option α) : Option (Option α) :=
  match lookup fields (bytes key) with
  | some v => (f v).map some
  | none => some none

/-- An entry of the file as a binding; one whose properties are of other types is none. -/
def ofJSON : JSON → Option WorkspaceBinding
  | .obj fields => do
      let text (key : String) : Option String := (lookup fields (bytes key)).bind toString?
      let number (key : String) : Option Int := (lookup fields (bytes key)).bind toInt?
      let workspaceID ← text "workspaceID"
      let provider ← text "provider"
      let host ← text "host"
      let remotePort ← number "remotePort"
      let localPort ← number "localPort"
      let token ← text "token"
      let leaseMode ← (text "leaseMode").bind LeaseMode.ofText
      let status ← (text "status").bind BindingStatus.ofText
      let tunnelPID ← property fields "tunnelPID" toInt?
      let sessionID ← property fields "sessionID" toString?
      return ⟨workspaceID, provider, host, remotePort.toNat, localPort, token, leaseMode, status,
        tunnelPID.map Int.toNat, sessionID⟩
  | _ => none

theorem ofText_text (mode : LeaseMode) : LeaseMode.ofText mode.text = some mode := by
  cases mode <;> decide

theorem ofText_text' (status : BindingStatus) : BindingStatus.ofText status.text = some status := by
  cases status <;> decide

theorem ofJSON_toJSON (binding : WorkspaceBinding) : ofJSON binding.toJSON = some binding := by
  obtain ⟨workspaceID, provider, host, remotePort, localPort, token, leaseMode, status, tunnelPID, sessionID⟩ := binding
  cases tunnelPID <;> cases sessionID <;>
    simp [toJSON, ofJSON, optional, property, lookup, ofText_text, ofText_text']

end WorkspaceBinding

/-! ## Saving and loading -/

namespace RuntimeState

/-- What `save` writes. -/
def save (state : RuntimeState) : Bytes := stringify (.arr (state.list.map WorkspaceBinding.toJSON))

/-- The constructor, from the state file if there is one. -/
def construct : Option Bytes → RuntimeState
  | none => empty
  | some text =>
      match parse text with
      | some (.arr items) => load (items.filterMap WorkspaceBinding.ofJSON)
      | _ => empty

theorem list_construct_save {state : RuntimeState} (wellFormed : ∀ binding ∈ state.list, WellFormed binding) :
    (construct (some state.save)).list = state.list := by
  have back : (state.list.map WorkspaceBinding.toJSON).filterMap WorkspaceBinding.ofJSON = state.list := by
    have same : WorkspaceBinding.ofJSON ∘ WorkspaceBinding.toJSON = some := funext WorkspaceBinding.ofJSON_toJSON
    rw [List.filterMap_map, same, List.filterMap_some]
  rw [construct, save, parse_stringify]
  simp only [back]
  rw [list_load state.list_distinct]
  exact List.filter_eq_self.mpr fun binding member => decide_eq_true (wellFormed binding member)

theorem save_length_pos (state : RuntimeState) : 0 < state.save.length := by
  rw [save, stringify]
  cases state.list.map WorkspaceBinding.toJSON with
  | nil => decide
  | cons v items =>
      rw [print]
      exact Nat.succ_pos _

/-- A file that ends before the closing bracket is as good as none. -/
theorem construct_take {state : RuntimeState} {n : Nat} (short : n < state.save.length) :
    construct (some (state.save.take n)) = empty := by
  rw [construct]
  split
  · rename_i items array
    exact absurd array (parse_take short)
  · rfl

end RuntimeState

open RuntimeState

/-- A call that saves. -/
inductive StateCall where
  | set (binding : WorkspaceBinding)
  | replace (binding : WorkspaceBinding)
  | delete (workspaceID : String)

namespace StateCall

def run (state : RuntimeState) : StateCall → RuntimeState
  | .set binding => state.set binding
  | .replace binding => state.replace binding
  | .delete workspaceID => state.delete workspaceID

def WellFormed : StateCall → Prop
  | .set binding | .replace binding => RuntimeState.WellFormed binding
  | .delete _ => True

end StateCall

/-- A process, from the file that it finds: the state in memory and the file. -/
def process (file : Option Bytes) (calls : List StateCall) : RuntimeState × Option Bytes :=
  calls.foldl (fun before call => (call.run before.1, some (call.run before.1).save)) (construct file, file)

/-- How far a `writeFileSync` has come: the file is as it was, or it has been truncated and
    the last `missing` bytes are still to be written. -/
inductive Progress where
  | untouched
  | unwritten (missing : Nat)

/-- Where the process dies. -/
inductive Death where
  | between
  | within (call : StateCall) (progress : Progress)

/-- The file that is left. -/
def Death.file (before : RuntimeState × Option Bytes) : Death → Option Bytes
  | .within call (.unwritten missing) =>
      let text := (call.run before.1).save
      some (text.take (text.length - missing))
  | _ => before.2

/-- The next process has the bindings from before the call, or those from behind it. -/
def Durable (before : RuntimeState × Option Bytes) (death : Death) : Prop :=
  (construct (death.file before)).list = before.1.list ∨
    ∃ call progress, death = .within call progress ∧ (construct (death.file before)).list = (call.run before.1).list

/-- The process does not die while the file is open, or there is nothing to be lost. -/
def Spared (before : RuntimeState × Option Bytes) : Death → Prop
  | .within call (.unwritten missing) =>
      missing = 0 ∨ before.1.list = [] ∨
        ∃ workspaceID, call = .delete workspaceID ∧ ∀ binding ∈ before.1.list, binding.workspaceID = workspaceID
  | _ => True

theorem wellFormed_run {state : RuntimeState} (stored : ∀ binding ∈ state.list, WellFormed binding)
    {call : StateCall} (wellFormed : call.WellFormed) : ∀ binding ∈ (call.run state).list, WellFormed binding := by
  intro binding member
  rw [mem_list] at member
  cases call with
  | set new | replace new =>
      change (state.set new).get binding.workspaceID = some binding at member
      rw [get_set] at member
      split at member
      · cases member
        exact wellFormed
      · exact stored binding (mem_list.mpr member)
  | delete workspaceID =>
      change (state.delete workspaceID).get binding.workspaceID = some binding at member
      rw [get_delete] at member
      split at member
      · cases member
      · exact stored binding (mem_list.mpr member)

theorem wellFormed_load (parsed : List WorkspaceBinding) : ∀ binding ∈ (load parsed).list, WellFormed binding := by
  induction parsed using List.reverseRecOn with
  | nil => exact fun binding member => absurd member List.not_mem_nil
  | append_singleton earlier binding ih =>
      rw [load, List.foldl_append, List.foldl_cons, List.foldl_nil, ← load]
      split
      · exact ih
      · rename_i whole
        simp only [not_or] at whole
        have wellFormed : (StateCall.set binding).WellFormed := whole
        exact wellFormed_run ih wellFormed

theorem wellFormed_construct (file : Option Bytes) : ∀ binding ∈ (construct file).list, WellFormed binding := by
  unfold construct
  split
  · exact fun binding member => absurd member List.not_mem_nil
  · split
    · exact wellFormed_load _
    · exact fun binding member => absurd member List.not_mem_nil

/-- Between calls the file holds what is in memory. -/
theorem process_settled (file : Option Bytes) {calls : List StateCall} (wellFormed : ∀ call ∈ calls, call.WellFormed) :
    (∀ binding ∈ (process file calls).1.list, WellFormed binding) ∧
      (construct (process file calls).2).list = (process file calls).1.list := by
  induction calls using List.reverseRecOn with
  | nil => exact ⟨wellFormed_construct file, rfl⟩
  | append_singleton calls call ih =>
      obtain ⟨stored, -⟩ := ih fun earlier member => wellFormed earlier (List.mem_append_left _ member)
      have last : call.WellFormed := wellFormed call (by simp)
      rw [process, List.foldl_append, List.foldl_cons, List.foldl_nil, ← process]
      have stored' := wellFormed_run stored last
      exact ⟨stored', list_construct_save stored'⟩

/-- A call leaves no bindings only if it deletes the last one. -/
theorem list_run_eq_nil {state : RuntimeState} {call : StateCall} : (call.run state).list = [] ↔
    ∃ workspaceID, call = .delete workspaceID ∧ ∀ binding ∈ state.list, binding.workspaceID = workspaceID := by
  cases call with
  | set binding | replace binding =>
      have there : binding ∈ (state.set binding).list := mem_list.mpr (by rw [get_set, if_pos rfl])
      simp only [StateCall.run, replace, reduceCtorEq, false_and, exists_false, iff_false]
      exact List.ne_nil_of_mem there
  | delete workspaceID =>
      simp only [StateCall.run, StateCall.delete.injEq, exists_eq_left', List.eq_nil_iff_forall_not_mem]
      constructor
      · intro none binding member
        by_contra other
        refine none binding (mem_list.mpr ?_)
        rw [get_delete, if_neg other]
        exact mem_list.mp member
      · intro all binding member
        rw [mem_list, get_delete] at member
        split at member
        · cases member
        · rename_i other
          exact other (all binding (mem_list.mpr member))

/-- A write that is cut short leaves nothing that can be read. -/
theorem construct_cut (before : RuntimeState × Option Bytes) (call : StateCall) {missing : Nat}
    (cut : missing ≠ 0) : construct (Death.file before (.within call (.unwritten missing))) = empty := by
  have text := save_length_pos (call.run before.1)
  exact construct_take (by omega)

/-- The bindings survive exactly where no write is cut short, unless there are none to lose. -/
theorem durable_iff_spared (file : Option Bytes) {calls : List StateCall} {death : Death}
    (wellFormed : ∀ call ∈ calls, call.WellFormed)
    (last : ∀ call progress, death = .within call progress → call.WellFormed) :
    Durable (process file calls) death ↔ Spared (process file calls) death := by
  obtain ⟨stored, settled⟩ := process_settled file wellFormed
  generalize process file calls = before at stored settled
  cases death with
  | between => exact iff_of_true (.inl settled) trivial
  | within call progress =>
      cases progress with
      | untouched => exact iff_of_true (.inl settled) trivial
      | unwritten missing =>
          have new := wellFormed_run stored (last call _ rfl)
          by_cases whole : missing = 0
          · subst whole
            refine iff_of_true (.inr ⟨call, _, rfl, ?_⟩) (.inl rfl)
            simp only [Death.file, Nat.sub_zero, List.take_length]
            exact list_construct_save new
          · have none : empty.list = [] := rfl
            simp only [Durable, Spared, construct_cut before call whole, none, whole, false_or, ← list_run_eq_nil]
            constructor
            · rintro (old | ⟨call', progress', same, after⟩)
              · exact .inl old.symm
              · cases same
                exact .inr after.symm
            · rintro (old | after)
              · exact .inl old.symm
              · exact .inr ⟨call, _, rfl, after.symm⟩

/-- The process is killed between two calls. -/
theorem durable_of_killed_between :
    Durable (process none [.set ⟨"w", "p", "h", 7, 8, "t", .exclusive, .ready, none, none⟩]) .between :=
  (durable_iff_spared none (by simp [StateCall.WellFormed, RuntimeState.WellFormed]) (by simp)).mpr trivial

/-- The process is killed in its second call, with the last byte still to be written. -/
theorem not_durable_of_killed_writing :
    ¬Durable (process none [.set ⟨"w", "p", "h", 7, 8, "t", .exclusive, .ready, none, none⟩])
      (.within (.set ⟨"v", "p", "h", 7, 9, "t", .shared, .ready, none, none⟩) (.unwritten 1)) := by
  have lost : ∀ before call, (construct (Death.file before (.within call (.unwritten 1)))).list = [] :=
    fun before call => by rw [construct_cut before call (by omega)]; rfl
  rintro (old | ⟨call, progress, same, after⟩)
  · rw [lost] at old
    cases old
  · cases same
    rw [lost] at after
    cases after

end OpencodeRemote.Plugin
