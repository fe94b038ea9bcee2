import Mathlib.Data.List.Nodup
import Mathlib.Logic.Function.Basic
import OpencodeRemote.Stub.GoString

/-! # The event bus

`Publish` ranges over the listeners under a read lock and never waits for one of them;
`Subscribe` and `Unsubscribe` edit the slice in place under the write lock. A step is one
critical section of these two, one send of a `Publish`, its begin or its end, or one
receive of a listener. Calls and channels have names, which stand for their identity.
-/

namespace OpencodeRemote.Stub

/-- An event in a channel, with the call of `Publish` that it comes from. -/
structure Message (ι : Type) where
  call : ι
  data : GoString
  deriving DecidableEq

/-- A call of `Publish` that holds the read lock. Its loop is over the `upto` cells that
    the slice had at the start, and comes to cell `next`. -/
structure Publisher (ι : Type) where
  call : ι
  data : GoString
  next : Nat
  upto : Nat
  deriving DecidableEq

/-- What a channel holds, and what has been received from it. -/
structure Channel (ι : Type) where
  buffer : List (Message ι)
  received : List (Message ι)
  deriving DecidableEq

/-- `listeners` is a slice of `len` cells of a backing array. -/
structure EventBus (ι κ : Type) where
  cells : List κ
  len : Nat
  channels : κ → Option (Channel ι)
  publishers : List (Publisher ι)
  /-- The calls of `Publish` that have begun. -/
  started : List ι

inductive BusLabel (ι κ : Type) where
  | subscribe (channel : κ)
  | unsubscribe (channel : κ)
  | receive (channel : κ)
  /-- `Publish` takes the read lock; `payload` is what `json.Marshal` made of the event. -/
  | publish (call : ι) (eventType payload : GoString)
  | send (call : ι)
  | finish (call : ι)
  deriving DecidableEq

/-- The size of a listener's channel. -/
def capacity : Nat := 10

def Channel.new {ι : Type} : Channel ι := ⟨[], []⟩

/-- The send with a `default`: an event for which there is no room is dropped. -/
def Channel.offer {ι : Type} (c : Channel ι) (m : Message ι) : Channel ι :=
  if c.buffer.length < capacity then { c with buffer := c.buffer ++ [m] } else c

def eventText (eventType payload : GoString) : GoString :=
  lit "event: " ++ eventType ++ lit "\ndata: " ++ payload ++ lit "\n\n"

namespace EventBus

variable {ι κ : Type}

def empty : EventBus ι κ := ⟨[], 0, fun _ => none, [], []⟩

/-- The listeners there are. -/
def listeners (b : EventBus ι κ) : List κ := b.cells.take b.len

/-- `append(e.listeners, ch)`, in place as far as the array reaches. -/
def append (b : EventBus ι κ) (channel : κ) : EventBus ι κ :=
  { b with cells := b.cells.take b.len ++ channel :: b.cells.drop (b.len + 1), len := b.len + 1 }

/-- `append(e.listeners[:i], e.listeners[i+1:]...)` moves the cells behind `i` down by one
    and leaves the array as long as it is. -/
def removeAt (b : EventBus ι κ) (i : Nat) : EventBus ι κ :=
  { b with
    cells := b.cells.take i ++ (b.cells.take b.len).drop (i + 1) ++ b.cells.drop (b.len - 1)
    len := b.len - 1 }

/-- Everything that went into a channel, in order. -/
def stream (b : EventBus ι κ) (channel : κ) : List (Message ι) :=
  match b.channels channel with
  | some c => c.received ++ c.buffer
  | none => []

section Steps

variable [DecidableEq ι]

def publisher (b : EventBus ι κ) (call : ι) : Option (Publisher ι) :=
  b.publishers.find? fun x => x.call = call

/-- The channel that the call sends to next. -/
def target (b : EventBus ι κ) (call : ι) : Option κ :=
  (b.publisher call).bind fun x => if x.next < x.upto then b.cells[x.next]? else none

def advance (call : ι) (x : Publisher ι) : Publisher ι :=
  if x.call = call then { x with next := x.next + 1 } else x

variable [DecidableEq κ]

def remove (b : EventBus ι κ) (channel : κ) : EventBus ι κ :=
  match b.listeners.idxOf? channel with
  | some i => b.removeAt i
  | none => b

/-- `none` where the step cannot happen: a lock is taken, nothing is there to be received,
    or a name is in use. -/
def step (b : EventBus ι κ) : BusLabel ι κ → Option (EventBus ι κ)
  | .subscribe channel =>
      if b.publishers = [] ∧ b.channels channel = none then
        some (append { b with channels := Function.update b.channels channel (some .new) } channel)
      else none
  | .unsubscribe channel => if b.publishers = [] then some (b.remove channel) else none
  | .receive channel =>
      match b.channels channel with
      | some ⟨m :: rest, received⟩ =>
          some { b with channels := Function.update b.channels channel (some ⟨rest, received ++ [m]⟩) }
      | _ => none
  | .publish call eventType payload =>
      if call ∈ b.started then none
      else some { b with
        publishers := ⟨call, eventText eventType payload, 0, b.len⟩ :: b.publishers
        started := call :: b.started }
  | .send call =>
      match b.publisher call, b.target call with
      | some x, some channel =>
          some { b with
            channels := Function.update b.channels channel
              ((b.channels channel).map fun c => c.offer ⟨call, x.data⟩)
            publishers := b.publishers.map (advance call) }
      | _, _ => none
  | .finish call =>
      match b.publisher call with
      | some x =>
          if x.upto ≤ x.next then some { b with publishers := b.publishers.filter fun x => x.call ≠ call }
          else none
      | none => none

/-- The bus after these steps, if all of them can happen. -/
def run (labels : List (BusLabel ι κ)) : Option (EventBus ι κ) := labels.foldlM step empty

@[simp] theorem run_nil : run ([] : List (BusLabel ι κ)) = some empty := rfl

theorem run_concat (labels : List (BusLabel ι κ)) (newest : BusLabel ι κ) :
    run (labels ++ [newest]) = (run labels).bind fun b => b.step newest := by
  simp only [run, List.foldlM_append, List.foldlM_cons, List.foldlM_nil, bind_pure]
  rfl

end Steps

/-! ## The slice as a list -/

theorem length_listeners {b : EventBus ι κ} (inside : b.len ≤ b.cells.length) : b.listeners.length = b.len := by
  rw [listeners, List.length_take, Nat.min_eq_left inside]

theorem listeners_append {b : EventBus ι κ} (inside : b.len ≤ b.cells.length) (channel : κ) :
    (b.append channel).listeners = b.listeners ++ [channel] := by
  have long : b.listeners.length = b.len := length_listeners inside
  rw [listeners] at long
  simp only [listeners, append]
  rw [List.take_append, long, Nat.add_sub_cancel_left, List.take_of_length_le (by omega)]
  rfl

theorem listeners_removeAt {b : EventBus ι κ} (inside : b.len ≤ b.cells.length) {i : Nat} (here : i < b.len) :
    (b.removeAt i).listeners = b.listeners.eraseIdx i := by
  have front : (b.cells.take i ++ (b.cells.take b.len).drop (i + 1)).length = b.len - 1 := by
    simp only [List.length_append, List.length_take, List.length_drop]
    omega
  simp only [listeners, removeAt]
  rw [List.take_left' front, List.eraseIdx_eq_take_drop_succ, List.take_take, Nat.min_eq_left (by omega)]

theorem getElem?_cells {b : EventBus ι κ} {i : Nat} (here : i < b.len) : b.cells[i]? = b.listeners[i]? := by
  rw [listeners, List.getElem?_take_of_lt here]

variable [DecidableEq ι] [DecidableEq κ] {b b' : EventBus ι κ} {channel : κ} {call : ι}

omit [DecidableEq ι] in
theorem remove_spec (inside : b.len ≤ b.cells.length) (channel : κ) :
    (b.remove channel).listeners = b.listeners.erase channel ∧
      (b.remove channel).len ≤ (b.remove channel).cells.length ∧
      (b.remove channel).channels = b.channels ∧ (b.remove channel).publishers = b.publishers ∧
      (b.remove channel).started = b.started := by
  unfold remove
  split
  · rename_i i found
    obtain ⟨here, -, -⟩ := List.idxOf?_eq_some_iff.mp found
    rw [length_listeners inside] at here
    refine ⟨?_, ?_, rfl, rfl, rfl⟩
    · rw [listeners_removeAt inside here, List.erase_eq_eraseIdx, found]
    · simp only [removeAt, List.length_append, List.length_take, List.length_drop]
      omega
  · rename_i absent
    refine ⟨?_, inside, rfl, rfl, rfl⟩
    rw [List.erase_eq_eraseIdx, absent]

/-! ## When a step can happen, and what it does -/

theorem step_subscribe : b.step (.subscribe channel) = some b' ↔
    (b.publishers = [] ∧ b.channels channel = none) ∧
      append { b with channels := Function.update b.channels channel (some .new) } channel = b' := by
  simp only [step, Option.ite_none_right_eq_some, Option.some.injEq]

theorem step_unsubscribe : b.step (.unsubscribe channel) = some b' ↔
    b.publishers = [] ∧ b.remove channel = b' := by
  simp only [step, Option.ite_none_right_eq_some, Option.some.injEq]

theorem step_receive : b.step (.receive channel) = some b' ↔
    ∃ m rest received, b.channels channel = some ⟨m :: rest, received⟩ ∧
      { b with channels := Function.update b.channels channel (some ⟨rest, received ++ [m]⟩) } = b' := by
  simp only [step]
  split
  · rename_i m rest received here
    simp [here]
  · rename_i other
    simp only [reduceCtorEq, false_iff, not_exists, not_and]
    intro m rest received here
    exact absurd here (other m rest received)

theorem step_publish {eventType payload : GoString} : b.step (.publish call eventType payload) = some b' ↔
    call ∉ b.started ∧
      { b with
        publishers := ⟨call, eventText eventType payload, 0, b.len⟩ :: b.publishers
        started := call :: b.started } = b' := by
  simp only [step, Option.ite_none_left_eq_some, Option.some.injEq]

theorem step_send : b.step (.send call) = some b' ↔
    ∃ x channel, b.publisher call = some x ∧ b.target call = some channel ∧
      { b with
        channels := Function.update b.channels channel
          ((b.channels channel).map fun c => c.offer ⟨call, x.data⟩)
        publishers := b.publishers.map (advance call) } = b' := by
  cases found : b.publisher call with
  | none => simp [step, found]
  | some x =>
      cases aim : b.target call with
      | none => simp [step, found, aim]
      | some channel => simp [step, found, aim]

theorem step_finish : b.step (.finish call) = some b' ↔
    ∃ x, b.publisher call = some x ∧ x.upto ≤ x.next ∧
      { b with publishers := b.publishers.filter fun x => x.call ≠ call } = b' := by
  cases found : b.publisher call with
  | none => simp [step, found]
  | some x => simp [step, found]

/-! ## What the locks keep -/

/-- The slice lies inside its array and has each listener once, and the loops of all calls
    in progress range over what the slice is now. -/
structure Steady (b : EventBus ι κ) : Prop where
  inside : b.len ≤ b.cells.length
  distinct : b.listeners.Nodup
  made : ∀ channel ∈ b.listeners, b.channels channel ≠ none
  loops : ∀ x ∈ b.publishers, x.next ≤ x.upto ∧ x.upto = b.len
  calls : (b.publishers.map Publisher.call).Nodup
  begun : ∀ x ∈ b.publishers, x.call ∈ b.started

omit [DecidableEq κ] in
theorem publisher_some {x : Publisher ι} (found : b.publisher call = some x) :
    x ∈ b.publishers ∧ x.call = call := by
  have same := List.find?_some found
  exact ⟨List.mem_of_find?_eq_some found, by simpa using same⟩

omit [DecidableEq κ] in
/-- A call in progress is found under its name. -/
theorem Steady.publisher (steady : Steady b) {x : Publisher ι} (member : x ∈ b.publishers) :
    b.publisher x.call = some x := by
  have distinct := steady.calls
  rw [EventBus.publisher]
  generalize b.publishers = publishers at member distinct
  induction publishers with
  | nil => cases member
  | cons y rest ih =>
      obtain ⟨absent, tail⟩ := List.nodup_cons.mp distinct
      cases List.mem_cons.mp member with
      | inl same => simp [same]
      | inr later =>
          have different : y.call ≠ x.call := fun same => absent (same ▸ List.mem_map_of_mem later)
          rw [List.find?_cons_of_neg (by simpa using different)]
          exact ih later tail

omit [DecidableEq κ] in
theorem target_some (steady : Steady b) (aim : b.target call = some channel) :
    ∃ x, b.publisher call = some x ∧ x.next < b.len ∧ b.listeners[x.next]? = some channel := by
  simp only [target, Option.bind_eq_some_iff, Option.ite_none_right_eq_some] at aim
  obtain ⟨x, found, here, cell⟩ := aim
  have whole := (steady.loops x (publisher_some found).1).2
  rw [whole] at here
  exact ⟨x, found, here, by rw [← getElem?_cells here, cell]⟩

omit [DecidableEq ι] in
theorem update_ne_none {channels : κ → Option (Channel ι)} {c : Option (Channel ι)} {other : κ}
    (new : c ≠ none) (old : other ≠ channel → channels other ≠ none) :
    Function.update channels channel c other ≠ none := by
  by_cases same : other = channel
  · rw [same, Function.update_self]
    exact new
  · rw [Function.update_of_ne same]
    exact old same

omit [DecidableEq ι] [DecidableEq κ] in
theorem steady_empty : Steady (empty : EventBus ι κ) :=
  ⟨Nat.le_refl _, List.nodup_nil, by simp [listeners, empty], by simp [empty], List.nodup_nil, by simp [empty]⟩

omit [DecidableEq κ] in
theorem map_advance_call (publishers : List (Publisher ι)) (call : ι) :
    (publishers.map (advance call)).map Publisher.call = publishers.map Publisher.call := by
  rw [List.map_map]
  refine List.map_congr_left fun x _ => ?_
  simp only [Function.comp_apply, advance]
  split <;> rfl

theorem steady_step (steady : Steady b) {label : BusLabel ι κ} (stepped : b.step label = some b') : Steady b' := by
  cases label with
  | subscribe channel =>
      obtain ⟨⟨idle, fresh⟩, rfl⟩ := step_subscribe.mp stepped
      have grown : (append { b with channels := Function.update b.channels channel (some .new) } channel).listeners =
          b.listeners ++ [channel] := listeners_append steady.inside channel
      have absent : channel ∉ b.listeners := fun member => steady.made channel member fresh
      refine ⟨?_, ?_, ?_, by simp [append, idle], by simp [append, idle], by simp [append, idle]⟩
      · have inside := steady.inside
        simp only [append, List.length_append, List.length_take, List.length_cons, List.length_drop]
        omega
      · rw [grown]
        exact List.nodup_append.mpr ⟨steady.distinct, List.nodup_singleton _, by
          intro old member new last same
          exact absent (List.mem_singleton.mp last ▸ same ▸ member)⟩
      · intro other member
        rw [grown, List.mem_append, List.mem_singleton] at member
        exact update_ne_none (Option.some_ne_none _) fun different =>
          steady.made other (member.resolve_right different)
  | unsubscribe channel =>
      obtain ⟨idle, rfl⟩ := step_unsubscribe.mp stepped
      obtain ⟨rest, inside, channels, publishers, started⟩ := remove_spec steady.inside channel
      refine ⟨inside, rest ▸ steady.distinct.erase channel, ?_, ?_, ?_, ?_⟩
      · intro other member
        rw [rest] at member
        rw [channels]
        exact steady.made other (List.mem_of_mem_erase member)
      · simp [publishers, idle]
      · simp [publishers, idle]
      · simp [publishers, idle]
  | receive channel =>
      obtain ⟨m, rest, received, here, rfl⟩ := step_receive.mp stepped
      refine ⟨steady.inside, steady.distinct, ?_, steady.loops, steady.calls, steady.begun⟩
      exact fun other member => update_ne_none (Option.some_ne_none _) fun _ => steady.made other member
  | publish call eventType payload =>
      obtain ⟨fresh, rfl⟩ := step_publish.mp stepped
      refine ⟨steady.inside, steady.distinct, steady.made, ?_, ?_, ?_⟩
      · simp only [List.mem_cons, forall_eq_or_imp]
        exact ⟨⟨Nat.zero_le _, trivial⟩, steady.loops⟩
      · rw [List.map_cons, List.nodup_cons]
        refine ⟨fun member => ?_, steady.calls⟩
        obtain ⟨x, old, same⟩ := List.mem_map.mp member
        have begun := steady.begun x old
        rw [same] at begun
        exact fresh begun
      · simp only [List.mem_cons, forall_eq_or_imp, true_or, true_and]
        exact fun x member => .inr (steady.begun x member)
  | send call =>
      obtain ⟨x, channel, found, aim, rfl⟩ := step_send.mp stepped
      obtain ⟨x', found', here, aimed⟩ := target_some steady aim
      rw [found, Option.some.injEq] at found'
      subst found'
      refine ⟨steady.inside, steady.distinct, ?_, ?_, ?_, ?_⟩
      · intro other member
        refine update_ne_none ?_ fun _ => steady.made other member
        simpa using steady.made channel (List.mem_of_getElem? aimed)
      · intro y member
        obtain ⟨z, old, rfl⟩ := List.mem_map.mp member
        have before := steady.loops z old
        simp only [advance]
        split
        · rename_i own
          have same := steady.publisher old
          rw [own, found, Option.some.injEq] at same
          subst same
          refine ⟨?_, before.2⟩
          change x.next + 1 ≤ x.upto
          omega
        · exact before
      · change ((b.publishers.map (advance call)).map Publisher.call).Nodup
        rw [map_advance_call]
        exact steady.calls
      · intro y member
        obtain ⟨z, old, rfl⟩ := List.mem_map.mp member
        have before := steady.begun z old
        simp only [advance]
        split <;> exact before
  | finish call =>
      obtain ⟨x, found, done, rfl⟩ := step_finish.mp stepped
      refine ⟨steady.inside, steady.distinct, steady.made, ?_, ?_, ?_⟩
      · exact fun y member => steady.loops y (List.mem_filter.mp member).1
      · exact steady.calls.sublist (List.filter_sublist.map Publisher.call)
      · exact fun y member => steady.begun y (List.mem_filter.mp member).1

end EventBus

end OpencodeRemote.Stub
