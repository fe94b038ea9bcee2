import OpencodeRemote.Stub.Delivery
import OpencodeRemote.Stub.Narration

/-! # The stream that a client reads

What the handlers announce goes through the bus and out of `Events` as text. A client reads
it back: event for event, each with what was announced, and where the connection breaks the
events before the break.
-/

namespace OpencodeRemote.Stub

open Concurrency Data

/-- What `Publish` marshals. -/
def eventPayload (eventType : GoString) (props : Json) : GoString :=
  marshal (.obj [(lit "type", .str eventType), (lit "properties", props)])

/-- What `Events` has written for its channel, one event after the other. -/
def Channel.written {ι : Type} (c : Channel ι) : GoString := c.received.flatMap Message.data

/-! ## What is read -/

def announcedView (_ : List StubEvent) : StubEvent → Option (GoString × Json)
  | ⟨.publish eventType props, _⟩ => some (eventType, props)
  | _ => none

/-- Entry `i` announces this event. -/
def announced (log : List StubEntry) (i : Nat) : Option (GoString × Json) := observe announcedView log i

/-- The calls of `Publish` are those of the log, each under the number of its entry. -/
def Carries {κ : Type} (log : List StubEntry) (labels : List (BusLabel Nat κ)) : Prop :=
  ∀ i eventType payload, .publish i eventType payload ∈ labels →
    ∃ props, announced log i = some (eventType, props) ∧ payload = eventPayload eventType props

/-- The message tells what entry `i` announced. -/
def Tells (log : List StubEntry) (i : Nat) (m : EventStream.Message) : Prop :=
  ∃ eventType props, announced log i = some (eventType, props) ∧ m.type = eventType ∧
    JSON.parse m.data = some (.obj [(lit "properties", props.sorted.view), (lit "type", .str eventType)])

/-- The text is one message for each event received, in their order and none twice. Cut
    off anywhere it is the messages of the events that are whole. -/
structure Legible (log : List StubEntry) (c : Channel Nat) : Prop where
  whole : List.Forall₂ (Tells log) (c.received.map Message.call) (EventStream.parse c.written)
  once : (c.received.map Message.call).Nodup
  cut : ∀ n k, ((c.received.take k).flatMap Message.data).length ≤ n →
    (k < c.received.length → n < ((c.received.take (k + 1)).flatMap Message.data).length) →
    EventStream.parse (c.written.take n) = (EventStream.parse c.written).take k

theorem announced_of_lawful {log : List StubEntry} (lawful : Lawful (fun _ event => Announced event.op) log) {i : Nat}
    {eventType : GoString} {props : Json} (here : announced log i = some (eventType, props)) :
    eventType ∈ eventTypes ∧ props.numeric = true := by
  obtain ⟨thread, ⟨o, r⟩, here, viewed⟩ := observe_eq_some.mp here
  have ruled := lawful i thread _ here
  cases o with
  | publish eventType' props' =>
      cases viewed
      exact ruled
  | _ => cases viewed

theorem eventText_eq_frame (eventType payload : GoString) :
    eventText eventType payload = EventStream.frame eventType payload := by
  have front : lit "event: " = EventStream.eventName ++ [58, 32] := by decide
  have middle : lit "\ndata: " = [10] ++ EventStream.dataName ++ [58, 32] := by decide
  have back : lit "\n\n" = [10, 10] := by decide
  rw [eventText, front, middle, back, EventStream.frame]
  simp only [List.append_assoc]

/-- The names of the events are one line each, and valid UTF-8. -/
theorem eventTypes_plain : ∀ eventType ∈ eventTypes,
    eventType ≠ [] ∧ EventStream.Inline eventType ∧ toValid eventType = eventType := by decide

theorem parse_eventPayload {eventType : GoString} {props : Json} (known : eventType ∈ eventTypes)
    (numeric : props.numeric = true) : JSON.parse (eventPayload eventType props) =
      some (.obj [(lit "properties", props.sorted.view), (lit "type", .str eventType)]) := by
  have keys : lit "properties" ≤ lit "type" ∧ toValid (lit "properties") = lit "properties" ∧
      toValid (lit "type") = lit "type" := by decide
  have order : ¬lit "type" ≤ lit "properties" := by decide
  have same := (eventTypes_plain eventType known).2.2
  rw [eventPayload, parse_marshal (by simp [Json.numeric, numericFields, numeric])]
  simp [Json.sorted, sortedFields, List.mergeSort, List.MergeSort.Internal.splitInTwo, order, Json.view,
    viewFields, keys.2.1, keys.2.2, same]

section Bus

variable {κ : Type} [DecidableEq κ] {log : List StubEntry} {labels : List (BusLabel Nat κ)} {b : EventBus Nat κ}
  {channel : κ} {c : Channel Nat}

/-- What a client has received was announced. -/
theorem received_announced (carries : Carries log labels) (reached : EventBus.run labels = some b)
    (open_ : b.channels channel = some c) {m : Message Nat} (member : m ∈ c.received) :
    ∃ eventType props, announced log m.call = some (eventType, props) ∧
      m.data = EventStream.frame eventType (eventPayload eventType props) := by
  have inside : m ∈ b.stream channel := by
    simp only [EventBus.stream, open_]
    exact List.mem_append_left _ member
  obtain ⟨⟨before, label, after, split, ⟨eventType, payload, rfl, text⟩, -⟩, -⟩ :=
    (EventBus.run_delivered reached channel).origin m inside
  obtain ⟨props, here, rfl⟩ := carries m.call eventType payload (by simp [split])
  exact ⟨eventType, props, here, text.trans (eventText_eq_frame _ _)⟩

theorem legible_of_lawful (lawful : Lawful (fun _ event => Announced event.op) log) (carries : Carries log labels)
    (reached : EventBus.run labels = some b) (open_ : b.channels channel = some c) : Legible log c := by
  have each : ∀ m ∈ c.received, ∃ entry : GoString × GoString,
      m.data = EventStream.frame entry.1 entry.2 ∧
      (entry.1 ≠ [] ∧ EventStream.Inline entry.1 ∧ EventStream.Inline entry.2) ∧
      Tells log m.call ⟨entry.1, entry.2, []⟩ := by
    intro m member
    obtain ⟨eventType, props, here, text⟩ := received_announced carries reached open_ member
    obtain ⟨known, numeric⟩ := announced_of_lawful lawful here
    obtain ⟨named, inline, -⟩ := eventTypes_plain eventType known
    have payload : EventStream.Inline (eventPayload eventType props) :=
      inline_marshal (by simp [Json.numeric, numericFields, numeric])
    exact ⟨(eventType, eventPayload eventType props), text, ⟨named, inline, payload⟩,
      eventType, props, here, rfl, parse_eventPayload known numeric⟩
  choose! entry framed inline tells using each
  have texts (ms : List (Message Nat)) (own : ms ⊆ c.received) :
      ms.flatMap Message.data = EventStream.framed (ms.map entry) := by
    rw [EventStream.framed, List.flatMap_map]
    exact List.flatMap_congr fun m member => framed m (own member)
  have lines : ∀ e ∈ c.received.map entry, e.1 ≠ [] ∧ EventStream.Inline e.1 ∧ EventStream.Inline e.2 :=
    List.forall_mem_map.mpr inline
  have parsed : EventStream.parse c.written = (c.received.map entry).map fun e => ⟨e.1, e.2, []⟩ := by
    rw [Channel.written, texts c.received (List.Subset.refl _), EventStream.parse_framed lines]
  have started (k : Nat) : (c.received.take k).flatMap Message.data =
      EventStream.framed ((c.received.map entry).take k) := by
    rw [texts _ (List.take_subset k _), List.map_take]
  refine ⟨?_, ?_, ?_⟩
  · rw [parsed, List.map_map, List.forall₂_map_left_iff, List.forall₂_map_right_iff, List.forall₂_same]
    exact tells
  · have once := (EventBus.run_delivered reached channel).once
    simp only [EventBus.stream, open_, List.map_append] at once
    exact (List.nodup_append.mp once).1
  · intro n k reaches short
    rw [started] at reaches short
    have cut := EventStream.parse_framed_cut lines reaches (by simpa using short)
    rw [parsed, Channel.written, texts c.received (List.Subset.refl _), cut, EventStream.parse_framed, List.map_take]
    exact fun e member => lines e (List.mem_of_mem_take member)

end Bus

/-- In every run of the stub, with its calls of `Publish` interleaved in whatever way with
    each other and with the clients, each client reads what was announced. -/
theorem legible_in_every_run (startedAt : Int) (root : GoString) (disk : OrderedMap CleanPath FileData)
    (labels : List StubLabel) {κ : Type} [DecidableEq κ] (bus : List (BusLabel Nat κ))
    (carries : Carries ((server startedAt).run (State.startUp root disk) labels).log bus)
    (b : EventBus Nat κ) (reached : EventBus.run bus = some b) (channel : κ) (c : Channel Nat)
    (open_ : b.channels channel = some c) :
    Legible ((server startedAt).run (State.startUp root disk) labels).log c :=
  legible_of_lawful (run_announced startedAt _ labels) carries reached open_

/-- A client that is there from the start and reads at once. -/
def relayed (log : List StubEntry) (i : Nat) : List (BusLabel Nat Unit) :=
  match announced log i with
  | some (eventType, props) =>
      [.publish i eventType (eventPayload eventType props), .send i, .finish i, .receive ()]
  | none => []

def relay (log : List StubEntry) : List (BusLabel Nat Unit) :=
  .subscribe () :: (List.range log.length).flatMap (relayed log)

theorem carries_relay (log : List StubEntry) : Carries log (relay log) := by
  intro i eventType payload member
  cases List.mem_cons.mp member with
  | inl other => cases other
  | inr later =>
      obtain ⟨j, -, inside⟩ := List.mem_flatMap.mp later
      unfold relayed at inside
      split at inside
      · rename_i eventType' props here
        simp only [List.mem_cons, BusLabel.publish.injEq, reduceCtorEq, List.not_mem_nil, or_false] at inside
        obtain ⟨rfl, rfl, rfl⟩ := inside
        exact ⟨props, here, rfl⟩
      · cases inside

/-- A workspace, a session and a refused command: three events. -/
def announcing : List StubLabel :=
  script [(1, workspacePost (lit "w")), (2, sessionPost (lit "s") (lit "w")), (3, shellPost (lit "s") (lit "/srv"))]

theorem legible_announcements : ∃ c, (EventBus.run (relay ((server 0).run (State.startUp (lit "/state") .empty)
    announcing).log)).bind (fun b => b.channels ()) = some c ∧ c.received.length = 3 ∧
      Legible ((server 0).run (State.startUp (lit "/state") .empty) announcing).log c := by
  have read : ((EventBus.run (relay ((server 0).run (State.startUp (lit "/state") .empty) announcing).log)).bind
      fun b => b.channels ()).map (fun c => c.received.length) = some 3 := by decide +kernel
  obtain ⟨c, open_, three⟩ := Option.map_eq_some_iff.mp read
  obtain ⟨b, reached, here⟩ := Option.bind_eq_some_iff.mp open_
  exact ⟨c, open_, three,
    legible_in_every_run 0 (lit "/state") .empty announcing _ (carries_relay _) b reached () c here⟩

end OpencodeRemote.Stub
