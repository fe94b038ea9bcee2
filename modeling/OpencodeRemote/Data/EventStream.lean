import Mathlib.Data.List.Basic
import Mathlib.Data.List.TakeWhile

/-! # Event streams

The text format of server-sent events, read byte by byte. Lines end in a line feed, a
carriage return or both; a line sets one field of the message that is being read, and an
empty line dispatches it. A message is a value only once its empty line is read, so a
stream that breaks off loses its last message and damages none.
-/

namespace OpencodeRemote.Data

namespace EventStream

abbrev Bytes := List UInt8

structure Message where
  type : Bytes
  data : Bytes
  lastEventID : Bytes
  deriving DecidableEq

/-- `line` is what is read of a line, `afterReturn` says that the last byte was a carriage
    return. -/
structure Reader where
  line : Bytes
  afterReturn : Bool
  type : Bytes
  data : Bytes
  lastEventID : Bytes
  deriving DecidableEq

def message : Bytes := [109, 101, 115, 115, 97, 103, 101]
def eventName : Bytes := [101, 118, 101, 110, 116]
def dataName : Bytes := [100, 97, 116, 97]
def idName : Bytes := [105, 100]

namespace Reader

def start : Reader := ⟨[], false, [], [], []⟩

/-- The name of a field and its value; one space after the colon does not count. -/
def field (line : Bytes) : Bytes × Bytes :=
  let value := (line.dropWhile (· ≠ 58)).drop 1
  (line.takeWhile (· ≠ 58), if value.head? = some 32 then value.drop 1 else value)

/-- A field without a name is a comment; what is not known is ignored. -/
def set (r : Reader) (name value : Bytes) : Reader :=
  if name = eventName then { r with type := value }
  else if name = dataName then { r with data := r.data ++ value ++ [10] }
  else if name = idName ∧ 0 ∉ value then { r with lastEventID := value }
  else r

def dispatch (r : Reader) : Reader × List Message :=
  ({ r with type := [], data := [] },
    if r.data = [] then []
    else [⟨if r.type = [] then message else r.type, r.data.dropLast, r.lastEventID⟩])

/-- At the end of a line. -/
def endLine (r : Reader) : Reader × List Message :=
  if r.line = [] then r.dispatch
  else ({ r.set (field r.line).1 (field r.line).2 with line := [] }, [])

def step (r : Reader) (c : UInt8) : Reader × List Message :=
  if c = 10 ∧ r.afterReturn then ({ r with afterReturn := false }, [])
  else if c = 10 ∨ c = 13 then
    let (r, messages) := r.endLine
    ({ r with afterReturn := c = 13 }, messages)
  else ({ r with line := r.line ++ [c], afterReturn := false }, [])

/-- The state after a text, and the messages that it dispatches. -/
def feed (r : Reader) : Bytes → Reader × List Message
  | [] => (r, [])
  | c :: rest =>
      let (r', messages) := r.step c
      let (r'', more) := r'.feed rest
      (r'', messages ++ more)

end Reader

/-- The messages of a stream, a byte order mark at its start apart. -/
def parse (text : Bytes) : List Message :=
  (Reader.start.feed (if [239, 187, 191] <+: text then text.drop 3 else text)).2

/-- A message as two lines and an empty one. -/
def frame (type data : Bytes) : Bytes :=
  eventName ++ [58, 32] ++ type ++ [10] ++ dataName ++ [58, 32] ++ data ++ [10, 10]

/-- The text of a sequence of messages, each with its type and data. -/
def framed (frames : List (Bytes × Bytes)) : Bytes := frames.flatMap fun entry => frame entry.1 entry.2

theorem framed_cons (entry : Bytes × Bytes) (frames : List (Bytes × Bytes)) :
    framed (entry :: frames) = frame entry.1 entry.2 ++ framed frames := rfl

theorem framed_append (first second : List (Bytes × Bytes)) : framed (first ++ second) = framed first ++ framed second :=
  List.flatMap_append

/-- The bytes are part of one line. -/
def Inline (text : Bytes) : Prop := ∀ c ∈ text, c ≠ 10 ∧ c ≠ 13

instance (text : Bytes) : Decidable (Inline text) := List.decidableBAll (fun c => c ≠ 10 ∧ c ≠ 13) text

theorem Inline.append {first second : Bytes} (left : Inline first) (right : Inline second) :
    Inline (first ++ second) :=
  List.forall_mem_append.mpr ⟨left, right⟩

theorem Inline.cons {c : UInt8} {rest : Bytes} (here : c ≠ 10 ∧ c ≠ 13) (later : Inline rest) : Inline (c :: rest) :=
  List.forall_mem_cons.mpr ⟨here, later⟩

theorem Inline.flatMap {α : Type} {f : α → Bytes} (each : ∀ a, Inline (f a)) (items : List α) :
    Inline (items.flatMap f) := by
  intro c member
  obtain ⟨a, -, here⟩ := List.mem_flatMap.mp member
  exact each a c here

namespace Reader

theorem feed_cons (r : Reader) (c : UInt8) (rest : Bytes) :
    r.feed (c :: rest) =
      (((r.step c).1.feed rest).1, (r.step c).2 ++ ((r.step c).1.feed rest).2) := rfl

theorem feed_append (r : Reader) (first second : Bytes) :
    r.feed (first ++ second) =
      (((r.feed first).1.feed second).1, (r.feed first).2 ++ ((r.feed first).1.feed second).2) := by
  induction first generalizing r with
  | nil => rfl
  | cons c rest ih => simp only [List.cons_append, feed_cons, ih, List.append_assoc]

/-- Within a line nothing happens. -/
theorem feed_inline {text : Bytes} (inline : Inline text) (r : Reader) (ready : r.afterReturn = false) :
    r.feed text = ({ r with line := r.line ++ text }, []) := by
  induction text generalizing r with
  | nil => simp [feed]
  | cons c rest ih =>
      obtain ⟨first, later⟩ := List.forall_mem_cons.mp inline
      have stepped : r.step c = ({ r with line := r.line ++ [c] }, []) := by
        simp [step, first.1, first.2, ← ready]
      have rest := ih later { r with line := r.line ++ [c] } ready
      rw [feed_cons, stepped, rest]
      simp

theorem endLine_ready {r : Reader} (ready : r.afterReturn = false) : r.endLine.1.afterReturn = false := by
  unfold endLine
  split
  · exact ready
  · unfold set
    split_ifs <;> exact ready

/-- A whole line, from its start on. -/
theorem feed_line {text : Bytes} (inline : Inline text) {r : Reader} (fresh : r.line = [])
    (ready : r.afterReturn = false) : r.feed (text ++ [10]) = ({ r with line := text } : Reader).endLine := by
  have unchanged (r' : Reader) (ready : r'.afterReturn = false) : { r' with afterReturn := false } = r' := by
    cases r'
    cases ready
    rfl
  have stepped (r' : Reader) (ready : r'.afterReturn = false) : r'.step 10 = r'.endLine := by
    have same := unchanged _ (endLine_ready ready)
    simp only [step, ready, Bool.false_eq_true, and_false, if_false, true_or, if_true]
    exact Prod.ext same rfl
  have ended := stepped { r with line := text } ready
  rw [feed_append, feed_inline inline r ready, fresh, List.nil_append]
  simp only [feed, ended, List.append_nil, List.nil_append]

theorem field_named {name : Bytes} (solid : 58 ∉ name) (value : Bytes) :
    field (name ++ [58, 32] ++ value) = (name, value) := by
  have other : ∀ c ∈ name, c ≠ 58 := fun c member same => solid (same ▸ member)
  have before : (name ++ 58 :: 32 :: value).takeWhile (· ≠ 58) = name := by
    rw [List.takeWhile_append_of_pos (by simpa using other)]
    simp
  have behind : (name ++ 58 :: 32 :: value).dropWhile (· ≠ 58) = 58 :: 32 :: value := by
    rw [List.dropWhile_append_of_pos (by simpa using other)]
    simp
  rw [List.append_assoc, List.cons_append, List.singleton_append, field, before, behind]
  rfl

theorem inline_field {name value : Bytes} (named : Inline name) (given : Inline value) :
    Inline (name ++ [58, 32] ++ value) :=
  (named.append (by decide)).append given

/-- A line for a field that is known. -/
theorem feed_field {name value : Bytes} (solid : 58 ∉ name) (named : Inline name) (given : Inline value)
    {r : Reader} (fresh : r.line = []) (ready : r.afterReturn = false) :
    r.feed (name ++ [58, 32] ++ value ++ [10]) =
      ({ ({ r with line := name ++ [58, 32] ++ value } : Reader).set name value with line := [] }, []) := by
  rw [feed_line (inline_field named given) fresh ready, endLine, if_neg (by simp), field_named solid]

/-- The reader between two messages. -/
def between (lastEventID : Bytes) : Reader := ⟨[], false, [], [], lastEventID⟩

theorem feed_type {type : Bytes} (inline : Inline type) (lastEventID : Bytes) :
    (between lastEventID).feed (eventName ++ [58, 32] ++ type ++ [10]) =
      (⟨[], false, type, [], lastEventID⟩, []) := by
  rw [feed_field (by decide) (by decide) inline rfl rfl]
  simp [set, between]

theorem feed_data {data : Bytes} (inline : Inline data) (type lastEventID : Bytes) :
    (⟨[], false, type, [], lastEventID⟩ : Reader).feed (dataName ++ [58, 32] ++ data ++ [10]) =
      (⟨[], false, type, data ++ [10], lastEventID⟩, []) := by
  rw [feed_field (by decide) (by decide) inline rfl rfl]
  simp [set, show dataName ≠ eventName by decide]

theorem feed_end (type data lastEventID : Bytes) :
    (⟨[], false, type, data ++ [10], lastEventID⟩ : Reader).feed [10] =
      (between lastEventID, [⟨if type = [] then message else type, data, lastEventID⟩]) := by
  have ended := @feed_line [] nofun ⟨[], false, type, data ++ [10], lastEventID⟩ rfl rfl
  rw [List.nil_append] at ended
  rw [ended, endLine, if_pos rfl]
  simp [dispatch, between]

/-- A frame is one message. -/
theorem feed_frame (lastEventID : Bytes) {type data : Bytes} (typeInline : Inline type)
    (dataInline : Inline data) : (between lastEventID).feed (frame type data) =
      (between lastEventID, [⟨if type = [] then message else type, data, lastEventID⟩]) := by
  have lines : frame type data = (eventName ++ [58, 32] ++ type ++ [10]) ++
      ((dataName ++ [58, 32] ++ data ++ [10]) ++ [10]) := by simp [frame]
  rw [lines, feed_append, feed_type typeInline, feed_append, feed_data dataInline, feed_end]
  rfl

theorem feed_frames (lastEventID : Bytes) {frames : List (Bytes × Bytes)}
    (inline : ∀ entry ∈ frames, entry.1 ≠ [] ∧ Inline entry.1 ∧ Inline entry.2) :
    (between lastEventID).feed (framed frames) =
      (between lastEventID, frames.map fun entry => ⟨entry.1, entry.2, lastEventID⟩) := by
  induction frames with
  | nil => rfl
  | cons entry rest ih =>
      obtain ⟨⟨named, typeInline, dataInline⟩, later⟩ := List.forall_mem_cons.mp inline
      rw [framed_cons, feed_append, feed_frame lastEventID typeInline dataInline, ih later, if_neg named]
      rfl

/-- What is read of a frame that breaks off is no message. -/
theorem feed_frame_take (lastEventID : Bytes) {type data : Bytes} (typeInline : Inline type)
    (dataInline : Inline data) {n : Nat} (short : n < (frame type data).length) :
    ((between lastEventID).feed ((frame type data).take n)).2 = [] := by
  have lines : frame type data = (eventName ++ [58, 32] ++ type ++ [10]) ++
      (dataName ++ [58, 32] ++ data ++ [10]) ++ [10] := by simp [frame]
  rw [lines, List.length_append, List.length_singleton] at short
  rw [lines, List.take_append_of_le_length (by omega)]
  have whole : ((between lastEventID).feed ((eventName ++ [58, 32] ++ type ++ [10]) ++
      (dataName ++ [58, 32] ++ data ++ [10]))).2 = [] := by
    rw [feed_append, feed_type typeInline, feed_data dataInline]
    rfl
  rw [← List.take_append_drop n ((eventName ++ [58, 32] ++ type ++ [10]) ++ _), feed_append] at whole
  exact (List.append_eq_nil_iff.mp whole).1

end Reader

/-- No byte order mark is at the start of frames, nor where they break off. -/
theorem parse_framed_take (frames : List (Bytes × Bytes)) (n : Nat) :
    parse ((framed frames).take n) = ((Reader.between []).feed ((framed frames).take n)).2 := by
  have unmarked : ¬[239, 187, 191] <+: (framed frames).take n := by
    rintro ⟨rest, same⟩
    have first := congrArg List.head? same
    rw [List.head?_take] at first
    cases frames with
    | nil => simp [framed] at first
    | cons entry frames =>
        simp only [framed, List.flatMap_cons, frame, eventName, List.cons_append, List.head?_cons] at first
        split at first
        · cases first
        · revert first
          decide
  rw [parse, if_neg unmarked]
  rfl

/-- A sequence of frames reads as their messages. -/
theorem parse_framed {frames : List (Bytes × Bytes)}
    (inline : ∀ entry ∈ frames, entry.1 ≠ [] ∧ Inline entry.1 ∧ Inline entry.2) :
    parse (framed frames) = frames.map fun entry => ⟨entry.1, entry.2, []⟩ := by
  have read := parse_framed_take frames (framed frames).length
  rw [List.take_length] at read
  rw [read]
  exact congrArg Prod.snd (Reader.feed_frames [] inline)

/-- Where frames break off, those that are whole are read, and no other. -/
theorem parse_framed_cut {frames : List (Bytes × Bytes)}
    (inline : ∀ entry ∈ frames, entry.1 ≠ [] ∧ Inline entry.1 ∧ Inline entry.2) {n k : Nat}
    (reached : (framed (frames.take k)).length ≤ n)
    (short : k < frames.length → n < (framed (frames.take (k + 1))).length) :
    parse ((framed frames).take n) = parse (framed (frames.take k)) := by
  have before : ∀ entry ∈ frames.take k, entry.1 ≠ [] ∧ Inline entry.1 ∧ Inline entry.2 :=
    fun entry member => inline entry (List.mem_of_mem_take member)
  have split : framed frames = framed (frames.take k) ++ framed (frames.drop k) := by
    rw [← framed_append, List.take_append_drop]
  rw [parse_framed_take, parse_framed before, split, List.take_append, List.take_of_length_le reached,
    Reader.feed_append, Reader.feed_frames [] before]
  suffices rest : ((Reader.between []).feed
      ((framed (frames.drop k)).take (n - (framed (frames.take k)).length))).2 = [] by
    rw [rest, List.append_nil]
  by_cases more : k < frames.length
  · have next := short more
    obtain ⟨-, typeInline, dataInline⟩ := inline frames[k] (List.getElem_mem more)
    have one : framed [frames[k]] = frame frames[k].1 frames[k].2 := List.append_nil _
    rw [List.take_succ_eq_append_getElem more, framed_append, List.length_append, one] at next
    rw [List.drop_eq_getElem_cons more, framed_cons, List.take_append_of_le_length (by omega)]
    exact Reader.feed_frame_take [] typeInline dataInline (by omega)
  · rw [List.drop_of_length_le (by omega)]
    simp [framed, Reader.feed]

end EventStream

end OpencodeRemote.Data
