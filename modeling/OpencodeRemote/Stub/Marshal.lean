import OpencodeRemote.Data.EventStream
import OpencodeRemote.Data.JSONFields
import OpencodeRemote.Stub.Handler

/-! # Marshalled values

What `json.Marshal` makes of the values that the stub sends: strings with the bytes of HTML
and of the line separators escaped and broken UTF-8 replaced, maps in the order of their
keys, no white space. A reader gets the value back, each string made valid UTF-8.
-/

namespace OpencodeRemote.Stub

open Data

/-! ## Strings -/

/-- The escapes of ASCII; `<`, `>` and `&` are for HTML. These and the one for broken UTF-8
    are those up to Go 1.21, the version in `go.mod`; a later one has short escapes for
    backspace and form feed. -/
def escapeAscii (c : UInt8) : GoString :=
  if c = 34 ∨ c = 92 then [92, c]
  else if c = 10 then lit "\\n"
  else if c = 13 then lit "\\r"
  else if c = 9 then lit "\\t"
  else if c < 32 ∨ c = 60 ∨ c = 62 ∨ c = 38 then
    lit "\\u00" ++ [JSON.lowerHex (c.toNat / 16), JSON.lowerHex (c.toNat % 16)]
  else [c]

def Rune.escape : Rune → GoString
  | .invalid _ => lit "\\ufffd"
  | .valid bytes =>
      if bytes = [226, 128, 168] then lit "\\u2028"
      else if bytes = [226, 128, 169] then lit "\\u2029"
      else bytes.flatMap escapeAscii

def encodeString (s : GoString) : GoString := 34 :: ((runes s).flatMap Rune.escape ++ [34])

/-! ## Values -/

mutual
def Json.sorted : Json → Json
  | .arr items => .arr (sortedItems items)
  | .obj fields => .obj ((sortedFields fields).mergeSort fun a b => a.1 ≤ b.1)
  | v => v

def sortedItems : List Json → List Json
  | [] => []
  | v :: rest => v.sorted :: sortedItems rest

def sortedFields : List (GoString × Json) → List (GoString × Json)
  | [] => []
  | (key, v) :: rest => (key, v.sorted) :: sortedFields rest
end

mutual
def encode : Json → GoString
  | .null => lit "null"
  | .bool true => lit "true"
  | .bool false => lit "false"
  | .num literal => literal
  | .str s => encodeString s
  | .arr [] => lit "[]"
  | .arr (v :: rest) => 91 :: (encode v ++ (encodeItems rest ++ [93]))
  | .obj [] => [123, 125]
  | .obj ((key, v) :: rest) =>
      123 :: (encodeString key ++ 58 :: (encode v ++ (encodeFields rest ++ [125])))

def encodeItems : List Json → GoString
  | [] => []
  | v :: rest => 44 :: (encode v ++ encodeItems rest)

def encodeFields : List (GoString × Json) → GoString
  | [] => []
  | (key, v) :: rest => 44 :: (encodeString key ++ 58 :: (encode v ++ encodeFields rest))
end

/-- `json.Marshal`; the keys of a map are sorted. -/
def marshal (v : Json) : GoString := encode v.sorted

/-! ## What a reader gets -/

mutual
/-- The value as JSON, with strings that are valid UTF-8. -/
def Json.view : Json → JSON
  | .null => .null
  | .bool b => .bool b
  | .num literal => if number : JSON.isNumber literal = true then .num ⟨literal, number⟩ else .null
  | .str s => .str (toValid s)
  | .arr items => .arr (viewItems items)
  | .obj fields => .obj (viewFields fields)

def viewItems : List Json → List JSON
  | [] => []
  | v :: rest => v.view :: viewItems rest

def viewFields : List (GoString × Json) → List (GoString × JSON)
  | [] => []
  | (key, v) :: rest => (toValid key, v.view) :: viewFields rest
end

mutual
/-- Its numbers are written as JSON writes numbers. -/
def Json.numeric : Json → Bool
  | .num literal => JSON.isNumber literal
  | .arr items => numericItems items
  | .obj fields => numericFields fields
  | _ => true

def numericItems : List Json → Bool
  | [] => true
  | v :: rest => v.numeric && numericItems rest

def numericFields : List (GoString × Json) → Bool
  | [] => true
  | (_, v) :: rest => v.numeric && numericFields rest
end

section Strings

open JSON

theorem outcome_escapeAscii (t : Bytes) (p : Place) (c : UInt8) (rest : Bytes) :
    Reader.outcome ⟨.text t, p⟩ (escapeAscii c ++ rest) = Reader.outcome ⟨.text (t ++ [c]), p⟩ rest := by
  have begins : (92 : UInt8) ≠ 34 := by decide
  have zero : hexDigit 48 = some 0 := by decide
  unfold escapeAscii
  split_ifs with quoted line ret tab code
  · rcases quoted with rfl | rfl <;> rfl
  · subst line
    rfl
  · subst ret
    rfl
  · subst tab
    rfl
  · have small : c.toNat < 128 := by
      rcases code with control | rfl | rfl | rfl
      · have below : c.toNat < 32 := by simpa [UInt8.lt_iff_toNat_lt] using control
        omega
      all_goals decide
    have high := hexDigit_lowerHex (n := c.toNat / 16) (by omega)
    have low := hexDigit_lowerHex (n := c.toNat % 16) (by omega)
    have front : lit "\\u00" = [92, 117, 48, 48] := rfl
    simp [front, outcome_cons, Reader.step, begins, zero, high, low, appendUnit_ascii t small]
  · rw [List.singleton_append, outcome_cons, Reader.step]
    simp only [not_or] at quoted code
    simp [quoted, code]

theorem outcome_ascii (bytes t : Bytes) (p : Place) (rest : Bytes) :
    Reader.outcome ⟨.text t, p⟩ (bytes.flatMap escapeAscii ++ rest) = Reader.outcome ⟨.text (t ++ bytes), p⟩ rest := by
  induction bytes generalizing t with
  | nil => rw [List.flatMap_nil, List.nil_append, List.append_nil]
  | cons c bytes ih =>
      rw [List.flatMap_cons, List.append_assoc, outcome_escapeAscii, ih, List.append_assoc, List.singleton_append]

theorem outcome_escape (r : Rune) (t : Bytes) (p : Place) (rest : Bytes) :
    Reader.outcome ⟨.text t, p⟩ (r.escape ++ rest) = Reader.outcome ⟨.text (t ++ r.replaced), p⟩ rest := by
  cases r with
  | invalid c => rfl
  | valid bytes =>
      simp only [Rune.escape, Rune.replaced]
      split_ifs with line paragraph
      · subst line
        rfl
      · subst paragraph
        rfl
      · exact outcome_ascii bytes t p rest

theorem outcome_runes (rs : List Rune) (t : Bytes) (p : Place) (rest : Bytes) :
    Reader.outcome ⟨.text t, p⟩ (rs.flatMap Rune.escape ++ rest) =
      Reader.outcome ⟨.text (t ++ rs.flatMap Rune.replaced), p⟩ rest := by
  induction rs generalizing t with
  | nil => rw [List.flatMap_nil, List.flatMap_nil, List.nil_append, List.append_nil]
  | cons r rs ih => rw [List.flatMap_cons, List.append_assoc, outcome_escape, ih, List.flatMap_cons, List.append_assoc]

theorem outcome_encodeString (s : Bytes) (p : Place) (rest : Bytes) :
    Reader.outcome ⟨.gap, p⟩ (encodeString s ++ rest) =
      (p.next (.string (toValid s))).bind fun p => Reader.outcome ⟨.gap, p⟩ rest := by
  have opened : Reader.outcome ⟨.gap, p⟩ (encodeString s ++ rest) =
      Reader.outcome ⟨.text [], p⟩ ((runes s).flatMap Rune.escape ++ 34 :: rest) := by
    rw [encodeString, List.cons_append, List.append_assoc, List.singleton_append]
    rfl
  rw [opened, outcome_runes, List.nil_append, outcome_cons, Reader.step]
  simp only [if_true, Option.bind_map]
  rfl

end Strings

section Values

open JSON

theorem stops_encodeItems (items : List Json) {rest : Bytes} (stops : Stops rest) :
    Stops (encodeItems items ++ rest) := by
  cases items with
  | nil => exact stops
  | cons v items => exact stops_cons (by decide) _

theorem stops_encodeFields (fields : List (GoString × Json)) {rest : Bytes} (stops : Stops rest) :
    Stops (encodeFields fields ++ rest) := by
  rcases fields with _ | ⟨⟨key, v⟩, fields⟩
  · exact stops
  · exact stops_cons (by decide) _

mutual
theorem outcome_encode (v : Json) (numeric : v.numeric = true) (first : Bool) (stack : List Frame) {rest : Bytes}
    (stops : Stops rest) : Reader.outcome ⟨.gap, .value first stack⟩ (encode v ++ rest) =
      Reader.outcome ⟨.gap, deliver v.view stack⟩ rest := by
  cases v with
  | null =>
      rw [encode]
      exact outcome_word (by decide) (List.all_eq_true.mp rfl) rfl stops _
  | bool b =>
      cases b with
      | true =>
          rw [encode]
          exact outcome_word (by decide) (List.all_eq_true.mp rfl) rfl stops _
      | false =>
          rw [encode]
          exact outcome_word (by decide) (List.all_eq_true.mp rfl) rfl stops _
  | num literal =>
      have number : isNumber literal = true := numeric
      have viewed : (Json.num literal).view = .num ⟨literal, number⟩ := by rw [Json.view, dif_pos number]
      rw [viewed]
      refine outcome_word ?_ (wordBytes_of_isNumber number) (scalar_of_isNumber number) stops _
      rintro rfl
      exact absurd number (by decide)
  | str s => exact outcome_encodeString s _ rest
  | arr items =>
      cases items with
      | nil => rfl
      | cons v items =>
          rw [Json.numeric, numericItems, Bool.and_eq_true] at numeric
          rw [encode, List.cons_append, outcome_mark (q := .value true (.array [] :: stack)) rfl rfl]
          simp only [List.append_assoc]
          have tail : Stops ([93] ++ rest) := stops_cons (by decide) _
          rw [outcome_encode v numeric.1 true _ (stops_encodeItems _ tail), deliver,
            outcome_encodeItems items numeric.2 _ stack tail, List.singleton_append,
            outcome_mark (q := deliver (Json.arr (v :: items)).view stack) rfl rfl]
  | obj fields =>
      rcases fields with _ | ⟨⟨key, v⟩, fields⟩
      · rfl
      · rw [Json.numeric, numericFields, Bool.and_eq_true] at numeric
        rw [encode, List.cons_append, outcome_mark (q := .key true [] stack) rfl rfl]
        simp only [List.append_assoc, List.cons_append, List.nil_append]
        have tail : Stops (125 :: rest) := stops_cons (by decide) _
        rw [outcome_encodeString, Place.next, Option.bind_some,
          outcome_mark (q := .value false (.object [] (toValid key) :: stack)) rfl rfl,
          outcome_encode v numeric.1 false _ (stops_encodeFields _ tail), deliver,
          outcome_encodeFields fields numeric.2 _ stack tail,
          outcome_mark (q := deliver (Json.obj ((key, v) :: fields)).view stack) rfl rfl]

theorem outcome_encodeItems (items : List Json) (numeric : numericItems items = true) (done : List JSON)
    (stack : List Frame) {rest : Bytes} (stops : Stops rest) :
    Reader.outcome ⟨.gap, .item done stack⟩ (encodeItems items ++ rest) =
      Reader.outcome ⟨.gap, .item (done ++ viewItems items) stack⟩ rest := by
  cases items with
  | nil => rw [encodeItems, viewItems, List.nil_append, List.append_nil]
  | cons v items =>
      rw [numericItems, Bool.and_eq_true] at numeric
      rw [encodeItems, List.cons_append, outcome_mark (q := .value false (.array done :: stack)) rfl rfl]
      simp only [List.append_assoc]
      rw [outcome_encode v numeric.1 false _ (stops_encodeItems _ stops), deliver,
        outcome_encodeItems items numeric.2 _ stack stops, viewItems, List.append_assoc, List.singleton_append]

theorem outcome_encodeFields (fields : List (GoString × Json)) (numeric : numericFields fields = true)
    (done : List (Bytes × JSON)) (stack : List Frame) {rest : Bytes} (stops : Stops rest) :
    Reader.outcome ⟨.gap, .field done stack⟩ (encodeFields fields ++ rest) =
      Reader.outcome ⟨.gap, .field (done ++ viewFields fields) stack⟩ rest := by
  rcases fields with _ | ⟨⟨key, v⟩, fields⟩
  · rw [encodeFields, viewFields, List.nil_append, List.append_nil]
  · rw [numericFields, Bool.and_eq_true] at numeric
    rw [encodeFields, List.cons_append, outcome_mark (q := .key false done stack) rfl rfl]
    simp only [List.append_assoc, List.cons_append]
    rw [outcome_encodeString, Place.next, Option.bind_some,
      outcome_mark (q := .value false (.object done (toValid key) :: stack)) rfl rfl,
      outcome_encode v numeric.1 false _ (stops_encodeFields _ stops), deliver,
      outcome_encodeFields fields numeric.2 _ stack stops, viewFields, List.append_assoc, List.singleton_append]
end

theorem numericFields_eq (fields : List (GoString × Json)) :
    numericFields fields = fields.all fun entry => entry.2.numeric := by
  induction fields with
  | nil => rfl
  | cons entry fields ih => rw [numericFields, List.all_cons, ih]

mutual
theorem numeric_sorted (v : Json) : v.sorted.numeric = v.numeric := by
  cases v with
  | arr items =>
      rw [Json.sorted, Json.numeric, Json.numeric]
      exact numericItems_sorted items
  | obj fields =>
      rw [Json.sorted, Json.numeric, Json.numeric, numericFields_eq, (List.mergeSort_perm _ _).all_eq,
        ← numericFields_eq]
      exact numericFields_sorted fields
  | null => rfl
  | bool b => rfl
  | num literal => rfl
  | str s => rfl

theorem numericItems_sorted (items : List Json) : numericItems (sortedItems items) = numericItems items := by
  cases items with
  | nil => rfl
  | cons v items => rw [sortedItems, numericItems, numericItems, numeric_sorted v, numericItems_sorted items]

theorem numericFields_sorted (fields : List (GoString × Json)) :
    numericFields (sortedFields fields) = numericFields fields := by
  rcases fields with _ | ⟨⟨key, v⟩, fields⟩
  · rfl
  · rw [sortedFields, numericFields, numericFields, numeric_sorted v, numericFields_sorted fields]
end

/-- A reader gets the value, in the order in which it was written. -/
theorem parse_marshal {v : Json} (numeric : v.numeric = true) : parse (marshal v) = some v.sorted.view := by
  have ends : Stops [] := by simp [Stops]
  have read := outcome_encode v.sorted ((numeric_sorted v).trans numeric) false [] ends
  rw [List.append_nil] at read
  exact read

/-! ## Properties -/

theorem sortedFields_eq (fields : List (GoString × Json)) :
    sortedFields fields = fields.map fun entry => (entry.1, entry.2.sorted) := by
  induction fields with
  | nil => rfl
  | cons entry fields ih => rw [sortedFields, List.map_cons, ih]

theorem viewFields_eq (fields : List (GoString × Json)) :
    viewFields fields = fields.map fun entry => (toValid entry.1, entry.2.view) := by
  induction fields with
  | nil => rfl
  | cons entry fields ih => rw [viewFields, List.map_cons, ih]

/-- The property of an object. -/
def property (name : GoString) : JSON → Option JSON
  | .obj fields => JSON.lookup fields name
  | _ => none

/-- A property of what was marshalled is read back, wherever its name was sorted to. -/
theorem property_view {fields : List (GoString × Json)} (distinct : (fields.map Prod.fst).Nodup)
    (plain : ∀ name ∈ fields.map Prod.fst, toValid name = name) {name : GoString} {v : Json}
    (member : (name, v) ∈ fields) : property name (Json.obj fields).sorted.view = some v.sorted.view := by
  rw [Json.sorted, Json.view, property, viewFields_eq, sortedFields_eq]
  have order := List.mergeSort_perm (fields.map fun entry => (entry.1, entry.2.sorted)) fun a b => a.1 ≤ b.1
  generalize List.mergeSort _ _ = fields' at order
  have names : (fields'.map Prod.fst).Perm (fields.map Prod.fst) := by
    simpa [Function.comp_def] using order.map Prod.fst
  have same : fields'.map (fun entry => (toValid entry.1, entry.2.view)) =
      fields'.map fun entry => (entry.1, entry.2.view) := by
    refine List.map_congr_left fun entry inside => ?_
    rw [plain entry.1 (names.subset (List.mem_map_of_mem inside))]
  rw [same]
  refine JSON.lookup_of_mem ?_ ?_
  · simpa [Function.comp_def] using names.nodup_iff.mpr distinct
  · have sorted : (name, v.sorted) ∈ fields' := order.mem_iff.mpr (List.mem_map_of_mem member)
    exact List.mem_map_of_mem sorted

end Values

/-! ## One line -/

section Lines

open EventStream

theorem inline_lowerHex : ∀ n < 16, JSON.lowerHex n ≠ 10 ∧ JSON.lowerHex n ≠ 13 := by decide

theorem inline_escapeAscii (c : UInt8) : Inline (escapeAscii c) := by
  unfold escapeAscii
  split_ifs with quoted line ret tab code
  · rcases quoted with rfl | rfl <;> decide
  · decide
  · decide
  · decide
  · have small : c.toNat < 128 := by
      rcases code with control | rfl | rfl | rfl
      · have below : c.toNat < 32 := by simpa [UInt8.lt_iff_toNat_lt] using control
        omega
      all_goals decide
    have high := inline_lowerHex (c.toNat / 16) (by omega)
    have low := inline_lowerHex (c.toNat % 16) (by omega)
    exact (by decide : Inline (lit "\\u00")).append (.cons high (.cons low nofun))
  · exact .cons ⟨line, ret⟩ nofun

theorem inline_escape (r : Rune) : Inline r.escape := by
  cases r with
  | invalid c => exact (by decide : Inline (lit "\\ufffd"))
  | valid bytes =>
      simp only [Rune.escape]
      split_ifs
      · decide
      · decide
      · exact .flatMap inline_escapeAscii bytes

theorem inline_encodeString (s : GoString) : Inline (encodeString s) :=
  .cons (by decide) ((Inline.flatMap inline_escape _).append (by decide))

theorem inline_of_wordBytes {text : GoString} (word : ∀ c ∈ text, JSON.isWordByte c = true) : Inline text := by
  intro c member
  have here := word c member
  constructor
  all_goals
    rintro rfl
    exact absurd here (by decide)

mutual
theorem inline_encode (v : Json) (numeric : v.numeric = true) : Inline (encode v) := by
  cases v with
  | null => decide
  | bool b => cases b <;> decide
  | num literal => exact inline_of_wordBytes (JSON.wordBytes_of_isNumber numeric)
  | str s => exact inline_encodeString s
  | arr items =>
      cases items with
      | nil => decide
      | cons v items =>
          rw [Json.numeric, numericItems, Bool.and_eq_true] at numeric
          exact .cons (by decide)
            ((inline_encode v numeric.1).append ((inline_encodeItems items numeric.2).append (by decide)))
  | obj fields =>
      rcases fields with _ | ⟨⟨key, v⟩, fields⟩
      · decide
      · rw [Json.numeric, numericFields, Bool.and_eq_true] at numeric
        exact .cons (by decide) ((inline_encodeString key).append (.cons (by decide)
          ((inline_encode v numeric.1).append ((inline_encodeFields fields numeric.2).append (by decide)))))

theorem inline_encodeItems (items : List Json) (numeric : numericItems items = true) : Inline (encodeItems items) := by
  cases items with
  | nil => exact nofun
  | cons v items =>
      rw [numericItems, Bool.and_eq_true] at numeric
      exact .cons (by decide) ((inline_encode v numeric.1).append (inline_encodeItems items numeric.2))

theorem inline_encodeFields (fields : List (GoString × Json)) (numeric : numericFields fields = true) :
    Inline (encodeFields fields) := by
  rcases fields with _ | ⟨⟨key, v⟩, fields⟩
  · exact nofun
  · rw [numericFields, Bool.and_eq_true] at numeric
    exact .cons (by decide) ((inline_encodeString key).append (.cons (by decide)
      ((inline_encode v numeric.1).append (inline_encodeFields fields numeric.2))))
end

theorem inline_marshal {v : Json} (numeric : v.numeric = true) : Inline (marshal v) :=
  inline_encode v.sorted ((numeric_sorted v).trans numeric)

end Lines

end OpencodeRemote.Stub
