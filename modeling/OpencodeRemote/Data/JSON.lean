import Mathlib.Data.List.Basic
import Mathlib.Data.List.TakeWhile

/-! # JSON texts

A text is read byte by byte by a machine without recursion: a lexer, and a stack of the
arrays and objects that are open. Strings are kept as they stand in UTF-8 and numbers as
they are written. What is printed is read back, and no beginning of an array's text is
the text of an array.
-/

namespace OpencodeRemote.Data

namespace JSON

abbrev Bytes := List UInt8

def isDigit (c : UInt8) : Bool := 48 ≤ c ∧ c ≤ 57

/-! ## Numbers -/

def isDigits (w : Bytes) : Bool := w ≠ [] ∧ w.all isDigit

/-- From the exponent on. -/
def isExponent : Bytes → Bool
  | [] => true
  | c :: rest =>
      (c = 101 ∨ c = 69) &&
        match rest with
        | 43 :: rest | 45 :: rest => isDigits rest
        | rest => isDigits rest

/-- From the decimal point on. -/
def isFraction : Bytes → Bool
  | 46 :: c :: rest => isDigit c && isExponent (rest.dropWhile isDigit)
  | rest => isExponent rest

def isUnsigned : Bytes → Bool
  | 48 :: rest => isFraction rest
  | c :: rest => isDigit c && isFraction (rest.dropWhile isDigit)
  | [] => false

def isNumber : Bytes → Bool
  | 45 :: rest => isUnsigned rest
  | rest => isUnsigned rest

end JSON

open JSON in
inductive JSON where
  | null
  | bool (b : Bool)
  | num (literal : { w : Bytes // isNumber w = true })
  | str (s : Bytes)
  | arr (items : List JSON)
  | obj (fields : List (Bytes × JSON))

namespace JSON

/-! ## Reading -/

inductive Token where
  | openArray
  | closeArray
  | openObject
  | closeObject
  | comma
  | colon
  | string (s : Bytes)
  /-- A number or one of the three names. -/
  | word (v : JSON)

/-- An array or object that is open, without the value that is being read. -/
inductive Frame where
  | array (items : List JSON)
  | object (fields : List (Bytes × JSON)) (key : Bytes)

/-- What is read next; `first` says that nothing stands between the bracket and here. -/
inductive Place where
  | value (first : Bool) (stack : List Frame)
  | item (items : List JSON) (stack : List Frame)
  | key (first : Bool) (fields : List (Bytes × JSON)) (stack : List Frame)
  | colon (fields : List (Bytes × JSON)) (key : Bytes) (stack : List Frame)
  | field (fields : List (Bytes × JSON)) (stack : List Frame)
  | done (v : JSON)

/-- The place behind a value. -/
def deliver (v : JSON) : List Frame → Place
  | [] => .done v
  | .array items :: stack => .item (items ++ [v]) stack
  | .object fields key :: stack => .field (fields ++ [(key, v)]) stack

def Place.next : Place → Token → Option Place
  | .value _ stack, .word v => some (deliver v stack)
  | .value _ stack, .string s => some (deliver (.str s) stack)
  | .value _ stack, .openArray => some (.value true (.array [] :: stack))
  | .value true (.array items :: stack), .closeArray => some (deliver (.arr items) stack)
  | .value _ stack, .openObject => some (.key true [] stack)
  | .item items stack, .comma => some (.value false (.array items :: stack))
  | .item items stack, .closeArray => some (deliver (.arr items) stack)
  | .key _ fields stack, .string s => some (.colon fields s stack)
  | .key true fields stack, .closeObject => some (deliver (.obj fields) stack)
  | .colon fields name stack, .colon => some (.value false (.object fields name :: stack))
  | .field fields stack, .comma => some (.key false fields stack)
  | .field fields stack, .closeObject => some (deliver (.obj fields) stack)
  | _, _ => none

def isSpace (c : UInt8) : Bool := c = 32 ∨ c = 9 ∨ c = 10 ∨ c = 13

def isWordByte (c : UInt8) : Bool :=
  isDigit c ∨ (65 ≤ c ∧ c ≤ 90) ∨ (97 ≤ c ∧ c ≤ 122) ∨ c = 43 ∨ c = 45 ∨ c = 46

def mark (c : UInt8) : Option Token :=
  if c = 91 then some .openArray
  else if c = 93 then some .closeArray
  else if c = 123 then some .openObject
  else if c = 125 then some .closeObject
  else if c = 44 then some .comma
  else if c = 58 then some .colon
  else none

/-- `null`, `true`, `false` or a number. -/
def scalar (w : Bytes) : Option JSON :=
  if w = [110, 117, 108, 108] then some .null
  else if w = [116, 114, 117, 101] then some (.bool true)
  else if w = [102, 97, 108, 115, 101] then some (.bool false)
  else if number : isNumber w = true then some (.num ⟨w, number⟩)
  else none

inductive Lexer where
  | gap
  | word (w : Bytes)
  | text (s : Bytes)
  | escape (s : Bytes)
  /-- Behind `\u` and the hexadecimal digits of `n`, of which `left + 1` are still to come. -/
  | hex (s : Bytes) (n left : Nat)

structure Reader where
  lexer : Lexer
  place : Place

def hexDigit (c : UInt8) : Option Nat :=
  if 48 ≤ c ∧ c ≤ 57 then some (c.toNat - 48)
  else if 65 ≤ c ∧ c ≤ 70 then some (c.toNat - 55)
  else if 97 ≤ c ∧ c ≤ 102 then some (c.toNat - 87)
  else none

/-- A code unit in UTF-8; a surrogate is encoded on its own. -/
def encodeUnit (n : Nat) : Bytes :=
  if n < 128 then [n.toUInt8]
  else if n < 2048 then [(192 + n / 64).toUInt8, (128 + n % 64).toUInt8]
  else [(224 + n / 4096).toUInt8, (128 + n / 64 % 64).toUInt8, (128 + n % 64).toUInt8]

/-- The character of two surrogates; `high` and `low` are what they say beyond their kind. -/
def encodePair (high low : Nat) : Bytes :=
  let n := 65536 + 1024 * high + low
  [(240 + n / 262144).toUInt8, (128 + n / 4096 % 64).toUInt8, (128 + n / 64 % 64).toUInt8, (128 + n % 64).toUInt8]

/-- A text with one more code unit; a low surrogate joins the high one before it. -/
def appendUnit (s : Bytes) (n : Nat) : Bytes :=
  if 56320 ≤ n ∧ n < 57344 then
    match s.reverse with
    | c :: b :: 237 :: front =>
        if 160 ≤ b ∧ b ≤ 175 then
          front.reverse ++ encodePair (64 * (b.toNat - 160) + (c.toNat - 128)) (n - 56320)
        else s ++ encodeUnit n
    | _ => s ++ encodeUnit n
  else s ++ encodeUnit n

example : appendUnit (encodeUnit 55357) 56832 = [240, 159, 152, 128] := by decide

/-- The byte that a letter behind a backslash stands for. -/
def unescape (c : UInt8) : Option UInt8 :=
  if c = 34 ∨ c = 92 ∨ c = 47 then some c
  else if c = 98 then some 8
  else if c = 102 then some 12
  else if c = 110 then some 10
  else if c = 114 then some 13
  else if c = 116 then some 9
  else none

/-- A byte between tokens. -/
def Place.read (p : Place) (c : UInt8) : Option Reader :=
  if isSpace c then some ⟨.gap, p⟩
  else if c = 34 then some ⟨.text [], p⟩
  else if isWordByte c then some ⟨.word [c], p⟩
  else ((mark c).bind p.next).map fun p => ⟨.gap, p⟩

def Reader.step (r : Reader) (c : UInt8) : Option Reader :=
  match r.lexer with
  | .gap => r.place.read c
  | .word w =>
      if isWordByte c then some ⟨.word (w ++ [c]), r.place⟩
      else ((scalar w).bind fun v => r.place.next (.word v)).bind fun p => p.read c
  | .text s =>
      if c = 34 then (r.place.next (.string s)).map fun p => ⟨.gap, p⟩
      else if c = 92 then some ⟨.escape s, r.place⟩
      else if c < 32 then none
      else some ⟨.text (s ++ [c]), r.place⟩
  | .escape s =>
      if c = 117 then some ⟨.hex s 0 3, r.place⟩
      else (unescape c).map fun d => ⟨.text (s ++ [d]), r.place⟩
  | .hex s n left =>
      (hexDigit c).map fun d =>
        match left with
        | 0 => ⟨.text (appendUnit s (16 * n + d)), r.place⟩
        | left + 1 => ⟨.hex s (16 * n + d) left, r.place⟩

/-- At the end of the text. -/
def Reader.finish (r : Reader) : Option JSON :=
  let place : Option Place :=
    match r.lexer with
    | .gap => some r.place
    | .word w => (scalar w).bind fun v => r.place.next (.word v)
    | _ => none
  match place with
  | some (.done v) => some v
  | _ => none

def Reader.outcome (r : Reader) (text : Bytes) : Option JSON :=
  (text.foldlM Reader.step r).bind Reader.finish

/-- `JSON.parse`, with `none` where it throws. -/
def parse (text : Bytes) : Option JSON := Reader.outcome ⟨.gap, .value false []⟩ text

/-! ## Printing -/

def lowerHex (n : Nat) : UInt8 := if n < 10 then (48 + n).toUInt8 else (87 + n).toUInt8

def escapeByte (c : UInt8) : Bytes :=
  if c = 34 then [92, 34]
  else if c = 92 then [92, 92]
  else if c = 8 then [92, 98]
  else if c = 12 then [92, 102]
  else if c = 10 then [92, 110]
  else if c = 13 then [92, 114]
  else if c = 9 then [92, 116]
  else if c < 32 then [92, 117, 48, 48, lowerHex (c.toNat / 16), lowerHex (c.toNat % 16)]
  else [c]

def quote (s : Bytes) : Bytes := 34 :: (s.flatMap escapeByte ++ [34])

def newline (depth : Nat) : Bytes := 10 :: List.replicate (2 * depth) 32

mutual
def print (depth : Nat) : JSON → Bytes
  | .null => [110, 117, 108, 108]
  | .bool true => [116, 114, 117, 101]
  | .bool false => [102, 97, 108, 115, 101]
  | .num literal => literal.val
  | .str s => quote s
  | .arr [] => [91, 93]
  | .arr (v :: rest) =>
      91 :: (newline (depth + 1) ++ (print (depth + 1) v ++ (printItems (depth + 1) rest ++ (newline depth ++ [93]))))
  | .obj [] => [123, 125]
  | .obj ((key, v) :: rest) =>
      123 :: (newline (depth + 1) ++ (quote key ++ (58 :: 32 :: (print (depth + 1) v ++
        (printFields (depth + 1) rest ++ (newline depth ++ [125]))))))

def printItems (depth : Nat) : List JSON → Bytes
  | [] => []
  | v :: rest => 44 :: (newline depth ++ (print depth v ++ printItems depth rest))

def printFields (depth : Nat) : List (Bytes × JSON) → Bytes
  | [] => []
  | (key, v) :: rest =>
      44 :: (newline depth ++ (quote key ++ (58 :: 32 :: (print depth v ++ printFields depth rest))))
end

/-- `JSON.stringify(v, null, 2)`. -/
def stringify (v : JSON) : Bytes := print 0 v

/-! ## Reading what is printed -/

theorem outcome_cons (r : Reader) (c : UInt8) (rest : Bytes) :
    r.outcome (c :: rest) = (r.step c).bind fun r => r.outcome rest := by
  rw [Reader.outcome, List.foldlM_cons, Option.bind_eq_bind, Option.bind_assoc]
  rfl

theorem outcome_space (p : Place) {c : UInt8} (space : isSpace c = true) (rest : Bytes) :
    Reader.outcome ⟨.gap, p⟩ (c :: rest) = Reader.outcome ⟨.gap, p⟩ rest := by
  rw [outcome_cons, Reader.step, Place.read, if_pos space, Option.bind_some]

theorem outcome_newline (p : Place) (depth : Nat) (rest : Bytes) :
    Reader.outcome ⟨.gap, p⟩ (newline depth ++ rest) = Reader.outcome ⟨.gap, p⟩ rest := by
  rw [newline, List.cons_append, outcome_space p rfl]
  induction 2 * depth with
  | zero => rfl
  | succ n ih => rw [List.replicate_succ, List.cons_append, outcome_space p rfl, ih]

/-- The machine at a mark between tokens. -/
theorem outcome_mark {p q : Place} {c : UInt8} {token : Token} (marks : mark c = some token)
    (next : p.next token = some q) (rest : Bytes) :
    Reader.outcome ⟨.gap, p⟩ (c :: rest) = Reader.outcome ⟨.gap, q⟩ rest := by
  have plain : isSpace c = false ∧ c ≠ 34 ∧ isWordByte c = false := by
    have one : c = 91 ∨ c = 93 ∨ c = 123 ∨ c = 125 ∨ c = 44 ∨ c = 58 := by
      simp only [mark] at marks
      grind
    rcases one with rfl | rfl | rfl | rfl | rfl | rfl <;> decide
  rw [outcome_cons, Reader.step, Place.read]
  simp [plain, marks, next]

/-! ### Strings -/

theorem hexDigit_lowerHex {n : Nat} (small : n < 16) : hexDigit (lowerHex n) = some n := by
  revert n
  decide

theorem appendUnit_ascii (s : Bytes) {c : UInt8} (ascii : c.toNat < 128) :
    appendUnit s (16 * (c.toNat / 16) + c.toNat % 16) = s ++ [c] := by
  rw [Nat.div_add_mod, appendUnit, if_neg (by omega), encodeUnit, if_pos ascii]
  simp

theorem outcome_escapeByte (s : Bytes) (p : Place) (c : UInt8) (rest : Bytes) :
    Reader.outcome ⟨.text s, p⟩ (escapeByte c ++ rest) = Reader.outcome ⟨.text (s ++ [c]), p⟩ rest := by
  unfold escapeByte
  split_ifs with h₁ h₂ h₃ h₄ h₅ h₆ h₇ control
  · subst h₁
    rfl
  · subst h₂
    rfl
  · subst h₃
    rfl
  · subst h₄
    rfl
  · subst h₅
    rfl
  · subst h₆
    rfl
  · subst h₇
    rfl
  · have below : c.toNat < 32 := by simpa [UInt8.lt_iff_toNat_lt] using control
    have high := hexDigit_lowerHex (n := c.toNat / 16) (by omega)
    have low := hexDigit_lowerHex (n := c.toNat % 16) (by omega)
    have zero : hexDigit 48 = some 0 := by decide
    have begins : (92 : UInt8) ≠ 34 := by decide
    simp [outcome_cons, Reader.step, begins, zero, high, low, appendUnit_ascii s (c := c) (by omega)]
  · rw [List.singleton_append, outcome_cons, Reader.step]
    simp [h₁, h₂, control]

theorem outcome_text (s t : Bytes) (p : Place) (rest : Bytes) :
    Reader.outcome ⟨.text t, p⟩ (s.flatMap escapeByte ++ 34 :: rest) =
      (p.next (.string (t ++ s))).bind fun p => Reader.outcome ⟨.gap, p⟩ rest := by
  induction s generalizing t with
  | nil =>
      rw [List.flatMap_nil, List.nil_append, List.append_nil, outcome_cons, Reader.step]
      simp only [if_true, Option.bind_map]
      rfl
  | cons c s ih =>
      rw [List.flatMap_cons, List.append_assoc, outcome_escapeByte, ih, List.append_assoc, List.singleton_append]

theorem outcome_quote (s : Bytes) (p : Place) (rest : Bytes) :
    Reader.outcome ⟨.gap, p⟩ (quote s ++ rest) =
      (p.next (.string s)).bind fun p => Reader.outcome ⟨.gap, p⟩ rest := by
  rw [quote, List.cons_append, List.append_assoc, List.singleton_append, outcome_cons]
  exact outcome_text s [] p rest

/-! ### Words -/

/-- What follows does not go on with a word. -/
def Stops (rest : Bytes) : Prop := ∀ c, rest.head? = some c → isWordByte c = false

theorem outcome_wordBytes {u : Bytes} (all : ∀ c ∈ u, isWordByte c = true) (w : Bytes) (p : Place) (rest : Bytes) :
    Reader.outcome ⟨.word w, p⟩ (u ++ rest) = Reader.outcome ⟨.word (w ++ u), p⟩ rest := by
  induction u generalizing w with
  | nil => rw [List.nil_append, List.append_nil]
  | cons c u ih =>
      have first : isWordByte c = true := all c List.mem_cons_self
      rw [List.cons_append, outcome_cons, Reader.step]
      simp only [first, if_true, Option.bind_some]
      rw [ih (fun d member => all d (List.mem_cons_of_mem _ member)), List.append_assoc, List.singleton_append]

theorem not_special_of_isWordByte {c : UInt8} (word : isWordByte c = true) : isSpace c = false ∧ c ≠ 34 := by
  constructor
  · by_contra space
    simp only [isSpace, decide_eq_false_iff_not, not_not] at space
    rcases space with rfl | rfl | rfl | rfl <;> exact absurd word (by decide)
  · rintro rfl
    exact absurd word (by decide)

/-- A word goes to the parser once something follows that does not belong to it. -/
theorem outcome_word {w : Bytes} {v : JSON} (some_ : w ≠ []) (all : ∀ c ∈ w, isWordByte c = true)
    (word : scalar w = some v) {rest : Bytes} (stops : Stops rest) (p : Place) :
    Reader.outcome ⟨.gap, p⟩ (w ++ rest) =
      (p.next (.word v)).bind fun p => Reader.outcome ⟨.gap, p⟩ rest := by
  obtain ⟨c, u, rfl⟩ := List.exists_cons_of_ne_nil some_
  have first : isWordByte c = true := all c List.mem_cons_self
  obtain ⟨solid, plain⟩ := not_special_of_isWordByte first
  rw [List.cons_append, outcome_cons, Reader.step, Place.read]
  simp only [solid, plain, first, Bool.false_eq_true, if_false, if_true, Option.bind_some]
  rw [outcome_wordBytes (fun d member => all d (List.mem_cons_of_mem _ member)), List.singleton_append]
  cases rest with
  | nil =>
      simp only [Reader.outcome, List.foldlM_nil, Option.pure_def, Option.bind_some, Reader.finish, word]
      cases p.next (.word v) <;> rfl
  | cons d rest =>
      have ends : isWordByte d = false := stops d rfl
      rw [outcome_cons, Reader.step]
      simp only [ends, Bool.false_eq_true, if_false, word, Option.bind_some]
      cases p.next (.word v) with
      | none => rfl
      | some p' => exact (outcome_cons ⟨.gap, p'⟩ d rest).symm

theorem isWordByte_of_isDigit {c : UInt8} (digit : isDigit c = true) : isWordByte c = true := by
  simp [isWordByte, digit]

theorem wordBytes_of_dropWhile {w : Bytes} (rest : ∀ c ∈ w.dropWhile isDigit, isWordByte c = true) :
    ∀ c ∈ w, isWordByte c = true := by
  intro c member
  rw [← List.takeWhile_append_dropWhile (p := isDigit) (l := w), List.mem_append] at member
  rcases member with digit | later
  · exact isWordByte_of_isDigit (List.mem_takeWhile_imp digit)
  · exact rest c later

theorem wordBytes_of_isDigits {w : Bytes} (digits : isDigits w = true) : ∀ c ∈ w, isWordByte c = true := by
  simp only [isDigits, Bool.decide_and, Bool.and_eq_true, decide_eq_true_eq, List.all_eq_true] at digits
  exact fun c member => isWordByte_of_isDigit (digits.2 c member)

theorem wordBytes_cons {c : UInt8} {w : Bytes} (first : isWordByte c = true)
    (rest : ∀ d ∈ w, isWordByte d = true) : ∀ d ∈ c :: w, isWordByte d = true :=
  List.forall_mem_cons.mpr ⟨first, rest⟩

theorem wordBytes_of_isExponent {w : Bytes} (exponent : isExponent w = true) : ∀ c ∈ w, isWordByte c = true := by
  cases w with
  | nil => simp
  | cons c w =>
      simp only [isExponent, Bool.and_eq_true, decide_eq_true_eq] at exponent
      obtain ⟨letter, digits⟩ := exponent
      refine wordBytes_cons (by rcases letter with rfl | rfl <;> decide) ?_
      split at digits
      · exact wordBytes_cons (by decide) (wordBytes_of_isDigits digits)
      · exact wordBytes_cons (by decide) (wordBytes_of_isDigits digits)
      · exact wordBytes_of_isDigits digits

theorem wordBytes_of_isFraction {w : Bytes} (fraction : isFraction w = true) : ∀ c ∈ w, isWordByte c = true := by
  unfold isFraction at fraction
  split at fraction
  · rw [Bool.and_eq_true] at fraction
    refine wordBytes_cons (by decide) (wordBytes_cons (isWordByte_of_isDigit fraction.1) ?_)
    exact wordBytes_of_dropWhile (wordBytes_of_isExponent fraction.2)
  · exact wordBytes_of_isExponent fraction

theorem wordBytes_of_isUnsigned {w : Bytes} (number : isUnsigned w = true) : ∀ c ∈ w, isWordByte c = true := by
  unfold isUnsigned at number
  split at number
  · exact wordBytes_cons (by decide) (wordBytes_of_isFraction number)
  · rw [Bool.and_eq_true] at number
    refine wordBytes_cons (isWordByte_of_isDigit number.1) ?_
    exact wordBytes_of_dropWhile (wordBytes_of_isFraction number.2)
  · simp

theorem wordBytes_of_isNumber {w : Bytes} (number : isNumber w = true) : ∀ c ∈ w, isWordByte c = true := by
  unfold isNumber at number
  split at number
  · exact wordBytes_cons (by decide) (wordBytes_of_isUnsigned number)
  · exact wordBytes_of_isUnsigned number

theorem scalar_of_isNumber {w : Bytes} (number : isNumber w = true) : scalar w = some (.num ⟨w, number⟩) := by
  have other : w ≠ [110, 117, 108, 108] ∧ w ≠ [116, 114, 117, 101] ∧ w ≠ [102, 97, 108, 115, 101] := by
    refine ⟨?_, ?_, ?_⟩ <;> rintro rfl <;> exact absurd number (by decide)
  simp [scalar, other, number]

/-! ### Values -/

theorem stops_cons {c : UInt8} (ends : isWordByte c = false) (rest : Bytes) : Stops (c :: rest) := by
  intro d same
  rw [List.head?_cons, Option.some.injEq] at same
  exact same ▸ ends

theorem stops_newline (depth : Nat) (rest : Bytes) : Stops (newline depth ++ rest) :=
  stops_cons (by decide) _

theorem stops_items (depth : Nat) (items : List JSON) {rest : Bytes} (stops : Stops rest) :
    Stops (printItems depth items ++ rest) := by
  cases items with
  | nil => exact stops
  | cons v items => exact stops_cons (by decide) _

theorem stops_fields (depth : Nat) (fields : List (Bytes × JSON)) {rest : Bytes} (stops : Stops rest) :
    Stops (printFields depth fields ++ rest) := by
  rcases fields with _ | ⟨⟨key, v⟩, fields⟩
  · exact stops
  · exact stops_cons (by decide) _

mutual
theorem outcome_print (depth : Nat) (v : JSON) (first : Bool) (stack : List Frame) {rest : Bytes}
    (stops : Stops rest) :
    Reader.outcome ⟨.gap, .value first stack⟩ (print depth v ++ rest) =
      Reader.outcome ⟨.gap, deliver v stack⟩ rest := by
  cases v with
  | null =>
      rw [print]
      exact outcome_word (by decide) (List.all_eq_true.mp rfl) rfl stops _
  | bool b =>
      cases b with
      | true =>
          rw [print]
          exact outcome_word (by decide) (List.all_eq_true.mp rfl) rfl stops _
      | false =>
          rw [print]
          exact outcome_word (by decide) (List.all_eq_true.mp rfl) rfl stops _
  | num literal =>
      have number := literal.property
      refine outcome_word ?_ (wordBytes_of_isNumber number) (scalar_of_isNumber number) stops _
      rintro none
      rw [none] at number
      exact absurd number (by decide)
  | str s => exact outcome_quote s _ rest
  | arr items =>
      cases items with
      | nil =>
          rw [print, List.cons_append, outcome_mark (q := .value true (.array [] :: stack)) rfl rfl,
            List.singleton_append, outcome_mark (q := deliver (.arr []) stack) rfl rfl]
      | cons v items =>
          rw [print, List.cons_append, outcome_mark (q := .value true (.array [] :: stack)) rfl rfl]
          simp only [List.append_assoc]
          have tail : Stops (newline depth ++ ([93] ++ rest)) := stops_newline depth _
          rw [outcome_newline, outcome_print (depth + 1) v true _ (stops_items _ _ tail), deliver,
            outcome_items (depth + 1) items _ stack tail, outcome_newline, List.singleton_append,
            outcome_mark (q := deliver (.arr (v :: items)) stack) rfl rfl]
  | obj fields =>
      rcases fields with _ | ⟨⟨key, v⟩, fields⟩
      · rw [print, List.cons_append, outcome_mark (q := .key true [] stack) rfl rfl,
          List.singleton_append, outcome_mark (q := deliver (.obj []) stack) rfl rfl]
      · rw [print, List.cons_append, outcome_mark (q := .key true [] stack) rfl rfl]
        simp only [List.append_assoc, List.cons_append, List.nil_append]
        have tail : Stops (newline depth ++ 125 :: rest) := stops_newline depth _
        rw [outcome_newline, outcome_quote, Place.next, Option.bind_some,
          outcome_mark (q := .value false (.object [] key :: stack)) rfl rfl, outcome_space _ rfl,
          outcome_print (depth + 1) v false _ (stops_fields _ _ tail), deliver,
          outcome_fields (depth + 1) fields _ stack tail, outcome_newline,
          outcome_mark (q := deliver (.obj ((key, v) :: fields)) stack) rfl rfl]

theorem outcome_items (depth : Nat) (items done : List JSON) (stack : List Frame) {rest : Bytes}
    (stops : Stops rest) :
    Reader.outcome ⟨.gap, .item done stack⟩ (printItems depth items ++ rest) =
      Reader.outcome ⟨.gap, .item (done ++ items) stack⟩ rest := by
  cases items with
  | nil => rw [printItems, List.nil_append, List.append_nil]
  | cons v items =>
      rw [printItems, List.cons_append, outcome_mark (q := .value false (.array done :: stack)) rfl rfl]
      simp only [List.append_assoc]
      rw [outcome_newline, outcome_print depth v false _ (stops_items _ _ stops), deliver,
        outcome_items depth items _ stack stops, List.append_assoc, List.singleton_append]

theorem outcome_fields (depth : Nat) (fields done : List (Bytes × JSON)) (stack : List Frame) {rest : Bytes}
    (stops : Stops rest) :
    Reader.outcome ⟨.gap, .field done stack⟩ (printFields depth fields ++ rest) =
      Reader.outcome ⟨.gap, .field (done ++ fields) stack⟩ rest := by
  rcases fields with _ | ⟨⟨key, v⟩, fields⟩
  · rw [printFields, List.nil_append, List.append_nil]
  · rw [printFields, List.cons_append, outcome_mark (q := .key false done stack) rfl rfl]
    simp only [List.append_assoc, List.cons_append]
    rw [outcome_newline, outcome_quote, Place.next, Option.bind_some,
      outcome_mark (q := .value false (.object done key :: stack)) rfl rfl, outcome_space _ rfl,
      outcome_print depth v false _ (stops_fields _ _ stops), deliver,
      outcome_fields depth fields _ stack stops, List.append_assoc, List.singleton_append]
end

/-- What is printed is read back. -/
theorem parse_stringify (v : JSON) : parse (stringify v) = some v := by
  have ends : Stops [] := by simp [Stops]
  have read := outcome_print 0 v false [] ends
  rw [List.append_nil] at read
  exact read

/-! ## Beginnings of texts -/

theorem next_done (v : JSON) (token : Token) : (Place.done v).next token = none := by
  cases token <;> rfl

/-- Within a token behind a whole value nothing is left to be read. -/
theorem outcome_token_done (v : JSON) {lexer : Lexer} (inside : lexer ≠ .gap) (rest : Bytes) :
    Reader.outcome ⟨lexer, .done v⟩ rest = none := by
  induction rest generalizing lexer with
  | nil =>
      simp only [Reader.outcome, List.foldlM_nil, Option.pure_def, Option.bind_some, Reader.finish]
      cases lexer with
      | gap => exact absurd rfl inside
      | word w => cases scalar w <;> simp [next_done]
      | text s => rfl
      | escape s => rfl
      | hex s n left => rfl
  | cons c rest ih =>
      rw [outcome_cons, Option.bind_eq_none_iff]
      intro r stepped
      suffices token : r.lexer ≠ .gap ∧ r.place = .done v by
        obtain ⟨lexer', place⟩ := r
        obtain ⟨inside', rfl⟩ := token
        exact ih inside'
      cases lexer with
      | gap => exact absurd rfl inside
      | word w =>
          simp only [Reader.step] at stepped
          split at stepped
          · cases stepped
            simp
          · cases scalar w <;> simp [next_done] at stepped
      | text s =>
          simp only [Reader.step, next_done, Option.map_none] at stepped
          split_ifs at stepped
          · cases stepped
            simp
          · cases stepped
            simp
      | escape s =>
          simp only [Reader.step] at stepped
          split at stepped
          · cases stepped
            simp
          · obtain ⟨d, -, rfl⟩ := Option.map_eq_some_iff.mp stepped
            simp
      | hex s n left =>
          simp only [Reader.step] at stepped
          obtain ⟨d, -, rfl⟩ := Option.map_eq_some_iff.mp stepped
          cases left <;> simp

/-- Behind a whole value there is room for spaces only. -/
theorem spaces_of_outcome_done {v w : JSON} {rest : Bytes} (read : Reader.outcome ⟨.gap, .done v⟩ rest = some w) :
    ∀ c ∈ rest, isSpace c = true := by
  induction rest with
  | nil => simp
  | cons c rest ih =>
      by_cases space : isSpace c = true
      · rw [outcome_space _ space] at read
        exact List.forall_mem_cons.mpr ⟨space, ih read⟩
      · rw [outcome_cons] at read
        simp only [Reader.step, Place.read, if_neg space] at read
        split_ifs at read
        · rw [Option.bind_some, outcome_token_done v (by simp)] at read
          cases read
        · rw [Option.bind_some, outcome_token_done v (by simp)] at read
          cases read
        · cases found : mark c <;> simp [found, next_done] at read

/-- A value that ends with a word is that word. -/
theorem deliver_eq_done {v w : JSON} {stack : List Frame} (whole : deliver v stack = .done w) : v = w := by
  rcases stack with _ | ⟨_ | _, stack⟩
  · exact Place.done.inj whole
  · cases whole
  · cases whole

theorem not_array_of_scalar {w : Bytes} {v : JSON} {items : List JSON} (word : scalar w = some v) :
    v ≠ .arr items := by
  rintro rfl
  unfold scalar at word
  split_ifs at word <;> cases word

/-- What parses to an array cannot be gone on with but by spaces. -/
theorem spaces_of_parse_array {text rest : Bytes} {items : List JSON} {v : JSON}
    (array : parse text = some (.arr items)) (whole : parse (text ++ rest) = some v) :
    ∀ c ∈ rest, isSpace c = true := by
  obtain ⟨r, read, finished⟩ := Option.bind_eq_some_iff.mp array
  have onward : r.outcome rest = some v := by
    rw [← whole, parse, Reader.outcome, Reader.outcome, List.foldlM_append, read]
    rfl
  obtain ⟨lexer, place⟩ := r
  cases lexer with
  | gap =>
      cases place <;> cases finished
      exact spaces_of_outcome_done onward
  | word w =>
      exfalso
      simp only [Reader.finish] at finished
      split at finished
      · rename_i v' ends
        cases finished
        obtain ⟨u, word, next⟩ := Option.bind_eq_some_iff.mp ends
        cases place with
        | value first stack =>
            rw [Place.next, Option.some.injEq] at next
            exact not_array_of_scalar word (deliver_eq_done next)
        | item | key | colon | field | done => cases next
      · cases finished
  | text s => cases finished
  | escape s => cases finished
  | hex s n left => cases finished

/-- Only the whole text of an array is the text of an array. -/
theorem parse_take {values items : List JSON} {n : Nat} (short : n < (stringify (.arr values)).length) :
    parse ((stringify (.arr values)).take n) ≠ some (.arr items) := by
  intro array
  have whole : parse ((stringify (.arr values)).take n ++ (stringify (.arr values)).drop n) = some (.arr values) := by
    rw [List.take_append_drop, parse_stringify]
  have spaces := spaces_of_parse_array array whole
  have last : (stringify (.arr values)).getLast? = some 93 := by
    cases values with
    | nil => rfl
    | cons v values =>
        rw [stringify, print]
        simp only [← List.cons_append, ← List.append_assoc, List.getLast?_concat]
  have bracket : (93 : UInt8) ∈ (stringify (.arr values)).drop n := by
    refine List.mem_of_getLast? ?_
    rw [List.getLast?_drop, if_neg (by omega), last]
  exact absurd (spaces 93 bracket) (by decide)

end JSON

end OpencodeRemote.Data
