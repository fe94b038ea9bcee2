import OpencodeRemote.Data.OrderedMap
import Mathlib.Data.List.Infix

/-! # Values of Python

What `json.load` returns, and the attributes and operators that the scripts use on it, with
the exceptions that they raise for values of other types.
-/

namespace OpencodeRemote.Python

open Data

/-- A string, as its code points. Bytes of the environment that are not UTF-8 are decoded to
    lone surrogates, so they are code points here, too. -/
abbrev Str := List Nat

def lit (s : String) : Str := s.toList.map Char.toNat

inductive Exception where
  | attributeError
  | typeError
  | indexError
  | valueError
  | recursionError
  | systemExit (status : Nat)
  deriving DecidableEq

section Exceptions

variable {α β : Type}

@[simp] theorem ok_bind (a : α) (f : α → Except Exception β) : (Except.ok a >>= f) = f a := rfl

@[simp] theorem error_bind (e : Exception) (f : α → Except Exception β) :
    (Except.error e >>= f) = .error e := rfl

@[simp] theorem pure_eq_ok (a : α) : (pure a : Except Exception α) = .ok a := rfl

@[simp] theorem throw_eq_error (e : Exception) : (throw e : Except Exception α) = .error e := rfl

end Exceptions

inductive Value where
  | none
  | bool (b : Bool)
  | int (n : Int)
  | float (repr : Str)
  | str (s : Str)
  | list (items : List Value)
  | dict (fields : List (Str × Value))

/-- The items of a dictionary, in the order in which their keys came in. -/
abbrev Fields := List (Str × Value)

/-! ## Dictionaries -/

namespace Fields

def find (fields : Fields) (key : Str) : Option Value :=
  @List.lookup Str Value instBEqOfDecidableEq key fields

/-- `d.get(key, default)`. -/
def get (fields : Fields) (key : Str) (default : Value) : Value := (fields.find key).getD default

/-- `d[key] = value`. -/
def setItem (fields : Fields) (key : Str) (value : Value) : Fields :=
  OrderedMap.writeEntry key value fields

theorem find_setItem (fields : Fields) (key other : Str) (value : Value) :
    (fields.setItem key value).find other = if other = key then some value else fields.find other :=
  OrderedMap.lookup_writeEntry key other value fields

@[simp] theorem find_setItem_self (fields : Fields) (key : Str) (value : Value) :
    (fields.setItem key value).find key = some value := by
  rw [find_setItem, if_pos rfl]

theorem setItem_eq_self {fields : Fields} {key : Str} {value : Value} (stored : fields.find key = some value) :
    fields.setItem key value = fields := OrderedMap.writeEntry_eq_self stored

end Fields

namespace Value

/-- The value has the methods of a dictionary. -/
def asDict : Value → Except Exception Fields
  | .dict fields => .ok fields
  | _ => .error .attributeError

/-- What `for .. in` goes through. -/
def iter : Value → Except Exception (List Value)
  | .list items => .ok items
  | .str s => .ok (s.map fun c => .str [c])
  | .dict fields => .ok (fields.map fun field => .str field.1)
  | _ => .error .typeError

/-- `value == s` for a string `s`. -/
def isStr (s : Str) : Value → Bool
  | .str other => other = s
  | _ => false

/-- `s in value` for a string `s`. -/
def contains (s : Str) : Value → Except Exception Bool
  | .list items => .ok (items.any (isStr s))
  | .str other => .ok (decide (s <:+: other))
  | .dict fields => .ok (Fields.find fields s).isSome
  | _ => .error .typeError

mutual

/-- How deep lists and dictionaries are nested. -/
def depth : Value → Nat
  | .list items => itemsDepth items + 1
  | .dict fields => fieldsDepth fields + 1
  | _ => 0

def itemsDepth : List Value → Nat
  | [] => 0
  | item :: rest => max item.depth (itemsDepth rest)

def fieldsDepth : List (Str × Value) → Nat
  | [] => 0
  | (_, value) :: rest => max value.depth (fieldsDepth rest)

end

end Value

/-! ## Numbers -/

/-- The zeros of the decimal digits of Unicode; the other nine digits follow each. -/
def zeros : List Nat :=
  [0x30, 0x660, 0x6f0, 0x7c0, 0x966, 0x9e6, 0xa66, 0xae6, 0xb66, 0xbe6, 0xc66, 0xce6, 0xd66, 0xde6,
    0xe50, 0xed0, 0xf20, 0x1040, 0x1090, 0x17e0, 0x1810, 0x1946, 0x19d0, 0x1a80, 0x1a90, 0x1b50,
    0x1bb0, 0x1c40, 0x1c50, 0xa620, 0xa8d0, 0xa900, 0xa9d0, 0xa9f0, 0xaa50, 0xabf0, 0xff10, 0x104a0,
    0x10d30, 0x11066, 0x110f0, 0x11136, 0x111d0, 0x112f0, 0x11450, 0x114d0, 0x11650, 0x116c0, 0x11730,
    0x118e0, 0x11950, 0x11c50, 0x11d50, 0x11da0, 0x16a60, 0x16ac0, 0x16b50, 0x1d7ce, 0x1d7d8, 0x1d7e2,
    0x1d7ec, 0x1d7f6, 0x1e140, 0x1e2f0, 0x1e950, 0x1fbf0]

def decimal (c : Nat) : Option Nat :=
  (zeros.find? fun first => first ≤ c ∧ c ≤ first + 9).map fun first => c - first

/-- The white space that may surround a number. -/
def isSpace (c : Nat) : Bool :=
  c ∈ [0x9, 0xA, 0xB, 0xC, 0xD, 0x20, 0x85, 0xA0, 0x1680, 0x2028, 0x2029, 0x202F, 0x205F, 0x3000] ||
    (0x2000 ≤ c && c ≤ 0x200A)

def underscore : Nat := 0x5F

/-- Digits, two of them possibly with an underscore between. -/
def digits : Str → Option (List Nat)
  | [] => none
  | [c] => (decimal c).map fun d => [d]
  | c :: next :: rest =>
      if next = underscore then do
        let d ← decimal c
        let more ← digits rest
        pure (d :: more)
      else do
        let d ← decimal c
        let more ← digits (next :: rest)
        pure (d :: more)

/-- The longest number that a string is converted to. -/
def maxDigits : Nat := 4300

/-- `int(s)`. -/
def int (s : Str) : Except Exception Int :=
  let stripped := ((s.dropWhile isSpace).reverse.dropWhile isSpace).reverse
  let (sign, body) : Int × Str := match stripped with
    | 0x2D :: body => (-1, body)
    | 0x2B :: body => (1, body)
    | body => (1, body)
  match digits body with
  | none => .error .valueError
  | some ds =>
      if ds.length ≤ maxDigits then .ok (sign * (ds.foldl (fun n d => 10 * n + d) 0 : Nat))
      else .error .valueError

end OpencodeRemote.Python
