import Mathlib.Data.List.Nodup
import OpencodeRemote.Data.JSON

/-! # Strings and integers in JSON

Conversions to and from the values that a record is made of, and the lookup of a property:
where a name is there twice the later value holds.
-/

namespace OpencodeRemote.Data.JSON

def bytes (s : String) : Bytes := s.toByteArray.data.toList

def ofString (s : String) : JSON := .str (bytes s)

def toString? : JSON → Option String
  | .str s => String.fromUTF8? ⟨s.toArray⟩
  | _ => none

def digits (n : Nat) : Bytes := (Nat.toDigits 10 n).map fun c => c.toNat.toUInt8

def decimal : Int → Bytes
  | .ofNat n => digits n
  | .negSucc n => 45 :: digits (n + 1)

def lookup (fields : List (Bytes × JSON)) (key : Bytes) : Option JSON :=
  (fields.reverse.find? fun field => field.1 = key).map Prod.snd

/-- Where no name is there twice, each has its value. -/
theorem lookup_of_mem {fields : List (Bytes × JSON)} (distinct : (fields.map Prod.fst).Nodup) {key : Bytes} {v : JSON}
    (member : (key, v) ∈ fields) : lookup fields key = some v := by
  have found : (fields.reverse.find? fun field => field.1 = key).isSome = true :=
    List.find?_isSome.mpr ⟨(key, v), List.mem_reverse.mpr member, by simp⟩
  obtain ⟨entry, here⟩ := Option.isSome_iff_exists.mp found
  have inside : entry ∈ fields := List.mem_reverse.mp (List.mem_of_find?_eq_some here)
  have named : entry.1 = key := by simpa using List.find?_some here
  have same : entry = (key, v) := List.inj_on_of_nodup_map distinct inside member named
  rw [lookup, here, same]
  rfl

@[simp] theorem bytes_inj {s t : String} : bytes s = bytes t ↔ s = t := by
  constructor
  · intro same
    have data : s.toByteArray.data = t.toByteArray.data := Array.toList_inj.mp same
    exact String.toByteArray_inj.mp (ByteArray.ext data)
  · rintro rfl
    rfl

@[simp] theorem toString?_ofString (s : String) : (ofString s).toString? = some s := by
  have whole : (⟨(bytes s).toArray⟩ : ByteArray) = s.toByteArray := by simp [bytes]
  rw [ofString, toString?, whole, String.fromUTF8?, dif_pos s.isValidUTF8]
  rfl

/-! ## Integers -/

/-- The digit characters as they were before they were bytes. -/
def characters (w : Bytes) : List Char := w.map fun c => Char.ofNat c.toNat

def value (w : Bytes) : Nat := Nat.ofDigitChars 10 (characters w) 0

/-- The number where it is written as an integer. -/
def integer : Bytes → Option Int
  | 45 :: w => if isDigits w then some (-(value w : Int)) else none
  | w => if isDigits w then some (value w : Int) else none

def toInt? : JSON → Option Int
  | .num literal => integer literal.val
  | _ => none

theorem toNat_of_isDigit {c : Char} (digit : c.isDigit = true) : 48 ≤ c.toNat ∧ c.toNat ≤ 57 := by
  simpa [Char.isDigit, UInt32.le_iff_toNat_le] using digit

theorem isDigit_toUInt8 {c : Char} (digit : c.isDigit = true) : isDigit c.toNat.toUInt8 = true := by
  obtain ⟨low, high⟩ := toNat_of_isDigit digit
  have small : c.toNat % 256 = c.toNat := Nat.mod_eq_of_lt (by omega)
  simpa [isDigit, UInt8.le_iff_toNat_le, small] using ⟨low, high⟩

theorem characters_digits (n : Nat) : characters (digits n) = Nat.toDigits 10 n := by
  rw [characters, digits, List.map_map]
  refine (List.map_congr_left fun c member => ?_).trans (List.map_id _)
  have digit := Nat.isDigit_of_mem_toDigits (by omega) (by omega) member
  obtain ⟨low, high⟩ := toNat_of_isDigit digit
  have small : c.toNat % 256 = c.toNat := Nat.mod_eq_of_lt (by omega)
  simp [small]

theorem value_digits (n : Nat) : value (digits n) = n := by
  rw [value, characters_digits, Nat.ofDigitChars_ten_toDigits]

theorem isDigits_digits (n : Nat) : isDigits (digits n) = true := by
  have some_ : digits n ≠ [] := by simp [digits]
  have all : ∀ c ∈ digits n, isDigit c = true := by
    intro c member
    obtain ⟨d, inside, rfl⟩ := List.mem_map.mp member
    exact isDigit_toUInt8 (Nat.isDigit_of_mem_toDigits (by omega) (by omega) inside)
  simp only [isDigits, some_, ne_eq, not_false_eq_true, true_and, List.all_eq_true, decide_eq_true_eq]
  exact all

theorem digitChar_ne_zero : ∀ n < 10, 0 < n → n.digitChar.toNat.toUInt8 ≠ 48 := by decide

/-- Only zero is written with a zero in front. -/
theorem head_digits {n : Nat} (positive : 0 < n) : (digits n).head? ≠ some 48 := by
  induction n using Nat.strongRecOn with
  | ind n ih =>
      rw [digits, Nat.toDigits_eq_if (by omega)]
      split
      · rename_i small
        simpa using digitChar_ne_zero n small positive
      · rename_i large
        have earlier := ih (n / 10) (by omega) (by omega)
        rw [List.map_append, List.head?_append_of_ne_nil _ (by simp)]
        exact earlier

theorem isUnsigned_digits (n : Nat) : isUnsigned (digits n) = true := by
  by_cases zero : n = 0
  · subst zero
    rfl
  · have first := head_digits (Nat.pos_of_ne_zero zero)
    have all := isDigits_digits n
    unfold isUnsigned
    split
    · rename_i rest written
      simp [written] at first
    · rename_i c rest other written
      simp only [written, isDigits, List.all_cons, Bool.and_eq_true, decide_eq_true_eq] at all
      obtain ⟨-, digit, others⟩ := all
      rw [List.all_eq_true] at others
      rw [List.dropWhile_eq_nil_iff.mpr others, digit]
      rfl
    · rename_i none
      simp [none, isDigits] at all

theorem digits_ne_minus (n : Nat) (w : Bytes) : digits n ≠ 45 :: w := by
  intro minus
  have all := isDigits_digits n
  simp [minus, isDigits, show isDigit 45 = false by decide] at all

theorem isNumber_decimal (i : Int) : isNumber (decimal i) = true := by
  cases i with
  | ofNat n =>
      rw [decimal]
      unfold isNumber
      split
      · rename_i w minus
        exact absurd minus (digits_ne_minus n w)
      · exact isUnsigned_digits n
  | negSucc n => exact isUnsigned_digits (n + 1)

def ofInt (i : Int) : JSON := .num ⟨decimal i, isNumber_decimal i⟩

@[simp] theorem toInt?_ofInt (i : Int) : (ofInt i).toInt? = some i := by
  change integer (decimal i) = some i
  cases i with
  | ofNat n =>
      rw [decimal]
      unfold integer
      split
      · rename_i w minus
        exact absurd minus (digits_ne_minus n w)
      · rw [if_pos (isDigits_digits n), value_digits]
        rfl
  | negSucc n =>
      rw [decimal, integer, if_pos (isDigits_digits (n + 1)), value_digits]
      rfl

end OpencodeRemote.Data.JSON
