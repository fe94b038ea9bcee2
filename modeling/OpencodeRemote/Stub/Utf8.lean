import OpencodeRemote.Stub.GoString

/-! # Valid UTF-8

A Go string can hold any bytes, JSON only characters: on the way into a JSON text and back,
each byte that belongs to no character becomes the replacement character. What has been
made valid once stays as it is.
-/

namespace OpencodeRemote.Stub

/-- What `utf8.DecodeRune` finds: a character with its bytes, or a byte that starts none. -/
inductive Rune where
  | valid (bytes : GoString)
  | invalid (c : UInt8)
  deriving DecidableEq

/-- How many bytes follow this one in its character, and within which bounds the first of
    them is. -/
def Rune.shape (c : UInt8) : Option (Nat × UInt8 × UInt8) :=
  if c < 128 then some (0, 0, 255)
  else if 194 ≤ c ∧ c ≤ 223 then some (1, 128, 191)
  else if c = 224 then some (2, 160, 191)
  else if c = 237 then some (2, 128, 159)
  else if 225 ≤ c ∧ c ≤ 239 then some (2, 128, 191)
  else if c = 240 then some (3, 144, 191)
  else if 241 ≤ c ∧ c ≤ 243 then some (3, 128, 191)
  else if c = 244 then some (3, 128, 143)
  else none

def Rune.following (c : UInt8) (rest : GoString) : Option Nat :=
  (Rune.shape c).bind fun (n, low, high) =>
    if n ≤ rest.length ∧ (rest.take n).all (fun d => 128 ≤ d ∧ d ≤ 191) ∧
        (rest.take (min n 1)).all (fun d => low ≤ d ∧ d ≤ high) then some n
    else none

/-- The loop over the characters of a string, for no more than `fuel` of them. -/
def runesFrom : Nat → GoString → List Rune
  | 0, _ => []
  | _ + 1, [] => []
  | fuel + 1, c :: rest =>
      match Rune.following c rest with
      | some n => .valid (c :: rest.take n) :: runesFrom fuel (rest.drop n)
      | none => .invalid c :: runesFrom fuel rest

def runes (s : GoString) : List Rune := runesFrom s.length s

/-- The replacement character stands for what is no character. -/
def Rune.replaced : Rune → GoString
  | .valid bytes => bytes
  | .invalid _ => [239, 191, 189]

/-- `strings.ToValidUTF8` with one replacement for each byte. -/
def toValid (s : GoString) : GoString := (runes s).flatMap Rune.replaced

example : toValid (lit "/home/" ++ [255]) = lit "/home/" ++ [239, 191, 189] := by decide

/-! ## Character by character -/

theorem following_le {c : UInt8} {rest : GoString} {n : Nat} (here : Rune.following c rest = some n) :
    n ≤ rest.length := by
  obtain ⟨⟨m, low, high⟩, -, tested⟩ := Option.bind_eq_some_iff.mp here
  obtain ⟨⟨inside, -⟩, same⟩ := Option.ite_none_right_eq_some.mp tested
  exact Option.some.inj same ▸ inside

/-- A character is recognised by its own bytes. -/
theorem following_append {c : UInt8} {rest : GoString} {n : Nat} (here : Rune.following c rest = some n)
    (more : GoString) : Rune.following c (rest.take n ++ more) = some n := by
  have inside := following_le here
  obtain ⟨⟨m, low, high⟩, shape, tested⟩ := Option.bind_eq_some_iff.mp here
  obtain ⟨⟨-, tail, first⟩, same⟩ := Option.ite_none_right_eq_some.mp tested
  obtain rfl : m = n := Option.some.inj same
  have long : (rest.take m).length = m := List.length_take_of_le inside
  have front {k : Nat} (shorter : k ≤ m) : (rest.take m ++ more).take k = rest.take k := by
    rw [List.take_append_of_le_length (by omega), List.take_take, Nat.min_eq_left shorter]
  have again : m ≤ (rest.take m ++ more).length := by
    rw [List.length_append, long]
    exact Nat.le_add_right _ _
  rw [Rune.following, shape, Option.bind_some]
  refine if_pos ⟨again, ?_, ?_⟩
  · rwa [front (Nat.le_refl m)]
  · rwa [front (Nat.min_le_left m 1)]

theorem runesFrom_of_le {fuel : Nat} {s : GoString} (enough : s.length ≤ fuel) : runesFrom fuel s = runes s := by
  have same : ∀ fuel fuel' (s : GoString), s.length ≤ fuel → s.length ≤ fuel' → runesFrom fuel s = runesFrom fuel' s := by
    intro fuel
    induction fuel with
    | zero =>
        intro fuel' s short _
        obtain rfl := List.eq_nil_of_length_eq_zero (Nat.le_zero.mp short)
        cases fuel' <;> rfl
    | succ fuel ih =>
        intro fuel' s short short'
        cases s with
        | nil => cases fuel' <;> rfl
        | cons c rest =>
            cases fuel' with
            | zero => cases short'
            | succ fuel' =>
                have less : rest.length ≤ fuel := Nat.le_of_succ_le_succ short
                have less' : rest.length ≤ fuel' := Nat.le_of_succ_le_succ short'
                simp only [runesFrom]
                cases Rune.following c rest with
                | none => exact congrArg _ (ih fuel' rest less less')
                | some n =>
                    have shorter : (rest.drop n).length ≤ rest.length := by simp
                    exact congrArg _ (ih fuel' _ (by omega) (by omega))
  exact same fuel s.length s enough (Nat.le_refl _)

theorem toValid_cons (c : UInt8) (rest : GoString) :
    toValid (c :: rest) = match Rune.following c rest with
      | some n => c :: rest.take n ++ toValid (rest.drop n)
      | none => [239, 191, 189] ++ toValid rest := by
  rw [toValid, runes, List.length_cons, runesFrom]
  cases Rune.following c rest with
  | none => rfl
  | some n =>
      have shorter : (rest.drop n).length ≤ rest.length := by simp
      change (Rune.valid (c :: rest.take n) :: runesFrom rest.length (rest.drop n)).flatMap Rune.replaced = _
      rw [runesFrom_of_le shorter]
      rfl

theorem toValid_toValid (s : GoString) : toValid (toValid s) = toValid s := by
  induction size : s.length using Nat.strongRecOn generalizing s with
  | _ size ih =>
      cases s with
      | nil => rfl
      | cons c rest =>
          rw [List.length_cons] at size
          rw [toValid_cons c rest]
          cases here : Rune.following c rest with
          | none =>
              have replacement : Rune.following 239 (191 :: 189 :: toValid rest) = some 2 := by
                simp [Rune.following, Rune.shape]
              change toValid (239 :: 191 :: 189 :: toValid rest) = _
              rw [toValid_cons, replacement]
              exact congrArg ([239, 191, 189] ++ ·) (ih rest.length (by omega) rest rfl)
          | some n =>
              have long : (rest.take n).length = n := List.length_take_of_le (following_le here)
              have later := ih (rest.drop n).length (by simp; omega) (rest.drop n) rfl
              simp only [List.cons_append]
              rw [toValid_cons, following_append here]
              simp only [List.take_left' long, List.drop_left' long, later, List.cons_append]

/-! ## ASCII -/

theorem following_ascii {c : UInt8} (ascii : c < 128) (rest : GoString) : Rune.following c rest = some 0 := by
  simp [Rune.following, Rune.shape, ascii]

theorem runesFrom_ascii {s : GoString} (ascii : ∀ c ∈ s, c < 128) :
    runesFrom s.length s = s.map fun c => .valid [c] := by
  induction s with
  | nil => rfl
  | cons c s ih =>
      obtain ⟨first, later⟩ := List.forall_mem_cons.mp ascii
      rw [List.length_cons, runesFrom, following_ascii first, List.map_cons, ← ih later]
      rfl

theorem toValid_ascii {s : GoString} (ascii : ∀ c ∈ s, c < 128) : toValid s = s := by
  rw [toValid, runes, runesFrom_ascii ascii, List.flatMap_map]
  exact List.flatMap_singleton' s

end OpencodeRemote.Stub
