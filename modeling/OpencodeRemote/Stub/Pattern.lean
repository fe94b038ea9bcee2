import Mathlib.Data.List.Induction
import OpencodeRemote.Stub.GoString

/-! # Approval patterns

`matchPattern` compares bytes. Every pattern the stub writes is a directory string
followed by `/**`; for those the comparison amounts to a prefix test.
-/

namespace OpencodeRemote.Stub

/-- The `/**` of a subtree pattern. -/
def subtree : GoString := [slash, star, star]

def matchPattern (pattern path : GoString) : Bool :=
  if pattern = path then true
  else if 3 ≤ pattern.length ∧ pattern.drop (pattern.length - 3) = subtree then
    let pre := pattern.take (pattern.length - 3)
    if path = pre ∨ path = pre ++ [slash] then true
    else if pre.length < path.length ∧ path[pre.length]? = some slash then
      decide (path.take pre.length = pre)
    else false
  else if 0 < pattern.length ∧ pattern[pattern.length - 1]? = some star then
    let pre := pattern.take (pattern.length - 1)
    decide (pre.length ≤ path.length ∧ path.take pre.length = pre)
  else false

/-- A byte-wise prefix that ends at a slash. -/
private theorem slash_after_iff {d path : GoString} :
    (d.length < path.length ∧ path[d.length]? = some slash) ∧ path.take d.length = d ↔
      d ++ [slash] <+: path := by
  constructor
  · rintro ⟨⟨-, here⟩, front⟩
    refine ⟨path.drop (d.length + 1), ?_⟩
    have split := List.take_append_drop (d.length + 1) path
    rwa [List.take_add_one, front, here] at split
  · rintro ⟨rest, rfl⟩
    simp

/-- `d/**` matches `d` itself and everything spelled `d/...`. -/
theorem matchPattern_subtree {d path : GoString} :
    matchPattern (d ++ subtree) path = true ↔ path = d ∨ d ++ [slash] <+: path := by
  have long : 3 ≤ (d ++ subtree).length := by simp [subtree]
  have size : (d ++ subtree).length - 3 = d.length := by simp [subtree]
  simp only [matchPattern, size, List.take_left', List.drop_left', long, true_and, if_true]
  by_cases whole : d ++ subtree = path
  · subst whole
    simp [subtree]
  · by_cases exact_ : path = d
    · simp [exact_]
    · by_cases trailing : path = d ++ [slash]
      · simp [trailing]
      · have split := @slash_after_iff d path
        simp only [whole, exact_, trailing, if_false, or_false, false_or]
        rw [← split]
        by_cases here : d.length < path.length ∧ path[d.length]? = some slash
        · simp [here]
        · simp [here]

example : matchPattern (lit "/srv/app/**") (lit "/srv/app/logs") = true := by decide
example : matchPattern (lit "/srv/app/**") (lit "/srv/apple") = false := by decide

/-! ## Bounds -/

/-- `s[low:high]`, which panics out of bounds. -/
def slice (s : GoString) (low high : Int) : Option GoString :=
  if 0 ≤ low ∧ low ≤ high ∧ high ≤ s.length then some ((s.take high.toNat).drop low.toNat) else none

/-- `s[i]`. -/
def byteAt (s : GoString) (i : Int) : Option UInt8 := if 0 ≤ i then s[i.toNat]? else none

/-- Go's `&&` with an operand on the right that can panic. -/
def andAlso (first : Prop) [Decidable first] (second : Option Bool) : Option Bool :=
  if first then second else some false

/-- `matchPattern` with every index and slice checked. -/
def checkedMatchPattern (pattern path : GoString) : Option Bool :=
  if pattern = path then some true
  else do
    let size : Int := pattern.length
    if ← andAlso (3 ≤ size) ((slice pattern (size - 3) size).map fun suffix => decide (suffix = subtree)) then
      let pre ← slice pattern 0 (size - 3)
      if path = pre ∨ path = pre ++ [slash] then some true
      else if ← andAlso (pre.length < path.length) ((byteAt path pre.length).map fun c => decide (c = slash)) then
        (slice path 0 pre.length).map fun front => decide (front = pre)
      else some false
    else if ← andAlso (0 < size) ((byteAt pattern (size - 1)).map fun c => decide (c = star)) then
      let pre ← slice pattern 0 (size - 1)
      andAlso (pre.length ≤ path.length) ((slice path 0 pre.length).map fun front => decide (front = pre))
    else some false

theorem slice_front {s : GoString} {n : Nat} (inside : n ≤ s.length) : slice s 0 n = some (s.take n) := by
  rw [slice, if_pos (by omega)]
  simp

/-- The slice before the last bytes. -/
theorem slice_before {s : GoString} {n : Nat} (inside : n ≤ s.length) :
    slice s 0 (s.length - n : Int) = some (s.take (s.length - n)) := by
  rw [← slice_front (Nat.sub_le s.length n), Int.ofNat_sub inside]

theorem slice_last {s : GoString} {n : Nat} (inside : n ≤ s.length) :
    slice s (s.length - n : Int) s.length = some (s.drop (s.length - n)) := by
  have low : (s.length - n : Int).toNat = s.length - n := by omega
  rw [slice, if_pos (by omega), low, Int.toNat_natCast, List.take_length]

theorem byteAt_eq {s : GoString} {n : Nat} (inside : n < s.length) (c : UInt8) :
    (byteAt s n).map (fun b => decide (b = c)) = some (decide (s[n]? = some c)) := by
  rw [byteAt, if_pos (by omega), Int.toNat_natCast, List.getElem?_eq_getElem inside]
  simp

/-- No index or slice is out of bounds. -/
theorem checkedMatchPattern_eq (pattern path : GoString) :
    checkedMatchPattern pattern path = some (matchPattern pattern path) := by
  have front {pre : GoString} (shorter : pre.length ≤ path.length) :
      (slice path 0 pre.length).map (fun front => decide (front = pre)) =
        some (decide (path.take pre.length = pre)) := by
    rw [slice_front shorter]
    rfl
  have below (pre : GoString) :
      andAlso (pre.length < path.length) ((byteAt path pre.length).map fun c => decide (c = slash)) =
        some (decide (pre.length < path.length ∧ path[pre.length]? = some slash)) := by
    by_cases longer : pre.length < path.length
    · rw [andAlso, if_pos longer, byteAt_eq longer]
      simp [longer]
    · simp [andAlso, longer]
  have suffix : andAlso (3 ≤ (pattern.length : Int))
      ((slice pattern (pattern.length - 3) pattern.length).map fun suffix => decide (suffix = subtree)) =
        some (decide (3 ≤ pattern.length ∧ pattern.drop (pattern.length - 3) = subtree)) := by
    by_cases long : 3 ≤ pattern.length
    · have last : slice pattern (pattern.length - 3 : Int) pattern.length = _ := slice_last (n := 3) long
      rw [andAlso, if_pos (by omega), last]
      simp [long]
    · rw [andAlso, if_neg (by omega)]
      simp [long]
  have starred : andAlso (0 < (pattern.length : Int))
      ((byteAt pattern (pattern.length - 1)).map fun c => decide (c = star)) =
        some (decide (0 < pattern.length ∧ pattern[pattern.length - 1]? = some star)) := by
    by_cases some_ : 0 < pattern.length
    · have last := byteAt_eq (s := pattern) (n := pattern.length - 1) (by omega) star
      rw [Int.ofNat_sub some_] at last
      rw [andAlso, if_pos (by omega)]
      simpa [some_] using last
    · rw [andAlso, if_neg (by omega)]
      simp [some_]
  rw [checkedMatchPattern, matchPattern]
  by_cases same : pattern = path
  · rw [if_pos same, if_pos same]
  · rw [if_neg same, if_neg same]
    simp only [suffix, starred, Option.bind_eq_bind, Option.bind_some, decide_eq_true_eq]
    by_cases deep : 3 ≤ pattern.length ∧ pattern.drop (pattern.length - 3) = subtree
    · have pre : slice pattern 0 (pattern.length - 3 : Int) = _ := slice_before (n := 3) deep.1
      rw [if_pos deep, if_pos deep, pre, Option.bind_some, below, Option.bind_some]
      split
      · rfl
      · simp only [decide_eq_true_eq]
        split
        · rename_i inside
          exact front (Nat.le_of_lt inside.1)
        · rfl
    · rw [if_neg deep, if_neg deep]
      split
      · rename_i last
        have pre : slice pattern 0 (pattern.length - 1 : Int) = _ := slice_before (n := 1) last.1
        rw [pre, Option.bind_some, andAlso]
        split
        · rename_i shorter
          rw [front shorter]
          exact congrArg some (decide_eq_decide.mpr (and_iff_right shorter).symm)
        · rename_i longer
          exact congrArg some (decide_eq_false fun both => longer both.1).symm
      · rfl

/-! ## Meaning -/

/-- What a pattern is supposed to match. -/
def Meant (pattern path : GoString) : Prop :=
  path = pattern ∨ (∃ b, pattern = b ++ subtree ∧ (path = b ∨ b ++ [slash] <+: path)) ∨
    ∃ front, pattern = front ++ [star] ∧ (∀ b, pattern ≠ b ++ subtree) ∧ front <+: path

theorem exists_subtree_iff {pattern : GoString} : (∃ b, pattern = b ++ subtree) ↔
    3 ≤ pattern.length ∧ pattern.drop (pattern.length - 3) = subtree := by
  constructor
  · rintro ⟨b, rfl⟩
    simp [subtree]
  · rintro ⟨-, last⟩
    exact ⟨pattern.take (pattern.length - 3), by rw [← last, List.take_append_drop]⟩

theorem exists_star_iff {pattern : GoString} : pattern = pattern.take (pattern.length - 1) ++ [star] ↔
    0 < pattern.length ∧ pattern[pattern.length - 1]? = some star := by
  cases pattern using List.reverseRecOn with
  | nil => simp
  | append_singleton front c => simp

theorem matchPattern_iff_meant {pattern path : GoString} :
    matchPattern pattern path = true ↔ Meant pattern path := by
  by_cases deep : ∃ b, pattern = b ++ subtree
  · obtain ⟨b, rfl⟩ := deep
    rw [matchPattern_subtree, Meant]
    constructor
    · exact fun below => .inr (.inl ⟨b, rfl, below⟩)
    · rintro (rfl | ⟨other, same, below⟩ | ⟨front, -, other, -⟩)
      · exact .inr ⟨[star, star], by simp [subtree]⟩
      · exact List.append_cancel_right same ▸ below
      · exact absurd rfl (other b)
  · have none : ∀ b, pattern ≠ b ++ subtree := fun b split => deep ⟨b, split⟩
    rw [matchPattern, if_neg (exists_subtree_iff.not.mp deep), Meant]
    by_cases same : pattern = path
    · simp [same]
    · rw [if_neg same]
      by_cases starred : 0 < pattern.length ∧ pattern[pattern.length - 1]? = some star
      · have split := exists_star_iff.mpr starred
        rw [if_pos starred, decide_eq_true_eq]
        constructor
        · rintro ⟨-, front⟩
          exact .inr (.inr ⟨_, split, none, front ▸ List.take_prefix _ _⟩)
        · rintro (whole | ⟨b, below, -⟩ | ⟨front, ends, -, begins⟩)
          · exact absurd whole.symm same
          · exact absurd below (none b)
          · rw [split] at ends
            rw [List.append_cancel_right ends]
            exact ⟨begins.length_le, (List.prefix_iff_eq_take.mp begins).symm⟩
      · rw [if_neg starred]
        constructor
        · intro impossible
          cases impossible
        · rintro (whole | ⟨b, below, -⟩ | ⟨front, ends, -⟩)
          · exact absurd whole.symm same
          · exact absurd below (none b)
          · exact absurd (exists_star_iff.mp (by simp [ends])) starred

/-- All accesses are in bounds, patterns mean what they are supposed to, and the directory of a
    subtree pattern is covered with all that is below it and with none of its siblings. -/
theorem matchPattern_meaning (pattern path : GoString) :
    checkedMatchPattern pattern path = some (matchPattern pattern path) ∧
      (matchPattern pattern path = true ↔ Meant pattern path) ∧
      (∀ b more, matchPattern (b ++ subtree) path = true →
        matchPattern (b ++ subtree) (path ++ slash :: more) = true) ∧
      ∀ b c x, c ≠ slash → matchPattern (b ++ subtree) (b ++ c :: x) = false := by
  refine ⟨checkedMatchPattern_eq pattern path, matchPattern_iff_meant, fun b more matched => ?_,
    fun b c x sibling => ?_⟩
  · rw [matchPattern_subtree] at matched ⊢
    rcases matched with rfl | below
    · exact .inr ⟨more, by simp⟩
    · exact .inr (below.trans (List.prefix_append _ _))
  · rw [← Bool.not_eq_true, matchPattern_subtree]
    rintro (same | below)
    · simp at same
    · rw [List.prefix_append_right_inj, List.cons_prefix_cons] at below
      exact sibling below.1.symm

end OpencodeRemote.Stub
