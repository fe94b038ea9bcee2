import Mathlib.Data.List.Flatten
import OpencodeRemote.Stub.Handler

/-! # Canonical paths

The paths that `cleanPath` leaves as they are, told from their elements. What it makes of
any other path is canonical, and a part of what was there.
-/

namespace OpencodeRemote.Stub

open Filepath

/-- The path with these elements. -/
def joined (elements : List GoString) : GoString := elements.flatMap fun name => slash :: name

/-- The elements of a path behind its first slash. -/
def elements (path : GoString) : List GoString := (path.drop 1).splitOn slash

/-- No element is a dot or two dots, and only the last one may be empty. -/
structure Canonical (path : GoString) : Prop where
  rooted : path.head? = some slash
  whole : ∀ name ∈ (elements path).dropLast, name ≠ []
  plain : ∀ name ∈ elements path, name ≠ [dot] ∧ name ≠ dotdot

theorem joined_append (front back : List GoString) : joined (front ++ back) = joined front ++ joined back :=
  List.flatMap_append

theorem joined_cons (name : GoString) (names : List GoString) :
    joined (name :: names) = slash :: (name ++ joined names) := by
  rw [joined, List.flatMap_cons, List.cons_append]
  rfl

theorem intercalate_cons (name : GoString) (names : List GoString) :
    [slash].intercalate (name :: names) = name ++ joined names := by
  induction names generalizing name with
  | nil => simp [List.intercalate, joined]
  | cons second names ih =>
      have tail := ih second
      rw [joined_cons, ← tail]
      simp [List.intercalate]

theorem head?_joined {names : List GoString} (some_ : names ≠ []) : (joined names).head? = some slash := by
  obtain ⟨name, rest, rfl⟩ := List.exists_cons_of_ne_nil some_
  rw [joined_cons, List.head?_cons]

/-- A path is what its elements make, and they are those of no other list. -/
theorem joined_elements {path : GoString} (rooted : path.head? = some slash) : joined (elements path) = path := by
  cases path with
  | nil => cases rooted
  | cons c rest =>
      cases Option.some.inj rooted
      have back : [slash].intercalate (rest.splitOn slash) = rest := List.intercalate_splitOn slash
      rw [elements, List.drop_one, List.tail_cons]
      cases split : rest.splitOn slash with
      | nil => exact absurd split (List.splitOn_ne_nil slash rest)
      | cons name names =>
          rw [split, intercalate_cons] at back
          rw [joined_cons, back]

theorem elements_joined {names : List GoString} (some_ : names ≠ []) (free : ∀ name ∈ names, slash ∉ name) :
    elements (joined names) = names := by
  cases names with
  | nil => exact absurd rfl some_
  | cons name names =>
      have split := List.splitOn_intercalate slash free some_
      rw [intercalate_cons] at split
      rw [elements, joined_cons, List.drop_one, List.tail_cons, split]

theorem slash_not_mem_of_mem_splitOn {s name : GoString} (member : name ∈ s.splitOn slash) : slash ∉ name := by
  induction s generalizing name with
  | nil =>
      rw [List.splitOn_nil, List.mem_singleton] at member
      exact member ▸ List.not_mem_nil
  | cons c s ih =>
      rw [List.splitOn_cons_eq_if_modifyHead] at member
      split at member
      · rcases List.mem_cons.mp member with rfl | later
        · exact List.not_mem_nil
        · exact ih later
      · rename_i other
        cases split : s.splitOn slash with
        | nil => exact absurd split (List.splitOn_ne_nil slash s)
        | cons first rest =>
            rw [split] at member ih
            rcases List.mem_cons.mp member with rfl | later
            · have free := ih List.mem_cons_self
              simp only [List.mem_cons, not_or]
              exact ⟨fun same => other (by simp [same]), free⟩
            · exact ih (List.mem_cons_of_mem _ later)

theorem components_joined {names : List GoString} (some_ : names ≠ []) (free : ∀ name ∈ names, slash ∉ name) :
    components (joined names) = names.filter fun name => name ≠ [] ∧ name ≠ [dot] := by
  have split := elements_joined some_ free
  cases names with
  | nil => exact absurd rfl some_
  | cons name names =>
      rw [joined_cons] at split ⊢
      rw [elements, List.drop_one, List.tail_cons] at split
      have first : components (slash :: (name ++ joined names)) =
          components [] ++ components (name ++ joined names) := components_append [] _
      rw [first, components, components, split]
      rfl

/-! ## Cleaning -/

theorem descend_sublist (names : List GoString) : (names.foldl (descend true) []).Sublist names := by
  induction names using List.reverseRecOn with
  | nil => exact List.Sublist.refl _
  | append_singleton names name ih =>
      rw [List.foldl_append, List.foldl_cons, List.foldl_nil, descend]
      split
      · exact ((List.dropLast_sublist _).trans ih).trans (List.sublist_append_left _ _)
      · exact ih.append (List.Sublist.refl _)

theorem descend_ne_dotdot {names : List GoString} {name : GoString}
    (member : name ∈ names.foldl (descend true) []) : name ≠ dotdot := by
  induction names using List.reverseRecOn with
  | nil => cases member
  | append_singleton names last ih =>
      rw [List.foldl_append, List.foldl_cons, List.foldl_nil, descend] at member
      split at member
      · exact ih (List.dropLast_subset _ member)
      · rename_i forward
        rcases List.mem_append.mp member with earlier | new
        · exact ih earlier
        · exact List.mem_singleton.mp new ▸ forward

theorem descend_of_plain {names : List GoString} (plain : ∀ name ∈ names, name ≠ dotdot) :
    names.foldl (descend true) [] = names := by
  induction names using List.reverseRecOn with
  | nil => rfl
  | append_singleton names last ih =>
      rw [List.foldl_append, List.foldl_cons, List.foldl_nil,
        ih fun name member => plain name (List.mem_append_left _ member), descend, if_neg]
      exact plain last (by simp)

/-- The elements that are left of a path. -/
def kept (path : GoString) : List GoString :=
  ((elements path).filter fun name => name ≠ [] ∧ name ≠ [dot]).foldl (descend true) []

theorem kept_sublist (path : GoString) : (kept path).Sublist (elements path) :=
  (descend_sublist _).trans List.filter_sublist

theorem kept_plain {path name : GoString} (member : name ∈ kept path) : Plain name := by
  have filtered := (descend_sublist _).subset member
  obtain ⟨inside, whole⟩ := List.mem_filter.mp filtered
  obtain ⟨nonempty, notDot⟩ := of_decide_eq_true whole
  exact ⟨nonempty, slash_not_mem_of_mem_splitOn inside, notDot, descend_ne_dotdot member⟩

theorem getLast?_joined {names : List GoString} (free : ∀ name ∈ names, slash ∉ name) :
    (joined names).getLast? = some slash ↔ names.getLast? = some [] := by
  cases names using List.reverseRecOn with
  | nil => simp [joined]
  | append_singleton names name =>
      rw [joined_append, List.getLast?_concat, joined_cons]
      have last : slash ∉ name := free name (by simp)
      cases name using List.reverseRecOn with
      | nil => simp [joined]
      | append_singleton name c =>
          have other : c ≠ slash := fun same => last (by simp [same])
          simp only [joined, List.flatMap_nil, List.append_nil, ← List.cons_append, ← List.append_assoc,
            List.getLast?_concat, Option.some.injEq, other, List.append_eq_nil_iff, List.cons_ne_self]
          simp

/-- What `cleanPath` makes of a path: what is kept of its elements, and a slash at the end
    where there was one. -/
theorem cleanPath_eq {path : GoString} (rooted : path.head? = some slash) : cleanPath path =
    joined (if kept path = [] ∨ (elements path).getLast? = some [] then kept path ++ [[]] else kept path) := by
  have some_ : elements path ≠ [] := List.splitOn_ne_nil slash _
  have free : ∀ name ∈ elements path, slash ∉ name := fun name member => slash_not_mem_of_mem_splitOn member
  have comps : (components path).foldl (descend true) [] = kept path := by
    rw [kept, ← components_joined some_ free, joined_elements rooted]
  have ends := getLast?_joined free
  rw [joined_elements rooted] at ends
  have abs : isAbs path = true := by simp [isAbs, rooted]
  simp only [cleanPath, rooted, if_true, Filepath.clean, abs, comps]
  cases rest : kept path with
  | nil => simp [render, List.intercalate, joined]
  | cons name names =>
      have front : render ⟨true, name :: names⟩ = joined (name :: names) := by
        rw [render, intercalate_cons, joined_cons]
      have nonempty : name ≠ [] := (kept_plain (rest ▸ List.mem_cons_self)).nonempty
      have more : joined (name :: names) ≠ [slash] := by simp [joined_cons, nonempty]
      rw [front]
      simp only [ends, more, ne_eq, not_false_eq_true, and_true, List.cons_ne_nil, false_or]
      split
      · rw [joined_append]
        rfl
      · rfl

theorem slash_not_mem_of_mem_kept {path name : GoString} (member : name ∈ kept path) : slash ∉ name :=
  (kept_plain member).noSlash

/-- The elements of a cleaned path. -/
theorem elements_cleanPath {path : GoString} (rooted : path.head? = some slash) : elements (cleanPath path) =
    if kept path = [] ∨ (elements path).getLast? = some [] then kept path ++ [[]] else kept path := by
  rw [cleanPath_eq rooted]
  split
  · refine elements_joined (by simp) fun name member => ?_
    rcases List.mem_append.mp member with inside | last
    · exact slash_not_mem_of_mem_kept inside
    · exact List.mem_singleton.mp last ▸ List.not_mem_nil
  · rename_i more
    exact elements_joined (not_or.mp more).1 fun name member => slash_not_mem_of_mem_kept member

theorem canonical_cleanPath {path : GoString} (rooted : path.head? = some slash) : Canonical (cleanPath path) := by
  have plain := fun name (member : name ∈ kept path) => kept_plain member
  refine ⟨?_, ?_, ?_⟩
  · rw [cleanPath_eq rooted]
    split
    · exact head?_joined (by simp)
    · rename_i more
      exact head?_joined (not_or.mp more).1
  · rw [elements_cleanPath rooted]
    intro name member
    split at member
    · rw [List.dropLast_concat] at member
      exact (plain name member).nonempty
    · exact (plain name (List.dropLast_subset _ member)).nonempty
  · rw [elements_cleanPath rooted]
    intro name member
    split at member
    · rcases List.mem_append.mp member with inside | last
      · exact ⟨(plain name inside).notDot, (plain name inside).notDotdot⟩
      · rw [List.mem_singleton.mp last]
        decide
    · exact ⟨(plain name member).notDot, (plain name member).notDotdot⟩

theorem cleanPath_of_canonical {path : GoString} (canonical : Canonical path) : cleanPath path = path := by
  obtain ⟨front, last, names⟩ : ∃ front last, elements path = front ++ [last] :=
    (List.eq_nil_or_concat' _).resolve_left (List.splitOn_ne_nil slash _)
  have whole := canonical.whole
  have plain := canonical.plain
  rw [names] at plain
  rw [names, List.dropLast_concat] at whole
  have same : front.filter (fun name => name ≠ [] ∧ name ≠ [dot]) = front :=
    List.filter_eq_self.mpr fun name member =>
      decide_eq_true ⟨whole name member, (plain name (List.mem_append_left _ member)).1⟩
  have through : ∀ names : List GoString, (∀ name ∈ names, name ∈ front ++ [last]) →
      names.foldl (descend true) [] = names :=
    fun names inside => descend_of_plain fun name member => (plain name (inside name member)).2
  rw [cleanPath_eq canonical.rooted]
  refine Eq.trans ?_ (joined_elements canonical.rooted)
  by_cases empty : last = []
  · have stays : kept path = front := by
      rw [kept, names, List.filter_append, same, empty]
      simpa using through front fun name member => List.mem_append_left _ member
    rw [stays, names, empty, if_pos (.inr List.getLast?_concat)]
  · have dotless := (plain last (by simp)).1
    have stays : kept path = front ++ [last] := by
      rw [kept, names, List.filter_append, same]
      simpa [empty, dotless] using through (front ++ [last]) fun name member => member
    have more : ¬(front ++ [last] = [] ∨ (front ++ [last]).getLast? = some []) := by simp [empty]
    rw [stays, names, if_neg more]

theorem cleanPath_eq_self_iff {path : GoString} (rooted : path.head? = some slash) :
    cleanPath path = path ↔ Canonical path :=
  ⟨fun same => same ▸ canonical_cleanPath rooted, cleanPath_of_canonical⟩

/-- Cleaning only leaves things out. -/
theorem cleanPath_sublist {path : GoString} (rooted : path.head? = some slash) : (cleanPath path).Sublist path := by
  have here : [slash].Sublist path := List.singleton_sublist.mpr (List.mem_of_mem_head? rooted)
  have whole := joined_elements rooted
  have fewer := kept_sublist path
  rw [cleanPath_eq rooted]
  split
  · rename_i few
    by_cases empty : kept path = []
    · rw [empty]
      exact here
    · have last := few.resolve_left empty
      obtain ⟨front, names⟩ := List.getLast?_eq_some_iff.mp last
      have inside : (kept path).Sublist front := by
        rw [kept, names, List.filter_append]
        simpa using (descend_sublist _).trans (List.filter_sublist (l := front))
      conv_rhs => rw [← whole, names]
      exact (inside.append (List.Sublist.refl _)).flatMap _
  · conv_rhs => rw [← whole]
    exact fewer.flatMap _

end OpencodeRemote.Stub
