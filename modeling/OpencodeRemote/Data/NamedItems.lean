import Mathlib.Data.List.Basic
import Mathlib.Data.List.Induction

/-! # Lists of named items

A replacement takes all items of one name out of a list and puts at most one item of that
name at its end. What is left after many of them depends, for each name, on the last one
only, and items that no replacement is about stay where they are among themselves.
-/

namespace OpencodeRemote.Data

/-- `named k a`: the item goes by this name. -/
structure Replacement {κ α : Type} (named : κ → α → Bool) where
  name : κ
  item : Option α
  own : ∀ a ∈ item, named name a = true

namespace Replacement

variable {κ α : Type} {named : κ → α → Bool}

def apply (replacement : Replacement named) (items : List α) : List α :=
  (items.filter fun a => !named replacement.name a) ++ replacement.item.toList

def applyAll (replacements : List (Replacement named)) (items : List α) : List α :=
  replacements.foldl (fun items replacement => replacement.apply items) items

/-- Only the last replacement of a name matters. -/
theorem apply_apply {first second : Replacement named} (same : first.name = second.name) (items : List α) :
    second.apply (first.apply items) = second.apply items := by
  have gone : (first.item.toList.filter fun a => !named second.name a) = [] := by
    refine List.filter_eq_nil_iff.mpr fun a member => ?_
    rw [← same, first.own a (Option.mem_toList.mp member)]
    exact Bool.false_ne_true
  rw [apply, apply, apply, same, List.filter_append, gone, List.append_nil, List.filter_filter]
  simp only [Bool.and_self]

/-- Of the replacement's own name, its item is left. -/
theorem filter_apply_self (replacement : Replacement named) (items : List α) :
    (replacement.apply items).filter (named replacement.name) = replacement.item.toList := by
  have gone : ((items.filter fun a => !named replacement.name a).filter (named replacement.name)) = [] := by
    refine List.filter_eq_nil_iff.mpr fun a member => ?_
    have other := (List.mem_filter.mp member).2
    intro own
    rw [own] at other
    exact Bool.false_ne_true other
  have kept : (replacement.item.toList.filter (named replacement.name)) = replacement.item.toList :=
    List.filter_eq_self.mpr fun a member => replacement.own a (Option.mem_toList.mp member)
  rw [apply, List.filter_append, gone, kept, List.nil_append]

/-- What is not of the replacement's name stays, in its order. -/
theorem filter_apply_of_disjoint {replacement : Replacement named} {p : α → Bool}
    (disjoint : ∀ a, p a = true → named replacement.name a = false) (items : List α) :
    (replacement.apply items).filter p = items.filter p := by
  have gone : replacement.item.toList.filter p = [] := by
    refine List.filter_eq_nil_iff.mpr fun a member kept => ?_
    have own := replacement.own a (Option.mem_toList.mp member)
    rw [disjoint a kept] at own
    exact Bool.false_ne_true own
  rw [apply, List.filter_append, gone, List.append_nil, List.filter_filter]
  refine List.filter_congr fun a _ => ?_
  cases kept : p a with
  | false => rfl
  | true => rw [disjoint a kept]; rfl

theorem applyAll_snoc (replacements : List (Replacement named)) (last : Replacement named) (items : List α) :
    applyAll (replacements ++ [last]) items = last.apply (applyAll replacements items) := by
  rw [applyAll, List.foldl_append]
  rfl

/-- The items that no replacement is about. -/
theorem filter_applyAll_of_disjoint {replacements : List (Replacement named)} {p : α → Bool}
    (disjoint : ∀ replacement ∈ replacements, ∀ a, p a = true → named replacement.name a = false)
    (items : List α) : (applyAll replacements items).filter p = items.filter p := by
  induction replacements generalizing items with
  | nil => rfl
  | cons first rest ih =>
      obtain ⟨here, later⟩ := List.forall_mem_cons.mp disjoint
      exact (ih later (first.apply items)).trans (filter_apply_of_disjoint here items)

section Latest

variable [DecidableEq κ]

/-- The last replacement of a name. -/
def latest (name : κ) (replacements : List (Replacement named)) : Option (Replacement named) :=
  replacements.reverse.find? fun replacement => replacement.name = name

theorem latest_snoc (name : κ) (replacements : List (Replacement named)) (last : Replacement named) :
    latest name (replacements ++ [last]) = if last.name = name then some last else latest name replacements := by
  rw [latest, List.reverse_append, List.reverse_singleton, List.singleton_append, List.find?_cons]
  by_cases own : last.name = name
  · rw [if_pos own, decide_eq_true own]
  · rw [if_neg own, decide_eq_false own, latest]

/-- The items of one name, if no item goes by two names. -/
theorem filter_applyAll (unique : ∀ name other a, named name a = true → named other a = true → name = other)
    (name : κ) (replacements : List (Replacement named)) (items : List α) :
    (applyAll replacements items).filter (named name) = match latest name replacements with
      | some last => last.item.toList
      | none => items.filter (named name) := by
  induction replacements using List.reverseRecOn with
  | nil => rfl
  | append_singleton replacements last ih =>
      rw [applyAll_snoc, latest_snoc]
      by_cases own : last.name = name
      · rw [if_pos own, ← own, filter_apply_self]
      · rw [if_neg own, ← ih]
        refine filter_apply_of_disjoint (fun a other => ?_) _
        by_contra both
        exact own (unique _ _ a (Bool.not_eq_false _ ▸ both) other)

end Latest

end Replacement

end OpencodeRemote.Data
