import Mathlib.Data.List.Basic
import Mathlib.Data.List.Count

/-! # Places among the kept elements of a list

Filtering a list moves the elements that stay up, and `rank` says where to. Reading and
writing at such a place is reading and writing at the old one.
-/

namespace OpencodeRemote.Data

variable {β : Type} {p : β → Bool}

/-- The place of element number `i` once the others are gone. -/
def rank (p : β → Bool) (l : List β) (i : Nat) : Nat := (l.take i).countP p

theorem rank_append {l : List β} {i : Nat} (inside : i ≤ l.length) (more : List β) :
    rank p (l ++ more) i = rank p l i := by
  rw [rank, List.take_append_of_le_length inside, rank]

theorem rank_succ_of_pos {l : List β} {i : Nat} {x : β} (here : l[i]? = some x) (kept : p x = true) :
    rank p l (i + 1) = rank p l i + 1 := by
  rw [rank, List.take_add_one, here, List.countP_append, rank]
  simp [kept]

theorem rank_succ_of_neg {l : List β} {i : Nat} {x : β} (here : l[i]? = some x) (out : p x = false) :
    rank p l (i + 1) = rank p l i := by
  rw [rank, List.take_add_one, here, List.countP_append, rank]
  simp [out]

theorem rank_length (l : List β) : rank p l l.length = (l.filter p).length := by
  rw [rank, List.take_length, List.countP_eq_length_filter]

theorem rank_map {γ : Type} (f : γ → β) (l : List γ) (i : Nat) :
    rank p (l.map f) i = rank (fun x => p (f x)) l i := by
  rw [rank, ← List.map_take, List.countP_map, rank, Function.comp_def]

theorem getElem?_filter {l : List β} {i : Nat} {x : β} (here : l[i]? = some x) (kept : p x = true) :
    (l.filter p)[rank p l i]? = some x := by
  induction l generalizing i with
  | nil => simp at here
  | cons first l ih =>
      cases i with
      | zero =>
          simp only [List.getElem?_cons_zero, Option.some.injEq] at here
          subst here
          simp [rank, kept]
      | succ i =>
          rw [List.getElem?_cons_succ] at here
          have later := ih here
          by_cases stays : p first = true
          · simpa [rank, stays] using later
          · simpa [rank, stays] using later

theorem filter_set {l : List β} {i : Nat} {x y : β} (here : l[i]? = some x) (kept : p x = true)
    (kept' : p y = true) : (l.set i y).filter p = (l.filter p).set (rank p l i) y := by
  induction l generalizing i with
  | nil => simp at here
  | cons first l ih =>
      cases i with
      | zero =>
          simp only [List.getElem?_cons_zero, Option.some.injEq] at here
          subst here
          simp [rank, kept, kept']
      | succ i =>
          rw [List.getElem?_cons_succ] at here
          have later := ih here
          by_cases stays : p first = true
          · simpa [rank, stays] using later
          · simpa [rank, stays] using later

theorem filter_set_of_not {l : List β} {i : Nat} {x y : β} (here : l[i]? = some x) (out : p x = false)
    (out' : p y = false) : (l.set i y).filter p = l.filter p := by
  induction l generalizing i with
  | nil => simp
  | cons first l ih =>
      cases i with
      | zero =>
          simp only [List.getElem?_cons_zero, Option.some.injEq] at here
          subst here
          simp [out, out']
      | succ i =>
          rw [List.getElem?_cons_succ] at here
          simp only [List.set_cons_succ, List.filter_cons, ih here]

end OpencodeRemote.Data
