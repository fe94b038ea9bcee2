import OpencodeRemote.Stub.Canonical

/-! # What an approval covers

The pattern for an operation in a directory is made from the string that names it. Whether
it matches a path depends on how both are spelled.
-/

namespace OpencodeRemote.Stub

open Filepath

theorem head?_of_isAbs {s : GoString} (absolute : isAbs s = true) : s.head? = some slash := by
  simpa [isAbs] using absolute

/-- A pattern compares the elements of both paths as they are spelled. -/
theorem matchPattern_subtree_iff_elements {c p : GoString} (absolute : isAbs c = true) (absolute' : isAbs p = true) :
    matchPattern (c ++ subtree) p = true ↔ elements c <+: elements p := by
  have whole := joined_elements (head?_of_isAbs absolute)
  have whole' := joined_elements (head?_of_isAbs absolute')
  rw [matchPattern_subtree]
  constructor
  · rintro (rfl | ⟨rest, rfl⟩)
    · exact List.prefix_refl _
    · have split : elements (c ++ [slash] ++ rest) = elements c ++ rest.splitOn slash := by
        cases c with
        | nil => cases absolute
        | cons _ c =>
            simp only [elements, List.append_assoc, List.cons_append, List.nil_append, List.drop_one,
              List.tail_cons, List.splitOn_append_cons_self]
      exact split ▸ List.prefix_append _ _
  · rintro ⟨more, split⟩
    rw [← split, joined_append, whole] at whole'
    cases more with
    | nil => exact .inl (by simpa [joined] using whole'.symm)
    | cons name names => exact .inr ⟨name ++ joined names, by rw [← whole', joined_cons]; simp⟩

/-- A path without anything to clean. -/
def Neat (s : GoString) : Prop :=
  isAbs s = true ∧ ∀ name ∈ elements s, name ≠ [] ∧ name ≠ [dot] ∧ name ≠ dotdot

instance (s : GoString) : Decidable (Neat s) := inferInstanceAs (Decidable (_ ∧ _))

theorem clean_of_neat {s : GoString} (neat : Neat s) : clean s = ⟨true, elements s⟩ := by
  have free : ∀ name ∈ elements s, slash ∉ name := fun name member => slash_not_mem_of_mem_splitOn member
  have comps : components s = elements s := by
    conv_lhs => rw [← joined_elements (head?_of_isAbs neat.1)]
    have some_ : elements s ≠ [] := List.splitOn_ne_nil slash _
    rw [components_joined some_ free]
    exact List.filter_eq_self.mpr fun name member =>
      decide_eq_true ⟨(neat.2 name member).1, (neat.2 name member).2.1⟩
  rw [clean, neat.1, comps, descend_of_plain fun name member => (neat.2 name member).2.2]

section Approvals

variable (se : Session) (operation : GoString) (minted created : Int)

/-- The permission for a directory covers a path in it exactly if the path begins with the
    directory's elements as they are spelled. That is so if both are neat. -/
theorem covers_iff_spelled {c p : GoString} (absolute : isAbs c = true) (absolute' : isAbs p = true) :
    (((clean c).Under (clean p) →
        ∀ pattern ∈ (newPermission se operation c minted created).patterns, matchPattern pattern p = true) ↔
      ((clean c).Under (clean p) → elements c <+: elements p)) ∧
    (Neat c → Neat p → (clean c).Under (clean p) →
      ∀ pattern ∈ (newPermission se operation c minted created).patterns, matchPattern pattern p = true) := by
  have written : (newPermission se operation c minted created).patterns = [c ++ subtree] := rfl
  rw [written, List.forall_mem_singleton, matchPattern_subtree_iff_elements absolute absolute']
  refine ⟨Iff.rfl, fun neat neat' under => ?_⟩
  rw [clean_of_neat neat, clean_of_neat neat'] at under
  exact under.2

end Approvals

def someSession : Session := ⟨lit "s", lit "w", [], lit "/srv/app", ⟨lit "idle", []⟩, 1, 1⟩

theorem covers_logs_below_app : matchPattern (lit "/srv/app" ++ subtree) (lit "/srv/app/logs") = true :=
  (covers_iff_spelled someSession (lit "shell") 1 1 (by decide) (by decide)).2 (by decide) (by decide) (by decide)
    (lit "/srv/app" ++ subtree) List.mem_cons_self

/-- The root is spelled with a slash at its end, and no other path begins with two. -/
theorem not_covers_below_root :
    ¬∀ (se : Session) (operation : GoString) (minted created : Int) (c p : GoString),
      isAbs c = true → isAbs p = true → (clean c).Under (clean p) →
      ∀ pattern ∈ (newPermission se operation c minted created).patterns, matchPattern pattern p = true := by
  intro always_covers
  have covered := always_covers someSession (lit "shell") 1 1 (lit "/") (lit "/srv") (by decide) (by decide)
    (by decide) (lit "/" ++ subtree) List.mem_cons_self
  revert covered
  decide

end OpencodeRemote.Stub
