import Mathlib.Logic.Function.Basic

/-! # Users of exclusive resources

`holder` says by whom each resource is held, `uses` which resource each user works with.
A resource that is in use has to be held by its user; then no two users share one. The
rules say exactly when a change on either side keeps this.
-/

namespace OpencodeRemote.Data

variable {κ ω : Type} {holder : κ → Option ω} {uses : ω → Option κ}

def Backed (holder : κ → Option ω) (uses : ω → Option κ) : Prop :=
  ∀ user resource, uses user = some resource → holder resource = some user

namespace Backed

theorem empty (holder : κ → Option ω) : Backed holder fun _ => none := by
  intro user resource used
  cases used

/-- A resource has one user at most. -/
theorem injective (backed : Backed holder uses) {first second : ω} {resource : κ}
    (one : uses first = some resource) (other : uses second = some resource) : first = second := by
  have held := backed first resource one
  rw [backed second resource other] at held
  exact (Option.some.inj held).symm

section Resources

variable [DecidableEq κ]

/-- Handing out a free resource is always right. -/
theorem take (backed : Backed holder uses) {resource : κ} (free : holder resource = none) (user : ω) :
    Backed (Function.update holder resource (some user)) uses := by
  intro other used working
  have held := backed other used working
  have different : used ≠ resource := by
    intro same
    rw [same, free] at held
    cases held
  rw [Function.update_of_ne different]
  exact held

/-- Giving a resource back is right exactly when nobody uses it. -/
theorem release_iff (backed : Backed holder uses) {resource : κ} :
    Backed (Function.update holder resource none) uses ↔ ∀ user, uses user ≠ some resource := by
  constructor
  · intro after user working
    have held := after user resource working
    rw [Function.update_self] at held
    cases held
  · intro unused user used working
    have different : used ≠ resource := by
      intro same
      exact unused user (same ▸ working)
    rw [Function.update_of_ne different]
    exact backed user used working

end Resources

section Users

variable [DecidableEq ω]

/-- Starting to use a resource is right exactly when one holds it. -/
theorem assign_iff (backed : Backed holder uses) {user : ω} {resource : κ} :
    Backed holder (Function.update uses user (some resource)) ↔ holder resource = some user := by
  constructor
  · intro after
    exact after user resource (Function.update_self ..)
  · intro held other used working
    by_cases same : other = user
    · subst same
      rw [Function.update_self] at working
      cases working
      exact held
    · rw [Function.update_of_ne same] at working
      exact backed other used working

/-- Ceasing to use a resource is always right. -/
theorem retire (backed : Backed holder uses) (user : ω) :
    Backed holder (Function.update uses user none) := by
  intro other used working
  have different : other ≠ user := by
    intro same
    rw [same, Function.update_self] at working
    cases working
  rw [Function.update_of_ne different] at working
  exact backed other used working

end Users

end Backed

end OpencodeRemote.Data
