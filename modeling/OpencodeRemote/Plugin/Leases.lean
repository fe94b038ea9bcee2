import OpencodeRemote.Data.Assignment
import OpencodeRemote.Plugin.Config

/-! # Host leases

`LeaseManager` maps host names to lease records. What the exclusivity results need of it is
`holder`, the workspace whose lease a host is under; each operation is an update of it.
-/

namespace OpencodeRemote.Plugin

open Data

structure LeaseRecord where
  host : String
  workspaceID : String
  mode : LeaseMode
  acquiredAt : Nat
  deriving DecidableEq

abbrev LeaseManager := OrderedMap String LeaseRecord

namespace LeaseManager

/-- `now` is the answer of `Date.now()`. -/
def acquire (leases : LeaseManager) (host workspaceID : String) (mode : LeaseMode) (now : Nat) :
    Except String (LeaseRecord × LeaseManager) :=
  let current := leases.get host
  match mode, current with
  | .exclusive, some current =>
      .error s!"Host '{host}' is already leased by workspace '{current.workspaceID}'"
  | _, _ =>
      let lease : LeaseRecord := ⟨host, workspaceID, mode, now⟩
      .ok (lease, leases.set host lease)

def restore (leases : LeaseManager) (host workspaceID : String) (mode : LeaseMode)
    (acquiredAt : Option Nat) (now : Nat) : LeaseRecord × LeaseManager :=
  let lease : LeaseRecord := ⟨host, workspaceID, mode, acquiredAt.getD now⟩
  (lease, leases.set host lease)

def list (leases : LeaseManager) : List LeaseRecord := leases.values

def clear (_ : LeaseManager) : LeaseManager := .empty

def hasWorkspace (leases : LeaseManager) (workspaceID : String) : Bool :=
  leases.values.any fun lease => lease.workspaceID = workspaceID

def release (leases : LeaseManager) (host workspaceID : String) : LeaseManager :=
  match leases.get host with
  | none => leases
  | some current => if current.workspaceID ≠ workspaceID then leases else leases.erase host

/-- The workspace that has leased the host. -/
def holder (leases : LeaseManager) (host : String) : Option String :=
  (leases.get host).map LeaseRecord.workspaceID

/-- An acquisition in this mode would get the host. -/
def Available (leases : LeaseManager) (mode : LeaseMode) (host : String) : Prop :=
  mode = .shared ∨ leases.holder host = none

instance (leases : LeaseManager) (mode : LeaseMode) (host : String) :
    Decidable (leases.Available mode host) := inferInstanceAs (Decidable (_ ∨ _))

theorem holder_eq_none {leases : LeaseManager} {host : String} :
    leases.holder host = none ↔ leases.get host = none := by
  simp only [holder, Option.map_eq_none_iff]

theorem holder_set (leases : LeaseManager) (host : String) (lease : LeaseRecord) :
    holder (leases.set host lease) = Function.update leases.holder host (some lease.workspaceID) := by
  funext other
  by_cases same : other = host
  · subst same
    simp [holder]
  · rw [Function.update_of_ne same, holder, OrderedMap.get_set_ne leases lease same]
    rfl

theorem acquire_of_available {leases : LeaseManager} {host : String} {mode : LeaseMode}
    (available : leases.Available mode host) (workspaceID : String) (now : Nat) :
    leases.acquire host workspaceID mode now =
      .ok (⟨host, workspaceID, mode, now⟩, leases.set host ⟨host, workspaceID, mode, now⟩) := by
  cases mode with
  | shared => rfl
  | exclusive =>
      have free := holder_eq_none.mp (available.resolve_left LeaseMode.noConfusion)
      simp only [acquire, free]

theorem acquire_of_unavailable {leases : LeaseManager} {host : String} {mode : LeaseMode}
    (taken : ¬leases.Available mode host) (workspaceID : String) (now : Nat) :
    ∃ message, leases.acquire host workspaceID mode now = .error message := by
  cases mode with
  | shared => exact absurd (.inl rfl) taken
  | exclusive =>
      cases current : leases.get host with
      | none => exact absurd (.inr (holder_eq_none.mpr current)) taken
      | some lease => simp [acquire, current]

/-- A release takes effect for the holder only. -/
theorem holder_release (leases : LeaseManager) (host workspaceID : String) :
    holder (leases.release host workspaceID) =
      if leases.holder host = some workspaceID then Function.update leases.holder host none
      else leases.holder := by
  cases current : leases.get host with
  | none => simp [release, holder, current]
  | some lease =>
      by_cases own : lease.workspaceID = workspaceID
      · have held : leases.holder host = some workspaceID := by simp [holder, current, own]
        rw [if_pos held]
        funext other
        by_cases same : other = host
        · subst same
          simp [release, current, own, holder]
        · simp [release, current, own, holder, OrderedMap.get_erase_ne leases same,
            Function.update_of_ne same]
      · have foreign : leases.holder host ≠ some workspaceID := by simp [holder, current, own]
        rw [if_neg foreign]
        simp [release, current, own]

/-- What is held after a release was held before it, and it is not what was to be released. -/
theorem held_of_release {leases : LeaseManager} {host workspaceID leased other : String}
    (held : (leases.release host workspaceID).holder leased = some other) :
    leases.holder leased = some other ∧ ¬(other = workspaceID ∧ leased = host) := by
  rw [holder_release] at held
  split at held
  · by_cases same : leased = host
    · rw [same, Function.update_self] at held
      cases held
    · rw [Function.update_of_ne same] at held
      exact ⟨held, fun released => same released.2⟩
  · rename_i foreign
    refine ⟨held, fun released => foreign ?_⟩
    rw [← released.1, ← released.2, held]

end LeaseManager

end OpencodeRemote.Plugin
