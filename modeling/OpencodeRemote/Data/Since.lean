import Mathlib.Data.List.Basic
import Mathlib.Data.List.Induction

/-! # What has begun and has not ended

A condition holds since some event if that event made it begin and no later one made it
end. Read event by event, this is the usual account of a set: what begins goes in, what
ends goes out.
-/

namespace OpencodeRemote.Data

variable {ε : Type} {began ended : ε → Prop}

def Since (began ended : ε → Prop) (events : List ε) : Prop :=
  ∃ before event after, events = before ++ event :: after ∧ began event ∧ ∀ later ∈ after, ¬ended later

theorem since_nil : ¬Since began ended [] := by
  rintro ⟨before, event, after, split, -⟩
  simp at split

/-- An event may end a condition and begin it again. -/
theorem since_concat {events : List ε} {newest : ε} :
    Since began ended (events ++ [newest]) ↔
      began newest ∨ Since began ended events ∧ ¬ended newest := by
  constructor
  · rintro ⟨before, event, after, split, begins, lasts⟩
    cases after using List.reverseRecOn with
    | nil =>
        obtain ⟨-, same⟩ := List.append_inj' split rfl
        cases same
        exact .inl begins
    | append_singleton after last =>
        rw [← List.cons_append, ← List.append_assoc] at split
        obtain ⟨older, same⟩ := List.append_inj' split rfl
        cases same
        exact .inr ⟨⟨before, event, after, older, begins,
          fun later member => lasts later (List.mem_append_left _ member)⟩,
          lasts newest (List.mem_append_right _ (List.mem_singleton.mpr rfl))⟩
  · rintro (begins | ⟨⟨before, event, after, rfl, begins, lasts⟩, goes_on⟩)
    · exact ⟨events, newest, [], rfl, begins, fun _ impossible => absurd impossible List.not_mem_nil⟩
    · refine ⟨before, event, after ++ [newest], by simp, begins, fun later member => ?_⟩
      cases List.mem_append.mp member with
      | inl earlier => exact lasts later earlier
      | inr last => exact List.mem_singleton.mp last ▸ goes_on

/-- What holds of all proper beginnings of a sequence, event by event. -/
def Throughout (p : List ε → ε → Prop) (events : List ε) : Prop :=
  ∀ before event after, events = before ++ event :: after → p before event

theorem throughout_nil (p : List ε → ε → Prop) : Throughout p [] := by
  intro before event after split
  simp at split

theorem throughout_concat {p : List ε → ε → Prop} {events : List ε} {newest : ε} :
    Throughout p (events ++ [newest]) ↔ Throughout p events ∧ p events newest := by
  constructor
  · intro always
    exact ⟨fun before event after split => always before event (after ++ [newest]) (by simp [split]),
      always events newest [] rfl⟩
  · rintro ⟨always, last⟩ before event after split
    cases after using List.reverseRecOn with
    | nil =>
        obtain ⟨rfl, same⟩ := List.append_inj' split rfl
        cases same
        exact last
    | append_singleton after other =>
        rw [← List.cons_append, ← List.append_assoc] at split
        exact always before event after (List.append_inj' split rfl).1

/-- What holds of some beginning of a sequence and the event behind it. -/
def Sometime (p : List ε → ε → Prop) (events : List ε) : Prop :=
  ∃ before event after, events = before ++ event :: after ∧ p before event

theorem sometime_nil {p : List ε → ε → Prop} : ¬Sometime p [] := by
  rintro ⟨before, event, after, split, -⟩
  simp at split

theorem sometime_concat {p : List ε → ε → Prop} {events : List ε} {newest : ε} :
    Sometime p (events ++ [newest]) ↔ Sometime p events ∨ p events newest := by
  constructor
  · rintro ⟨before, event, after, split, holds⟩
    cases after using List.reverseRecOn with
    | nil =>
        obtain ⟨rfl, same⟩ := List.append_inj' split rfl
        cases same
        exact .inr holds
    | append_singleton after other =>
        rw [← List.cons_append, ← List.append_assoc] at split
        exact .inl ⟨before, event, after, (List.append_inj' split rfl).1, holds⟩
  · rintro (⟨before, event, after, rfl, holds⟩ | last)
    · exact ⟨before, event, after ++ [newest], by simp, holds⟩
    · exact ⟨events, newest, [], rfl, last⟩

end OpencodeRemote.Data
