import Mathlib.Data.List.Induction
import Mathlib.Tactic.Choose

/-! # Ledgers of permits

A table of permits as a function of its history. A grant puts a permit under its key and
replaces whatever was there; spending a key empties it. An outstanding permit comes from
the last grant of its key, and drawing on permits assigns each draw to such a grant. If
single-use permits are spent when drawn on, no grant of one is drawn on twice.
-/

namespace OpencodeRemote.Data

inductive Posting (κ γ : Type) where
  | grant (key : κ) (permit : γ)
  | spend (key : κ)
  | idle

namespace Posting

variable {κ γ : Type} [DecidableEq κ]

def apply : Posting κ γ → (κ → Option γ) → κ → Option γ
  | .grant key permit, table => fun k => if k = key then some permit else table k
  | .spend key, table => fun k => if k = key then none else table k
  | .idle, table => table

def Touches (key : κ) : Posting κ γ → Prop
  | .grant k _ => key = k
  | .spend k => key = k
  | .idle => False

theorem apply_untouched {posting : Posting κ γ} {key : κ} (untouched : ¬posting.Touches key)
    (table : κ → Option γ) : posting.apply table key = table key := by
  cases posting with
  | grant k permit => exact if_neg untouched
  | spend k => exact if_neg untouched
  | idle => rfl

/-- After a posting that touches a key, the key holds what the posting grants. -/
theorem apply_touched {posting : Posting κ γ} {key : κ} (touched : posting.Touches key)
    {table : κ → Option γ} {permit : γ} :
    posting.apply table key = some permit ↔ posting = .grant key permit := by
  cases posting with
  | grant k g =>
      cases touched
      simp [apply]
  | spend k =>
      cases touched
      simp [apply]
  | idle => exact touched.elim

end Posting

section Ledger

variable {κ γ : Type} [DecidableEq κ]

/-- The permits outstanding after a history. -/
def balance (ledger : List (Posting κ γ)) : κ → Option γ :=
  ledger.foldl (fun table posting => posting.apply table) fun _ => none

@[simp] theorem balance_nil (key : κ) : balance ([] : List (Posting κ γ)) key = none := rfl

@[simp] theorem balance_snoc (ledger : List (Posting κ γ)) (posting : Posting κ γ) :
    balance (ledger ++ [posting]) = posting.apply (balance ledger) := by
  simp only [balance, List.foldl_append, List.foldl_cons, List.foldl_nil]

/-- Entry `k` grants `permit`, and nothing has touched its key since. -/
def Outstanding (ledger : List (Posting κ γ)) (k : Nat) (key : κ) (permit : γ) : Prop :=
  ledger[k]? = some (.grant key permit) ∧
    ∀ j posting, k < j → ledger[j]? = some posting → ¬posting.Touches key

private theorem getElem?_snoc {α : Type} {items : List α} {x y : α} {k : Nat} :
    (items ++ [x])[k]? = some y ↔ items[k]? = some y ∨ (k = items.length ∧ x = y) := by
  grind

omit [DecidableEq κ] in
theorem outstanding_snoc {ledger : List (Posting κ γ)} {posting : Posting κ γ} {k : Nat} {key : κ}
    {permit : γ} :
    Outstanding (ledger ++ [posting]) k key permit ↔
      (Outstanding ledger k key permit ∧ ¬posting.Touches key) ∨
        (k = ledger.length ∧ posting = .grant key permit) := by
  constructor
  · intro ⟨here, since⟩
    cases getElem?_snoc.mp here with
    | inl inside =>
        have early := (List.getElem?_eq_some_iff.mp inside).1
        refine .inl ⟨⟨inside, fun j other later at_j => ?_⟩, ?_⟩
        · exact since j other later (getElem?_snoc.mpr (.inl at_j))
        · exact since ledger.length posting early (by simp)
    | inr last => exact .inr last
  · rintro (⟨⟨here, since⟩, last⟩ | ⟨rfl, rfl⟩)
    · refine ⟨getElem?_snoc.mpr (.inl here), fun j other later at_j => ?_⟩
      rcases getElem?_snoc.mp at_j with older | ⟨-, rfl⟩
      · exact since j other later older
      · exact last
    · refine ⟨by simp, fun j other later at_j => ?_⟩
      have bound := (List.getElem?_eq_some_iff.mp at_j).1
      simp only [List.length_append, List.length_singleton] at bound
      omega

/-- A key holds a permit exactly when some grant of it is outstanding. -/
theorem balance_eq_some {ledger : List (Posting κ γ)} {key : κ} {permit : γ} :
    balance ledger key = some permit ↔ ∃ k, Outstanding ledger k key permit := by
  induction ledger using List.reverseRecOn with
  | nil => simp [Outstanding]
  | append_singleton ledger posting ih =>
      simp only [balance_snoc, outstanding_snoc]
      by_cases touched : posting.Touches key
      · simp [Posting.apply_touched touched, touched]
      · have other : posting ≠ .grant key permit := by
          rintro rfl
          exact touched rfl
        simp [Posting.apply_untouched touched, ih, touched, other]

/-- Every draw finds its permit outstanding, and spends it if it is for single use. -/
def Covered (single : γ → Prop) (ledger : List (Posting κ γ)) (draw : Nat → Option (κ × γ)) : Prop :=
  ∀ i key permit, draw i = some (key, permit) →
    balance (ledger.take i) key = some permit ∧ (single permit → ledger[i]? = some (.spend key))

/-- Covered draws are assigned to earlier grants of the permits drawn on, and no two draws
    to the same single-use grant. -/
theorem Covered.assignment {single : γ → Prop} {ledger : List (Posting κ γ)}
    {draw : Nat → Option (κ × γ)} (covered : Covered single ledger draw) :
    ∃ source : Nat → Nat,
      (∀ i key permit, draw i = some (key, permit) →
        source i < i ∧ ledger[source i]? = some (.grant key permit)) ∧
      ∀ i j key permit, draw i = some (key, permit) → single permit → (draw j).isSome →
        source i = source j → i = j := by
  have open_at : ∀ i, ∃ k, ∀ key permit, draw i = some (key, permit) →
      Outstanding (ledger.take i) k key permit := by
    intro i
    cases drawn : draw i with
    | none => exact ⟨0, by simp⟩
    | some entry =>
        obtain ⟨k, open_k⟩ := balance_eq_some.mp (covered i entry.1 entry.2 drawn).1
        refine ⟨k, fun key permit same => ?_⟩
        cases same
        exact open_k
  choose source outstanding using open_at
  have located : ∀ i key permit, draw i = some (key, permit) →
      source i < i ∧ ledger[source i]? = some (.grant key permit) := by
    intro i key permit drawn
    have here := (outstanding i key permit drawn).1
    rw [List.getElem?_take] at here
    by_cases early : source i < i
    · rw [if_pos early] at here
      exact ⟨early, here⟩
    · rw [if_neg early] at here
      cases here
  -- a later draw on the same grant would have to look past the spending of the first
  have apart : ∀ i j key permit key' permit', draw i = some (key, permit) →
      draw j = some (key', permit') → single permit → source i = source j → ¬i < j := by
    intro i j key permit key' permit' drawn drawn' once same earlier
    have here := (located i key permit drawn)
    have here' := (located j key' permit' drawn')
    rw [← same, here.2] at here'
    cases here'.2
    have spent := (covered i key permit drawn).2 once
    apply (outstanding j key permit drawn').2 i (.spend key)
    · rw [← same]
      exact here.1
    · rw [List.getElem?_take, if_pos earlier]
      exact spent
    · rfl
  refine ⟨source, located, fun i j key permit drawn once also same => ?_⟩
  obtain ⟨⟨key', permit'⟩, drawn'⟩ := Option.isSome_iff_exists.mp also
  have grants := (located i key permit drawn).2
  rw [same, (located j key' permit' drawn').2] at grants
  cases grants
  have not_before := apart i j key permit key permit drawn drawn' once same
  have not_after := apart j i key permit key permit drawn' drawn once same.symm
  omega

end Ledger

end OpencodeRemote.Data
