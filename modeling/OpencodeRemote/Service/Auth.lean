import Mathlib.Data.List.Forall2
import OpencodeRemote.Stub.Handler

/-! # The token check

`Require` wraps a handler: it looks at the value of the `Authorization` header and either
hands the request on or answers 401 itself.
-/

namespace OpencodeRemote.Service

open Stub (GoString lit)

def space : UInt8 := 32

/-- `strings.SplitN(s, " ", 2)`, if it gives two parts. -/
def splitSpace (s : GoString) : Option (GoString × GoString) :=
  if space ∈ s then some (s.takeWhile (· ≠ space), (s.dropWhile (· ≠ space)).drop 1) else none

/-- `strings.ToLower` for ASCII letters. No other letter is turned into one of `bearer`. -/
def toLower (s : GoString) : GoString :=
  s.map fun c => if 65 ≤ c ∧ c ≤ 90 then c + 32 else c

/-- `http.Error` with an error text of the token check. -/
def unauthorized (message : String) : Stub.Response := Stub.error 401 (lit "unauthorized") (lit message)

/-- What becomes of a request: `next`, or the refusal with a message. -/
def Require {ω : Type} (refuse : String → ω) (token authorization : GoString) (next : ω) : ω :=
  if authorization = [] then refuse "missing authorization header"
  else
    match splitSpace authorization with
    | none => refuse "invalid authorization header format"
    | some (scheme, rest) =>
        if toLower scheme ≠ lit "bearer" then refuse "invalid authorization header format"
        else if rest ≠ token then refuse "invalid token"
        else next

/-- Up to letter case, this is the given word of small letters. -/
def UpToCase (word s : GoString) : Prop := List.Forall₂ (fun c letter => c = letter ∨ c + 32 = letter) s word

/-- A scheme without spaces that is `bearer` in any case, one space and the token. -/
def Bearer (token authorization : GoString) : Prop :=
  ∃ scheme, space ∉ scheme ∧ UpToCase (lit "bearer") scheme ∧ authorization = scheme ++ space :: token

/-! ## What the check lets through -/

theorem splitSpace_append {scheme : GoString} (free : space ∉ scheme) (rest : GoString) :
    splitSpace (scheme ++ space :: rest) = some (scheme, rest) := by
  have stays : ∀ c ∈ scheme, decide (c ≠ space) = true := by
    intro c member
    have different : c ≠ space := fun same => free (same ▸ member)
    simpa using different
  rw [splitSpace, if_pos (by simp), List.takeWhile_append_of_pos stays, List.dropWhile_append_of_pos stays]
  simp

theorem splitSpace_eq_some {s scheme rest : GoString} :
    splitSpace s = some (scheme, rest) ↔ space ∉ scheme ∧ s = scheme ++ space :: rest := by
  constructor
  · intro split
    by_cases member : space ∈ s
    · obtain ⟨before, after, rfl, free⟩ := List.eq_append_cons_of_mem member
      rw [splitSpace_append free, Option.some.injEq, Prod.mk.injEq] at split
      obtain ⟨rfl, rfl⟩ := split
      exact ⟨free, rfl⟩
    · simp [splitSpace, member] at split
  · rintro ⟨free, rfl⟩
    exact splitSpace_append free rest

theorem lower_eq_iff {c letter : UInt8} (small : 97 ≤ letter ∧ letter ≤ 122) :
    (if 65 ≤ c ∧ c ≤ 90 then c + 32 else c) = letter ↔ c = letter ∨ c + 32 = letter := by
  have bounded := c.toNat_lt
  simp only [UInt8.le_iff_toNat_le, ← UInt8.toNat_inj, UInt8.toNat_ofNat] at small ⊢
  split <;> simp only [UInt8.toNat_add, UInt8.toNat_ofNat] at * <;> omega

theorem toLower_eq_iff {word : GoString} (small : ∀ letter ∈ word, 97 ≤ letter ∧ letter ≤ 122)
    (s : GoString) : toLower s = word ↔ UpToCase word s := by
  induction s generalizing word with
  | nil => cases word <;> simp [toLower, UpToCase]
  | cons c rest ih =>
      cases word with
      | nil => simp [toLower, UpToCase]
      | cons letter word =>
          have later : ∀ letter ∈ word, 97 ≤ letter ∧ letter ≤ 122 := fun letter member =>
            small letter (List.mem_cons_of_mem _ member)
          have tail := ih later
          simp only [toLower, UpToCase] at tail ⊢
          rw [List.map_cons, List.cons.injEq, List.forall₂_cons, tail,
            lower_eq_iff (small letter (List.mem_cons_self ..))]

theorem bearer_iff {token authorization : GoString} :
    Bearer token authorization ↔
      ∃ scheme, splitSpace authorization = some (scheme, token) ∧ toLower scheme = lit "bearer" := by
  have small : ∀ letter ∈ lit "bearer", 97 ≤ letter ∧ letter ≤ 122 := by decide +kernel
  simp only [Bearer, splitSpace_eq_some, toLower_eq_iff small]
  grind

instance (token authorization : GoString) : Decidable (Bearer token authorization) :=
  decidable_of_iff (∃ parts ∈ splitSpace authorization, parts.2 = token ∧ toLower parts.1 = lit "bearer") <| by
    rw [bearer_iff]
    constructor
    · rintro ⟨⟨scheme, rest⟩, split, rfl, lower⟩
      exact ⟨scheme, split, lower⟩
    · rintro ⟨scheme, split, lower⟩
      exact ⟨(scheme, token), split, rfl, lower⟩

section Require

variable {ω : Type} {refuse : String → ω} {token authorization : GoString}

theorem require_of_bearer (bearer : Bearer token authorization) (next : ω) :
    Require refuse token authorization next = next := by
  obtain ⟨scheme, split, lower⟩ := bearer_iff.mp bearer
  have given : authorization ≠ [] := by
    rintro rfl
    cases split
  simp [Require, given, split, lower]

/-- The refusal does not depend on the handler that is wrapped. -/
theorem require_of_not_bearer (refuse : String → ω) (other : ¬Bearer token authorization) :
    ∃ message, ∀ next, Require refuse token authorization next = refuse message := by
  by_cases missing : authorization = []
  · exact ⟨_, fun next => by rw [Require, if_pos missing]⟩
  · cases split : splitSpace authorization with
    | none => exact ⟨_, fun next => by rw [Require, if_neg missing, split]⟩
    | some parts =>
        obtain ⟨scheme, rest⟩ := parts
        by_cases lower : toLower scheme = lit "bearer"
        · have wrong : rest ≠ token := by
            rintro rfl
            exact other (bearer_iff.mpr ⟨scheme, split, lower⟩)
          refine ⟨"invalid token", fun next => ?_⟩
          simp only [Require, if_neg missing, split, if_neg (not_not.mpr lower), if_pos wrong]
        · refine ⟨"invalid authorization header format", fun next => ?_⟩
          simp only [Require, if_neg missing, split, if_pos lower]

theorem require_cases (refuse : String → ω) (token authorization : GoString) (next : ω) :
    Require refuse token authorization next = next ∨
      ∃ message, Require refuse token authorization next = refuse message := by
  by_cases bearer : Bearer token authorization
  · exact .inl (require_of_bearer bearer next)
  · obtain ⟨message, refused⟩ := require_of_not_bearer refuse bearer
    exact .inr ⟨message, refused next⟩

/-- The check does not care what is done with its outcome. -/
theorem map_require {ω' : Type} (f : ω → ω') (refuse : String → ω) (token authorization : GoString) (next : ω) :
    f (Require refuse token authorization next) =
      Require (fun message => f (refuse message)) token authorization (f next) := by
  simp only [Require]
  split
  · rfl
  · split
    · rfl
    · split
      · rfl
      · split <;> rfl

/-- The token as the plugin sends it. -/
theorem bearer_sent (token : GoString) : Bearer token (lit "Bearer " ++ token) := by
  have split := splitSpace_append (show space ∉ lit "Bearer" by decide) token
  have same : lit "Bearer" ++ space :: token = lit "Bearer " ++ token := rfl
  rw [same] at split
  exact bearer_iff.mpr ⟨lit "Bearer", split, by decide⟩

theorem eq_of_bearer {given : GoString} (bearer : Bearer token (lit "Bearer " ++ given)) : given = token := by
  obtain ⟨scheme, split, -⟩ := bearer_iff.mp bearer
  have whole := splitSpace_append (show space ∉ lit "Bearer" by decide) given
  have same : lit "Bearer" ++ space :: given = lit "Bearer " ++ given := rfl
  rw [same, split] at whole
  exact (congrArg Prod.snd (Option.some.inj whole)).symm

end Require

end OpencodeRemote.Service
