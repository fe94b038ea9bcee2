import OpencodeRemote.Concurrency.Program

/-! # Searching with programs

A search runs one program for each candidate until one of them finds something. Its trials
follow one another without a gap, in the order of the candidates.
-/

namespace OpencodeRemote.Concurrency

namespace Program

variable {Op : Type} {Res : Op → Type} {α β ι : Type}

/-- Continuations may be exchanged if they agree on all that the program can return. -/
theorem bind_congr_of_returns {t : Program Op Res α} {f g : α → Program Op Res β}
    (returns : t.Returns fun a => f a = g a) : t.bind f = t.bind g := by
  induction t with
  | pure a => exact returns
  | op o next ih => exact congrArg (Program.op o) (funext fun r => ih r (returns r))

theorem bind_assoc {γ : Type} (t : Program Op Res α) (f : α → Program Op Res β) (g : β → Program Op Res γ) :
    (t.bind f).bind g = t.bind fun a => (f a).bind g := by
  induction t with
  | pure a => rfl
  | op o next ih => exact congrArg (Program.op o) (funext ih)

variable (attempt : ι → Program Op Res (Option β))

def firstSuccess : List ι → Program Op Res (Option (ι × β))
  | [] => .pure none
  | i :: rest => (attempt i).bind fun
      | some b => .pure (some (i, b))
      | none => firstSuccess rest

/-- What a search of the candidates makes of its trials. -/
structure Conclusive (candidates : List ι) (trials : List (ι × Option β)) (result : Option (ι × β)) : Prop where
  inOrder : trials.map Prod.fst <+: candidates
  found : ∀ i b, result = some (i, b) ↔
    ∃ failed, trials = failed ++ [(i, some b)] ∧ ∀ trial ∈ failed, trial.2 = none
  missed : result = none ↔ trials = candidates.map fun i => (i, none)

theorem conclusive_nil : Conclusive ([] : List ι) ([] : List (ι × Option β)) none where
  inOrder := List.prefix_rfl
  found := by simp
  missed := by simp

theorem conclusive_found (i : ι) (b : β) (rest : List ι) :
    Conclusive (i :: rest) [(i, some b)] (some (i, b)) where
  inOrder := List.prefix_append [i] rest
  found := by
    intro i' b'
    constructor
    · rintro ⟨⟩
      exact ⟨[], rfl, by simp⟩
    · rintro ⟨failed, split, -⟩
      have last := congrArg List.getLast? split
      simp only [List.getLast?_singleton, List.getLast?_concat, Option.some.injEq, Prod.mk.injEq] at last
      rw [last.1, last.2]
  missed := by simp

theorem Conclusive.after_miss {rest : List ι} {trials : List (ι × Option β)} {result : Option (ι × β)} (i : ι)
    (conclusive : Conclusive rest trials result) :
    Conclusive (i :: rest) ((i, none) :: trials) result where
  inOrder := (List.cons_prefix_cons ..).mpr ⟨rfl, conclusive.inOrder⟩
  found := by
    intro i' b'
    rw [conclusive.found]
    constructor
    · rintro ⟨failed, rfl, none⟩
      exact ⟨(i, Option.none) :: failed, rfl, List.forall_mem_cons.mpr ⟨rfl, none⟩⟩
    · rintro ⟨failed, split, none⟩
      cases failed with
      | nil => cases (List.cons.inj split).1
      | cons trial failed =>
          exact ⟨failed, (List.cons.inj split).2, (List.forall_mem_cons.mp none).2⟩
  missed := by simp [conclusive.missed]

section Run

variable {σ Env : Type} (exec : Env → (o : Op) → σ → Res o × σ)

/-- The trials are made one after another, each in the world that the one before it left,
    and these are all the events. -/
def Consecutive : List (ι × Option β) → (Nat → Env) → σ → List (Event Op Res) → σ → (Nat → Env) → Prop
  | [], env, s, events, s', env' => events = [] ∧ s' = s ∧ env' = env
  | (i, outcome) :: later, env, s, events, s', env' => ∃ s₁ env₁ events₁,
      (attempt i).run exec env s = (outcome, s₁, env₁) ∧
        events = (attempt i).trace exec env s ++ events₁ ∧ Consecutive later env₁ s₁ events₁ s' env'

/-- A search is the trials up to its first success. -/
theorem firstSuccess_run (candidates : List ι) (env : Nat → Env) (s : σ) :
    ∃ trials, Consecutive attempt exec trials env s ((firstSuccess attempt candidates).trace exec env s)
        ((firstSuccess attempt candidates).run exec env s).2.1
        ((firstSuccess attempt candidates).run exec env s).2.2 ∧
      Conclusive candidates trials ((firstSuccess attempt candidates).run exec env s).1 := by
  induction candidates generalizing env s with
  | nil => exact ⟨[], ⟨rfl, rfl, rfl⟩, conclusive_nil⟩
  | cons i rest ih =>
      rw [firstSuccess, run_bind, trace_bind]
      cases outcome : ((attempt i).run exec env s).1 with
      | some b =>
          exact ⟨[(i, some b)], ⟨_, _, [], Prod.ext outcome rfl, rfl, rfl, rfl, rfl⟩, conclusive_found i b rest⟩
      | none =>
          obtain ⟨trials, consecutive, conclusive⟩ :=
            ih ((attempt i).run exec env s).2.2 ((attempt i).run exec env s).2.1
          exact ⟨(i, none) :: trials, ⟨_, _, _, Prod.ext outcome rfl, rfl, consecutive⟩, conclusive.after_miss i⟩

end Run

end Program

end OpencodeRemote.Concurrency
