import OpencodeRemote.Concurrency.Program

/-! # One program alone under a guard

A guard says which operations are expected in which store. `Ensures` is partial correctness
of a run that nothing else interferes with: if all of its operations are expected ones, it
ends as `post` says. Answers come from the environment and are arbitrary.
-/

namespace OpencodeRemote.Concurrency.Program

variable {Op : Type} {Res : Op → Type} {σ Env α β : Type}
variable (exec : Env → (o : Op) → σ → Res o × σ) (guard : Env → σ → Op → Prop)

/-- Every operation of the run is expected in the store that it meets. -/
def Guarded : Program Op Res α → (Nat → Env) → σ → Prop
  | .pure _, _, _ => True
  | .op o next, env, s => guard (env 0) s o ∧
      (next (exec (env 0) o s).1).Guarded (fun n => env (n + 1)) (exec (env 0) o s).2

def decidableGuarded [∀ env s o, Decidable (guard env s o)] (t : Program Op Res α) (env : Nat → Env) (s : σ) :
    Decidable (t.Guarded exec guard env s) :=
  match t with
  | .pure _ => .isTrue trivial
  | .op o next =>
      have := decidableGuarded (next (exec (env 0) o s).1) (fun n => env (n + 1)) (exec (env 0) o s).2
      inferInstanceAs (Decidable (_ ∧ _))

instance [∀ env s o, Decidable (guard env s o)] (t : Program Op Res α) (env : Nat → Env) (s : σ) :
    Decidable (t.Guarded exec guard env s) := decidableGuarded exec guard t env s

variable {exec guard}

theorem guarded_bind {t : Program Op Res α} {f : α → Program Op Res β} {env : Nat → Env} {s : σ} :
    (t.bind f).Guarded exec guard env s ↔ t.Guarded exec guard env s ∧
      (f (t.run exec env s).1).Guarded exec guard (t.run exec env s).2.2 (t.run exec env s).2.1 := by
  induction t generalizing env s with
  | pure a => exact (true_and _).symm.to_iff
  | op o next ih => simp only [op_bind, Guarded, run_op, ih, and_assoc]

def Ensures (exec : Env → (o : Op) → σ → Res o × σ) (guard : Env → σ → Op → Prop) (pre : σ → Prop)
    (t : Program Op Res α) (post : α → σ → Prop) : Prop :=
  ∀ env s, pre s → t.Guarded exec guard env s → post (t.run exec env s).1 (t.run exec env s).2.1

variable {pre pre' : σ → Prop} {post post' : α → σ → Prop}

theorem Ensures.bind {t : Program Op Res α} {f : α → Program Op Res β} {post' : β → σ → Prop}
    (first : t.Ensures exec guard pre post) (next : ∀ a, (f a).Ensures exec guard (post a) post') :
    (t.bind f).Ensures exec guard pre post' := by
  intro env s holds guarded
  obtain ⟨early, late⟩ := guarded_bind.mp guarded
  rw [run_bind]
  exact next _ _ _ (first env s holds early) late

theorem Ensures.mono {t : Program Op Res α} (ensures : t.Ensures exec guard pre post)
    (stronger : ∀ s, pre' s → pre s) (weaker : ∀ a s, post a s → post' a s) :
    t.Ensures exec guard pre' post' :=
  fun env s holds guarded => weaker _ _ (ensures env s (stronger s holds) guarded)

/-- A part of the precondition that does not depend on the store. -/
theorem ensures_of_pure {p : Prop} {t : Program Op Res α} (ensures : p → t.Ensures exec guard pre post) :
    t.Ensures exec guard (fun s => p ∧ pre s) post :=
  fun env s holds guarded => ensures holds.1 env s holds.2 guarded

end OpencodeRemote.Concurrency.Program
