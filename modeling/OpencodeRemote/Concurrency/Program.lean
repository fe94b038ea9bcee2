import Mathlib.Data.List.Basic

/-! # Programs as trees of answered operations

A program performs operations one after another and decides on each answer what to do
next. Handlers and asynchronous functions are written in do-notation; what an operation
means is fixed later, by the machine which executes it. `run` executes one program alone,
`Obeys` states a rule about the order of a program's own operations, which then holds
whatever else is running.
-/

namespace OpencodeRemote.Concurrency

/-- A program over operations `o : Op`, each answered by a value of `Res o`. -/
inductive Program (Op : Type) (Res : Op → Type) (α : Type) : Type where
  | pure (a : α)
  | op (o : Op) (next : Res o → Program Op Res α)

/-- An operation together with its answer. -/
structure Event (Op : Type) (Res : Op → Type) where
  op : Op
  res : Res op

namespace Program

variable {Op : Type} {Res : Op → Type} {α β γ : Type}

def bind : Program Op Res α → (α → Program Op Res β) → Program Op Res β
  | .pure a, f => f a
  | .op o next, f => .op o fun r => (next r).bind f

/-- Perform one operation and return its answer. -/
def perform (o : Op) : Program Op Res (Res o) := .op o .pure

instance : Monad (Program Op Res) where
  pure := .pure
  bind := .bind

@[simp] theorem pure_eq (a : α) : (Pure.pure a : Program Op Res α) = .pure a := rfl

@[simp] theorem bind_eq (t : Program Op Res α) (f : α → Program Op Res β) : t >>= f = t.bind f := rfl

@[simp] theorem pure_bind (a : α) (f : α → Program Op Res β) : (Program.pure a).bind f = f a := rfl

@[simp] theorem op_bind (o : Op) (next : Res o → Program Op Res α) (f : α → Program Op Res β) :
    (Program.op o next).bind f = .op o fun r => (next r).bind f := rfl

@[simp] theorem perform_bind (o : Op) (f : Res o → Program Op Res β) :
    (perform o).bind f = .op o f := rfl

/-! ## One program alone -/

section Run

variable {σ Env : Type} (exec : Env → (o : Op) → σ → Res o × σ)

/-- Run a program to its end with nobody else touching the store. The `n`-th operation gets
    the `n`-th entry of the environment; what is left of it is returned. -/
def run : Program Op Res α → (Nat → Env) → σ → α × σ × (Nat → Env)
  | .pure a, env, s => (a, s, env)
  | .op o next, env, s =>
      let (r, s') := exec (env 0) o s
      (next r).run (fun n => env (n + 1)) s'

@[simp] theorem run_pure (a : α) (env : Nat → Env) (s : σ) :
    (Program.pure a : Program Op Res α).run exec env s = (a, s, env) := rfl

@[simp] theorem run_op (o : Op) (next : Res o → Program Op Res α) (env : Nat → Env) (s : σ) :
    (Program.op o next).run exec env s =
      (next (exec (env 0) o s).1).run exec (fun n => env (n + 1)) (exec (env 0) o s).2 := rfl

theorem run_bind (t : Program Op Res α) (f : α → Program Op Res β) (env : Nat → Env) (s : σ) :
    (t.bind f).run exec env s =
      (f (t.run exec env s).1).run exec (t.run exec env s).2.2 (t.run exec env s).2.1 := by
  induction t generalizing env s with
  | pure a => rfl
  | op o next ih => simp only [op_bind, run_op, ih]

/-- What is left of the environment is its end from some place on. -/
theorem run_rest (t : Program Op Res α) (env : Nat → Env) (s : σ) :
    ∃ spent, (t.run exec env s).2.2 = fun n => env (spent + n) := by
  induction t generalizing env s with
  | pure a => exact ⟨0, by simp only [run_pure, Nat.zero_add]⟩
  | op o next ih =>
      obtain ⟨spent, left⟩ := ih (exec (env 0) o s).1 (fun n => env (n + 1)) (exec (env 0) o s).2
      refine ⟨spent + 1, ?_⟩
      rw [run_op, left]
      funext n
      exact congrArg env (by omega)

/-- The events of a run, in order. -/
def trace : Program Op Res α → (Nat → Env) → σ → List (Event Op Res)
  | .pure _, _, _ => []
  | .op o next, env, s =>
      let (r, s') := exec (env 0) o s
      ⟨o, r⟩ :: (next r).trace (fun n => env (n + 1)) s'

@[simp] theorem trace_pure (a : α) (env : Nat → Env) (s : σ) :
    (Program.pure a : Program Op Res α).trace exec env s = [] := rfl

@[simp] theorem trace_op (o : Op) (next : Res o → Program Op Res α) (env : Nat → Env) (s : σ) :
    (Program.op o next).trace exec env s = ⟨o, (exec (env 0) o s).1⟩ ::
      (next (exec (env 0) o s).1).trace exec (fun n => env (n + 1)) (exec (env 0) o s).2 := rfl

theorem trace_bind (t : Program Op Res α) (f : α → Program Op Res β) (env : Nat → Env) (s : σ) :
    (t.bind f).trace exec env s = t.trace exec env s ++
      (f (t.run exec env s).1).trace exec (t.run exec env s).2.2 (t.run exec env s).2.1 := by
  induction t generalizing env s with
  | pure a => rfl
  | op o next ih => simp only [op_bind, trace_op, run_op, ih, List.cons_append]

end Run

/-! ## The order of a program's own operations -/

/-- Every operation the program can still perform obeys `rule`, which sees the program's
    earlier events; a finished program satisfies `post`. Answers are arbitrary: nothing is
    assumed about the store, so the rule survives any interference. -/
def Obeys (rule : List (Event Op Res) → Event Op Res → Prop) :
    Program Op Res α → List (Event Op Res) → (List (Event Op Res) → α → Prop) → Prop
  | .pure a, past, post => post past a
  | .op o next, past, post =>
      ∀ r, rule past ⟨o, r⟩ ∧ (next r).Obeys rule (past ++ [⟨o, r⟩]) post

variable {rule : List (Event Op Res) → Event Op Res → Prop}

@[simp] theorem obeys_pure {a : α} {past post} :
    (Program.pure a : Program Op Res α).Obeys rule past post ↔ post past a := Iff.rfl

@[simp] theorem obeys_op {o : Op} {next : Res o → Program Op Res α} {past post} :
    (Program.op o next).Obeys rule past post ↔
      ∀ r, rule past ⟨o, r⟩ ∧ (next r).Obeys rule (past ++ [⟨o, r⟩]) post := Iff.rfl

theorem obeys_bind {t : Program Op Res α} {f : α → Program Op Res β} {past post} :
    (t.bind f).Obeys rule past post ↔
      t.Obeys rule past fun past' a => (f a).Obeys rule past' post := by
  induction t generalizing past with
  | pure a => rfl
  | op o next ih => simp only [op_bind, obeys_op, ih]

theorem Obeys.ite {p : Prop} [Decidable p] {t e : Program Op Res α} {past post}
    (yes : p → t.Obeys rule past post) (no : ¬p → e.Obeys rule past post) :
    (if p then t else e).Obeys rule past post := by
  by_cases h : p
  · simpa only [if_pos h] using yes h
  · simpa only [if_neg h] using no h

theorem Obeys.mono {t : Program Op Res α} {past post post'} (h : t.Obeys rule past post)
    (weaken : ∀ past a, post past a → post' past a) : t.Obeys rule past post' := by
  induction t generalizing past with
  | pure a => exact weaken _ _ h
  | op o next ih => exact fun r => ⟨(h r).1, ih r (h r).2⟩

theorem Obeys.and {rule' : List (Event Op Res) → Event Op Res → Prop} {t : Program Op Res α}
    {past post post'} (first : t.Obeys rule past post) (second : t.Obeys rule' past post') :
    t.Obeys (fun past e => rule past e ∧ rule' past e) past fun past a => post past a ∧ post' past a := by
  induction t generalizing past with
  | pure a => exact ⟨first, second⟩
  | op o next ih =>
      exact fun r => ⟨⟨(first r).1, (second r).1⟩, ih r (first r).2 (second r).2⟩

theorem obeys_free (t : Program Op Res α) (past : List (Event Op Res)) :
    t.Obeys (fun _ _ => True) past fun _ _ => True := by
  induction t generalizing past with
  | pure a => trivial
  | op o next ih => exact fun r => ⟨trivial, ih r _⟩

/-- A rule about single events holds of all events of a run. -/
theorem Obeys.trace {σ Env : Type} {exec : Env → (o : Op) → σ → Res o × σ} {single : Event Op Res → Prop}
    {t : Program Op Res α} {past post} (obeys : t.Obeys (fun _ e => single e) past post)
    (env : Nat → Env) (s : σ) : ∀ e ∈ t.trace exec env s, single e := by
  induction t generalizing past env s with
  | pure a => simp
  | op o next ih =>
      intro e member
      obtain ⟨first, later⟩ := obeys (exec (env 0) o s).1
      cases List.mem_cons.mp member with
      | inl here => exact here ▸ first
      | inr below => exact ih _ later _ _ e below

/-- A run of the program ends as it must. -/
theorem Obeys.run {σ Env : Type} {exec : Env → (o : Op) → σ → Res o × σ} {t : Program Op Res α} {past post}
    (obeys : t.Obeys rule past post) (env : Nat → Env) (s : σ) :
    post (past ++ t.trace exec env s) (t.run exec env s).1 := by
  induction t generalizing past env s with
  | pure a => simpa using obeys
  | op o next ih =>
      have later := ih _ (obeys (exec (env 0) o s).1).2 (fun n => env (n + 1)) (exec (env 0) o s).2
      rwa [List.append_assoc, List.singleton_append] at later

/-- What each operation that a rule about single events allows leaves as it is, a run leaves
    as it is. -/
theorem Obeys.run_frame {σ Env β : Type} {exec : Env → (o : Op) → σ → Res o × σ} {single : Event Op Res → Prop}
    {f : σ → β} (keeps : ∀ env o s, single ⟨o, (exec env o s).1⟩ → f (exec env o s).2 = f s)
    {t : Program Op Res α} {past post} (obeys : t.Obeys (fun _ e => single e) past post)
    (env : Nat → Env) (s : σ) : f (t.run exec env s).2.1 = f s := by
  induction t generalizing past env s with
  | pure a => rfl
  | op o next ih =>
      obtain ⟨first, later⟩ := obeys (exec (env 0) o s).1
      exact (ih _ later _ _).trans (keeps (env 0) o s first)

/-! ## Results -/

/-- Every result that the program can have satisfies `post`, whatever the answers are. -/
def Returns (post : α → Prop) : Program Op Res α → Prop
  | .pure a => post a
  | .op _ next => ∀ r, (next r).Returns post

theorem returns_of_forall {post : α → Prop} (always : ∀ a, post a) (t : Program Op Res α) :
    t.Returns post := by
  induction t with
  | pure a => exact always a
  | op o next ih => exact ih

theorem Returns.mono {t : Program Op Res α} {post post' : α → Prop} (returns : t.Returns post)
    (weaken : ∀ a, post a → post' a) : t.Returns post' := by
  induction t with
  | pure a => exact weaken a returns
  | op o next ih => exact fun r => ih r (returns r)

theorem returns_bind {t : Program Op Res α} {f : α → Program Op Res β} {post : β → Prop} :
    (t.bind f).Returns post ↔ t.Returns fun a => (f a).Returns post := by
  induction t with
  | pure a => rfl
  | op o next ih => simp only [op_bind, Returns, ih]

theorem Returns.run {σ Env : Type} {exec : Env → (o : Op) → σ → Res o × σ} {t : Program Op Res α}
    {post : α → Prop} (returns : t.Returns post) (env : Nat → Env) (s : σ) :
    post (t.run exec env s).1 := by
  induction t generalizing env s with
  | pure a => exact returns
  | op o next ih => exact ih _ (returns _) _ _

/-- In an environment that does not change there is always the same left of it. -/
theorem run_const {σ Env : Type} (exec : Env → (o : Op) → σ → Res o × σ) (t : Program Op Res α)
    (e : Env) (s : σ) : (t.run exec (fun _ => e) s).2.2 = fun _ => e := by
  induction t generalizing s with
  | pure a => rfl
  | op o next ih => exact ih _ _

/-! ## Programs over fewer operations -/

section Hoist

variable {Op' : Type} {Res' : Op' → Type}

/-- A program over some of the operations as one over all of them. -/
def hoist (embed : Op → Op') (answer : ∀ o, Res' (embed o) → Res o) :
    Program Op Res α → Program Op' Res' α
  | .pure a => .pure a
  | .op o next => .op (embed o) fun r => (next (answer o r)).hoist embed answer

variable {embed : Op → Op'} {answer : ∀ o, Res' (embed o) → Res o}

theorem hoist_bind (t : Program Op Res α) (f : α → Program Op Res β) :
    ((t.bind f).hoist embed answer : Program Op' Res' β) =
      (t.hoist embed answer).bind fun a => (f a).hoist embed answer := by
  induction t with
  | pure a => rfl
  | op o next ih => simp only [op_bind, hoist, ih]

/-- A rule that leaves the embedded operations alone is obeyed by a hoisted program, and
    only embedded operations are added to the past. -/
theorem obeys_hoist {rule : List (Event Op' Res') → Event Op' Res' → Prop} (t : Program Op Res α)
    {past : List (Event Op' Res')} {post : List (Event Op' Res') → α → Prop}
    (lenient : ∀ past o r, rule past ⟨embed o, r⟩)
    (reached : ∀ more a, (∀ e ∈ more, ∃ o, e.op = embed o) → post (past ++ more) a) :
    (t.hoist embed answer).Obeys rule past post := by
  induction t generalizing past with
  | pure a => simpa [hoist] using reached [] a (by simp)
  | op o next ih =>
      simp only [hoist, obeys_op]
      intro r
      refine ⟨lenient past o r, ih _ fun more a embedded => ?_⟩
      rw [List.append_assoc]
      apply reached
      intro e member
      cases List.mem_append.mp member with
      | inl first =>
          cases List.mem_singleton.mp first
          exact ⟨o, rfl⟩
      | inr later => exact embedded e later

/-- If the embedded operations leave the store alone, so does a hoisted program. -/
theorem run_hoist_store {σ Env : Type} (exec : Env → (o : Op') → σ → Res' o × σ)
    (frame : ∀ env o s, (exec env (embed o) s).2 = s) (t : Program Op Res α) (env : Nat → Env) (s : σ) :
    ((t.hoist embed answer).run exec env s).2.1 = s := by
  induction t generalizing env s with
  | pure a => rfl
  | op o next ih => simp only [hoist, run_op, ih, frame]

theorem Returns.hoist {t : Program Op Res α} {post : α → Prop} (returns : t.Returns post) :
    (t.hoist embed answer).Returns post := by
  induction t with
  | pure a => exact returns
  | op o next ih => exact fun r => ih _ (returns _)

end Hoist

end Program

end OpencodeRemote.Concurrency
