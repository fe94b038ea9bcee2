import Mathlib.Data.List.Forall2
import OpencodeRemote.Concurrency.Monitor
import OpencodeRemote.Concurrency.Pool

/-! # Runs that differ in names only

A renaming changes operations and their answers. Two programs are alike if, whatever the
answers are, the second one does under the renaming what the first one does; a program
that treats the names as opaque is like itself. A machine all of whose programs are so
has, in a renamed environment, the renamed runs.
-/

namespace OpencodeRemote.Concurrency

variable {Op : Type} {Res : Op → Type} {α β γ δ : Type}

structure Renaming (Op : Type) (Res : Op → Type) where
  op : Op → Op
  answer : ∀ o, Res o → Res (op o)

def Renaming.event (ρ : Renaming Op Res) (event : Event Op Res) : Event Op Res :=
  ⟨ρ.op event.op, ρ.answer event.op event.res⟩

def Renaming.entry {σ : Type} (ρ : Renaming Op Res) (f : σ → σ) (entry : Entry σ Op Res) : Entry σ Op Res :=
  ⟨entry.thread, f entry.before, ρ.event entry.event⟩

namespace Program

variable {ρ : Renaming Op Res}

/-- The second program is the first one renamed, with results that are related by `post`. -/
def Alike (ρ : Renaming Op Res) (post : α → β → Prop) : Program Op Res α → Program Op Res β → Prop
  | .pure a, t' => ∃ b, t' = .pure b ∧ post a b
  | .op o next, t' => ∃ next', t' = .op (ρ.op o) next' ∧ ∀ r, (next r).Alike ρ post (next' (ρ.answer o r))

theorem alike_pure {post : α → β → Prop} {a : α} {b : β} (holds : post a b) :
    (Program.pure a : Program Op Res α).Alike ρ post (.pure b) := ⟨b, rfl, holds⟩

theorem alike_bind {between : α → β → Prop} {post : γ → δ → Prop} {t : Program Op Res α} {t' : Program Op Res β}
    {f : α → Program Op Res γ} {f' : β → Program Op Res δ} (first : t.Alike ρ between t')
    (next : ∀ a b, between a b → (f a).Alike ρ post (f' b)) : (t.bind f).Alike ρ post (t'.bind f') := by
  induction t generalizing t' with
  | pure a =>
      obtain ⟨b, rfl, holds⟩ := first
      exact next a b holds
  | op o rest ih =>
      obtain ⟨rest', rfl, alike⟩ := first
      exact ⟨_, rfl, fun r => ih r (alike r)⟩

theorem Alike.mono {post post' : α → β → Prop} {t : Program Op Res α} {t' : Program Op Res β}
    (alike : t.Alike ρ post t') (weaken : ∀ a b, post a b → post' a b) : t.Alike ρ post' t' := by
  induction t generalizing t' with
  | pure a =>
      obtain ⟨b, rfl, holds⟩ := alike
      exact ⟨b, rfl, weaken a b holds⟩
  | op o rest ih =>
      obtain ⟨rest', rfl, alike⟩ := alike
      exact ⟨rest', rfl, fun r => ih r (alike r)⟩

end Program

/-! ## Programs that may throw -/

namespace Throwing

variable {ε : Type} {ρ : Renaming Op Res}

/-- Both returned, or both threw the same. -/
def Paired (post : α → β → Prop) : Except ε α → Except ε β → Prop
  | .ok a, .ok b => post a b
  | .error e, .error e' => e' = e
  | _, _ => False

def Alike (ρ : Renaming Op Res) (post : α → β → Prop) (f : ExceptT ε (Program Op Res) α)
    (f' : ExceptT ε (Program Op Res) β) : Prop :=
  f.run.Alike ρ (Paired post) f'.run

theorem alike_pure {post : α → β → Prop} {a : α} {b : β} (holds : post a b) :
    Alike ρ post (pure a : ExceptT ε (Program Op Res) α) (pure b) :=
  Program.alike_pure holds

theorem alike_throw {post : α → β → Prop} (e : ε) :
    Alike ρ post (throw e : ExceptT ε (Program Op Res) α) (throw e : ExceptT ε (Program Op Res) β) :=
  Program.alike_pure rfl

theorem alike_of_except (outcome : Except ε α) :
    Alike ρ Eq (ExceptT.mk (pure outcome) : ExceptT ε (Program Op Res) α) (ExceptT.mk (pure outcome)) := by
  refine Program.alike_pure ?_
  cases outcome <;> rfl

variable {f : ExceptT ε (Program Op Res) α} {f' : ExceptT ε (Program Op Res) β}

theorem Alike.bind {between : α → β → Prop} {post : γ → δ → Prop} {g : α → ExceptT ε (Program Op Res) γ}
    {g' : β → ExceptT ε (Program Op Res) δ} (first : Alike ρ between f f')
    (next : ∀ a b, between a b → Alike ρ post (g a) (g' b)) : Alike ρ post (f >>= g) (f' >>= g') := by
  refine Program.alike_bind first fun outcome outcome' paired => ?_
  cases outcome with
  | ok a =>
      cases outcome' with
      | ok b => exact next a b paired
      | error e => cases paired
  | error e =>
      cases outcome' with
      | ok b => cases paired
      | error e' => exact Program.alike_pure paired

/-- What comes before has the same result in both. -/
theorem Alike.then {f : ExceptT ε (Program Op Res) α} {post : γ → δ → Prop} {g : α → ExceptT ε (Program Op Res) γ}
    {g' : α → ExceptT ε (Program Op Res) δ} (first : Alike ρ Eq f f) (next : ∀ a, Alike ρ post (g a) (g' a)) :
    Alike ρ post (f >>= g) (f >>= g') := by
  refine first.bind fun a b same => ?_
  subst same
  exact next a

/-- What is run for its outcome, thrown or not, and then gone on with. -/
theorem Alike.finished {between : α → β → Prop} {post : γ → δ → Prop} {k : Except ε α → Program Op Res γ}
    {k' : Except ε β → Program Op Res δ} (first : Alike ρ between f f')
    (returned : ∀ a b, between a b → (k (.ok a)).Alike ρ post (k' (.ok b)))
    (thrown : ∀ e, (k (.error e)).Alike ρ post (k' (.error e))) :
    (f.run.bind k).Alike ρ post (f'.run.bind k') := by
  refine Program.alike_bind first fun outcome outcome' paired => ?_
  cases outcome with
  | ok a =>
      cases outcome' with
      | ok b => exact returned a b paired
      | error e => cases paired
  | error e =>
      cases outcome' with
      | ok b => cases paired
      | error e' =>
          cases paired
          exact thrown e

theorem Alike.tryCatch {post : α → β → Prop} {handler : ε → ExceptT ε (Program Op Res) α}
    {handler' : ε → ExceptT ε (Program Op Res) β} (first : Alike ρ post f f')
    (handled : ∀ e, Alike ρ post (handler e) (handler' e)) :
    Alike ρ post (tryCatch f handler) (tryCatch f' handler') :=
  Alike.finished first (fun _ _ holds => Program.alike_pure holds) handled

theorem alike_ite {p p' : Prop} [Decidable p] [Decidable p'] {post : α → β → Prop}
    {g : ExceptT ε (Program Op Res) α} {g' : ExceptT ε (Program Op Res) β} (same : p ↔ p')
    (yes : Alike ρ post f f') (no : Alike ρ post g g') : Alike ρ post (if p then f else g) (if p' then f' else g') := by
  by_cases holds : p
  · rwa [if_pos holds, if_pos (same.mp holds)]
  · rwa [if_neg holds, if_neg fun holds' => holds (same.mpr holds')]

theorem Alike.mono {post post' : α → β → Prop} (alike : Alike ρ post f f')
    (weaken : ∀ a b, post a b → post' a b) : Alike ρ post' f f' := by
  refine Program.Alike.mono alike fun outcome outcome' paired => ?_
  cases outcome with
  | ok a =>
      cases outcome' with
      | ok b => exact weaken a b paired
      | error e => cases paired
  | error e =>
      cases outcome' with
      | ok b => cases paired
      | error e' => exact paired

end Throwing

/-! ## Machines -/

section Lists

variable {ι κ : Type} {R : ι → κ → Prop} {items : List ι} {items' : List κ}

theorem rel_getElem? (related : List.Forall₂ R items items') (i : Nat) : Option.Rel R items[i]? items'[i]? := by
  induction related generalizing i with
  | nil => exact .none
  | cons first later ih =>
      cases i with
      | zero => exact .some first
      | succ i => exact ih i

theorem forall₂_set {a : ι} {b : κ} (related : List.Forall₂ R items items') (new : R a b) (i : Nat) :
    List.Forall₂ R (items.set i a) (items'.set i b) := by
  induction related generalizing i with
  | nil => exact .nil
  | cons first later ih =>
      cases i with
      | zero => exact .cons new later
      | succ i => exact .cons first (ih i)

end Lists

section Matches

variable {Req Env σ : Type}

def Label.Matches (match_ : Env → Env → Prop) : Label Req Env → Label Req Env → Prop
  | .arrive request env, .arrive request' env' => request' = request ∧ ∀ n, match_ (env n) (env' n)
  | .resume i env, .resume i' env' => i' = i ∧ ∀ n, match_ (env n) (env' n)
  | .reboot env, .reboot env' => match_ env env'
  | _, _ => False

structure Thread.Matches (ρ : Renaming Op Res) (post : α → β → Prop) (thread : Thread Req Op Res α)
    (thread' : Thread Req Op Res β) : Prop where
  request : thread'.request = thread.request
  started : thread'.started = thread.started
  rest : Option.Rel (Program.Alike ρ post) thread.rest thread'.rest

/-- The second pool is the first one renamed, `f` being what becomes of the store. -/
structure Pool.Matches (ρ : Renaming Op Res) (f : σ → σ) (post : α → α → Prop)
    (pool pool' : Pool Req Op Res σ α) : Prop where
  store : pool'.store = f pool.store
  threads : List.Forall₂ (Thread.Matches ρ post) pool.threads pool'.threads
  log : pool'.log = pool.log.map (ρ.entry f)

/-- Nothing that the machine does depends on the names. -/
structure Machine.Equivariant (m : Machine Req Op Res Env σ α) (ρ : Renaming Op Res) (f : σ → σ)
    (match_ : Env → Env → Prop) (post : α → α → Prop) : Prop where
  exec : ∀ env env' o s, match_ env env' →
    m.exec env' (ρ.op o) (f s) = (ρ.answer o (m.exec env o s).1, f (m.exec env o s).2)
  suspends : ∀ o, m.suspends (ρ.op o) = m.suspends o
  serve : ∀ request, (m.serve request).Alike ρ post (m.serve request)
  reboot : ∀ env env' s, match_ env env' → m.reboot env' (f s) = f (m.reboot env s)

namespace Machine

variable {m : Machine Req Op Res Env σ α} {ρ : Renaming Op Res} {f : σ → σ} {match_ : Env → Env → Prop}
  {post : α → α → Prop} (equivariant : m.Equivariant ρ f match_ post)

include equivariant

theorem settle_alike (thread : Nat) {t t' : Program Op Res α} (alike : t.Alike ρ post t') {env env' : Nat → Env}
    (matched : ∀ n, match_ (env n) (env' n)) (s : σ) :
    ∃ rest', m.settle thread t' env' (f s) =
        (rest', f (m.settle thread t env s).2.1, (m.settle thread t env s).2.2.map (ρ.entry f)) ∧
      (m.settle thread t env s).1.Alike ρ post rest' := by
  induction t generalizing t' env env' s with
  | pure a =>
      obtain ⟨b, rfl, holds⟩ := alike
      exact ⟨.pure b, rfl, b, rfl, holds⟩
  | op o next ih =>
      obtain ⟨next', rfl, later⟩ := alike
      by_cases suspended : m.suspends o = true
      · have renamed := (equivariant.suspends o).trans suspended
        simp only [settle, suspended, renamed, if_true]
        exact ⟨.op (ρ.op o) next', rfl, next', rfl, later⟩
      · have renamed : ¬m.suspends (ρ.op o) = true := (equivariant.suspends o).symm ▸ suspended
        have done := equivariant.exec (env 0) (env' 0) o s (matched 0)
        obtain ⟨rest', ran, still⟩ := ih (m.exec (env 0) o s).1 (later _) (fun n => matched (n + 1)) (m.exec (env 0) o s).2
        simp only [settle, suspended, renamed, done, ran]
        exact ⟨rest', rfl, still⟩

theorem turn_alike (thread : Nat) {t t' : Program Op Res α} (alike : t.Alike ρ post t') {env env' : Nat → Env}
    (matched : ∀ n, match_ (env n) (env' n)) (s : σ) :
    ∃ rest', m.turn thread t' env' (f s) =
        (rest', f (m.turn thread t env s).2.1, (m.turn thread t env s).2.2.map (ρ.entry f)) ∧
      (m.turn thread t env s).1.Alike ρ post rest' := by
  cases t with
  | pure a =>
      obtain ⟨b, rfl, holds⟩ := alike
      exact ⟨.pure b, rfl, b, rfl, holds⟩
  | op o next =>
      obtain ⟨next', rfl, later⟩ := alike
      have done := equivariant.exec (env 0) (env' 0) o s (matched 0)
      obtain ⟨rest', ran, still⟩ := settle_alike equivariant thread (later (m.exec (env 0) o s).1)
        (fun n => matched (n + 1)) (m.exec (env 0) o s).2
      simp only [turn, done, ran]
      exact ⟨rest', rfl, still⟩

theorem step_matches {pool pool' : Pool Req Op Res σ α} (matched : pool.Matches ρ f post pool')
    {label label' : Label Req Env} (same : label.Matches match_ label') :
    (m.step pool label).Matches ρ f post (m.step pool' label') := by
  obtain ⟨store, threads, log⟩ := matched
  have number := threads.length_eq
  have times : pool'.log.length = pool.log.length := by rw [log, List.length_map]
  cases label with
  | arrive request env =>
      cases label' with
      | arrive request' env' =>
          obtain ⟨rfl, envs⟩ := same
          obtain ⟨rest', ran, still⟩ := settle_alike equivariant pool.threads.length
            (equivariant.serve request') envs pool.store
          simp only [step, store, ← number, ran]
          refine ⟨rfl, ?_, by simp [log]⟩
          exact List.rel_append threads (.cons ⟨rfl, times, .some still⟩ .nil)
      | resume i env' => cases same
      | reboot env' => cases same
  | resume i env =>
      cases label' with
      | arrive request' env' => cases same
      | resume i' env' =>
          obtain ⟨rfl, envs⟩ := same
          have found := rel_getElem? threads i'
          simp only [step]
          generalize pool.threads[i']? = here at found
          generalize pool'.threads[i']? = here' at found
          cases found with
          | none => exact ⟨store, threads, log⟩
          | @some thread thread' both =>
              obtain ⟨request, started, rest⟩ := thread
              obtain ⟨request', started', rest'⟩ := thread'
              obtain ⟨rfl, rfl, related⟩ := both
              cases related with
              | none => exact ⟨store, threads, log⟩
              | some alike =>
                  obtain ⟨rest', ran, still⟩ := turn_alike equivariant i' alike envs pool.store
                  simp only [store, ran]
                  refine ⟨rfl, ?_, by simp [log]⟩
                  have renewed : Thread.Matches ρ post ⟨request', started', some (m.turn i' _ env pool.store).1⟩
                      ⟨request', started', some rest'⟩ := ⟨rfl, rfl, .some still⟩
                  exact forall₂_set threads renewed i'
      | reboot env' => cases same
  | reboot env =>
      cases label' with
      | arrive request' env' => cases same
      | resume i env' => cases same
      | reboot env' =>
          simp only [step, store]
          refine ⟨equivariant.reboot env env' pool.store same, ?_, log⟩
          rw [List.forall₂_map_left_iff, List.forall₂_map_right_iff]
          exact threads.imp fun _ _ both => ⟨both.request, both.started, .none⟩

/-- In a renamed environment a machine has the renamed runs. -/
theorem run_matches (s : σ) {labels labels' : List (Label Req Env)}
    (same : List.Forall₂ (Label.Matches match_) labels labels') :
    (m.run s labels).Matches ρ f post (m.run (f s) labels') := by
  have from_ (pool pool' : Pool Req Op Res σ α) (matched : pool.Matches ρ f post pool') :
      (labels.foldl m.step pool).Matches ρ f post (labels'.foldl m.step pool') := by
    induction same generalizing pool pool' with
    | nil => exact matched
    | cons first later ih => exact ih _ _ (step_matches equivariant matched first)
  exact from_ _ _ ⟨rfl, .nil, rfl⟩

end Machine

end Matches

end OpencodeRemote.Concurrency
