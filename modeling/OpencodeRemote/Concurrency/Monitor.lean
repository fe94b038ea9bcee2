import OpencodeRemote.Concurrency.Program

/-! # Monitors

A monitor walks along the events of a program and remembers what matters of them. It gives
up at events that a result leaves out of account. `Watched` is partial correctness with
the monitor's state as a ghost variable: whatever the answers are, a program that ends
without the monitor giving up ends in a state and with a result that satisfy `post`.
-/

namespace OpencodeRemote.Concurrency

abbrev Monitor (Op : Type) (Res : Op → Type) (M : Type) := M → (o : Op) → Res o → Option M

variable {Op : Type} {Res : Op → Type} {M α β : Type}

namespace Monitor

variable (monitor : Monitor Op Res M)

/-- The state after some events, if the monitor has not given up. -/
def follow (m : M) : List (Event Op Res) → Option M
  | [] => some m
  | event :: rest => (monitor m event.op event.res).bind fun m' => follow m' rest

@[simp] theorem follow_nil (m : M) : monitor.follow m [] = some m := rfl

theorem follow_append (m : M) (first second : List (Event Op Res)) :
    monitor.follow m (first ++ second) = (monitor.follow m first).bind fun m' => monitor.follow m' second := by
  induction first generalizing m with
  | nil => rfl
  | cons event rest ih =>
      simp only [List.cons_append, follow, Option.bind_assoc]
      exact congrArg (Option.bind _) (funext fun m' => ih m')

theorem follow_snoc (m : M) (past : List (Event Op Res)) (event : Event Op Res) :
    monitor.follow m (past ++ [event]) =
      (monitor.follow m past).bind fun m' => monitor m' event.op event.res := by
  rw [follow_append]
  refine congrArg (Option.bind _) (funext fun m' => ?_)
  simp only [follow, Option.bind_fun_some]

end Monitor

/-! ## What events show -/

section Shown

variable (shows : (o : Op) → Res o → Option β)

/-- What the last event that shows anything shows. -/
def lastShown (events : List (Event Op Res)) : Option β :=
  (events.filterMap fun event => shows event.op event.res).getLast?

@[simp] theorem lastShown_nil : lastShown shows ([] : List (Event Op Res)) = none := rfl

@[simp] theorem lastShown_cons (event : Event Op Res) (events : List (Event Op Res)) :
    lastShown shows (event :: events) = (lastShown shows events).or (shows event.op event.res) := by
  cases shown : shows event.op event.res with
  | none => simp [lastShown, shown]
  | some b => simp [lastShown, shown, List.getLast?_cons]

end Shown

namespace Program

variable {monitor : Monitor Op Res M}

def Watched (monitor : Monitor Op Res M) : Program Op Res α → M → (M → α → Prop) → Prop
  | .pure a, m, post => post m a
  | .op o next, m, post => ∀ r m', monitor m o r = some m' → (next r).Watched monitor m' post

theorem watched_bind {t : Program Op Res α} {f : α → Program Op Res β} {m : M} {post : M → β → Prop} :
    (t.bind f).Watched monitor m post ↔
      t.Watched monitor m fun m' a => (f a).Watched monitor m' post := by
  induction t generalizing m with
  | pure a => rfl
  | op o next ih => simp only [op_bind, Watched, ih]

theorem Watched.mono {t : Program Op Res α} {m : M} {post post' : M → α → Prop}
    (watched : t.Watched monitor m post) (weaken : ∀ m a, post m a → post' m a) :
    t.Watched monitor m post' := by
  induction t generalizing m with
  | pure a => exact weaken m a watched
  | op o next ih => exact fun r m' followed => ih r (watched r m' followed)

theorem watched_of_forall {post : M → α → Prop} (always : ∀ m a, post m a) (t : Program Op Res α) (m : M) :
    t.Watched monitor m post := by
  induction t generalizing m with
  | pure a => exact always m a
  | op o next ih => exact fun r m' _ => ih r m'

theorem Watched.and_returns {t : Program Op Res α} {m : M} {post : M → α → Prop} {post' : α → Prop}
    (watched : t.Watched monitor m post) (returns : t.Returns post') :
    t.Watched monitor m fun m' a => post m' a ∧ post' a := by
  induction t generalizing m with
  | pure a => exact ⟨watched, returns⟩
  | op o next ih => exact fun r m' followed => ih r (watched r m' followed) (returns r)

/-- What a run shows of itself to the monitor, its result satisfies. -/
theorem Watched.run {σ Env : Type} {exec : Env → (o : Op) → σ → Res o × σ} {t : Program Op Res α} {m m' : M}
    {post : M → α → Prop} (watched : t.Watched monitor m post) (env : Nat → Env) (s : σ)
    (followed : monitor.follow m (t.trace exec env s) = some m') : post m' (t.run exec env s).1 := by
  induction t generalizing m env s with
  | pure a =>
      cases followed
      exact watched
  | op o next ih =>
      rw [trace_op, Monitor.follow, Option.bind_eq_some_iff] at followed
      obtain ⟨middle, here, later⟩ := followed
      exact ih _ (watched _ middle here) _ _ later

/-- Watching from the start of a program tells about its past at every end. -/
theorem Watched.obeys {t : Program Op Res α} {start : M} {past : List (Event Op Res)}
    {post : M → α → Prop}
    (watched : ∀ m, monitor.follow start past = some m → t.Watched monitor m post) :
    t.Obeys (fun _ _ => True) past fun past' a => ∀ m, monitor.follow start past' = some m → post m a := by
  induction t generalizing past with
  | pure a => exact watched
  | op o next ih =>
      refine fun r => ⟨trivial, ih r fun m' followed => ?_⟩
      rw [Monitor.follow_snoc, Option.bind_eq_some_iff] at followed
      obtain ⟨m, before, here⟩ := followed
      exact watched m before r m' here

/-- A program over some of the operations is watched among all of them by a monitor that
    does on these operations what its own monitor does. -/
theorem Watched.hoist {Op' : Type} {Res' : Op' → Type} {M' : Type} {embed : Op → Op'}
    {answer : ∀ o, Res' (embed o) → Res o} {monitor' : Monitor Op' Res' M'} {lift : M → M'}
    (alike : ∀ m o r, monitor' (lift m) (embed o) r = (monitor m o (answer o r)).map lift)
    {t : Program Op Res α} {m : M} {post : M' → α → Prop}
    (watched : t.Watched monitor m fun m' a => post (lift m') a) :
    (t.hoist embed answer).Watched monitor' (lift m) post := by
  induction t generalizing m with
  | pure a => exact watched
  | op o next ih =>
      intro r m' followed
      rw [alike, Option.map_eq_some_iff] at followed
      obtain ⟨m'', here, rfl⟩ := followed
      exact ih _ (watched (answer o r) m'' here)

end Program

/-! ## Programs that may throw -/

namespace Throwing

variable {ε : Type} {monitor : Monitor Op Res M} {m : M} {returned : M → α → Prop} {thrown : M → ε → Prop}

/-- One condition for each of the two ways in which a program ends. -/
def Ended (returned : M → α → Prop) (thrown : M → ε → Prop) (m : M) : Except ε α → Prop
  | .ok a => returned m a
  | .error e => thrown m e

/-- Watched from `m` on, the program ends in one of these ways. -/
def Ends (monitor : Monitor Op Res M) (m : M) (f : ExceptT ε (Program Op Res) α) (returned : M → α → Prop)
    (thrown : M → ε → Prop) : Prop := f.run.Watched monitor m (Ended returned thrown)

theorem ends_pure {a : α} (holds : returned m a) :
    Ends monitor m (pure a : ExceptT ε (Program Op Res) α) returned thrown := holds

theorem ends_throw {e : ε} (holds : thrown m e) :
    Ends monitor m (throw e : ExceptT ε (Program Op Res) α) returned thrown := holds

theorem Ends.bind {f : ExceptT ε (Program Op Res) α} {g : α → ExceptT ε (Program Op Res) β}
    {between : M → α → Prop} {returned : M → β → Prop} (first : Ends monitor m f between thrown)
    (next : ∀ m a, between m a → Ends monitor m (g a) returned thrown) :
    Ends monitor m (f >>= g) returned thrown := by
  refine Program.watched_bind.mpr (Program.Watched.mono first fun m' outcome holds => ?_)
  cases outcome with
  | ok a => exact next m' a holds
  | error e => exact holds

theorem Ends.tryCatch {f : ExceptT ε (Program Op Res) α} {handler : ε → ExceptT ε (Program Op Res) α}
    {caught : M → ε → Prop} (first : Ends monitor m f returned caught)
    (handled : ∀ m e, caught m e → Ends monitor m (handler e) returned thrown) :
    Ends monitor m (tryCatch f handler) returned thrown := by
  refine Program.watched_bind.mpr (Program.Watched.mono first fun m' outcome holds => ?_)
  cases outcome with
  | ok a => exact holds
  | error e => exact handled m' e holds

theorem Ends.mono {f : ExceptT ε (Program Op Res) α} {returned' : M → α → Prop} {thrown' : M → ε → Prop}
    (ends : Ends monitor m f returned thrown) (weaken : ∀ m a, returned m a → returned' m a)
    (weaken' : ∀ m e, thrown m e → thrown' m e) : Ends monitor m f returned' thrown' := by
  refine Program.Watched.mono ends fun m' outcome holds => ?_
  cases outcome with
  | ok a => exact weaken m' a holds
  | error e => exact weaken' m' e holds

end Throwing

end OpencodeRemote.Concurrency
