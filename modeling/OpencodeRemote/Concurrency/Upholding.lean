import OpencodeRemote.Concurrency.Evidence

/-! # Rules that are upheld

A fact about a whole record need not survive what comes later: a resource is held from one
operation to another. `Upholds` is about a condition which holds whenever a function is not
in the middle of something, and so before and after every function, however it ends.
`Guards` is about a stretch in the middle: whatever is thrown there, is thrown safely.
-/

namespace OpencodeRemote.Concurrency

variable {Op : Type} {Res : Op → Type} {E α β : Type}

/-- The policy that has the whole past on record. -/
def Policy.ofPast (allowed : List (Event Op Res) → Op → Prop) : Policy Op Res (Event Op Res) :=
  ⟨fun o r => [⟨o, r⟩], allowed⟩

@[simp] theorem Policy.evidence_ofPast (allowed : List (Event Op Res) → Op → Prop) (events : List (Event Op Res)) :
    (Policy.ofPast allowed).evidence events = events := by
  induction events with
  | nil => rfl
  | cons event rest ih => exact congrArg (event :: ·) ih

variable {policy : Policy Op Res E} {safe : List E → Prop}

/-- Wherever it is safe, the operation is allowed and leaves things safe. -/
def Policy.Harmless (policy : Policy Op Res E) (safe : List E → Prop) (o : Op) : Prop :=
  ∀ kept, safe kept → policy.allowed kept o ∧ ∀ r, safe (kept ++ policy.record o r)

namespace Program

/-- From a safe record on, the program performs allowed operations only, and its end is
    safe. -/
def Upholds (policy : Policy Op Res E) (safe : List E → Prop) (t : Program Op Res α) : Prop :=
  ∀ kept, safe kept → t.Heeds policy kept fun kept' _ => safe kept'

theorem upholds_pure (a : α) : (Program.pure a : Program Op Res α).Upholds policy safe := fun _ holds => holds

theorem Upholds.bind {t : Program Op Res α} {f : α → Program Op Res β} (first : t.Upholds policy safe)
    (next : ∀ a, (f a).Upholds policy safe) : (t.bind f).Upholds policy safe :=
  fun kept holds => heeds_bind.mpr ((first kept holds).mono fun kept' a safe' => next a kept' safe')

theorem upholds_perform {o : Op} (harmless : policy.Harmless safe o) : (perform o).Upholds policy safe :=
  harmless

theorem Upholds.hoist {Op' : Type} {Res' : Op' → Type} {embed : Op' → Op}
    {answer : ∀ o, Res (embed o) → Res' o} {back : ∀ o, Res' o → Res (embed o)}
    (inverse : ∀ o r, back o (answer o r) = r) {t : Program Op' Res' α}
    (upholds : t.Upholds (policy.restrict embed back) safe) : (t.hoist embed answer).Upholds policy safe :=
  fun kept holds => (upholds kept holds).hoist inverse

end Program

namespace Throwing

variable {ε : Type}

def Upholds (policy : Policy Op Res E) (safe : List E → Prop) (f : ExceptT ε (Program Op Res) α) : Prop :=
  f.run.Upholds policy safe

theorem upholds_pure (a : α) : Upholds policy safe (pure a : ExceptT ε (Program Op Res) α) :=
  Program.upholds_pure _

theorem upholds_throw (e : ε) : Upholds policy safe (throw e : ExceptT ε (Program Op Res) α) :=
  Program.upholds_pure _

theorem upholds_mk (outcome : Except ε α) :
    Upholds policy safe (ExceptT.mk (pure outcome) : ExceptT ε (Program Op Res) α) := Program.upholds_pure _

theorem Upholds.bind {f : ExceptT ε (Program Op Res) α} {g : α → ExceptT ε (Program Op Res) β}
    (first : Upholds policy safe f) (next : ∀ a, Upholds policy safe (g a)) : Upholds policy safe (f >>= g) := by
  refine Program.Upholds.bind first fun outcome => ?_
  cases outcome with
  | ok a => exact next a
  | error e => exact Program.upholds_pure _

theorem Upholds.tryCatch {f : ExceptT ε (Program Op Res) α} {handler : ε → ExceptT ε (Program Op Res) α}
    (first : Upholds policy safe f) (handled : ∀ e, Upholds policy safe (handler e)) :
    Upholds policy safe (tryCatch f handler) := by
  refine Program.Upholds.bind first fun outcome => ?_
  cases outcome with
  | ok a => exact Program.upholds_pure _
  | error e => exact handled e

/-- Running for the outcome upholds what running does. -/
theorem upholds_outcome {f : ExceptT ε (Program Op Res) α} (upholds : Upholds policy safe f) :
    Upholds policy safe (ExceptT.lift f.run : ExceptT ε (Program Op Res) (Except ε α)) :=
  Program.Upholds.bind upholds fun _ => Program.upholds_pure _

/-- A harmless operation may follow, whatever the outcome. -/
theorem Upholds.followed {f : ExceptT ε (Program Op Res) α} {o : Op} (harmless : policy.Harmless safe o)
    (upholds : Upholds policy safe f) : Upholds policy safe (ExceptT.mk (f.run.bind fun outcome =>
      (Program.perform o).bind fun _ => .pure outcome) : ExceptT ε (Program Op Res) α) :=
  Program.Upholds.bind upholds fun outcome => (Program.upholds_perform harmless).bind fun _ =>
    Program.upholds_pure outcome

/-- `post` holds of the record and the result at the end; if something is thrown, it is
    safe. -/
def Guards (policy : Policy Op Res E) (safe : List E → Prop) (kept : List E) (f : ExceptT ε (Program Op Res) α)
    (post : List E → α → Prop) : Prop := f.run.Heeds policy kept (Ended post fun kept' _ => safe kept')

variable {kept : List E}

theorem guards_pure {post : List E → α → Prop} {a : α} (holds : post kept a) :
    Guards policy safe kept (pure a : ExceptT ε (Program Op Res) α) post := holds

theorem guards_throw {post : List E → α → Prop} {e : ε} (holds : safe kept) :
    Guards policy safe kept (throw e : ExceptT ε (Program Op Res) α) post := holds

theorem Guards.bind {f : ExceptT ε (Program Op Res) α} {g : α → ExceptT ε (Program Op Res) β}
    {between : List E → α → Prop} {post : List E → β → Prop} (first : Guards policy safe kept f between)
    (next : ∀ kept' a, kept ⊆ kept' → between kept' a → Guards policy safe kept' (g a) post) :
    Guards policy safe kept (f >>= g) post := by
  refine Program.heeds_bind.mpr ((Program.Heeds.grown first).mono fun kept' outcome both => ?_)
  cases outcome with
  | ok a => exact next kept' a both.1 both.2
  | error e => exact both.2

theorem Guards.mono {f : ExceptT ε (Program Op Res) α} {post post' : List E → α → Prop}
    (guards : Guards policy safe kept f post) (weaken : ∀ kept' a, kept ⊆ kept' → post kept' a → post' kept' a) :
    Guards policy safe kept f post' := by
  refine (Program.Heeds.grown guards).mono fun kept' outcome both => ?_
  cases outcome with
  | ok a => exact weaken kept' a both.1 both.2
  | error e => exact both.2

/-- What upholds a condition that makes things safe may stand in the middle. -/
theorem Upholds.guards {held : List E → Prop} {f : ExceptT ε (Program Op Res) α} (upholds : Upholds policy held f)
    (holds : held kept) (enough : ∀ kept, held kept → safe kept) :
    Guards policy safe kept f fun kept' _ => held kept' := by
  refine (upholds kept holds).mono fun kept' outcome held' => ?_
  cases outcome with
  | ok a => exact held'
  | error e => exact enough kept' held'

theorem upholds_of_guards {f : ExceptT ε (Program Op Res) α}
    (guards : ∀ kept, safe kept → Guards policy safe kept f fun kept' _ => safe kept') : Upholds policy safe f := by
  refine fun kept holds => Program.Heeds.mono (guards kept holds) fun kept' outcome ends => ?_
  cases outcome with
  | ok a => exact ends
  | error e => exact ends

end Throwing

end OpencodeRemote.Concurrency
