import OpencodeRemote.Concurrency.Monitor
import OpencodeRemote.Concurrency.Pool

/-! # Evidence

A program collects evidence: each answer is put on record as some entries, which are never
given up again. A policy says what an operation needs to have on record beforehand. Facts
of the form "this entry is on record" survive whatever comes later, so they may be used
anywhere below the step which established them. `Heeds` is the judgement; a machine whose
programs keep a policy performs no operation, under any schedule, for which the thread's
own past has not the evidence.
-/

namespace OpencodeRemote.Concurrency

variable {Op : Type} {Res : Op → Type} {E α β : Type}

/-- What the answer to an operation puts on record, and what an operation requires. -/
structure Policy (Op : Type) (Res : Op → Type) (E : Type) where
  record : (o : Op) → Res o → List E
  allowed : List E → Op → Prop

namespace Policy

variable (policy : Policy Op Res E)

/-- The evidence of some events. -/
def evidence (events : List (Event Op Res)) : List E :=
  events.flatMap fun event => policy.record event.op event.res

@[simp] theorem evidence_nil : policy.evidence [] = [] := rfl

@[simp] theorem evidence_append (first second : List (Event Op Res)) :
    policy.evidence (first ++ second) = policy.evidence first ++ policy.evidence second :=
  List.flatMap_append

@[simp] theorem evidence_singleton (event : Event Op Res) :
    policy.evidence [event] = policy.record event.op event.res := by
  simp [evidence]

theorem evidence_mono {events events' : List (Event Op Res)} (grown : events ⊆ events') :
    policy.evidence events ⊆ policy.evidence events' := by
  intro entry member
  obtain ⟨event, inside, recorded⟩ := List.mem_flatMap.mp member
  exact List.mem_flatMap.mpr ⟨event, grown inside, recorded⟩

/-- The policy for programs over some of the operations. -/
def restrict {Op' : Type} {Res' : Op' → Type} (embed : Op' → Op) (answer : ∀ o, Res' o → Res (embed o)) :
    Policy Op' Res' E where
  record o r := policy.record (embed o) (answer o r)
  allowed kept o := policy.allowed kept (embed o)

end Policy

namespace Program

variable {policy : Policy Op Res E}

/-- With `kept` on record the program performs allowed operations only, and `post` holds of
    the record and the result at the end. -/
def Heeds (policy : Policy Op Res E) : Program Op Res α → List E → (List E → α → Prop) → Prop
  | .pure a, kept, post => post kept a
  | .op o next, kept, post =>
      policy.allowed kept o ∧ ∀ r, (next r).Heeds policy (kept ++ policy.record o r) post

theorem heeds_bind {t : Program Op Res α} {f : α → Program Op Res β} {kept : List E}
    {post : List E → β → Prop} :
    (t.bind f).Heeds policy kept post ↔
      t.Heeds policy kept fun kept' a => (f a).Heeds policy kept' post := by
  induction t generalizing kept with
  | pure a => rfl
  | op o next ih => simp only [op_bind, Heeds, ih]

theorem Heeds.mono {t : Program Op Res α} {kept : List E} {post post' : List E → α → Prop}
    (heeds : t.Heeds policy kept post) (weaken : ∀ kept' a, post kept' a → post' kept' a) :
    t.Heeds policy kept post' := by
  induction t generalizing kept with
  | pure a => exact weaken kept a heeds
  | op o next ih => exact ⟨heeds.1, fun r => ih r (heeds.2 r)⟩

/-- Nothing is taken off the record. -/
theorem Heeds.grown {t : Program Op Res α} {kept : List E} {post : List E → α → Prop}
    (heeds : t.Heeds policy kept post) :
    t.Heeds policy kept fun kept' a => kept ⊆ kept' ∧ post kept' a := by
  induction t generalizing kept with
  | pure a => exact ⟨List.Subset.refl _, heeds⟩
  | op o next ih =>
      refine ⟨heeds.1, fun r => (ih r (heeds.2 r)).mono fun kept' a both => ⟨?_, both.2⟩⟩
      exact List.Subset.trans (List.subset_append_left _ _) both.1

theorem Heeds.and_returns {t : Program Op Res α} {kept : List E} {post : List E → α → Prop}
    {post' : α → Prop} (heeds : t.Heeds policy kept post) (returns : t.Returns post') :
    t.Heeds policy kept fun kept' a => post kept' a ∧ post' a := by
  induction t generalizing kept with
  | pure a => exact ⟨heeds, returns⟩
  | op o next ih => exact ⟨heeds.1, fun r => ih r (heeds.2 r) (returns r)⟩

/-- The judgement as a rule about the program's own events. -/
theorem Heeds.obeys {t : Program Op Res α} {past : List (Event Op Res)} {post : List E → α → Prop}
    (heeds : t.Heeds policy (policy.evidence past) post) :
    t.Obeys (fun past event => policy.allowed (policy.evidence past) event.op) past
      fun past' a => post (policy.evidence past') a := by
  induction t generalizing past with
  | pure a => exact heeds
  | op o next ih =>
      refine fun r => ⟨heeds.1, ih r ?_⟩
      simpa only [Policy.evidence_append, Policy.evidence_singleton] using heeds.2 r

theorem Heeds.hoist {Op' : Type} {Res' : Op' → Type} {embed : Op' → Op}
    {answer : ∀ o, Res (embed o) → Res' o} {back : ∀ o, Res' o → Res (embed o)}
    (inverse : ∀ o r, back o (answer o r) = r) {t : Program Op' Res' α} {kept : List E}
    {post : List E → α → Prop} (heeds : t.Heeds (policy.restrict embed back) kept post) :
    (t.hoist embed answer).Heeds policy kept post := by
  induction t generalizing kept with
  | pure a => exact heeds
  | op o next ih =>
      refine ⟨heeds.1, fun r => ih _ ?_⟩
      have later := heeds.2 (answer o r)
      rwa [show (policy.restrict embed back).record o (answer o r) = policy.record (embed o) r from
        congrArg (policy.record (embed o)) (inverse o r)] at later

end Program

/-! ## Programs that may throw -/

namespace Throwing

variable {ε : Type} {policy : Policy Op Res E} {kept : List E}

/-- The same for a program that may throw: `post` is about its results only. -/
def Heeds (policy : Policy Op Res E) (kept : List E) (f : ExceptT ε (Program Op Res) α)
    (post : List E → α → Prop) : Prop :=
  f.run.Heeds policy kept (Ended post fun _ _ => True)

theorem heeds_pure {post : List E → α → Prop} {a : α} (holds : post kept a) :
    Heeds policy kept (pure a : ExceptT ε (Program Op Res) α) post := holds

theorem heeds_throw {post : List E → α → Prop} (e : ε) :
    Heeds policy kept (throw e : ExceptT ε (Program Op Res) α) post := trivial

theorem heeds_of_except {post : List E → α → Prop} {outcome : Except ε α}
    (holds : ∀ a, outcome = .ok a → post kept a) :
    Heeds policy kept (ExceptT.mk (pure outcome) : ExceptT ε (Program Op Res) α) post := by
  cases outcome with
  | ok a => exact holds a rfl
  | error e => trivial

theorem Heeds.bind {f : ExceptT ε (Program Op Res) α} {g : α → ExceptT ε (Program Op Res) β}
    {between : List E → α → Prop} {post : List E → β → Prop} (first : Heeds policy kept f between)
    (next : ∀ kept' a, kept ⊆ kept' → between kept' a → Heeds policy kept' (g a) post) :
    Heeds policy kept (f >>= g) post := by
  refine Program.heeds_bind.mpr ((Program.Heeds.grown first).mono fun kept' outcome both => ?_)
  cases outcome with
  | ok a => exact next kept' a both.1 both.2
  | error e => trivial

theorem Heeds.tryCatch {f : ExceptT ε (Program Op Res) α} {handler : ε → ExceptT ε (Program Op Res) α}
    {post : List E → α → Prop} (first : Heeds policy kept f post)
    (handled : ∀ kept' e, kept ⊆ kept' → Heeds policy kept' (handler e) post) :
    Heeds policy kept (tryCatch f handler) post := by
  refine Program.heeds_bind.mpr ((Program.Heeds.grown first).mono fun kept' outcome both => ?_)
  cases outcome with
  | ok a => exact both.2
  | error e => exact handled kept' e both.1

theorem Heeds.mono {f : ExceptT ε (Program Op Res) α} {post post' : List E → α → Prop}
    (heeds : Heeds policy kept f post) (weaken : ∀ kept' a, kept ⊆ kept' → post kept' a → post' kept' a) :
    Heeds policy kept f post' := by
  refine (Program.Heeds.grown heeds).mono fun kept' outcome both => ?_
  cases outcome with
  | ok a => exact weaken kept' a both.1 both.2
  | error e => trivial

/-- What is run for its outcome, thrown or not, and then gone on with. -/
theorem Heeds.finished {f : ExceptT ε (Program Op Res) α} {post : List E → α → Prop}
    {k : Except ε α → Program Op Res β} {post' : List E → β → Prop} (heeds : Heeds policy kept f post)
    (returned : ∀ kept' a, kept ⊆ kept' → post kept' a → (k (.ok a)).Heeds policy kept' post')
    (thrown : ∀ kept' e, kept ⊆ kept' → (k (.error e)).Heeds policy kept' post') :
    (f.run.bind k).Heeds policy kept post' := by
  refine Program.heeds_bind.mpr ((Program.Heeds.grown heeds).mono fun kept' outcome both => ?_)
  cases outcome with
  | ok a => exact returned kept' a both.1 both.2
  | error e => exact thrown kept' e both.1

/-- An operation that puts nothing on record may follow. -/
theorem Heeds.followed {f : ExceptT ε (Program Op Res) α} {post : List E → α → Prop} {o : Op}
    (silent : ∀ r, policy.record o r = []) (free : ∀ kept, policy.allowed kept o)
    (heeds : Heeds policy kept f post) :
    Heeds policy kept (ExceptT.mk (f.run.bind fun outcome =>
      (Program.perform o).bind fun _ => .pure outcome) : ExceptT ε (Program Op Res) α) post := by
  refine Program.heeds_bind.mpr (Program.Heeds.mono heeds fun kept' outcome holds => ?_)
  refine ⟨free kept', fun r => ?_⟩
  rw [silent, List.append_nil]
  exact holds

end Throwing

/-! ## Under any schedule -/

section History

variable {σ : Type}

/-- Everything that was performed, by whatever thread. -/
def history (log : List (Entry σ Op Res)) : List (Event Op Res) := log.map Entry.event

theorem history_snoc (log : List (Entry σ Op Res)) (thread : Nat) (s : σ) (event : Event Op Res) :
    history (log ++ [⟨thread, s, event⟩]) = history log ++ [event] := by
  simp [history]

theorem past_subset_snoc (log : List (Entry σ Op Res)) (entry : Entry σ Op Res) (thread : Nat) :
    past log thread ⊆ past (log ++ [entry]) thread := by
  rw [past_append]
  exact List.subset_append_left _ _

theorem past_subset_history (log : List (Entry σ Op Res)) (thread : Nat) : past log thread ⊆ history log :=
  List.map_subset _ (List.filter_subset_self log)

theorem history_take_subset (log : List (Entry σ Op Res)) (k : Nat) : history (log.take k) ⊆ history log :=
  List.map_subset _ (List.take_subset k log)

/-- Every entry obeys `rule`, given all that was performed before it. -/
def Grounded (rule : List (Event Op Res) → Event Op Res → Prop) (log : List (Entry σ Op Res)) : Prop :=
  ∀ k thread event, At log k thread event → rule (history (log.take k)) event

theorem grounded_nil (rule : List (Event Op Res) → Event Op Res → Prop) :
    Grounded rule ([] : List (Entry σ Op Res)) := by
  rintro k thread event ⟨s, here⟩
  simp at here

theorem grounded_snoc {rule : List (Event Op Res) → Event Op Res → Prop} {log : List (Entry σ Op Res)}
    {thread : Nat} {s : σ} {event : Event Op Res} (grounded : Grounded rule log)
    (ruled : rule (history log) event) : Grounded rule (log ++ [⟨thread, s, event⟩]) := by
  intro k thread' event' here
  rcases at_snoc.mp here with older | ⟨rfl, rfl, rfl⟩
  · rw [List.take_append_of_le_length (Nat.le_of_lt older.lt)]
    exact grounded k thread' event' older
  · rwa [List.take_left' rfl]

theorem Grounded.take {rule : List (Event Op Res) → Event Op Res → Prop} {log : List (Entry σ Op Res)}
    (grounded : Grounded rule log) (n : Nat) : Grounded rule (log.take n) := by
  intro k thread event here
  obtain ⟨early, here⟩ := at_take.mp here
  rw [List.take_take, Nat.min_eq_left (Nat.le_of_lt early)]
  exact grounded k thread event here

/-- What any thread has on record was put there by some entry. -/
theorem Policy.mem_evidence_past {policy : Policy Op Res E} {log : List (Entry σ Op Res)} {thread : Nat}
    {entry : E} (member : entry ∈ policy.evidence (past log thread)) :
    ∃ k event, At log k thread event ∧ entry ∈ policy.record event.op event.res := by
  obtain ⟨event, inside, recorded⟩ := List.mem_flatMap.mp member
  obtain ⟨k, here⟩ := mem_past.mp inside
  exact ⟨k, event, here, recorded⟩

end History

namespace Machine

variable {Req Env σ : Type} {m : Machine Req Op Res Env σ α} {policy : Policy Op Res E}
  {post : List E → α → Prop} {scope : Scope Req Env}

/-- No operation is performed without its evidence among the earlier events of its thread. -/
theorem run_allowed (serves : ∀ request, scope.request request → (m.serve request).Heeds policy [] post)
    {s : σ} {labels : List (Label Req Env)} (within : ∀ label ∈ labels, label.Within scope) :
    Lawful (fun past event => policy.allowed (policy.evidence past) event.op) (m.run s labels).log :=
  m.run_lawful (fun request admitted => (serves request admitted).obeys) within

/-- A result has its evidence among the events of its thread. -/
theorem run_attested (serves : ∀ request, scope.request request → (m.serve request).Heeds policy [] post)
    {s : σ} {labels : List (Label Req Env)} (within : ∀ label ∈ labels, label.Within scope)
    {i started : Nat} {request : Req} {a : α}
    (answered : (m.run s labels).threads[i]? = some ⟨request, started, some (.pure a)⟩) :
    post (policy.evidence (past (m.run s labels).log i)) a :=
  run_post (fun request admitted => (serves request admitted).obeys) within answered

end Machine

end OpencodeRemote.Concurrency
