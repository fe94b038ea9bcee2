import Mathlib.Data.List.Induction
import OpencodeRemote.Concurrency.Program

/-! # Pools: interleaved programs over one store

A machine fixes what every operation does to the store and which operations suspend their
program. A pool holds the store, one thread for each request that arrived and a log of
everything performed so far. A turn resumes one thread, which then runs on until it
reaches its next suspending operation. With every operation suspending this is
preemption at each atomic step; with only awaits suspending it is an event loop.

The invariant rule at the end reduces a property of all runs to single operations: a
proof looks at one operation, the store before it and the log so far.
-/

namespace OpencodeRemote.Concurrency

/-- A performed operation: by which thread, on which store, with which answer. -/
structure Entry (σ Op : Type) (Res : Op → Type) where
  thread : Nat
  before : σ
  event : Event Op Res

structure Machine (Req Op : Type) (Res : Op → Type) (Env σ α : Type) where
  exec : Env → (o : Op) → σ → Res o × σ
  suspends : Op → Bool
  serve : Req → Program Op Res α
  /-- What a restart makes of the store. -/
  reboot : Env → σ → σ

/-- One scheduling decision, with the environment's contribution to each operation. -/
inductive Label (Req Env : Type) where
  | arrive (request : Req) (env : Nat → Env)
  | resume (thread : Nat) (env : Nat → Env)
  | reboot (env : Env)

/-- A request in progress. `rest` is what it still has to do, `none` once a restart has
    killed it; `started` is the length of the log when it arrived. -/
structure Thread (Req Op : Type) (Res : Op → Type) (α : Type) where
  request : Req
  started : Nat
  rest : Option (Program Op Res α)

structure Pool (Req Op : Type) (Res : Op → Type) (σ α : Type) where
  store : σ
  threads : List (Thread Req Op Res α)
  log : List (Entry σ Op Res)

/-- Which requests, which contributions of the environment and which restarts a group of
    results admits. -/
structure Scope (Req Env : Type) where
  request : Req → Prop := fun _ => True
  env : Env → Prop := fun _ => True
  reboot : Env → Prop := fun _ => True

def Label.Within {Req Env : Type} (scope : Scope Req Env) : Label Req Env → Prop
  | .arrive request env => scope.request request ∧ ∀ n, scope.env (env n)
  | .resume _ env => ∀ n, scope.env (env n)
  | .reboot env => scope.reboot env

/-- The scope without restrictions. -/
theorem Label.within_default {Req Env : Type} (label : Label Req Env) : label.Within {} := by
  cases label <;> simp [Label.Within]

section Past

variable {σ Op : Type} {Res : Op → Type}

/-- The events of one thread, in order. -/
def past (log : List (Entry σ Op Res)) (thread : Nat) : List (Event Op Res) :=
  (log.filter fun entry => entry.thread = thread).map Entry.event

theorem past_append (log more : List (Entry σ Op Res)) (thread : Nat) :
    past (log ++ more) thread = past log thread ++ past more thread := by
  simp only [past, List.filter_append, List.map_append]

theorem past_own (log : List (Entry σ Op Res)) (thread : Nat) (s : σ) (event : Event Op Res) :
    past (log ++ [⟨thread, s, event⟩]) thread = past log thread ++ [event] := by
  simp [past]

/-- `event` is entry number `k` of the log and belongs to `thread`. -/
def At (log : List (Entry σ Op Res)) (k thread : Nat) (event : Event Op Res) : Prop :=
  ∃ s, log[k]? = some ⟨thread, s, event⟩

theorem At.lt {log : List (Entry σ Op Res)} {k thread : Nat} {event : Event Op Res}
    (here : At log k thread event) : k < log.length := by
  obtain ⟨s, here⟩ := here
  exact (List.getElem?_eq_some_iff.mp here).1

theorem At.append {log : List (Entry σ Op Res)} {k thread : Nat} {event : Event Op Res}
    (here : At log k thread event) (more : List (Entry σ Op Res)) :
    At (log ++ more) k thread event := by
  have inside := here.lt
  obtain ⟨s, here⟩ := here
  exact ⟨s, by rw [List.getElem?_append_left inside]; exact here⟩

theorem At.unique {log : List (Entry σ Op Res)} {k thread thread' : Nat}
    {event event' : Event Op Res} (here : At log k thread event)
    (here' : At log k thread' event') : thread = thread' ∧ event = event' := by
  obtain ⟨s, here⟩ := here
  obtain ⟨s', here'⟩ := here'
  cases here.symm.trans here'
  exact ⟨rfl, rfl⟩

/-- Entries `i` and `j` belong to one thread. -/
def SameThread (log : List (Entry σ Op Res)) (i j : Nat) : Prop :=
  ∃ thread, (∃ event, At log i thread event) ∧ ∃ event, At log j thread event

theorem SameThread.symm {log : List (Entry σ Op Res)} {i j : Nat} (same : SameThread log i j) :
    SameThread log j i := by
  obtain ⟨thread, at_i, at_j⟩ := same
  exact ⟨thread, at_j, at_i⟩

theorem SameThread.trans {log : List (Entry σ Op Res)} {i j k : Nat} (first : SameThread log i j)
    (second : SameThread log j k) : SameThread log i k := by
  obtain ⟨thread, at_i, event, at_j⟩ := first
  obtain ⟨thread', ⟨event', at_j'⟩, at_k⟩ := second
  obtain ⟨rfl, -⟩ := at_j.unique at_j'
  exact ⟨thread, at_i, at_k⟩

theorem SameThread.append {log : List (Entry σ Op Res)} {i j : Nat} (same : SameThread log i j)
    (more : List (Entry σ Op Res)) : SameThread (log ++ more) i j := by
  obtain ⟨thread, ⟨event, at_i⟩, event', at_j⟩ := same
  exact ⟨thread, ⟨event, at_i.append more⟩, event', at_j.append more⟩

theorem at_last (log : List (Entry σ Op Res)) (thread : Nat) (s : σ) (event : Event Op Res) :
    At (log ++ [⟨thread, s, event⟩]) log.length thread event := ⟨s, by simp⟩

theorem at_snoc {log : List (Entry σ Op Res)} {k thread thread' : Nat} {s : σ}
    {event event' : Event Op Res} :
    At (log ++ [⟨thread', s, event'⟩]) k thread event ↔
      At log k thread event ∨ (k = log.length ∧ thread = thread' ∧ event = event') := by
  constructor
  · intro here
    by_cases inside : k < log.length
    · obtain ⟨s', here⟩ := here
      rw [List.getElem?_append_left inside] at here
      exact .inl ⟨s', here⟩
    · have last : k = log.length := by
        have := here.lt
        simp only [List.length_append, List.length_singleton] at this
        omega
      subst last
      exact .inr ⟨rfl, here.unique (at_last log thread' s event')⟩
  · rintro (here | ⟨rfl, rfl, rfl⟩)
    · exact here.append _
    · exact at_last log _ s _

theorem at_take {log : List (Entry σ Op Res)} {n k thread : Nat} {event : Event Op Res} :
    At (log.take n) k thread event ↔ k < n ∧ At log k thread event := by
  simp only [At, List.getElem?_take]
  by_cases inside : k < n <;> simp [inside]

/-- A thread's past consists of the entries that belong to it. -/
theorem mem_past {log : List (Entry σ Op Res)} {thread : Nat} {event : Event Op Res} :
    event ∈ past log thread ↔ ∃ k, At log k thread event := by
  constructor
  · intro member
    obtain ⟨entry, kept, rfl⟩ := List.mem_map.mp member
    obtain ⟨inLog, own⟩ := List.mem_filter.mp kept
    obtain ⟨k, inside, here⟩ := List.mem_iff_getElem.mp inLog
    have own : entry.thread = thread := by simpa using own
    subst own
    exact ⟨k, entry.before, List.getElem?_eq_some_iff.mpr ⟨inside, here⟩⟩
  · rintro ⟨k, s, here⟩
    exact List.mem_map.mpr ⟨⟨thread, s, event⟩,
      List.mem_filter.mpr ⟨List.mem_of_getElem? here, by simp⟩, rfl⟩

theorem mem_past_take {log : List (Entry σ Op Res)} {n thread : Nat} {event : Event Op Res} :
    event ∈ past (log.take n) thread ↔ ∃ k < n, At log k thread event := by
  simp only [mem_past, at_take]

/-- What a view makes of entry number `i`, given the past of its thread. -/
def observe {β : Type} (view : List (Event Op Res) → Event Op Res → Option β)
    (log : List (Entry σ Op Res)) (i : Nat) : Option β :=
  log[i]?.bind fun entry => view (past (log.take i) entry.thread) entry.event

section Observe

variable {β : Type} {view : List (Event Op Res) → Event Op Res → Option β}

theorem observe_eq_some {log : List (Entry σ Op Res)} {i : Nat} {b : β} :
    observe view log i = some b ↔
      ∃ thread event, At log i thread event ∧ view (past (log.take i) thread) event = some b := by
  constructor
  · intro seen
    obtain ⟨entry, here, viewed⟩ := Option.bind_eq_some_iff.mp seen
    exact ⟨entry.thread, entry.event, ⟨entry.before, here⟩, viewed⟩
  · rintro ⟨thread, event, ⟨s, here⟩, viewed⟩
    exact Option.bind_eq_some_iff.mpr ⟨_, here, viewed⟩

theorem observe_lt {log : List (Entry σ Op Res)} {i : Nat} {b : β}
    (seen : observe view log i = some b) : i < log.length := by
  obtain ⟨thread, event, here, -⟩ := observe_eq_some.mp seen
  exact here.lt

theorem observe_snoc {log : List (Entry σ Op Res)} {i thread : Nat} {s : σ} {event : Event Op Res}
    {b : β} :
    observe view (log ++ [⟨thread, s, event⟩]) i = some b ↔
      observe view log i = some b ∨ (i = log.length ∧ view (past log thread) event = some b) := by
  simp only [observe_eq_some]
  constructor
  · rintro ⟨thread', event', here, viewed⟩
    rcases at_snoc.mp here with older | ⟨rfl, rfl, rfl⟩
    · rw [List.take_append_of_le_length (Nat.le_of_lt older.lt)] at viewed
      exact .inl ⟨thread', event', older, viewed⟩
    · rw [List.take_left'] at viewed
      · exact .inr ⟨rfl, viewed⟩
      · rfl
  · rintro (⟨thread', event', here, viewed⟩ | ⟨rfl, viewed⟩)
    · refine ⟨thread', event', here.append _, ?_⟩
      rwa [List.take_append_of_le_length (Nat.le_of_lt here.lt)]
    · exact ⟨thread, event, at_last _ _ _ _, by rwa [List.take_left' rfl]⟩

/-- What was seen stays seen. -/
theorem observe_mono {log : List (Entry σ Op Res)} {i thread : Nat} {s : σ} {event : Event Op Res}
    {b : β} (seen : observe view log i = some b) :
    observe view (log ++ [⟨thread, s, event⟩]) i = some b :=
  observe_snoc.mpr (.inl seen)

end Observe

/-- Every entry obeys `rule`, given what its own thread did before. -/
def Lawful (rule : List (Event Op Res) → Event Op Res → Prop) (log : List (Entry σ Op Res)) : Prop :=
  ∀ k thread event, At log k thread event → rule (past (log.take k) thread) event

theorem Lawful.weaken {rule rule' : List (Event Op Res) → Event Op Res → Prop}
    {log : List (Entry σ Op Res)} (lawful : Lawful rule log)
    (weaker : ∀ past event, rule past event → rule' past event) : Lawful rule' log :=
  fun k thread event here => weaker _ _ (lawful k thread event here)

theorem lawful_snoc {rule : List (Event Op Res) → Event Op Res → Prop}
    {log : List (Entry σ Op Res)} {thread : Nat} {event : Event Op Res} (lawful : Lawful rule log)
    (s : σ) (ruled : rule (past log thread) event) :
    Lawful rule (log ++ [⟨thread, s, event⟩]) := by
  intro k thread' event' here
  rcases at_snoc.mp here with older | ⟨rfl, rfl, rfl⟩
  · rw [List.take_append_of_le_length (Nat.le_of_lt older.lt)]
    exact lawful k thread' event' older
  · simpa using ruled

/-- An event of a kind that a rule admits only once in a thread marks one entry of the
    thread at most. -/
theorem Lawful.once {rule : List (Event Op Res) → Event Op Res → Prop} {log : List (Entry σ Op Res)}
    (lawful : Lawful rule log) (kind : Event Op Res → Prop)
    (once : ∀ earlier event, rule earlier event → kind event → ∀ e ∈ earlier, ¬kind e)
    {i j thread thread' : Nat} {event event' : Event Op Res} (same : SameThread log i j)
    (at_i : At log i thread event) (at_j : At log j thread' event') (first : kind event)
    (second : kind event') : i = j := by
  obtain ⟨t, ⟨e, own_i⟩, e', own_j⟩ := same
  obtain ⟨rfl, -⟩ := own_i.unique at_i
  obtain ⟨rfl, -⟩ := own_j.unique at_j
  rcases Nat.lt_trichotomy i j with before | equal | after
  · have member := mem_past_take.mpr ⟨i, before, at_i⟩
    exact absurd first (once _ _ (lawful j _ event' at_j) second event member)
  · exact equal
  · have member := mem_past_take.mpr ⟨j, after, at_j⟩
    exact absurd second (once _ _ (lawful i _ event at_i) first event' member)

/-- The same for readings that see events of the kind only. -/
theorem Lawful.observe_once {rule : List (Event Op Res) → Event Op Res → Prop}
    {log : List (Entry σ Op Res)} (lawful : Lawful rule log) {β : Type}
    {view : List (Event Op Res) → Event Op Res → Option β} (kind : Event Op Res → Prop)
    (seen : ∀ past event b, view past event = some b → kind event)
    (once : ∀ earlier event, rule earlier event → kind event → ∀ e ∈ earlier, ¬kind e) {i j : Nat}
    (same : SameThread log i j) {b b' : β} (at_i : observe view log i = some b)
    (at_j : observe view log j = some b') : i = j := by
  obtain ⟨thread, event, here, first⟩ := observe_eq_some.mp at_i
  obtain ⟨thread', event', there, second⟩ := observe_eq_some.mp at_j
  exact lawful.once kind once same here there (seen _ _ _ first) (seen _ _ _ second)

theorem lawful_last {rule : List (Event Op Res) → Event Op Res → Prop} {log : List (Entry σ Op Res)}
    {thread : Nat} {s : σ} {event : Event Op Res} (lawful : Lawful rule (log ++ [⟨thread, s, event⟩])) :
    rule (past log thread) event := by
  have last := lawful log.length thread event (at_last log thread s event)
  rwa [List.take_left' rfl] at last

theorem lawful_init {rule : List (Event Op Res) → Event Op Res → Prop} {log : List (Entry σ Op Res)}
    {entry : Entry σ Op Res} (lawful : Lawful rule (log ++ [entry])) : Lawful rule log := by
  intro k thread event here
  have ruled := lawful k thread event (here.append _)
  rwa [List.take_append_of_le_length (Nat.le_of_lt here.lt)] at ruled

end Past

namespace Machine

variable {Req Op : Type} {Res : Op → Type} {Env σ α : Type}
variable (m : Machine Req Op Res Env σ α)

/-- Run a thread up to its next suspending operation. -/
def settle (thread : Nat) : Program Op Res α → (Nat → Env) → σ →
    Program Op Res α × σ × List (Entry σ Op Res)
  | .pure a, _, s => (.pure a, s, [])
  | .op o next, env, s =>
      if m.suspends o then (.op o next, s, [])
      else
        let (r, s') := m.exec (env 0) o s
        let (rest, s'', entries) := settle thread (next r) (fun n => env (n + 1)) s'
        (rest, s'', ⟨thread, s, ⟨o, r⟩⟩ :: entries)

/-- Let a thread perform the operation it is waiting for and run on. -/
def turn (thread : Nat) : Program Op Res α → (Nat → Env) → σ →
    Program Op Res α × σ × List (Entry σ Op Res)
  | .pure a, _, s => (.pure a, s, [])
  | .op o next, env, s =>
      let (r, s') := m.exec (env 0) o s
      let (rest, s'', entries) := m.settle thread (next r) (fun n => env (n + 1)) s'
      (rest, s'', ⟨thread, s, ⟨o, r⟩⟩ :: entries)

def step (pool : Pool Req Op Res σ α) : Label Req Env → Pool Req Op Res σ α
  | .arrive request env =>
      let (rest, s, entries) := m.settle pool.threads.length (m.serve request) env pool.store
      { store := s
        threads := pool.threads ++ [⟨request, pool.log.length, some rest⟩]
        log := pool.log ++ entries }
  | .resume i env =>
      match pool.threads[i]? with
      | some ⟨request, started, some program⟩ =>
          let (rest, s, entries) := m.turn i program env pool.store
          { store := s
            threads := pool.threads.set i ⟨request, started, some rest⟩
            log := pool.log ++ entries }
      | _ => pool
  | .reboot env =>
      { store := m.reboot env pool.store
        threads := pool.threads.map fun thread => { thread with rest := none }
        log := pool.log }

def init (s : σ) : Pool Req Op Res σ α := ⟨s, [], []⟩

/-- The pool after a schedule. Every list of labels is one: resuming a thread that is
    finished, dead or not there changes nothing. -/
def run (s : σ) (labels : List (Label Req Env)) : Pool Req Op Res σ α :=
  labels.foldl m.step (init s)

@[simp] theorem run_nil (s : σ) : m.run s [] = init s := rfl

theorem run_append (s : σ) (labels more : List (Label Req Env)) :
    m.run s (labels ++ more) = more.foldl m.step (m.run s labels) :=
  List.foldl_append

/-! ## Invariants -/

section Invariant

variable {rule : List (Event Op Res) → Event Op Res → Prop}
  {post : List (Event Op Res) → α → Prop} {scope : Scope Req Env}
  {Inv : σ → List (Entry σ Op Res) → Prop}

/-- What must hold of one operation for `Inv` to be an invariant: the log up to and with
    this operation obeys the rule, and nothing is known about the other threads. -/
def Preserves (rule : List (Event Op Res) → Event Op Res → Prop) (scope : Scope Req Env)
    (Inv : σ → List (Entry σ Op Res) → Prop) : Prop :=
  ∀ s log thread o env, scope.env env →
    Lawful rule (log ++ [⟨thread, s, ⟨o, (m.exec env o s).1⟩⟩]) → Inv s log →
    Inv (m.exec env o s).2 (log ++ [⟨thread, s, ⟨o, (m.exec env o s).1⟩⟩])

/-- The entries of a thread's stretch belong to it, and the stretch keeps the invariant
    and leaves a program that still obeys the rule. -/
private structure Stretch (rule : List (Event Op Res) → Event Op Res → Prop)
    (post : List (Event Op Res) → α → Prop) (Inv : σ → List (Entry σ Op Res) → Prop)
    (thread : Nat) (log : List (Entry σ Op Res))
    (result : Program Op Res α × σ × List (Entry σ Op Res)) : Prop where
  own : ∀ entry ∈ result.2.2, entry.thread = thread
  lawful : Lawful rule (log ++ result.2.2)
  inv : Inv result.2.1 (log ++ result.2.2)
  obeys : result.1.Obeys rule (past (log ++ result.2.2) thread) post

variable {m}

private theorem settle_stretch (preserves : m.Preserves rule scope Inv) (thread : Nat)
    (program : Program Op Res α) (env : Nat → Env) {s : σ} {log : List (Entry σ Op Res)}
    (envOk : ∀ n, scope.env (env n)) (lawful : Lawful rule log) (inv : Inv s log)
    (obeys : program.Obeys rule (past log thread) post) :
    Stretch rule post Inv thread log (m.settle thread program env s) := by
  induction program generalizing env s log with
  | pure a =>
      exact ⟨by simp [settle], by simpa [settle] using lawful, by simpa [settle] using inv,
        by simpa [settle] using obeys⟩
  | op o next ih =>
      by_cases suspended : m.suspends o = true
      · refine ⟨?_, ?_, ?_, ?_⟩ <;> simp only [settle, suspended, if_true]
        · simp
        · simpa using lawful
        · simpa using inv
        · simpa using obeys
      · have first := obeys (m.exec (env 0) o s).1
        have longer := lawful_snoc lawful s first.1
        have rest := @ih (m.exec (env 0) o s).1 (fun n => env (n + 1)) (m.exec (env 0) o s).2
          (log ++ [⟨thread, s, ⟨o, (m.exec (env 0) o s).1⟩⟩])
          (fun n => envOk (n + 1)) longer (preserves s log thread o _ (envOk 0) longer inv)
          (by rw [past_own]; exact first.2)
        refine ⟨?_, ?_, ?_, ?_⟩ <;> simp only [settle, suspended, Bool.false_eq_true, if_false]
        · simpa using rest.own
        · simpa using rest.lawful
        · simpa using rest.inv
        · simpa using rest.obeys

private theorem turn_stretch (preserves : m.Preserves rule scope Inv) (thread : Nat)
    (program : Program Op Res α) (env : Nat → Env) {s : σ} {log : List (Entry σ Op Res)}
    (envOk : ∀ n, scope.env (env n)) (lawful : Lawful rule log) (inv : Inv s log)
    (obeys : program.Obeys rule (past log thread) post) :
    Stretch rule post Inv thread log (m.turn thread program env s) := by
  cases program with
  | pure a =>
      exact ⟨by simp [turn], by simpa [turn] using lawful, by simpa [turn] using inv,
        by simpa [turn] using obeys⟩
  | op o next =>
      have first := obeys (m.exec (env 0) o s).1
      have longer := lawful_snoc lawful s first.1
      have rest := settle_stretch preserves thread (next (m.exec (env 0) o s).1)
        (fun n => env (n + 1)) (fun n => envOk (n + 1)) longer
        (preserves s log thread o _ (envOk 0) longer inv) (by rw [past_own]; exact first.2)
      refine ⟨?_, ?_, ?_, ?_⟩ <;> simp only [turn]
      · simpa using rest.own
      · simpa using rest.lawful
      · simpa using rest.inv
      · simpa using rest.obeys

/-- What every reachable pool satisfies: the invariant of store and log, and each live
    thread obeys the rule from its own past on. -/
private structure Sound (rule : List (Event Op Res) → Event Op Res → Prop)
    (post : List (Event Op Res) → α → Prop) (Inv : σ → List (Entry σ Op Res) → Prop)
    (pool : Pool Req Op Res σ α) : Prop where
  lawful : Lawful rule pool.log
  inv : Inv pool.store pool.log
  known : ∀ entry ∈ pool.log, entry.thread < pool.threads.length
  obeys : ∀ (i : Nat) request started program,
    pool.threads[i]? = some ⟨request, started, some program⟩ →
    program.Obeys rule (past pool.log i) post

private theorem past_foreign {log more : List (Entry σ Op Res)} {thread other : Nat}
    (own : ∀ entry ∈ more, entry.thread = thread) (different : thread ≠ other) :
    past (log ++ more) other = past log other := by
  have none : past more other = [] := by
    simp only [past, List.map_eq_nil_iff, List.filter_eq_nil_iff]
    intro entry member
    simp [own entry member, different]
  rw [past_append, none, List.append_nil]

private theorem past_unknown {log : List (Entry σ Op Res)} {n : Nat}
    (known : ∀ entry ∈ log, entry.thread < n) : past log n = [] := by
  simp only [past, List.map_eq_nil_iff, List.filter_eq_nil_iff]
  intro entry member
  have below := known entry member
  simp only [decide_eq_true_eq]
  omega

private theorem step_sound (preserves : m.Preserves rule scope Inv)
    (serves : ∀ request, scope.request request → (m.serve request).Obeys rule [] post)
    {pool : Pool Req Op Res σ α} (sound : Sound rule post Inv pool)
    {label : Label Req Env} (within : label.Within scope)
    (reboots : ∀ env, label = .reboot env → Inv pool.store pool.log → Inv (m.reboot env pool.store) pool.log) :
    Sound rule post Inv (m.step pool label) := by
  cases label with
  | arrive request env =>
      have stretch := settle_stretch preserves pool.threads.length (m.serve request) env
        within.2 sound.lawful sound.inv
        (by rw [past_unknown sound.known]; exact serves request within.1)
      refine ⟨stretch.lawful, stretch.inv, ?_, ?_⟩
      · intro entry member
        simp only [step, List.length_append, List.length_singleton]
        cases List.mem_append.mp member with
        | inl old =>
            have := sound.known entry old
            omega
        | inr new =>
            have := stretch.own entry new
            omega
      · intro i request' started program at_i
        simp only [step] at at_i ⊢
        rcases Nat.lt_trichotomy i pool.threads.length with old | same | beyond
        · rw [List.getElem?_append_left old] at at_i
          rw [past_foreign stretch.own (by omega)]
          exact sound.obeys i request' started program at_i
        · subst same
          rw [List.getElem?_append_right (Nat.le_refl _)] at at_i
          simp only [Nat.sub_self, List.getElem?_cons_zero, Option.some.injEq,
            Thread.mk.injEq] at at_i
          obtain ⟨-, -, rfl⟩ := at_i
          exact stretch.obeys
        · rw [List.getElem?_eq_none (by simp; omega)] at at_i
          cases at_i
  | resume i env =>
      cases found : pool.threads[i]? with
      | none => simpa only [step, found] using sound
      | some thread =>
          obtain ⟨request, started, rest⟩ := thread
          cases rest with
          | none => simpa only [step, found] using sound
          | some program =>
              have stretch := turn_stretch preserves i program env within sound.lawful sound.inv
                (sound.obeys i request started program found)
              have inside : i < pool.threads.length := (List.getElem?_eq_some_iff.mp found).1
              simp only [step, found]
              refine ⟨stretch.lawful, stretch.inv, ?_, ?_⟩
              · intro entry member
                simp only [List.length_set]
                cases List.mem_append.mp member with
                | inl old => exact sound.known entry old
                | inr new =>
                    rw [stretch.own entry new]
                    exact inside
              · intro j request' started' program' at_j
                by_cases same : i = j
                · subst same
                  simp only [List.getElem?_set_self inside, Option.some.injEq,
                    Thread.mk.injEq] at at_j
                  obtain ⟨-, -, rfl⟩ := at_j
                  exact stretch.obeys
                · rw [List.getElem?_set_ne same] at at_j
                  rw [past_foreign stretch.own same]
                  exact sound.obeys j request' started' program' at_j
  | reboot env =>
      refine ⟨sound.lawful, reboots env rfl sound.inv, ?_, ?_⟩
      · simpa only [step, List.length_map] using sound.known
      · intro i request started program at_i
        simp only [step, List.getElem?_map, Option.map_eq_some_iff] at at_i
        obtain ⟨thread, -, same⟩ := at_i
        simp only [Thread.mk.injEq, reduceCtorEq, and_false] at same

private theorem run_sound (preserves : m.Preserves rule scope Inv)
    (serves : ∀ request, scope.request request → (m.serve request).Obeys rule [] post)
    {s : σ} (start : Inv s []) {labels : List (Label Req Env)}
    (within : ∀ label ∈ labels, label.Within scope)
    (reboots : ∀ before env after, labels = before ++ .reboot env :: after →
      Inv (m.run s before).store (m.run s before).log →
      Inv (m.reboot env (m.run s before).store) (m.run s before).log) :
    Sound rule post Inv (m.run s labels) := by
  induction labels using List.reverseRecOn with
  | nil => exact ⟨by rintro k thread event ⟨s, here⟩; simp [init] at here, start, by simp [init],
      by simp [init]⟩
  | append_singleton labels label ih =>
      rw [run_append]
      refine step_sound preserves serves
        (ih (fun l member => within l (List.mem_append_left _ member)) fun before env after split => ?_)
        (within label (by simp)) ?_
      · exact reboots before env (after ++ [label]) (by simp [split])
      · rintro env rfl
        exact reboots labels env [] rfl

/-- The run rule, with a look at each restart in its place. -/
theorem run_invariant_across (Inv : σ → List (Entry σ Op Res) → Prop)
    (preserves : m.Preserves rule scope Inv)
    (serves : ∀ request, scope.request request → (m.serve request).Obeys rule [] post)
    {s : σ} (start : Inv s []) {labels : List (Label Req Env)}
    (within : ∀ label ∈ labels, label.Within scope)
    (reboots : ∀ before env after, labels = before ++ .reboot env :: after →
      Inv (m.run s before).store (m.run s before).log →
      Inv (m.reboot env (m.run s before).store) (m.run s before).log) :
    Inv (m.run s labels).store (m.run s labels).log :=
  (run_sound preserves serves start within reboots).inv

/-- The run rule: an invariant of store and log that every single operation and every
    restart preserves holds after every schedule. -/
theorem run_invariant (Inv : σ → List (Entry σ Op Res) → Prop)
    (preserves : m.Preserves rule scope Inv)
    (serves : ∀ request, scope.request request → (m.serve request).Obeys rule [] post)
    (reboots : ∀ s log env, scope.reboot env → Inv s log → Inv (m.reboot env s) log)
    {s : σ} (start : Inv s []) {labels : List (Label Req Env)}
    (within : ∀ label ∈ labels, label.Within scope) :
    Inv (m.run s labels).store (m.run s labels).log :=
  run_invariant_across Inv preserves serves start within fun _ env _ split =>
    reboots _ _ env (within (.reboot env) (by simp [split]))

private theorem true_preserved : m.Preserves rule scope fun _ _ => True :=
  fun _ _ _ _ _ _ _ _ => trivial

/-- Every entry of a log obeys the rule its thread was written to. -/
theorem run_lawful
    (serves : ∀ request, scope.request request → (m.serve request).Obeys rule [] post)
    {s : σ} {labels : List (Label Req Env)} (within : ∀ label ∈ labels, label.Within scope) :
    Lawful rule (m.run s labels).log :=
  (run_sound true_preserved serves trivial within fun _ _ _ _ _ => trivial).lawful

/-- The log is about threads of the pool. -/
theorem run_known {s : σ} {labels : List (Label Req Env)}
    (within : ∀ label ∈ labels, label.Within scope) :
    ∀ entry ∈ (m.run s labels).log, entry.thread < (m.run s labels).threads.length :=
  (run_sound true_preserved (fun _ _ => Program.obeys_free _ _) trivial within
    fun _ _ _ _ _ => trivial).known

/-- A thread that has answered satisfies the postcondition of its program. -/
theorem run_post
    (serves : ∀ request, scope.request request → (m.serve request).Obeys rule [] post)
    {s : σ} {labels : List (Label Req Env)} (within : ∀ label ∈ labels, label.Within scope)
    {i started : Nat} {request : Req} {a : α}
    (answered : (m.run s labels).threads[i]? = some ⟨request, started, some (.pure a)⟩) :
    post (past (m.run s labels).log i) a :=
  (run_sound true_preserved serves trivial within fun _ _ _ _ _ => trivial).obeys
    i request started _ answered

/-- Every answer in a log is the one that its operation gave, in some environment. -/
theorem run_answered (s : σ) (labels : List (Label Req Env)) :
    ∀ entry ∈ (m.run s labels).log, ∃ env, entry.event.res = (m.exec env entry.event.op entry.before).1 := by
  let answered (entry : Entry σ Op Res) := ∃ env, entry.event.res = (m.exec env entry.event.op entry.before).1
  refine run_invariant (fun _ log => ∀ entry ∈ log, answered entry) ?_ (fun _ _ => Program.obeys_free _ _)
    (fun _ _ _ _ earlier => earlier) (by simp) fun label _ => label.within_default
  intro s log thread o env _ _ earlier entry member
  rcases List.mem_append.mp member with older | last
  · exact earlier entry older
  · cases List.mem_singleton.mp last
    exact ⟨env, rfl⟩

end Invariant

end Machine

end OpencodeRemote.Concurrency
