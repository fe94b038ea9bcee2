import OpencodeRemote.Concurrency.Pool
import OpencodeRemote.Data.Rank

/-! # Requests that perform nothing

A request that is answered without any operation leaves no trace: a schedule can be cleared
of such requests, and what remains does what it did. The threads that stay move up, so
that resuming one of them takes its number among those that stay.
-/

namespace OpencodeRemote.Concurrency

open Data

section Erasure

variable {Req Op : Type} {Res : Op → Type} {Env σ α : Type}

/-- What is left of a label, given the requests that have arrived before. -/
def Label.kept (p : Req → Bool) (arrived : List Req) : Label Req Env → List (Label Req Env)
  | .arrive request env => if p request then [.arrive request env] else []
  | .resume i env =>
      match arrived[i]? with
      | some request => if p request then [.resume (rank p arrived i) env] else []
      -- there is no such thread
      | none => []
  | .reboot env => [.reboot env]

def Label.arrival : Label Req Env → List Req
  | .arrive request _ => [request]
  | .resume _ _ | .reboot _ => []

/-- A schedule without the requests that do not satisfy `p`. -/
def erase (p : Req → Bool) (arrived : List Req) : List (Label Req Env) → List (Label Req Env)
  | [] => []
  | label :: rest => label.kept p arrived ++ erase p (arrived ++ label.arrival) rest

theorem erase_append (p : Req → Bool) (arrived : List Req) (labels more : List (Label Req Env)) :
    erase p arrived (labels ++ more) =
      erase p arrived labels ++ erase p (arrived ++ labels.flatMap Label.arrival) more := by
  induction labels generalizing arrived with
  | nil => simp [erase]
  | cons label rest ih =>
      simp only [List.cons_append, erase, ih, List.append_assoc, List.flatMap_cons]

def Entry.renumber (f : Nat → Nat) (entry : Entry σ Op Res) : Entry σ Op Res :=
  { entry with thread := f entry.thread }

def Pool.requests (pool : Pool Req Op Res σ α) : List Req := pool.threads.map Thread.request

/-- The pool without the threads of the other requests. -/
def Pool.kept (p : Req → Bool) (pool : Pool Req Op Res σ α) : Pool Req Op Res σ α where
  store := pool.store
  threads := pool.threads.filter fun thread => p thread.request
  log := pool.log.map (Entry.renumber (rank p pool.requests))

theorem Pool.kept_of_requests {p : Req → Bool} {pool : Pool Req Op Res σ α} {requests : List Req}
    (same : pool.requests = requests) : pool.kept p =
      ⟨pool.store, pool.threads.filter fun thread => p thread.request,
        pool.log.map (Entry.renumber (rank p requests))⟩ := by
  rw [← same, kept]

namespace Machine

variable {m : Machine Req Op Res Env σ α}

theorem settle_renumber (f : Nat → Nat) (thread : Nat) (program : Program Op Res α) (env : Nat → Env) (s : σ) :
    m.settle (f thread) program env s = ((m.settle thread program env s).1,
      (m.settle thread program env s).2.1, (m.settle thread program env s).2.2.map (Entry.renumber f)) := by
  induction program generalizing env s with
  | pure a => rfl
  | op o next ih =>
      by_cases suspended : m.suspends o = true
      · simp [settle, suspended]
      · simp [settle, suspended, ih, Entry.renumber]

theorem turn_renumber (f : Nat → Nat) (thread : Nat) (program : Program Op Res α) (env : Nat → Env) (s : σ) :
    m.turn (f thread) program env s = ((m.turn thread program env s).1,
      (m.turn thread program env s).2.1, (m.turn thread program env s).2.2.map (Entry.renumber f)) := by
  cases program with
  | pure a => rfl
  | op o next => simp [turn, settle_renumber f, Entry.renumber]

private theorem requests_set (threads : List (Thread Req Op Res α)) {i : Nat}
    {thread : Thread Req Op Res α} (found : threads[i]? = some thread) (changed : Thread Req Op Res α)
    (same : changed.request = thread.request) :
    (threads.set i changed).map Thread.request = threads.map Thread.request := by
  obtain ⟨inside, here⟩ := List.getElem?_eq_some_iff.mp found
  have inside' : i < (threads.map Thread.request).length := by simpa using inside
  have own : changed.request = (threads.map Thread.request)[i] := by
    rw [List.getElem_map, here, same]
  rw [List.map_set, own, List.set_getElem_self]

theorem requests_step (pool : Pool Req Op Res σ α) (label : Label Req Env) :
    (m.step pool label).requests = pool.requests ++ label.arrival := by
  cases label with
  | arrive request env => simp [step, Pool.requests, Label.arrival]
  | reboot env => simp [step, Pool.requests, Label.arrival, Function.comp_def]
  | resume i env =>
      simp only [step, Label.arrival, List.append_nil]
      split
      · rename_i request started program found
        exact requests_set pool.threads found _ rfl
      · rfl

theorem requests_run (s : σ) (labels : List (Label Req Env)) :
    (m.run s labels).requests = labels.flatMap Label.arrival := by
  induction labels using List.reverseRecOn with
  | nil => rfl
  | append_singleton labels label ih =>
      rw [run_append, List.flatMap_append, ← ih]
      simpa using requests_step (m := m) (m.run s labels) label

/-- The requests that do not satisfy `p` perform nothing. -/
def Inert (m : Machine Req Op Res Env σ α) (p : Req → Bool) : Prop :=
  ∀ request, p request = false → ∃ a, m.serve request = .pure a

/-- The threads of the other requests have nothing left to do. -/
def Finished (p : Req → Bool) (pool : Pool Req Op Res σ α) : Prop :=
  ∀ thread ∈ pool.threads, p thread.request = false →
    ∀ program, thread.rest = some program → ∃ a, program = .pure a

theorem finished_step {p : Req → Bool} (inert : m.Inert p) {pool : Pool Req Op Res σ α}
    (finished : Finished p pool) (label : Label Req Env) : Finished p (m.step pool label) := by
  cases label with
  | arrive request env =>
      intro thread member out program rest
      cases List.mem_append.mp member with
      | inl old => exact finished thread old out program rest
      | inr new =>
          cases List.mem_singleton.mp new
          obtain ⟨a, answered⟩ := inert request out
          simp only [answered, settle, Option.some.injEq] at rest
          exact ⟨a, rest.symm⟩
  | reboot env =>
      intro thread member out program rest
      obtain ⟨before, old, rfl⟩ := List.mem_map.mp member
      cases rest
  | resume i env =>
      simp only [step]
      split
      · rename_i request started program found
        intro thread member out program' rest
        cases List.mem_or_eq_of_mem_set member with
        | inl old => exact finished thread old out program' rest
        | inr new =>
            subst new
            obtain ⟨a, rfl⟩ := finished _ (List.mem_of_getElem? found) out program rfl
            simp only [turn, Option.some.injEq] at rest
            exact ⟨a, rest.symm⟩
      · exact finished

theorem finished_run {p : Req → Bool} (inert : m.Inert p) (s : σ) (labels : List (Label Req Env)) :
    Finished p (m.run s labels) := by
  induction labels using List.reverseRecOn with
  | nil =>
      intro thread member
      cases member
  | append_singleton labels label ih =>
      rw [run_append]
      exact finished_step inert ih label

/-- A step of the whole schedule is what is left of it, on the pool that is left. -/
theorem kept_step {p : Req → Bool} (inert : m.Inert p) {pool : Pool Req Op Res σ α}
    (known : ∀ entry ∈ pool.log, entry.thread < pool.threads.length) (finished : Finished p pool)
    (label : Label Req Env) :
    (label.kept p pool.requests).foldl m.step (pool.kept p) = (m.step pool label).kept p := by
  have width : pool.requests.length = pool.threads.length := List.length_map ..
  cases label with
  | reboot env =>
      simp only [Label.kept, List.foldl_cons, List.foldl_nil, step, Pool.kept, Pool.requests, List.map_map,
        List.filter_map, Function.comp_def]
  | arrive request env =>
      have place : (pool.kept p).threads.length = rank p (pool.requests ++ [request]) pool.threads.length := by
        rw [rank_append (Nat.le_of_eq width.symm), ← width, rank_length]
        simp [Pool.kept, Pool.requests, List.filter_map, Function.comp_def]
      have older : pool.log.map (Entry.renumber (rank p (pool.requests ++ [request]))) =
          pool.log.map (Entry.renumber (rank p pool.requests)) := by
        refine List.map_congr_left fun entry member => ?_
        have inside : entry.thread ≤ pool.requests.length := by
          rw [width]
          exact Nat.le_of_lt (known entry member)
        rw [Entry.renumber, rank_append inside, Entry.renumber]
      have grown := requests_step (m := m) pool (.arrive request env)
      simp only [Label.arrival] at grown
      by_cases keeps : p request = true
      · cases settled : m.settle pool.threads.length (m.serve request) env pool.store with
        | mk rest effect =>
            have moved := settle_renumber (m := m) (rank p (pool.requests ++ [request])) pool.threads.length
              (m.serve request) env pool.store
            rw [settled, ← place] at moved
            rw [Pool.kept_of_requests grown]
            simp only [Label.kept, keeps, if_true, List.foldl_cons, List.foldl_nil, step, settled,
              List.filter_append, List.map_append, older]
            rw [show (pool.kept p).store = pool.store from rfl, moved]
            simp [Pool.kept, keeps]
      · simp only [Bool.not_eq_true] at keeps
        obtain ⟨a, answered⟩ := inert request keeps
        rw [Pool.kept_of_requests grown]
        simp [Label.kept, keeps, step, answered, settle, older, Pool.kept]
  | resume i env =>
      cases found : pool.threads[i]? with
      | none =>
          have absent : pool.requests[i]? = none := by simp [Pool.requests, found]
          simp [Label.kept, absent, step, found]
      | some thread =>
          obtain ⟨request, started, rest⟩ := thread
          have own : pool.requests[i]? = some request := by simp [Pool.requests, found]
          have same := requests_step (m := m) pool (.resume i env)
          simp only [Label.arrival, List.append_nil] at same
          have place : rank p pool.requests i = rank (fun thread => p thread.request) pool.threads i :=
            rank_map Thread.request pool.threads i
          by_cases keeps : p request = true
          · have here : (pool.kept p).threads[rank p pool.requests i]? = some ⟨request, started, rest⟩ := by
              rw [place]
              exact getElem?_filter found keeps
            simp only [Label.kept, own, keeps, if_true, List.foldl_cons, List.foldl_nil]
            cases rest with
            | none => simp only [step, here, found]
            | some program =>
                have moved := turn_renumber (m := m) (rank p pool.requests) i program env pool.store
                rw [Pool.kept_of_requests same]
                simp only [step, here, found, List.map_append]
                rw [show (pool.kept p).store = pool.store from rfl, moved,
                  filter_set (p := fun thread => p thread.request) found keeps keeps, ← place]
                rfl
          · simp only [Bool.not_eq_true] at keeps
            simp only [Label.kept, own, keeps, Bool.false_eq_true, if_false, List.foldl_nil]
            rw [Pool.kept_of_requests same]
            cases rest with
            | none => simp only [step, found, Pool.kept]
            | some program =>
                obtain ⟨a, rfl⟩ := finished _ (List.mem_of_getElem? found) keeps program rfl
                simp only [step, found, turn, List.append_nil, Pool.kept]
                rw [filter_set_of_not (p := fun thread => p thread.request) found keeps keeps]

/-- Clearing a schedule of the requests that perform nothing clears the pool of their
    threads, and that is all. -/
theorem run_erase {p : Req → Bool} (inert : m.Inert p) (s : σ) (labels : List (Label Req Env)) :
    m.run s (erase p [] labels) = (m.run s labels).kept p := by
  induction labels using List.reverseRecOn with
  | nil => rfl
  | append_singleton labels label ih =>
      have within : ∀ label ∈ labels, label.Within {} := fun label _ => label.within_default
      have known : ∀ entry ∈ (m.run s labels).log, entry.thread < (m.run s labels).threads.length := run_known within
      rw [erase_append, List.nil_append, ← requests_run (m := m) s labels, run_append, ih, run_append]
      simpa [erase] using kept_step inert known (finished_run inert s labels) label

end Machine

end Erasure

end OpencodeRemote.Concurrency
