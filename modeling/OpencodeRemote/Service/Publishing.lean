import OpencodeRemote.Service.Mux

/-! # The steps that handlers take on the bus

In every run the bus is in a state that the critical sections of `Publish`, `Subscribe` and
`Unsubscribe` take it to, and a handler that publishes finds each of its steps possible.
-/

namespace OpencodeRemote.Service

open Concurrency Data
open Stub (GoString EventBus BusLabel Publisher)

abbrev ServiceEvent := Event Op Res
abbrev ServiceEntry := Entry Store Op Res

/-! ## One step of the bus -/

section Bus

variable {b b' : EventBus Nat Nat} {label : BusLabel Nat Nat}

theorem step_started (stepped : b.step label = some b') {number : Nat} (begun : number ∈ b'.started) :
    number ∈ b.started ∨ ∃ eventType payload, label = .publish number eventType payload := by
  cases label with
  | subscribe channel =>
      obtain ⟨-, rfl⟩ := EventBus.step_subscribe.mp stepped
      exact .inl begun
  | unsubscribe channel =>
      obtain ⟨-, rfl⟩ := EventBus.step_unsubscribe.mp stepped
      rw [EventBus.remove] at begun
      split at begun <;> exact .inl begun
  | receive channel =>
      obtain ⟨m, rest, received, -, rfl⟩ := EventBus.step_receive.mp stepped
      exact .inl begun
  | publish call eventType payload =>
      obtain ⟨-, rfl⟩ := EventBus.step_publish.mp stepped
      cases List.mem_cons.mp begun with
      | inl new => exact .inr ⟨eventType, payload, by rw [new]⟩
      | inr old => exact .inl old
  | send call =>
      obtain ⟨x, target, -, -, rfl⟩ := EventBus.step_send.mp stepped
      exact .inl begun
  | finish call =>
      obtain ⟨x, -, -, rfl⟩ := EventBus.step_finish.mp stepped
      exact .inl begun

theorem step_closed (stepped : b.step label = some b') {channel : Nat} (closed : b.channels channel = none)
    (other : label ≠ .subscribe channel) : b'.channels channel = none := by
  cases label with
  | subscribe added =>
      obtain ⟨-, rfl⟩ := EventBus.step_subscribe.mp stepped
      have different : channel ≠ added := fun same => other (by rw [same])
      simpa [EventBus.append, Function.update_of_ne different] using closed
  | unsubscribe removed =>
      obtain ⟨-, rfl⟩ := EventBus.step_unsubscribe.mp stepped
      rw [EventBus.remove]
      split <;> exact closed
  | receive receiver =>
      obtain ⟨m, rest, received, here, rfl⟩ := EventBus.step_receive.mp stepped
      have different : channel ≠ receiver := by
        rintro rfl
        rw [closed] at here
        cases here
      simpa [Function.update_of_ne different] using closed
  | publish call eventType payload =>
      obtain ⟨-, rfl⟩ := EventBus.step_publish.mp stepped
      exact closed
  | send call =>
      obtain ⟨x, target, -, -, rfl⟩ := EventBus.step_send.mp stepped
      by_cases same : channel = target
      · subst same
        simp [closed]
      · simpa [Function.update_of_ne same] using closed
  | finish call =>
      obtain ⟨x, -, -, rfl⟩ := EventBus.step_finish.mp stepped
      exact closed

end Bus

/-- The bus is in a state that it can get to, and the numbers given out are below the next
    ones. -/
structure Sound (s : Store) : Prop where
  reached : ∃ labels, EventBus.run labels = some s.bus
  calls : ∀ number ∈ s.bus.started, number < s.calls
  channels : ∀ channel, s.channels ≤ channel → s.bus.channels channel = none

section Sound

variable {s : Store} {bus : EventBus Nat Nat} {label : BusLabel Nat Nat}

theorem Sound.steady (sound : Sound s) : s.bus.Steady := by
  obtain ⟨labels, reached⟩ := sound.reached
  exact (EventBus.run_registered reached).steady

/-- The names that a step uses are made known with it. -/
theorem Sound.step (sound : Sound s) (stepped : s.bus.step label = some bus) {calls channels : Nat}
    (enough : s.calls ≤ calls ∧ s.channels ≤ channels)
    (published : ∀ number eventType payload, label = .publish number eventType payload → number < calls)
    (subscribed : ∀ channel, label = .subscribe channel → channel < channels) :
    Sound { s with bus, calls, channels } := by
  refine ⟨?_, ?_, ?_⟩
  · obtain ⟨labels, reached⟩ := sound.reached
    exact ⟨labels ++ [label], by rw [EventBus.run_concat, reached, Option.bind_some, stepped]⟩
  · intro number begun
    rcases step_started stepped begun with before | ⟨eventType, payload, now⟩
    · exact Nat.lt_of_lt_of_le (sound.calls number before) enough.1
    · exact published number eventType payload now
  · intro channel above
    refine step_closed stepped (sound.channels channel (Nat.le_trans enough.2 above)) fun now => ?_
    exact absurd (subscribed channel now) (Nat.not_lt_of_le above)

theorem Sound.take (sound : Sound s)
    (unpublished : ∀ number eventType payload, label ≠ .publish number eventType payload)
    (unsubscribed : ∀ channel, label ≠ .subscribe channel) : Sound (s.take label) := by
  cases stepped : s.bus.step label with
  | none => rwa [Store.take, stepped, Option.getD_none]
  | some bus =>
      rw [Store.take, stepped, Option.getD_some]
      exact sound.step stepped ⟨Nat.le_refl _, Nat.le_refl _⟩
        (fun number eventType payload same => absurd same (unpublished number eventType payload))
        fun channel same => absurd same (unsubscribed channel)

/-- A `Publish` can always begin. -/
theorem Sound.begins (sound : Sound s) (eventType payload : GoString) :
    ∃ bus, s.bus.step (.publish s.calls eventType payload) = some bus := by
  have fresh : s.calls ∉ s.bus.started := fun begun => Nat.lt_irrefl _ (sound.calls _ begun)
  exact ⟨_, EventBus.step_publish.mpr ⟨fresh, rfl⟩⟩

/-- `Subscribe` waits for the calls of `Publish` in progress, and for nothing else. -/
theorem Sound.subscribes (sound : Sound s) (env : Env) :
    (exec env .subscribe s).1 = none ↔ s.bus.publishers ≠ [] := by
  have closed := sound.channels s.channels (Nat.le_refl _)
  simp only [Service.exec, EventBus.step, closed, and_true]
  split <;> simp_all

theorem Sound.exec (sound : Sound s) (env : Env) (o : Op) : Sound (exec env o s).2 := by
  cases o with
  | stub o => exact ⟨sound.reached, sound.calls, sound.channels⟩
  | begin eventType payload =>
      obtain ⟨bus, stepped⟩ := sound.begins eventType payload
      simp only [Service.exec, Store.take, stepped, Option.getD_some]
      refine sound.step stepped ⟨Nat.le_succ _, Nat.le_refl _⟩ ?_ nofun
      rintro number eventType payload ⟨⟩
      exact Nat.lt_succ_self _
  | send number => exact sound.take nofun nofun
  | finish number => exact sound.take nofun nofun
  | subscribe =>
      simp only [Service.exec]
      split
      · rename_i bus stepped
        refine sound.step stepped ⟨Nat.le_refl _, Nat.le_succ _⟩ nofun ?_
        rintro channel ⟨⟩
        exact Nat.lt_succ_self _
      · exact sound
  | unsubscribe channel =>
      simp only [Service.exec]
      split
      · rename_i bus stepped
        exact sound.step stepped ⟨Nat.le_refl _, Nat.le_refl _⟩ nofun nofun
      · exact sound
  | flusher => exact sound
  | select channel =>
      simp only [Service.exec]
      split
      · exact sound
      · split
        · exact sound.take nofun nofun
        · exact sound
  | write data => exact sound
  | turns => exact sound

end Sound

/-! ## A Publish of one handler -/

/-- The number of the `Publish` that a handler is in, and how many sends it still has to do. -/
def underway (current : Option (Nat × Nat)) : ServiceEvent → Option (Nat × Nat)
  | ⟨.begin _ _, begun⟩ => some begun
  | ⟨.send _, _⟩ => current.map fun call => (call.1, call.2 - 1)
  | ⟨.finish _, _⟩ => none
  | _ => current

def publishing (past : List ServiceEvent) : Option (Nat × Nat) := past.foldl underway none

/-- A handler sends and finishes in the `Publish` that it is in, and finishes once it has
    sent to all listeners. -/
def InTurn (past : List ServiceEvent) : ServiceEvent → Prop
  | ⟨.send number, _⟩ => ∃ left, publishing past = some (number, left + 1)
  | ⟨.finish number, _⟩ => publishing past = some (number, 0)
  | _ => True

theorem publishing_snoc (past : List ServiceEvent) (event : ServiceEvent) :
    publishing (past ++ [event]) = underway (publishing past) event := List.foldl_append

abbrev TakesTurns {α : Type} (program : Program Op Res α) (past : List ServiceEvent) : Prop :=
  program.Obeys InTurn past fun _ _ => True

theorem sends_inTurn {number listeners : Nat} {past : List ServiceEvent}
    (current : publishing past = some (number, listeners)) : TakesTurns (sends number listeners) past := by
  induction listeners generalizing past with
  | zero => exact fun _ => ⟨current, trivial⟩
  | succ listeners ih =>
      refine fun _ => ⟨⟨listeners, current⟩, ih ?_⟩
      rw [publishing_snoc, current]
      rfl

theorem performed_inTurn (o : Stub.Op) (past : List ServiceEvent) : TakesTurns (performed o) past := by
  cases o with
  | publish eventType props =>
      refine fun begun => ⟨trivial, sends_inTurn ?_⟩
      rw [publishing_snoc]
      rfl
  | _ => exact fun _ => ⟨trivial, trivial⟩

theorem lift_inTurn (h : Stub.Handler Stub.Response) (past : List ServiceEvent) : TakesTurns (lift h) past := by
  induction h generalizing past with
  | pure response => trivial
  | op o next ih =>
      rw [lift, TakesTurns, Program.obeys_bind]
      exact (performed_inTurn o past).mono fun past' r _ => ih r past'

theorem unsubscribing_inTurn (channel : Nat) (written : List GoString) (turns : Nat) (past : List ServiceEvent) :
    TakesTurns (unsubscribing channel written turns) past := by
  induction turns generalizing past with
  | zero => trivial
  | succ turns ih =>
      rintro (_ | _)
      · exact ⟨trivial, ih _⟩
      · exact ⟨trivial, trivial⟩

theorem streaming_inTurn (channel turns : Nat) (written : List GoString) (past : List ServiceEvent) :
    TakesTurns (streaming channel turns written) past := by
  induction turns generalizing written past with
  | zero => trivial
  | succ turns ih =>
      rintro (_ | text | _)
      · exact ⟨trivial, unsubscribing_inTurn channel written turns _⟩
      · exact ⟨trivial, fun _ => ⟨trivial, ih _ _⟩⟩
      · exact ⟨trivial, ih _ _⟩

theorem subscribing_inTurn (turns : Nat) (past : List ServiceEvent) : TakesTurns (subscribing turns) past := by
  induction turns generalizing past with
  | zero => trivial
  | succ turns ih =>
      rintro (_ | channel)
      · exact ⟨trivial, ih _⟩
      · refine ⟨trivial, ?_⟩
        rintro (_ | _)
        · exact ⟨trivial, unsubscribing_inTurn channel [] turns _⟩
        · exact ⟨trivial, streaming_inTurn channel turns [] _⟩

theorem events_inTurn (past : List ServiceEvent) : TakesTurns events past :=
  fun turns => ⟨trivial, subscribing_inTurn turns _⟩

theorem serve_inTurn (token : GoString) (startedAt : Int) (r : Incoming) :
    TakesTurns (serve token startedAt r) [] := by
  rw [serve_eq]
  cases routed : (handlers startedAt).handler r.toRequest with
  | redirect path => trivial
  | notFound => trivial
  | handler h =>
      obtain ⟨pattern, member⟩ := ServeMux.mem_of_handler routed
      have own : ∀ entry ∈ handlers startedAt, TakesTurns (entry.2 r) [] := by
        simp only [handlers, List.forall_mem_cons, List.not_mem_nil, false_implies, implies_true, and_true]
        exact ⟨lift_inTurn _ _, events_inTurn _, lift_inTurn _ _, lift_inTurn _ _, lift_inTurn _ _, lift_inTurn _ _,
          lift_inTurn _ _, lift_inTurn _ _, lift_inTurn _ _, lift_inTurn _ _, lift_inTurn _ _⟩
      change TakesTurns (require token h r) []
      rcases require_cases (fun message => (.pure (.json (unauthorized message)) : Handler Reply)) token
        r.authorization (h r) with passed | ⟨message, refused⟩
      · rw [require, passed]
        exact own _ member
      · rw [require, refused]
        trivial

/-! ## In every run -/

/-- The bus can do its part of the operation. Nothing is expected of those that look first
    whether it can. -/
def Possible (s : Store) : Op → Prop
  | .begin eventType payload => ∃ bus, s.bus.step (.publish s.calls eventType payload) = some bus
  | .send number => ∃ bus, s.bus.step (.send number) = some bus
  | .finish number => ∃ bus, s.bus.step (.finish number) = some bus
  | _ => True

/-- Each `Publish` that a thread is in holds the read lock, with as many cells before it as
    the thread has sends to do, and no other thread is in it. -/
structure Held (s : Store) (log : List ServiceEntry) : Prop where
  cells : ∀ thread number left, publishing (past log thread) = some (number, left) →
    ∃ x, s.bus.publisher number = some x ∧ x.upto = x.next + left
  apart : ∀ thread thread' number left left', publishing (past log thread) = some (number, left) →
    publishing (past log thread') = some (number, left') → thread = thread'

section Held

variable {s : Store} {log : List ServiceEntry} {thread : Nat} {env : Env}

theorem publishing_past (log : List ServiceEntry) (thread : Nat) (s : Store) (event : ServiceEvent) (other : Nat) :
    publishing (past (log ++ [⟨thread, s, event⟩]) other) =
      if other = thread then underway (publishing (past log thread)) event else publishing (past log other) := by
  by_cases same : other = thread
  · rw [if_pos same, same, past_own, publishing_snoc]
  · have foreign : past [(⟨thread, s, event⟩ : ServiceEntry)] other = [] := by
      simpa [past] using fun own => same own.symm
    rw [if_neg same, past_append, foreign, List.append_nil]

/-- An event keeps the locks in order if its thread holds what it is in afterwards, alone, and
    the calls that other threads are in are left as they are. -/
theorem Held.snoc (held : Held s log) {s' : Store} {event : ServiceEvent}
    (own : ∀ number left, underway (publishing (past log thread)) event = some (number, left) →
      (∃ x, s'.bus.publisher number = some x ∧ x.upto = x.next + left) ∧
        ∀ other left', other ≠ thread → publishing (past log other) ≠ some (number, left'))
    (others : ∀ other number left, other ≠ thread → publishing (past log other) = some (number, left) →
      s'.bus.publisher number = s.bus.publisher number) : Held s' (log ++ [⟨thread, s, event⟩]) := by
  constructor
  · intro other number left inside
    rw [publishing_past] at inside
    split at inside
    · exact (own number left inside).1
    · rename_i foreign
      rw [others other number left foreign inside]
      exact held.cells other number left inside
  · intro one other number left left' here there
    rw [publishing_past] at here there
    split at here <;> split at there
    · rename_i first second
      rw [first, second]
    · rename_i foreign
      exact absurd there ((own number left here).2 other left' foreign)
    · rename_i foreign _
      exact absurd here ((own number left' there).2 one left foreign)
    · exact held.apart one other number left left' here there

/-- An operation that has nothing to do with a `Publish`. -/
theorem Held.frame (held : Held s log) {s' : Store} {event : ServiceEvent}
    (same : s'.bus.publishers = s.bus.publishers) (quiet : ∀ current, underway current event = current) :
    Held s' (log ++ [⟨thread, s, event⟩]) := by
  have kept : ∀ number, s'.bus.publisher number = s.bus.publisher number := by
    intro number
    rw [EventBus.publisher, same, EventBus.publisher]
  refine held.snoc (fun number left inside => ?_) fun _ number _ _ _ => kept number
  rw [quiet] at inside
  refine ⟨by rw [kept]; exact held.cells thread number left inside, fun other left' foreign there => ?_⟩
  exact foreign (held.apart other thread number left' left there inside)

theorem Held.begin (sound : Sound s) (held : Held s log) (eventType payload : GoString) :
    Held (exec env (.begin eventType payload) s).2
      (log ++ [⟨thread, s, ⟨.begin eventType payload, (s.calls, s.bus.len)⟩⟩]) := by
  obtain ⟨bus, stepped⟩ := sound.begins eventType payload
  simp only [exec, Store.take, stepped, Option.getD_some]
  obtain ⟨-, rfl⟩ := EventBus.step_publish.mp stepped
  -- a `Publish` that a thread is in has begun before
  have older : ∀ other number left, publishing (past log other) = some (number, left) → s.calls ≠ number := by
    rintro other number left inside rfl
    obtain ⟨x, found, -⟩ := held.cells other _ left inside
    obtain ⟨member, own⟩ := EventBus.publisher_some found
    exact Nat.lt_irrefl _ (own ▸ sound.calls _ (sound.steady.begun x member))
  refine held.snoc ?_ fun other number left _ inside => ?_
  · rintro number left ⟨⟩
    refine ⟨⟨_, List.find?_cons_of_pos (by simp), (Nat.zero_add _).symm⟩, fun other left' _ there => ?_⟩
    exact older other _ left' there rfl
  · exact List.find?_cons_of_neg (by simpa using older other number left inside)

/-- The cell of a send is there. -/
theorem Held.sendable (sound : Sound s) {number left : Nat} {x : Publisher Nat}
    (found : s.bus.publisher number = some x) (whole : x.upto = x.next + (left + 1)) :
    ∃ channel, s.bus.target number = some channel := by
  have steady := sound.steady
  obtain ⟨-, full⟩ := steady.loops x (EventBus.publisher_some found).1
  have inside : x.next < s.bus.cells.length := by
    have := steady.inside
    omega
  refine ⟨s.bus.cells[x.next], ?_⟩
  rw [EventBus.target, found, Option.bind_some, if_pos (by omega), List.getElem?_eq_getElem inside]

theorem find?_advance (publishers : List (Publisher Nat)) (number call : Nat) :
    (publishers.map (EventBus.advance number)).find? (fun x => x.call = call) =
      (publishers.find? fun x => x.call = call).map (EventBus.advance number) := by
  have kept : ∀ x : Publisher Nat, (EventBus.advance number x).call = x.call := by
    intro x
    rw [EventBus.advance]
    split <;> rfl
  simp only [List.find?_map, Function.comp_def, kept]

theorem Held.send (sound : Sound s) (held : Held s log) {number left : Nat}
    (inside : publishing (past log thread) = some (number, left + 1)) :
    Possible s (.send number) ∧
      Held (exec env (.send number) s).2 (log ++ [⟨thread, s, ⟨.send number, ()⟩⟩]) := by
  obtain ⟨x, found, whole⟩ := held.cells thread number (left + 1) inside
  obtain ⟨channel, aim⟩ := Held.sendable sound found whole
  have stepped := EventBus.step_send.mpr ⟨x, channel, found, aim, rfl⟩
  refine ⟨⟨_, stepped⟩, ?_⟩
  simp only [exec, Store.take, stepped, Option.getD_some]
  refine held.snoc (fun call left' now => ?_) fun other call left' foreign there => ?_
  · rw [inside] at now
    cases now
    refine ⟨⟨_, (find?_advance _ _ _).trans (congrArg (Option.map _) found), ?_⟩, fun other left' foreign there => ?_⟩
    · rw [EventBus.advance, if_pos (EventBus.publisher_some found).2]
      change x.upto = x.next + 1 + left
      omega
    · exact foreign (held.apart other thread number left' (left + 1) there inside)
  · obtain ⟨y, found', -⟩ := held.cells other call left' there
    have different : y.call ≠ number := by
      rw [(EventBus.publisher_some found').2]
      rintro rfl
      exact foreign (held.apart other thread _ _ _ there inside)
    rw [found']
    refine (find?_advance _ _ _).trans ((congrArg (Option.map _) found').trans ?_)
    rw [Option.map_some, EventBus.advance, if_neg different]

theorem Held.finish (held : Held s log) {number : Nat} (inside : publishing (past log thread) = some (number, 0)) :
    Possible s (.finish number) ∧
      Held (exec env (.finish number) s).2 (log ++ [⟨thread, s, ⟨.finish number, ()⟩⟩]) := by
  obtain ⟨x, found, whole⟩ := held.cells thread number 0 inside
  have stepped := EventBus.step_finish.mpr ⟨x, found, Nat.le_of_eq whole, rfl⟩
  refine ⟨⟨_, stepped⟩, ?_⟩
  simp only [exec, Store.take, stepped, Option.getD_some]
  refine held.snoc nofun fun other call left foreign there => ?_
  have different : call ≠ number := by
    rintro rfl
    exact foreign (held.apart other thread _ _ _ there inside)
  rw [EventBus.publisher, EventBus.publisher, List.find?_filter]
  congr
  funext y
  by_cases own : y.call = call
  · simp [own, different]
  · simp [own]

end Held

/-- The operations that are not part of a `Publish` leave the calls of `Publish` alone. -/
theorem exec_publishers (env : Env) (s : Store) {o : Op} {r : Res o}
    (quiet : ∀ current, underway current ⟨o, r⟩ = current) :
    (exec env o s).2.bus.publishers = s.bus.publishers := by
  cases o with
  | begin eventType payload => exact nomatch quiet none
  | send number => exact nomatch quiet (some (0, 1))
  | finish number => exact nomatch quiet (some (0, 0))
  | subscribe =>
      simp only [exec]
      split
      · rename_i bus stepped
        obtain ⟨-, rfl⟩ := EventBus.step_subscribe.mp stepped
        rfl
      · rfl
  | unsubscribe channel =>
      simp only [exec]
      split
      · rename_i bus stepped
        obtain ⟨-, rfl⟩ := EventBus.step_unsubscribe.mp stepped
        rw [EventBus.remove]
        split <;> rfl
      · rfl
  | select channel =>
      simp only [exec]
      split
      · rfl
      · split
        · cases stepped : s.bus.step (.receive channel) with
          | none => rw [Store.take, stepped, Option.getD_none]
          | some bus =>
              obtain ⟨m, rest, received, -, rfl⟩ := EventBus.step_receive.mp stepped
              rw [Store.take, stepped, Option.getD_some]
        · rfl
  | stub o => rfl
  | flusher => rfl
  | write data => rfl
  | turns => rfl

/-- What every step of a run of one process keeps. -/
structure Orderly (s : Store) (log : List ServiceEntry) : Prop where
  sound : Sound s
  held : Held s log
  possible : ∀ entry ∈ log, Possible entry.before entry.event.op

theorem orderly_snoc {s : Store} {log : List ServiceEntry} {thread : Nat} {env : Env} {o : Op}
    (orderly : Orderly s log) (inTurn : InTurn (past log thread) ⟨o, (exec env o s).1⟩) :
    Orderly (exec env o s).2 (log ++ [⟨thread, s, ⟨o, (exec env o s).1⟩⟩]) := by
  obtain ⟨sound, held, possible⟩ := orderly
  have both : Possible s o ∧ Held (exec env o s).2 (log ++ [⟨thread, s, ⟨o, (exec env o s).1⟩⟩]) := by
    cases o with
    | begin eventType payload => exact ⟨sound.begins eventType payload, held.begin sound eventType payload⟩
    | send number =>
        obtain ⟨left, inside⟩ := inTurn
        exact held.send sound inside
    | finish number => exact held.finish inTurn
    | _ => exact ⟨trivial, held.frame (exec_publishers env s (r := (exec env _ s).1) fun _ => rfl) fun _ => rfl⟩
  refine ⟨sound.exec env o, both.2, fun entry member => ?_⟩
  cases List.mem_append.mp member with
  | inl older => exact possible entry older
  | inr last =>
      cases List.mem_singleton.mp last
      exact both.1

/-- In every run of one process the bus can do what the handlers ask of it. -/
theorem possible_in_every_run (token : GoString) (startedAt : Int) (root : GoString)
    (disk : OrderedMap Stub.CleanPath Stub.FileData) (labels : List (Label Incoming Env))
    (within : ∀ label ∈ labels, label.Within { reboot := fun _ => False }) :
    ∀ entry ∈ ((service token startedAt).run (startUp root disk) labels).log,
      Possible entry.before entry.event.op := by
  have start : Orderly (startUp root disk) [] :=
    ⟨⟨⟨[], rfl⟩, by simp [startUp, EventBus.empty], fun _ _ => rfl⟩, ⟨nofun, nofun⟩, by simp⟩
  have orderly := (service token startedAt).run_invariant Orderly
    (fun s log thread o env _ lawful orderly => orderly_snoc orderly (lawful_last lawful))
    (fun request _ => serve_inTurn token startedAt request) (fun _ _ _ never => False.elim never) start within
  exact orderly.possible

/-- Restarts included, the bus is in a state that its steps lead to. -/
theorem sound_in_every_run (token : GoString) (startedAt : Int) (root : GoString)
    (disk : OrderedMap Stub.CleanPath Stub.FileData) (labels : List (Label Incoming Env)) :
    Sound ((service token startedAt).run (startUp root disk) labels).store := by
  have empty : ∀ state : Stub.State, Sound ⟨state, .empty, 0, 0⟩ :=
    fun state => ⟨⟨[], rfl⟩, nofun, fun _ _ => rfl⟩
  exact (service token startedAt).run_invariant (fun s _ => Sound s)
    (fun s log thread o env _ _ sound => sound.exec env o) (fun _ _ => Program.obeys_free _ _)
    (fun s _ _ _ _ => empty s.state.restart) (empty _) fun label _ => label.within_default

/-- The lock that a listener needs to come or to go is free unless something is being published. -/
theorem waits_in_every_run (token : GoString) (startedAt : Int) (root : GoString)
    (disk : OrderedMap Stub.CleanPath Stub.FileData) (labels : List (Label Incoming Env)) (env : Env)
    (channel : Nat) :
    let s := ((service token startedAt).run (startUp root disk) labels).store
    ((exec env .subscribe s).1 = none ↔ s.bus.publishers ≠ []) ∧
      ((exec env (.unsubscribe channel) s).1 = false ↔ s.bus.publishers ≠ []) := by
  intro s
  refine ⟨(sound_in_every_run token startedAt root disk labels).subscribes env, ?_⟩
  simp only [exec, EventBus.step]
  split <;> simp_all

end OpencodeRemote.Service
