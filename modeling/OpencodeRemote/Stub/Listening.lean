import OpencodeRemote.Data.Rank
import OpencodeRemote.Stub.Delivery

/-! # The bus as one listener sees it

Leave out of a run what the other listeners do and every send to them. What is left is a run
of its own, and it does the same to the channel that it is about.
-/

namespace OpencodeRemote.Stub

open Data

namespace EventBus

variable {ι κ : Type} [DecidableEq ι] [DecidableEq κ] {b b' c : EventBus ι κ} {channel : κ}

/-- A step of the channel's own listener, a send to it, or the begin or end of a `Publish`. -/
def concerns (channel : κ) (b : EventBus ι κ) : BusLabel ι κ → Bool
  | .subscribe other | .unsubscribe other | .receive other => other = channel
  | .publish _ _ _ | .finish _ => true
  | .send call => b.target call = some channel

/-- The steps of a run from `b` that concern the channel. -/
def own (channel : κ) (b : EventBus ι κ) : List (BusLabel ι κ) → List (BusLabel ι κ)
  | [] => []
  | label :: labels =>
      match b.step label with
      | some next =>
          if b.concerns channel label then label :: own channel next labels else own channel next labels
      | none => []

/-- The call as it is where the channel is the only listener. -/
def project (channel : κ) (listeners : List κ) (x : Publisher ι) : Publisher ι :=
  { x with
    next := rank (fun other => other = channel) listeners x.next
    upto := (listeners.filter fun other => other = channel).length }

/-- `b'` is `b` without the other listeners. -/
structure Mirrors (channel : κ) (b b' : EventBus ι κ) : Prop where
  steady : b.Steady
  steady' : b'.Steady
  listeners : b'.listeners = b.listeners.filter fun other => other = channel
  channels : b'.channels channel = b.channels channel
  publishers : b'.publishers = b.publishers.map (project channel b.listeners)
  started : b'.started = b.started

omit [DecidableEq ι] in
theorem mirrors_empty (channel : κ) : Mirrors channel (empty : EventBus ι κ) empty :=
  ⟨steady_empty, steady_empty, rfl, rfl, rfl, rfl⟩

omit [DecidableEq ι] in
theorem Mirrors.idle (mirrors : Mirrors channel b b') (idle : b.publishers = []) : b'.publishers = [] := by
  rw [mirrors.publishers, idle, List.map_nil]

theorem Mirrors.publisher (mirrors : Mirrors channel b b') {call : ι} {x : Publisher ι}
    (found : b.publisher call = some x) : b'.publisher call = some (project channel b.listeners x) := by
  obtain ⟨member, rfl⟩ := publisher_some found
  refine mirrors.steady'.publisher (x := project channel b.listeners x) ?_
  rw [mirrors.publishers]
  exact List.mem_map_of_mem member

omit [DecidableEq ι] in
theorem Mirrors.len (mirrors : Mirrors channel b b') :
    b'.len = (b.listeners.filter fun other => other = channel).length := by
  rw [← mirrors.listeners, length_listeners mirrors.steady'.inside]

theorem Mirrors.target (mirrors : Mirrors channel b b') {call : ι} (aim : b.target call = some channel) :
    b'.target call = some channel := by
  obtain ⟨x, found, -, here⟩ := target_some mirrors.steady aim
  have place := getElem?_filter (p := fun other => other = channel) here (by simp)
  rw [← mirrors.listeners] at place
  have inside : rank (fun other => other = channel) b.listeners x.next < b'.len := by
    rw [← length_listeners mirrors.steady'.inside]
    exact (List.getElem?_eq_some_iff.mp place).1
  have cell := (getElem?_cells inside).trans place
  rw [mirrors.len] at inside
  rw [EventBus.target, mirrors.publisher found, Option.bind_some]
  exact (if_pos inside).trans cell

/-- The loop that sends goes on, to wherever the channel is not the only listener. -/
theorem project_advance (steady : Steady b) {call : ι} {other : κ} (aim : b.target call = some other)
    {x : Publisher ι} (member : x ∈ b.publishers) :
    project channel b.listeners (advance call x) =
      if other = channel then advance call (project channel b.listeners x) else project channel b.listeners x := by
  obtain ⟨y, found, -, here⟩ := target_some steady aim
  by_cases sends : x.call = call
  · have same := steady.publisher member
    rw [sends, found, Option.some.injEq] at same
    subst same
    by_cases target : other = channel
    · have further := rank_succ_of_pos (p := fun other => other = channel) here (decide_eq_true target)
      simp [advance, project, sends, target, further]
    · have further := rank_succ_of_neg (p := fun other => other = channel) here (decide_eq_false target)
      simp [advance, project, sends, target, further]
  · simp [advance, project, sends]

omit [DecidableEq ι] in
theorem filter_erase_self {l : List κ} (distinct : l.Nodup) (channel : κ) :
    (l.erase channel).filter (fun other => other = channel) =
      (l.filter fun other => other = channel).erase channel := by
  rw [distinct.erase_eq_filter, (distinct.filter _).erase_eq_filter, List.filter_filter, List.filter_filter]
  simp only [Bool.and_comm]

omit [DecidableEq ι] in
theorem filter_erase_of_ne {l : List κ} (distinct : l.Nodup) {removed : κ} (different : removed ≠ channel) :
    (l.erase removed).filter (fun other => other = channel) = l.filter fun other => other = channel := by
  rw [distinct.erase_eq_filter, List.filter_filter]
  refine List.filter_congr fun other _ => ?_
  grind

/-- A step that does not concern the channel is nothing to it. -/
theorem mirrors_other (mirrors : Mirrors channel b b') {label : BusLabel ι κ} (stepped : b.step label = some c)
    (other : b.concerns channel label = false) : Mirrors channel c b' := by
  have steady := steady_step mirrors.steady stepped
  cases label with
  | subscribe added =>
      have different : added ≠ channel := of_decide_eq_false other
      obtain ⟨⟨idle, -⟩, rfl⟩ := step_subscribe.mp stepped
      have grown : (append { b with channels := Function.update b.channels added (some .new) } added).listeners =
          b.listeners ++ [added] := listeners_append mirrors.steady.inside added
      refine ⟨steady, mirrors.steady', ?_, ?_, ?_, mirrors.started⟩
      · rw [grown, mirrors.listeners]
        simp [different]
      · exact mirrors.channels.trans (Function.update_of_ne different.symm _ _).symm
      · rw [mirrors.idle idle]
        simp [append, idle]
  | unsubscribe removed =>
      have different : removed ≠ channel := of_decide_eq_false other
      obtain ⟨idle, rfl⟩ := step_unsubscribe.mp stepped
      obtain ⟨rest, -, channels, publishers, started⟩ := remove_spec mirrors.steady.inside removed
      refine ⟨steady, mirrors.steady', ?_, ?_, ?_, ?_⟩
      · rw [rest, filter_erase_of_ne mirrors.steady.distinct different, mirrors.listeners]
      · rw [channels, mirrors.channels]
      · rw [publishers, idle, mirrors.idle idle, List.map_nil]
      · rw [started, mirrors.started]
  | receive receiver =>
      have different : receiver ≠ channel := of_decide_eq_false other
      obtain ⟨m, rest, received, -, rfl⟩ := step_receive.mp stepped
      refine ⟨steady, mirrors.steady', mirrors.listeners, ?_, mirrors.publishers, mirrors.started⟩
      exact mirrors.channels.trans (Function.update_of_ne different.symm _ _).symm
  | publish call eventType payload => cases other
  | send call =>
      obtain ⟨x, target, found, aim, rfl⟩ := step_send.mp stepped
      have different : target ≠ channel := by
        have elsewhere := of_decide_eq_false other
        rw [aim, Option.some.injEq] at elsewhere
        exact elsewhere
      refine ⟨steady, mirrors.steady', mirrors.listeners, ?_, ?_, mirrors.started⟩
      · exact mirrors.channels.trans (Function.update_of_ne different.symm _ _).symm
      · rw [mirrors.publishers, List.map_map]
        refine List.map_congr_left fun y member => ?_
        exact (((project_advance mirrors.steady aim member).trans (if_neg different))).symm
  | finish call => cases other

/-- A step that concerns the channel can happen without the other listeners. -/
theorem mirrors_own (mirrors : Mirrors channel b b') {label : BusLabel ι κ} (stepped : b.step label = some c)
    (concerns : b.concerns channel label = true) : ∃ c', b'.step label = some c' ∧ Mirrors channel c c' := by
  have steady := steady_step mirrors.steady stepped
  suffices alone : ∃ c', b'.step label = some c' ∧ (c'.Steady → Mirrors channel c c') by
    obtain ⟨c', stepped', mirrors'⟩ := alone
    exact ⟨c', stepped', mirrors' (steady_step mirrors.steady' stepped')⟩
  cases label with
  | subscribe added =>
      obtain rfl : added = channel := of_decide_eq_true concerns
      obtain ⟨⟨idle, fresh⟩, rfl⟩ := step_subscribe.mp stepped
      refine ⟨_, step_subscribe.mpr ⟨⟨mirrors.idle idle, mirrors.channels.trans fresh⟩, rfl⟩, fun steady' => ?_⟩
      have grown : (append { b with channels := Function.update b.channels added (some .new) } added).listeners =
          b.listeners ++ [added] := listeners_append mirrors.steady.inside added
      have grown' : (append { b' with channels := Function.update b'.channels added (some .new) } added).listeners =
          b'.listeners ++ [added] := listeners_append mirrors.steady'.inside added
      refine ⟨steady, steady', ?_, ?_, ?_, mirrors.started⟩
      · rw [grown, grown', mirrors.listeners, List.filter_append]
        simp
      · simp [append]
      · simp [append, idle, mirrors.idle idle]
  | unsubscribe removed =>
      obtain rfl : removed = channel := of_decide_eq_true concerns
      obtain ⟨idle, rfl⟩ := step_unsubscribe.mp stepped
      refine ⟨_, step_unsubscribe.mpr ⟨mirrors.idle idle, rfl⟩, fun steady' => ?_⟩
      obtain ⟨rest, -, channels, publishers, started⟩ := remove_spec mirrors.steady.inside removed
      obtain ⟨rest', -, channels', publishers', started'⟩ := remove_spec mirrors.steady'.inside removed
      refine ⟨steady, steady', ?_, ?_, ?_, ?_⟩
      · rw [rest, rest', mirrors.listeners, filter_erase_self mirrors.steady.distinct]
      · rw [channels, channels', mirrors.channels]
      · rw [publishers, publishers', idle, mirrors.idle idle, List.map_nil]
      · rw [started, started', mirrors.started]
  | receive receiver =>
      obtain rfl : receiver = channel := of_decide_eq_true concerns
      obtain ⟨m, rest, received, here, rfl⟩ := step_receive.mp stepped
      refine ⟨_, step_receive.mpr ⟨m, rest, received, mirrors.channels.trans here, rfl⟩, fun steady' => ?_⟩
      refine ⟨steady, steady', mirrors.listeners, ?_, mirrors.publishers, mirrors.started⟩
      simp
  | publish call eventType payload =>
      obtain ⟨fresh, rfl⟩ := step_publish.mp stepped
      refine ⟨_, step_publish.mpr ⟨mirrors.started ▸ fresh, rfl⟩, fun steady' => ?_⟩
      refine ⟨steady, steady', mirrors.listeners, mirrors.channels, ?_, ?_⟩
      · change _ :: b'.publishers = _ :: b.publishers.map (project channel b.listeners)
        rw [mirrors.publishers, mirrors.len]
        rfl
      · change call :: b'.started = call :: b.started
        rw [mirrors.started]
  | send call =>
      obtain ⟨x, target, found, aim, rfl⟩ := step_send.mp stepped
      obtain rfl : target = channel := by
        have own := of_decide_eq_true concerns
        rw [aim, Option.some.injEq] at own
        exact own
      refine ⟨_, step_send.mpr ⟨_, target, mirrors.publisher found, mirrors.target aim, rfl⟩, fun steady' => ?_⟩
      refine ⟨steady, steady', mirrors.listeners, ?_, ?_, mirrors.started⟩
      · simp only [Function.update_self, mirrors.channels]
        rfl
      · change b'.publishers.map (advance call) = (b.publishers.map (advance call)).map (project target b.listeners)
        rw [mirrors.publishers, List.map_map, List.map_map]
        refine List.map_congr_left fun y member => ?_
        exact ((project_advance mirrors.steady aim member).trans (if_pos rfl)).symm
  | finish call =>
      obtain ⟨x, found, done, rfl⟩ := step_finish.mp stepped
      have past : (project channel b.listeners x).upto ≤ (project channel b.listeners x).next := by
        obtain ⟨before, whole⟩ := mirrors.steady.loops x (publisher_some found).1
        have last : x.next = b.listeners.length := by
          rw [length_listeners mirrors.steady.inside]
          omega
        simp only [project, last, rank_length, Nat.le_refl]
      refine ⟨_, step_finish.mpr ⟨_, mirrors.publisher found, past, rfl⟩, fun steady' => ?_⟩
      refine ⟨steady, steady', mirrors.listeners, mirrors.channels, ?_, mirrors.started⟩
      change b'.publishers.filter _ = (b.publishers.filter _).map (project channel b.listeners)
      rw [mirrors.publishers, List.filter_map]
      rfl

/-- The steps that concern the channel are a run, and they do the same to it. -/
theorem mirrors_run (mirrors : Mirrors channel b b') {labels : List (BusLabel ι κ)}
    (reached : labels.foldlM step b = some c) :
    ∃ c', (b.own channel labels).foldlM step b' = some c' ∧ Mirrors channel c c' := by
  induction labels generalizing b b' with
  | nil =>
      cases reached
      exact ⟨b', rfl, mirrors⟩
  | cons label labels ih =>
      rw [List.foldlM_cons, Option.bind_eq_bind, Option.bind_eq_some_iff] at reached
      obtain ⟨next, stepped, reached⟩ := reached
      simp only [own, stepped]
      split
      · rename_i concerns
        obtain ⟨next', stepped', mirrors⟩ := mirrors_own mirrors stepped concerns
        rw [List.foldlM_cons, stepped']
        exact ih mirrors reached
      · rename_i other
        exact ih (mirrors_other mirrors stepped (Bool.eq_false_iff.mpr other)) reached

/-- In every run a channel gives each event at most once, and only what was published while it
    was subscribed; what it does not get of that, it had no room for. Events of calls that do not
    overlap come in the order of the calls, and the other listeners make no difference. -/
theorem delivery {labels : List (BusLabel ι κ)} (reached : run labels = some b) {q : Channel ι}
    (made : b.channels channel = some q) :
    (q.received.map Message.call).Nodup ∧
      (∀ m ∈ q.received, Addressed labels m channel) ∧
      (∀ m, Addressed labels m channel → .finish m.call ∈ labels →
        m ∈ q.received ∨ m ∈ q.buffer ∨ Overflowed labels m.call channel) ∧
      (q.received.Pairwise fun m m' => ¬Precedes labels m'.call m.call) ∧
      ∃ alone, run (empty.own channel labels) = some alone ∧ alone.channels channel = some q := by
  have delivered := run_delivered reached channel
  have stream : b.stream channel = q.received ++ q.buffer := by rw [stream, made]
  have front : q.received.Sublist (b.stream channel) := stream ▸ List.sublist_append_left _ _
  refine ⟨delivered.once.sublist (front.map Message.call), ?_, ?_, delivered.order.sublist front, ?_⟩
  · exact fun m member => (delivered.origin m (front.subset member)).1
  · intro m addressed finished
    rcases delivered.loss m addressed with there | overflowed | ⟨x, member, call, -, -⟩
    · rw [stream, List.mem_append] at there
      exact or_assoc.mp (.inl there)
    · exact .inr (.inr overflowed)
    · exact absurd call (((run_registered reached).ended m.call finished).2 x member)
  · obtain ⟨alone, steps, mirrors⟩ := mirrors_run (mirrors_empty channel) reached
    exact ⟨alone, steps, mirrors.channels.trans made⟩

/-- The second of two listeners receives the event of a call and leaves; the first one is slow. -/
theorem delivery_to_second : ∃ labels : List (BusLabel Nat Nat), ∃ q : Channel Nat,
    q.received = [⟨7, eventText [] []⟩] ∧
      (q.received.map Message.call).Nodup ∧
      (∀ m ∈ q.received, Addressed labels m 2) ∧
      (∀ m, Addressed labels m 2 → .finish m.call ∈ labels →
        m ∈ q.received ∨ m ∈ q.buffer ∨ Overflowed labels m.call 2) ∧
      (q.received.Pairwise fun m m' => ¬Precedes labels m'.call m.call) ∧
      ∃ alone, run (empty.own 2 labels) = some alone ∧ alone.channels 2 = some q := by
  have made : (run [.subscribe 1, .subscribe 2, .publish 7 [] [], .send 7, .send 7, .finish 7, .receive 2,
      .unsubscribe 2]).bind (fun b : EventBus Nat Nat => b.channels 2) = some ⟨[], [⟨7, eventText [] []⟩]⟩ := by
    decide
  obtain ⟨b, reached, made⟩ := Option.bind_eq_some_iff.mp made
  exact ⟨_, _, rfl, delivery reached made⟩

end EventBus

end OpencodeRemote.Stub
