import OpencodeRemote.Data.Rank
import OpencodeRemote.Data.Since
import OpencodeRemote.Stub.EventBus

/-! # What a listener receives

The terms are those of the calls that were made. A `Publish` is addressed to a channel that
is subscribed when its loop begins; the event gets there unless the channel is full when the
loop comes to it. The steps of other listeners can be left out of a run without any change
for this one.
-/

namespace OpencodeRemote.Stub

open Data

namespace EventBus

variable {ι κ : Type} {labels : List (BusLabel ι κ)} {newest : BusLabel ι κ} {channel : κ}

/-- `Subscribe` has returned the channel, and no `Unsubscribe` has taken it since. -/
def Subscribed (labels : List (BusLabel ι κ)) (channel : κ) : Prop :=
  Since (· = .subscribe channel) (· = .unsubscribe channel) labels

/-- The message is the event of a `Publish` that began while the channel was subscribed. -/
def Addressed (labels : List (BusLabel ι κ)) (m : Message ι) (channel : κ) : Prop :=
  Sometime (fun before label =>
    (∃ eventType payload, label = .publish m.call eventType payload ∧ m.data = eventText eventType payload) ∧
      Subscribed before channel) labels

/-- The earlier call had returned before the later one began. -/
def Precedes (labels : List (BusLabel ι κ)) (earlier later : ι) : Prop :=
  Sometime (fun before label =>
    (∃ eventType payload, label = .publish later eventType payload) ∧ .finish earlier ∈ before) labels

variable [DecidableEq ι] [DecidableEq κ] {b b' : EventBus ι κ}

/-- The channel held `capacity` events when the call sent to it. -/
def Overflowed (labels : List (BusLabel ι κ)) (call : ι) (channel : κ) : Prop :=
  Sometime (fun before label => label = .send call ∧ ∃ b c, run before = some b ∧
    b.target call = some channel ∧ b.channels channel = some c ∧ c.buffer.length = capacity) labels

/-! ## The calls made and the state reached -/

structure Registered (labels : List (BusLabel ι κ)) (b : EventBus ι κ) : Prop where
  steady : b.Steady
  known : ∀ channel, channel ∈ b.listeners ↔ Subscribed labels channel
  addressed : ∀ x ∈ b.publishers, ∀ channel ∈ b.listeners, Addressed labels ⟨x.call, x.data⟩ channel
  ended : ∀ call, .finish call ∈ labels → call ∈ b.started ∧ ∀ x ∈ b.publishers, x.call ≠ call

omit [DecidableEq ι] [DecidableEq κ] in
theorem addressed_concat {m : Message ι} : Addressed (labels ++ [newest]) m channel ↔
    Addressed labels m channel ∨
      (∃ eventType payload, newest = .publish m.call eventType payload ∧ m.data = eventText eventType payload) ∧
        Subscribed labels channel :=
  sometime_concat

omit [DecidableEq ι] [DecidableEq κ] in
theorem precedes_concat {earlier later : ι} : Precedes (labels ++ [newest]) earlier later ↔
    Precedes labels earlier later ∨
      (∃ eventType payload, newest = .publish later eventType payload) ∧ .finish earlier ∈ labels :=
  sometime_concat

omit [DecidableEq ι] [DecidableEq κ] in
theorem finished_of_precedes {earlier later : ι} (precedes : Precedes labels earlier later) :
    .finish earlier ∈ labels := by
  obtain ⟨before, label, after, rfl, -, finished⟩ := precedes
  exact List.mem_append_left _ finished

omit [DecidableEq ι] [DecidableEq κ] in
theorem subscribed_concat : Subscribed (labels ++ [newest]) channel ↔
    newest = .subscribe channel ∨ Subscribed labels channel ∧ newest ≠ .unsubscribe channel :=
  since_concat

omit [DecidableEq ι] [DecidableEq κ] in
theorem registered_nil : Registered ([] : List (BusLabel ι κ)) empty := by
  refine ⟨steady_empty, fun channel => ?_, by simp [empty], by simp⟩
  exact iff_of_false (by simp [listeners, empty]) since_nil

theorem mem_listeners_step (steady : Steady b) (stepped : b.step newest = some b') (channel : κ) :
    channel ∈ b'.listeners ↔
      newest = .subscribe channel ∨ channel ∈ b.listeners ∧ newest ≠ .unsubscribe channel := by
  cases newest with
  | subscribe added =>
      obtain ⟨-, rfl⟩ := step_subscribe.mp stepped
      have grown : (append { b with channels := Function.update b.channels added (some .new) } added).listeners =
          b.listeners ++ [added] := listeners_append steady.inside added
      rw [grown]
      grind
  | unsubscribe removed =>
      obtain ⟨-, rfl⟩ := step_unsubscribe.mp stepped
      rw [(remove_spec steady.inside removed).1, steady.distinct.mem_erase_iff]
      grind
  | receive receiver =>
      obtain ⟨m, rest, received, -, rfl⟩ := step_receive.mp stepped
      simp [listeners]
  | publish call eventType payload =>
      obtain ⟨-, rfl⟩ := step_publish.mp stepped
      simp [listeners]
  | send call =>
      obtain ⟨x, target, -, -, rfl⟩ := step_send.mp stepped
      simp [listeners]
  | finish call =>
      obtain ⟨x, -, -, rfl⟩ := step_finish.mp stepped
      simp [listeners]

/-- A call in progress was in progress before, or it begins with this step. -/
theorem publishers_step (steady : Steady b) (stepped : b.step newest = some b') {y : Publisher ι}
    (member : y ∈ b'.publishers) :
    b'.listeners = b.listeners ∧
      ((∃ x ∈ b.publishers, x.call = y.call ∧ x.data = y.data ∧ x.next ≤ y.next ∧ newest ≠ .finish x.call) ∨
        y.call ∉ b.started ∧ ∃ eventType payload, newest = .publish y.call eventType payload ∧
          y.data = eventText eventType payload) := by
  cases newest with
  | subscribe added =>
      obtain ⟨⟨idle, -⟩, rfl⟩ := step_subscribe.mp stepped
      simp [append, idle] at member
  | unsubscribe removed =>
      obtain ⟨idle, rfl⟩ := step_unsubscribe.mp stepped
      simp [(remove_spec steady.inside removed).2.2.2.1, idle] at member
  | receive receiver =>
      obtain ⟨m, rest, received, -, rfl⟩ := step_receive.mp stepped
      exact ⟨rfl, .inl ⟨y, member, rfl, rfl, Nat.le_refl _, by simp⟩⟩
  | publish call eventType payload =>
      obtain ⟨fresh, rfl⟩ := step_publish.mp stepped
      refine ⟨rfl, ?_⟩
      cases List.mem_cons.mp member with
      | inl new => exact .inr (new ▸ ⟨fresh, eventType, payload, rfl, rfl⟩)
      | inr old => exact .inl ⟨y, old, rfl, rfl, Nat.le_refl _, by simp⟩
  | send call =>
      obtain ⟨x, target, -, -, rfl⟩ := step_send.mp stepped
      obtain ⟨z, old, rfl⟩ := List.mem_map.mp member
      refine ⟨rfl, .inl ⟨z, old, ?_⟩⟩
      simp only [advance]
      split
      · exact ⟨rfl, rfl, Nat.le_succ _, by simp⟩
      · exact ⟨rfl, rfl, Nat.le_refl _, by simp⟩
  | finish call =>
      obtain ⟨x, -, -, rfl⟩ := step_finish.mp stepped
      obtain ⟨old, other⟩ := List.mem_filter.mp member
      refine ⟨rfl, .inl ⟨y, old, rfl, rfl, Nat.le_refl _, ?_⟩⟩
      grind

theorem started_step (stepped : b.step newest = some b') {call : ι} (begun : call ∈ b.started) :
    call ∈ b'.started := by
  cases newest with
  | subscribe added =>
      obtain ⟨-, rfl⟩ := step_subscribe.mp stepped
      exact begun
  | unsubscribe removed =>
      obtain ⟨-, rfl⟩ := step_unsubscribe.mp stepped
      unfold remove
      split <;> exact begun
  | receive receiver =>
      obtain ⟨m, rest, received, -, rfl⟩ := step_receive.mp stepped
      exact begun
  | publish other eventType payload =>
      obtain ⟨-, rfl⟩ := step_publish.mp stepped
      exact List.mem_cons_of_mem _ begun
  | send other =>
      obtain ⟨x, target, -, -, rfl⟩ := step_send.mp stepped
      exact begun
  | finish other =>
      obtain ⟨x, -, -, rfl⟩ := step_finish.mp stepped
      exact begun

theorem registered_step (registered : Registered labels b) (stepped : b.step newest = some b') :
    Registered (labels ++ [newest]) b' := by
  have steady := registered.steady
  refine ⟨steady_step steady stepped, ?_, ?_, ?_⟩
  · intro channel
    rw [mem_listeners_step steady stepped, registered.known, subscribed_concat]
  · intro y member channel listening
    obtain ⟨same, old | ⟨-, eventType, payload, began, data⟩⟩ := publishers_step steady stepped member
    · obtain ⟨x, earlier, call, data, -⟩ := old
      rw [same] at listening
      have addressed := registered.addressed x earlier channel listening
      rw [call, data] at addressed
      exact addressed_concat.mpr (.inl addressed)
    · rw [same, registered.known] at listening
      exact addressed_concat.mpr (.inr ⟨⟨eventType, payload, began, data⟩, listening⟩)
  · intro call finished
    rw [List.mem_append, List.mem_singleton] at finished
    constructor
    · refine started_step stepped ?_
      cases finished with
      | inl before => exact (registered.ended call before).1
      | inr now =>
          subst now
          obtain ⟨x, found, -⟩ := step_finish.mp stepped
          obtain ⟨member, named⟩ := publisher_some found
          exact named ▸ steady.begun x member
    · intro y member named
      obtain ⟨-, ⟨x, earlier, call', -, -, open_⟩ | ⟨fresh, eventType, payload, began, -⟩⟩ :=
        publishers_step steady stepped member
      · cases finished with
        | inl before => exact (registered.ended call before).2 x earlier (call'.trans named)
        | inr now => exact open_ (by rw [call', named, ← now])
      · cases finished with
        | inl before => exact fresh (named ▸ (registered.ended call before).1)
        | inr now => cases now.trans began

/-! ## The events of one channel -/

/-- The events that went into the channel, each one with the call it comes from. -/
structure Delivered (labels : List (BusLabel ι κ)) (channel : κ) (b : EventBus ι κ) : Prop where
  room : ∀ c, b.channels channel = some c → c.buffer.length ≤ capacity
  origin : ∀ m ∈ b.stream channel, Addressed labels m channel ∧ m.call ∈ b.started
  passed : ∀ m ∈ b.stream channel, ∀ x ∈ b.publishers, x.call = m.call → channel ∈ b.listeners.take x.next
  once : ((b.stream channel).map Message.call).Nodup
  order : (b.stream channel).Pairwise fun m m' => ¬Precedes labels m'.call m.call
  loss : ∀ m, Addressed labels m channel →
    m ∈ b.stream channel ∨ Overflowed labels m.call channel ∨
      ∃ x ∈ b.publishers, x.call = m.call ∧ x.data = m.data ∧ channel ∈ b.listeners.drop x.next

omit [DecidableEq ι] [DecidableEq κ] in
theorem stream_congr (same : b'.channels channel = b.channels channel) : b'.stream channel = b.stream channel := by
  rw [stream, stream, same]

/-- Only a send to the channel adds to what went into it, and only where there is room. -/
theorem stream_step (steady : Steady b) (stepped : b.step newest = some b') (channel : κ) :
    (b'.stream channel = b.stream channel ∧ ∀ call, newest = .send call → b.target call = some channel →
      ∃ c, b.channels channel = some c ∧ capacity ≤ c.buffer.length) ∨
    ∃ call x, newest = .send call ∧ b.publisher call = some x ∧ b.target call = some channel ∧
      b'.stream channel = b.stream channel ++ [⟨call, x.data⟩] := by
  cases newest with
  | subscribe added =>
      obtain ⟨⟨-, fresh⟩, rfl⟩ := step_subscribe.mp stepped
      refine .inl ⟨?_, by simp⟩
      by_cases same : channel = added
      · simp [stream, append, same, fresh, Channel.new]
      · exact stream_congr (Function.update_of_ne same _ _)
  | unsubscribe removed =>
      obtain ⟨-, rfl⟩ := step_unsubscribe.mp stepped
      exact .inl ⟨stream_congr (by rw [(remove_spec steady.inside removed).2.2.1]), by simp⟩
  | receive receiver =>
      obtain ⟨m, rest, received, here, rfl⟩ := step_receive.mp stepped
      refine .inl ⟨?_, by simp⟩
      by_cases same : channel = receiver
      · simp [stream, same, here]
      · exact stream_congr (Function.update_of_ne same _ _)
  | publish call eventType payload =>
      obtain ⟨-, rfl⟩ := step_publish.mp stepped
      exact .inl ⟨rfl, by simp⟩
  | send call =>
      obtain ⟨x, target, found, aim, rfl⟩ := step_send.mp stepped
      by_cases same : channel = target
      · subst same
        obtain ⟨_, -, -, listening⟩ := target_some steady aim
        obtain ⟨c, made⟩ := Option.ne_none_iff_exists'.mp (steady.made channel (List.mem_of_getElem? listening))
        by_cases room : c.buffer.length < capacity
        · refine .inr ⟨call, x, rfl, found, aim, ?_⟩
          simp [stream, made, Channel.offer, room]
        · refine .inl ⟨?_, fun _ _ _ => ⟨c, made, Nat.le_of_not_lt room⟩⟩
          simp [stream, made, Channel.offer, room]
      · refine .inl ⟨stream_congr (Function.update_of_ne same _ _), ?_⟩
        rintro _ ⟨⟩ aim'
        rw [aim, Option.some.injEq] at aim'
        exact absurd aim'.symm same
  | finish call =>
      obtain ⟨x, -, -, rfl⟩ := step_finish.mp stepped
      exact .inl ⟨rfl, by simp⟩

theorem room_step (steady : Steady b) (stepped : b.step newest = some b')
    (room : ∀ c, b.channels channel = some c → c.buffer.length ≤ capacity) {c : Channel ι}
    (here : b'.channels channel = some c) : c.buffer.length ≤ capacity := by
  cases newest with
  | subscribe added =>
      obtain ⟨-, rfl⟩ := step_subscribe.mp stepped
      by_cases same : channel = added
      · simp only [append, same, Function.update_self, Option.some.injEq] at here
        subst here
        exact Nat.zero_le _
      · exact room c ((Function.update_of_ne same _ _).symm.trans here)
  | unsubscribe removed =>
      obtain ⟨-, rfl⟩ := step_unsubscribe.mp stepped
      exact room c ((remove_spec steady.inside removed).2.2.1 ▸ here)
  | receive receiver =>
      obtain ⟨m, rest, received, held, rfl⟩ := step_receive.mp stepped
      by_cases same : channel = receiver
      · subst same
        have before := room _ held
        simp only [Function.update_self, Option.some.injEq] at here
        subst here
        exact Nat.le_of_succ_le before
      · exact room c ((Function.update_of_ne same _ _).symm.trans here)
  | publish call eventType payload =>
      obtain ⟨-, rfl⟩ := step_publish.mp stepped
      exact room c here
  | send call =>
      obtain ⟨x, target, -, -, rfl⟩ := step_send.mp stepped
      by_cases same : channel = target
      · subst same
        simp only [Function.update_self, Option.map_eq_some_iff] at here
        obtain ⟨old, held, rfl⟩ := here
        have before := room old held
        rw [Channel.offer]
        split
        · rw [List.length_append, List.length_singleton]
          omega
        · exact before
      · exact room c ((Function.update_of_ne same _ _).symm.trans here)
  | finish call =>
      obtain ⟨x, -, -, rfl⟩ := step_finish.mp stepped
      exact room c here

/-- A channel that a loop has before it stays before it until the loop comes to it. -/
theorem pending_step (steady : Steady b) (stepped : b.step newest = some b') {x : Publisher ι}
    (member : x ∈ b.publishers) (ahead : channel ∈ b.listeners.drop x.next) :
    (newest = .send x.call ∧ b.target x.call = some channel) ∨
      ∃ y ∈ b'.publishers, y.call = x.call ∧ y.data = x.data ∧ channel ∈ b'.listeners.drop y.next := by
  cases newest with
  | subscribe added =>
      obtain ⟨⟨idle, -⟩, rfl⟩ := step_subscribe.mp stepped
      simp [idle] at member
  | unsubscribe removed =>
      obtain ⟨idle, rfl⟩ := step_unsubscribe.mp stepped
      simp [idle] at member
  | receive receiver =>
      obtain ⟨m, rest, received, -, rfl⟩ := step_receive.mp stepped
      exact .inr ⟨x, member, rfl, rfl, ahead⟩
  | publish call eventType payload =>
      obtain ⟨fresh, rfl⟩ := step_publish.mp stepped
      exact .inr ⟨x, List.mem_cons_of_mem _ member, rfl, rfl, ahead⟩
  | send call =>
      obtain ⟨x', target, found, aim, rfl⟩ := step_send.mp stepped
      by_cases own : x.call = call
      · subst own
        rw [steady.publisher member, Option.some.injEq] at found
        subst found
        obtain ⟨_, found, -, here⟩ := target_some steady aim
        rw [steady.publisher member, Option.some.injEq] at found
        subst found
        rw [List.drop_eq_getElem_cons (List.getElem?_eq_some_iff.mp here).1, List.mem_cons] at ahead
        cases ahead with
        | inl now =>
            rw [(List.getElem?_eq_some_iff.mp here).2] at now
            exact .inl ⟨rfl, now ▸ aim⟩
        | inr later =>
            refine .inr ⟨advance x.call x, List.mem_map_of_mem member, ?_⟩
            simp only [advance, if_true]
            exact ⟨trivial, trivial, later⟩
      · refine .inr ⟨x, List.mem_map.mpr ⟨x, member, by simp [advance, own]⟩, rfl, rfl, ahead⟩
  | finish call =>
      obtain ⟨x', found, done, rfl⟩ := step_finish.mp stepped
      refine .inr ⟨x, List.mem_filter.mpr ⟨member, ?_⟩, rfl, rfl, ahead⟩
      by_contra ends
      have own : x.call = call := by simpa using ends
      subst own
      rw [steady.publisher member, Option.some.injEq] at found
      subst found
      -- a loop that has ended has nothing before it
      have whole := (steady.loops x member).2
      rw [whole, ← length_listeners steady.inside] at done
      simp [List.drop_of_length_le done] at ahead

theorem delivered_nil (channel : κ) : Delivered ([] : List (BusLabel ι κ)) channel empty := by
  refine ⟨by simp [empty], by simp [stream, empty], by simp [stream, empty], List.nodup_nil, .nil, ?_⟩
  exact fun m impossible => absurd impossible sometime_nil

/-- The loop that sends to a channel is past it afterwards. -/
theorem passed_send (steady : Steady b) {call : ι} (stepped : b.step (.send call) = some b')
    (aim : b.target call = some channel) {y : Publisher ι} (member : y ∈ b'.publishers) (own : y.call = call) :
    channel ∈ b'.listeners.take y.next := by
  obtain ⟨x, target, found, -, rfl⟩ := step_send.mp stepped
  obtain ⟨_, found', -, here⟩ := target_some steady aim
  rw [found, Option.some.injEq] at found'
  subst found'
  obtain ⟨z, old, rfl⟩ := List.mem_map.mp member
  have named : z.call = call := by
    simp only [advance] at own
    split at own <;> exact own
  have same := steady.publisher old
  rw [named, found, Option.some.injEq] at same
  subst same
  simp only [advance, named, if_true]
  change channel ∈ b.listeners.take (x.next + 1)
  rw [List.take_add_one, here]
  exact List.mem_append_right _ (List.mem_singleton.mpr rfl)

theorem passed_step (steady : Steady b) (delivered : Delivered labels channel b)
    (stepped : b.step newest = some b') {m : Message ι} (old : m ∈ b.stream channel) {y : Publisher ι}
    (member : y ∈ b'.publishers) (own : y.call = m.call) : channel ∈ b'.listeners.take y.next := by
  obtain ⟨same, ⟨x, earlier, call, -, further, -⟩ | ⟨fresh, -⟩⟩ := publishers_step steady stepped member
  · rw [same]
    have passed := delivered.passed m old x earlier (call.trans own)
    exact List.take_subset_take_left _ further passed
  · exact absurd (own ▸ (delivered.origin m old).2) fresh

omit [DecidableEq ι] [DecidableEq κ] in
/-- A call that has begun before does not come later than a call that ends now. -/
theorem not_precedes_step (fresh : ∀ call eventType payload, newest = .publish call eventType payload → call ∉ b.started)
    {earlier later : ι} (begun : later ∈ b.started) (before : ¬Precedes labels earlier later) :
    ¬Precedes (labels ++ [newest]) earlier later := by
  intro now
  rcases precedes_concat.mp now with already | ⟨⟨eventType, payload, new⟩, -⟩
  · exact before already
  · exact fresh later eventType payload new begun

theorem loss_step (registered : Registered labels b) (delivered : Delivered labels channel b)
    (reached : run labels = some b) (stepped : b.step newest = some b') {m : Message ι}
    (addressed : Addressed (labels ++ [newest]) m channel) :
    m ∈ b'.stream channel ∨ Overflowed (labels ++ [newest]) m.call channel ∨
      ∃ x ∈ b'.publishers, x.call = m.call ∧ x.data = m.data ∧ channel ∈ b'.listeners.drop x.next := by
  have steady := registered.steady
  have outcome := stream_step steady stepped channel
  rcases addressed_concat.mp addressed with before | ⟨⟨eventType, payload, rfl, data⟩, subscribed⟩
  · rcases delivered.loss m before with there | overflowed | ⟨x, member, call, data, ahead⟩
    · left
      rcases outcome with ⟨same, -⟩ | ⟨_, _, -, -, -, grown⟩
      · rw [same]
        exact there
      · rw [grown]
        exact List.mem_append_left _ there
    · exact .inr (.inl (sometime_concat.mpr (.inl overflowed)))
    · rcases pending_step steady stepped member ahead with ⟨rfl, aim⟩ | ⟨y, later, call', data', ahead⟩
      · rcases outcome with ⟨-, full⟩ | ⟨own, x', sent, found, -, grown⟩
        · obtain ⟨c, here, full⟩ := full x.call rfl aim
          have length := Nat.le_antisymm (delivered.room c here) full
          rw [call] at aim ⊢
          exact .inr (.inl (sometime_concat.mpr (.inr ⟨rfl, b, c, reached, aim, here, length⟩)))
        · cases sent
          rw [steady.publisher member, Option.some.injEq] at found
          rw [grown, ← found, call, data]
          exact .inl (List.mem_append_right _ (List.mem_singleton.mpr rfl))
      · exact .inr (.inr ⟨y, later, call'.trans call, data'.trans data, ahead⟩)
  · obtain ⟨-, rfl⟩ := step_publish.mp stepped
    exact .inr (.inr ⟨_, List.mem_cons_self, rfl, data.symm, (registered.known channel).mpr subscribed⟩)

theorem delivered_step (registered : Registered labels b) (delivered : Delivered labels channel b)
    (reached : run labels = some b) (stepped : b.step newest = some b') :
    Delivered (labels ++ [newest]) channel b' := by
  have steady := registered.steady
  have origin : ∀ m ∈ b.stream channel, Addressed (labels ++ [newest]) m channel ∧ m.call ∈ b'.started := by
    intro m old
    obtain ⟨addressed, begun⟩ := delivered.origin m old
    exact ⟨addressed_concat.mpr (.inl addressed), started_step stepped begun⟩
  have order : (b.stream channel).Pairwise fun m m' => ¬Precedes (labels ++ [newest]) m'.call m.call := by
    refine delivered.order.imp_of_mem fun member _ before => ?_
    refine not_precedes_step (fun call eventType payload new => ?_) (delivered.origin _ member).2 before
    subst new
    exact (step_publish.mp stepped).1
  have room : ∀ c, b'.channels channel = some c → c.buffer.length ≤ capacity :=
    fun c here => room_step steady stepped delivered.room here
  rcases stream_step steady stepped channel with ⟨same, -⟩ | ⟨call, x, rfl, found, aim, grown⟩
  · refine ⟨room, ?_, ?_, ?_, ?_, fun m => loss_step registered delivered reached stepped⟩
    · rw [same]
      exact origin
    · rw [same]
      exact fun m old y member own => passed_step steady delivered stepped old member own
    · rw [same]
      exact delivered.once
    · rw [same]
      exact order
  · obtain ⟨member, named⟩ := publisher_some found
    obtain ⟨_, found', -, here⟩ := target_some steady aim
    rw [found, Option.some.injEq] at found'
    subst found'
    have listening : channel ∈ b.listeners := List.mem_of_getElem? here
    -- the loop comes to each listener once
    have first : ∀ m ∈ b.stream channel, m.call ≠ call := by
      intro m old same
      have passed := delivered.passed m old x member (named.trans same.symm)
      obtain ⟨i, small, place⟩ := List.mem_take_iff_getElem.mp passed
      have twice := steady.distinct.getElem_inj_iff.mp (place.trans (List.getElem?_eq_some_iff.mp here).2.symm)
      omega
    refine ⟨room, ?_, ?_, ?_, ?_, fun m => loss_step registered delivered reached stepped⟩
    · intro m inside
      rw [grown, List.mem_append, List.mem_singleton] at inside
      rcases inside with old | rfl
      · exact origin m old
      · have addressed := registered.addressed x member channel listening
        rw [named] at addressed
        exact ⟨addressed_concat.mpr (.inl addressed),
          started_step stepped (named ▸ steady.begun x member)⟩
    · intro m inside y member own
      rw [grown, List.mem_append, List.mem_singleton] at inside
      rcases inside with old | rfl
      · exact passed_step steady delivered stepped old member own
      · exact passed_send steady stepped aim member own
    · rw [grown, List.map_append, List.nodup_append]
      refine ⟨delivered.once, List.nodup_singleton _, ?_⟩
      intro other old last new same
      obtain ⟨m, inside, rfl⟩ := List.mem_map.mp old
      exact first m inside (same.trans (List.mem_singleton.mp new))
    · rw [grown, List.pairwise_append]
      refine ⟨order, List.pairwise_singleton _ _, ?_⟩
      intro m old last new precedes
      rw [List.mem_singleton.mp new] at precedes
      -- the call that sends has not returned
      have finished := finished_of_precedes precedes
      rw [List.mem_append, List.mem_singleton] at finished
      rcases finished with before | now
      · exact (registered.ended call before).2 x member named
      · cases now

theorem run_registered (reached : run labels = some b) : Registered labels b := by
  induction labels using List.reverseRecOn generalizing b with
  | nil =>
      rw [run_nil, Option.some.injEq] at reached
      exact reached ▸ registered_nil
  | append_singleton labels newest ih =>
      rw [run_concat, Option.bind_eq_some_iff] at reached
      obtain ⟨before, earlier, stepped⟩ := reached
      exact registered_step (ih earlier) stepped

theorem run_delivered (reached : run labels = some b) (channel : κ) : Delivered labels channel b := by
  induction labels using List.reverseRecOn generalizing b with
  | nil =>
      rw [run_nil, Option.some.injEq] at reached
      exact reached ▸ delivered_nil channel
  | append_singleton labels newest ih =>
      rw [run_concat, Option.bind_eq_some_iff] at reached
      obtain ⟨before, earlier, stepped⟩ := reached
      exact delivered_step (run_registered earlier) (ih earlier) earlier stepped

end EventBus

end OpencodeRemote.Stub
