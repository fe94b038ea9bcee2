import OpencodeRemote.Cli.Options

/-! # The algebra of the edits

What sequences of edits come to, on documents with options of the documented shape: for each
host of each provider the last edit counts, and everything else is left alone.
-/

namespace OpencodeRemote.Cli

open Python Data

/-! ## Documents -/

/-- The options in the plugin's entry. -/
def optionsOf (data : Value) : Option Fields :=
  match pluginEntry data with
  | some (_ :: .dict options :: _) => some options
  | _ => none

theorem firstEntry_split {entries items : List Value} (found : firstEntry entries = some items) :
    ∃ before after, entries = before ++ .list items :: after ∧ (∀ entry ∈ before, isEntry entry = false) ∧
      isEntry (.list items) = true := by
  fun_induction firstEntry entries with
  | case1 => cases found
  | case2 target more rest own =>
      cases found
      exact ⟨[], rest, rfl, by simp, own⟩
  | case3 target more rest other ih =>
      obtain ⟨before, after, rfl, none, own⟩ := ih found
      refine ⟨.list (target :: more) :: before, after, rfl, List.forall_mem_cons.mpr ⟨?_, none⟩, own⟩
      simpa [isEntry] using other
  | case4 entry rest other ih =>
      obtain ⟨before, after, rfl, none, own⟩ := ih found
      exact ⟨entry :: before, after, rfl, List.forall_mem_cons.mpr ⟨not_isEntry other, none⟩, own⟩

theorem firstEntry_skip {entry : Value} (other : isEntry entry = false) (rest : List Value) :
    firstEntry (entry :: rest) = firstEntry rest := by
  cases entry with
  | list items =>
      cases items with
      | nil => rfl
      | cons target more =>
          rw [isEntry] at other
          rw [firstEntry, other, if_neg Bool.false_ne_true]
  | _ => rfl

theorem firstEntry_own {items : List Value} (own : isEntry (.list items) = true) (rest : List Value) :
    firstEntry (.list items :: rest) = some items := by
  cases items with
  | nil => cases own
  | cons target more =>
      rw [isEntry] at own
      rw [firstEntry, if_pos own]

theorem firstEntry_append {before after items : List Value} (none : ∀ entry ∈ before, isEntry entry = false)
    (own : isEntry (.list items) = true) : firstEntry (before ++ .list items :: after) = some items := by
  induction before with
  | nil => exact firstEntry_own own after
  | cons entry rest ih =>
      obtain ⟨here, later⟩ := List.forall_mem_cons.mp none
      rw [List.cons_append, firstEntry_skip here, ih later]

theorem replaceFirst_append {before after items edited : List Value}
    (none : ∀ entry ∈ before, isEntry entry = false) (own : isEntry (.list items) = true) :
    replaceFirst edited (before ++ .list items :: after) = before ++ .list edited :: after := by
  induction before with
  | nil => rw [List.nil_append, replaceFirst, if_pos own, List.nil_append]
  | cons entry rest ih =>
      obtain ⟨here, later⟩ := List.forall_mem_cons.mp none
      rw [List.cons_append, replaceFirst, here, if_neg Bool.false_ne_true, ih later, List.cons_append]

/-- Where the plugin's entry stands: it is the first of its kind among the entries. -/
structure Located (fields : Fields) (before items after : List Value) : Prop where
  stored : fields.find (lit "plugin") = some (.list (before ++ .list items :: after))
  first : ∀ entry ∈ before, isEntry entry = false
  own : isEntry (.list items) = true

theorem located_of_pluginEntry {data : Value} {items : List Value} (found : pluginEntry data = some items) :
    ∃ fields before after, data = .dict fields ∧ Located fields before items after := by
  obtain ⟨fields, entries, rfl, value, entry⟩ := pluginEntry_some found
  obtain ⟨before, after, rfl, first, own⟩ := firstEntry_split entry
  refine ⟨fields, before, after, rfl, ?_, first, own⟩
  cases stored : Fields.find fields (lit "plugin") with
  | none =>
      rw [Fields.get, stored, Option.getD_none, Value.list.injEq] at value
      exact absurd value.symm (List.append_ne_nil_of_right_ne_nil before (List.cons_ne_nil _ _))
  | some other => rw [← value, Fields.get, stored, Option.getD_some]

namespace Located

variable {fields : Fields} {before items after : List Value} (located : Located fields before items after)

include located

theorem pluginEntry : pluginEntry (.dict fields) = some items := by
  rw [Cli.pluginEntry, Fields.get, located.stored, Option.getD_some]
  exact firstEntry_append located.first located.own

theorem replaceEntry (edited : List Value) : replaceEntry edited (.dict fields) =
    .dict (fields.setItem (lit "plugin") (.list (before ++ .list edited :: after))) := by
  rw [Cli.replaceEntry, Fields.get, located.stored, Option.getD_some]
  dsimp only
  rw [replaceFirst_append located.first located.own]

end Located

/-- A document taken apart around the options in the plugin's entry. -/
structure Frame where
  fields : Fields
  before : List Value
  name : Value
  more : List Value
  after : List Value
  first : ∀ entry ∈ before, isEntry entry = false
  own : name.isStr pluginName = true

namespace Frame

/-- The document with these options. -/
def document (frame : Frame) (options : Fields) : Value :=
  .dict (frame.fields.setItem (lit "plugin")
    (.list (frame.before ++ .list (frame.name :: .dict options :: frame.more) :: frame.after)))

variable (frame : Frame) (options : Fields)

theorem located : Located
    (frame.fields.setItem (lit "plugin")
      (.list (frame.before ++ .list (frame.name :: .dict options :: frame.more) :: frame.after)))
    frame.before (frame.name :: .dict options :: frame.more) frame.after :=
  ⟨Fields.find_setItem_self .., frame.first, frame.own⟩

/-- On options of the documented shape an edit does not fail, and it stays within the frame. -/
theorem apply_document {options : Fields} (documented : Documented options) (edit : Edit) :
    edit.apply (frame.document options) = .ok (frame.document (edit.applyTo options)) := by
  have located := frame.located options
  rw [Edit.apply, document, editDocument_eq located.pluginEntry, program_eq documented, Except.map,
    located.replaceEntry, setItem_setItem, document]

end Frame

/-- Every document with options has a frame. -/
theorem framed {data : Value} {options : Fields} (found : optionsOf data = some options) :
    ∃ frame : Frame, data = frame.document options := by
  rw [optionsOf] at found
  split at found
  · rename_i name _ more entry
    cases found
    obtain ⟨fields, before, after, rfl, located⟩ := located_of_pluginEntry entry
    refine ⟨⟨fields, before, name, more, after, located.first, located.own⟩, ?_⟩
    rw [Frame.document, Fields.setItem_eq_self located.stored]
  · cases found

/-! ## Sequences -/

/-- The edits that change the hosts of a provider, as replacements. -/
def replacements (provider : Str) (edits : List Edit) : List (Replacement isNamed) :=
  (edits.filter fun edit => edit.provider = provider).map Edit.replacement

def applyAllTo (edits : List Edit) (options : Fields) : Fields :=
  edits.foldl (fun options edit => edit.applyTo options) options

theorem Documented.applyAllTo {options : Fields} (documented : Documented options) (edits : List Edit) :
    Documented (applyAllTo edits options) := by
  induction edits generalizing options with
  | nil => exact documented
  | cons first rest ih => exact ih (documented.applyTo first)

/-- To the hosts of a provider, a sequence of edits is one of replacements. -/
theorem hostsIn_applyAllTo (edits : List Edit) (options : Fields) (provider : Str) :
    hostsIn (applyAllTo edits options) provider =
      Replacement.applyAll (replacements provider edits) (hostsIn options provider) := by
  induction edits generalizing options with
  | nil => rfl
  | cons first rest ih =>
      refine (ih (first.applyTo options)).trans ?_
      rw [hostsIn_applyTo]
      by_cases own : first.provider = provider
      · rw [if_pos own.symm, replacements, replacements, List.filter_cons_of_pos (by simpa using own)]
        rfl
      · rw [if_neg (Ne.symm own), replacements, replacements, List.filter_cons_of_neg (by simpa using own)]

theorem configOf_applyAllTo {edits : List Edit} {provider : Str}
    (others : ∀ edit ∈ edits, edit.provider ≠ provider) (options : Fields) :
    configOf (applyAllTo edits options) provider = configOf options provider := by
  induction edits generalizing options with
  | nil => rfl
  | cons first rest ih =>
      obtain ⟨here, later⟩ := List.forall_mem_cons.mp others
      exact (ih later (first.applyTo options)).trans (configOf_applyTo_of_ne options first (Ne.symm here))

/-- The last edit of a host. -/
def lastEdit (provider host : Str) (edits : List Edit) : Option Edit :=
  edits.reverse.find? fun edit => edit.provider = provider && edit.host = host

theorem latest_replacements (provider host : Str) (edits : List Edit) :
    Replacement.latest host (replacements provider edits) =
      (lastEdit provider host edits).map Edit.replacement := by
  rw [Replacement.latest, replacements, lastEdit, ← List.map_reverse, ← List.filter_reverse, List.find?_map,
    List.find?_filter]
  refine congrArg (Option.map _) (congrArg (List.find? · _) (funext fun edit => ?_))
  rw [Bool.decide_and, Bool.decide_eq_true, Bool.decide_eq_true]
  rfl

/-- What a sequence of edits makes of a document. `hosts` and `hosts'` are those of the providers
    before and after. -/
structure Outcome (edits : List Edit) (options options' : Fields) : Prop where
  /-- Of each host that was edited, what the last edit says is left: one entry or none. -/
  last : ∀ provider host edit, lastEdit provider host edits = some edit →
    (hostsIn options' provider).filter (isNamed host) = edit.entry.toList
  /-- Each host that was not edited keeps its entries. -/
  kept : ∀ provider host, lastEdit provider host edits = none →
    (hostsIn options' provider).filter (isNamed host) = (hostsIn options provider).filter (isNamed host)
  /-- All of a provider's hosts that were not edited keep their order. -/
  order : ∀ provider, ((hostsIn options' provider).filter fun item => edits.all fun edit =>
      edit.provider ≠ provider || !isNamed edit.host item) =
    (hostsIn options provider).filter fun item => edits.all fun edit =>
      edit.provider ≠ provider || !isNamed edit.host item
  /-- Each provider without edited hosts is the same. -/
  others : ∀ provider, (∀ edit ∈ edits, edit.provider ≠ provider) →
    configOf options' provider = configOf options provider

theorem outcome_applyAllTo (edits : List Edit) (options : Fields) :
    Outcome edits options (applyAllTo edits options) where
  last provider host edit found := by
    rw [hostsIn_applyAllTo, Replacement.filter_applyAll isNamed_unique, latest_replacements, found]
    rfl
  kept provider host found := by
    rw [hostsIn_applyAllTo, Replacement.filter_applyAll isNamed_unique, latest_replacements, found]
    rfl
  order provider := by
    rw [hostsIn_applyAllTo]
    refine Replacement.filter_applyAll_of_disjoint (fun replacement member item untouched => ?_) _
    obtain ⟨edit, chosen, rfl⟩ := List.mem_map.mp member
    obtain ⟨inside, own⟩ := List.mem_filter.mp chosen
    have free := List.all_eq_true.mp untouched edit inside
    simp only [decide_eq_true_eq] at own
    have same : edit.replacement.name = edit.host := rfl
    rw [same]
    simpa [own] using free
  others provider none := configOf_applyAllTo none options

/-- The Python programs of a sequence of commands, one after another. -/
def applyAll (edits : List Edit) (data : Value) : Except Exception Value :=
  edits.foldlM (fun data edit => edit.apply data) data

theorem Frame.applyAll_document (frame : Frame) {options : Fields} (documented : Documented options)
    (edits : List Edit) :
    applyAll edits (frame.document options) = .ok (frame.document (applyAllTo edits options)) := by
  induction edits generalizing options with
  | nil => rfl
  | cons first rest ih =>
      rw [applyAll, List.foldlM_cons, frame.apply_document documented, ok_bind]
      exact ih (documented.applyTo first)

/-- The edits obey their algebra on every document with options of the documented shape. -/
theorem edits_obey_algebra {data : Value} {options : Fields} (found : optionsOf data = some options)
    (documented : Documented options) :
    (∀ provider host sshHost user port identity,
      applyAll [.add provider host sshHost user port identity, .add provider host sshHost user port identity]
          data = applyAll [.add provider host sshHost user port identity] data) ∧
    (∀ provider host sshHost user port identity, ∃ frame : Frame, data = frame.document options ∧
      applyAll [.add provider host sshHost user port identity, .remove provider host] data =
        applyAll [.remove provider host] (frame.document (ensured provider options))) ∧
    ∀ edits, ∃ (frame : Frame) (options' : Fields), data = frame.document options ∧
      applyAll edits data = .ok (frame.document options') ∧ Documented options' ∧
      Outcome edits options options' := by
  obtain ⟨frame, rfl⟩ := framed found
  refine ⟨fun provider host sshHost user port identity => ?_, fun provider host sshHost user port identity => ?_,
    fun edits => ?_⟩
  · rw [frame.applyAll_document documented, frame.applyAll_document documented]
    exact congrArg (fun options => Except.ok (frame.document options)) (add_add rfl options)
  · refine ⟨frame, rfl, ?_⟩
    rw [frame.applyAll_document documented, frame.applyAll_document (documented.ensured provider)]
    exact congrArg (fun options => Except.ok (frame.document options))
      (remove_add documented provider host sshHost user port identity)
  · exact ⟨frame, applyAllTo edits options, rfl, frame.applyAll_document documented edits,
      documented.applyAllTo edits, outcome_applyAllTo edits options⟩

/-- A configuration with another plugin beside this one, and a provider without hosts. -/
def twoPlugins : Value := .dict [(lit "model", .str (lit "m")), (lit "plugin", .list [.str (lit "other"),
  .list [.str pluginName, .dict [(lit "providers", .dict [(lit "lab", .dict [])])]]])]

/-- A host is added to it twice. -/
theorem add_twice_to_two_plugins :
    applyAll [.add (lit "lab") (lit "web") (lit "10.0.0.2") (lit "ops") 22 [],
        .add (lit "lab") (lit "web") (lit "10.0.0.2") (lit "ops") 22 []] twoPlugins =
      applyAll [.add (lit "lab") (lit "web") (lit "10.0.0.2") (lit "ops") 22 []] twoPlugins := by
  have documented : Documented [(lit "providers", .dict [(lit "lab", .dict [])])] := by
    refine ⟨⟨_, rfl⟩, fun provider value stored => ?_⟩
    have stored : Fields.find (Fields.setItem [] (lit "lab") (.dict [])) provider = some value := stored
    rw [Fields.find_setItem] at stored
    split at stored
    · cases stored
      exact ⟨[], [], rfl, rfl, by simp⟩
    · cases stored
  exact (@edits_obey_algebra twoPlugins _ rfl documented).1 ..

end OpencodeRemote.Cli
