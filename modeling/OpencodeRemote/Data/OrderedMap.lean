import Mathlib.Data.List.Nodup
import Mathlib.Data.List.Dedup

/-! # Insertion-ordered finite maps

Writing an existing key keeps its place, a new key goes to the end and enumeration is in
insertion order, as in JavaScript's `Map`. A map whose iteration order is left to the
implementation is the same map walked by `range`, which takes the order as an argument:
every order of the keys is reached and each key is visited once.
-/

namespace OpencodeRemote.Data

structure OrderedMap (κ ν : Type) where
  entries : List (κ × ν)
  keysNodup : (entries.map Prod.fst).Nodup
  deriving DecidableEq

namespace OrderedMap

variable {κ ν : Type} [DecidableEq κ]

def empty : OrderedMap κ ν := ⟨[], List.nodup_nil⟩

def get (m : OrderedMap κ ν) (k : κ) : Option ν := m.entries.lookup k

def keys (m : OrderedMap κ ν) : List κ := m.entries.map Prod.fst

def values (m : OrderedMap κ ν) : List ν := m.entries.map Prod.snd

def writeEntry (k : κ) (v : ν) : List (κ × ν) → List (κ × ν)
  | [] => [(k, v)]
  | entry :: rest => if entry.1 = k then (k, v) :: rest else entry :: writeEntry k v rest

private theorem mem_keys_writeEntry {k k' : κ} {v : ν} {entries : List (κ × ν)} :
    k' ∈ (writeEntry k v entries).map Prod.fst ↔ k' = k ∨ k' ∈ entries.map Prod.fst := by
  induction entries with
  | nil => simp [writeEntry]
  | cons entry rest ih =>
      by_cases same : entry.1 = k
      · simp [writeEntry, same]
      · simp only [writeEntry, same, if_false, List.map_cons, List.mem_cons, ih]
        tauto

private theorem writeEntry_nodup {k : κ} {v : ν} {entries : List (κ × ν)}
    (nodup : (entries.map Prod.fst).Nodup) : ((writeEntry k v entries).map Prod.fst).Nodup := by
  induction entries with
  | nil => simp [writeEntry]
  | cons entry rest ih =>
      obtain ⟨absent, tail⟩ := List.nodup_cons.mp nodup
      by_cases same : entry.1 = k
      · simpa [writeEntry, same] using nodup
      · simp only [writeEntry, same, if_false, List.map_cons, List.nodup_cons]
        refine ⟨fun member => ?_, ih tail⟩
        cases mem_keys_writeEntry.mp member with
        | inl equal => exact same equal
        | inr older => exact absent older

def set (m : OrderedMap κ ν) (k : κ) (v : ν) : OrderedMap κ ν :=
  ⟨writeEntry k v m.entries, writeEntry_nodup m.keysNodup⟩

def erase (m : OrderedMap κ ν) (k : κ) : OrderedMap κ ν :=
  ⟨m.entries.filter fun entry => entry.1 ≠ k,
    m.keysNodup.sublist (List.filter_sublist.map Prod.fst)⟩

/-- Drop every entry whose key satisfies `p`. -/
def eraseAll (m : OrderedMap κ ν) (p : κ → Bool) : OrderedMap κ ν :=
  ⟨m.entries.filter fun entry => !p entry.1,
    m.keysNodup.sublist (List.filter_sublist.map Prod.fst)⟩

/-- The entries in an order chosen from outside: first the keys of `order`, as far as
    they are there, then the others. -/
def range (m : OrderedMap κ ν) (order : List κ) : List (κ × ν) :=
  order.dedup.filterMap (fun k => (m.get k).map fun v => (k, v)) ++
    m.entries.filter fun entry => entry.1 ∉ order

@[simp] theorem get_empty (k : κ) : (empty : OrderedMap κ ν).get k = none := rfl

theorem lookup_writeEntry (k k' : κ) (v : ν) (entries : List (κ × ν)) :
    (writeEntry k v entries).lookup k' = if k' = k then some v else entries.lookup k' := by
  induction entries with
  | nil => by_cases same : k' = k <;> simp [writeEntry, List.lookup_cons, same, beq_false_of_ne]
  | cons entry rest ih =>
      obtain ⟨key, value⟩ := entry
      by_cases same : key = k
      · subst same
        by_cases here : k' = key <;> simp [writeEntry, List.lookup_cons, here, beq_false_of_ne]
      · simp only [writeEntry, same, if_false, List.lookup_cons, ih]
        by_cases here : k' = key
        · subst here
          simp [same]
        · simp [beq_false_of_ne here]

theorem get_set (m : OrderedMap κ ν) (k k' : κ) (v : ν) :
    (m.set k v).get k' = if k' = k then some v else m.get k' :=
  lookup_writeEntry k k' v m.entries

@[simp] theorem get_set_self (m : OrderedMap κ ν) (k : κ) (v : ν) :
    (m.set k v).get k = some v := by simp [get_set]

theorem get_set_ne (m : OrderedMap κ ν) {k k' : κ} (v : ν) (different : k' ≠ k) :
    (m.set k v).get k' = m.get k' := by simp [get_set, different]

theorem writeEntry_eq_self {k : κ} {v : ν} {entries : List (κ × ν)}
    (stored : entries.lookup k = some v) : writeEntry k v entries = entries := by
  induction entries with
  | nil => cases stored
  | cons entry rest ih =>
      obtain ⟨key, value⟩ := entry
      by_cases same : key = k
      · subst same
        simp only [List.lookup_cons_self, Option.some.injEq] at stored
        simp [writeEntry, stored]
      · have other : (k == key) = false := beq_false_of_ne (Ne.symm same)
        rw [List.lookup_cons, other] at stored
        simp [writeEntry, same, ih stored]

theorem writeEntry_writeEntry (k : κ) (first second : ν) (entries : List (κ × ν)) :
    writeEntry k second (writeEntry k first entries) = writeEntry k second entries := by
  induction entries with
  | nil => simp [writeEntry]
  | cons entry rest ih =>
      by_cases same : entry.1 = k
      · simp [writeEntry, same]
      · simp [writeEntry, same, ih]

/-- A write changes nothing exactly when it writes what is there. -/
theorem set_eq_self (m : OrderedMap κ ν) {k : κ} {v : ν} : m.set k v = m ↔ m.get k = some v := by
  constructor
  · intro same
    rw [← same, get_set_self]
  · intro stored
    obtain ⟨entries, nodup⟩ := m
    simp only [set, mk.injEq]
    exact writeEntry_eq_self stored

private theorem lookup_filter (p : κ → Bool) (k : κ) (entries : List (κ × ν)) :
    (entries.filter fun entry => p entry.1).lookup k =
      if p k then entries.lookup k else none := by
  induction entries with
  | nil => simp
  | cons entry rest ih =>
      obtain ⟨key, value⟩ := entry
      by_cases here : k = key
      · subst here
        by_cases kept : p k = true
        · simp [kept]
        · simp [kept, ih]
      · by_cases kept : p key = true
        · simp [kept, List.lookup_cons, ih, beq_false_of_ne here]
        · simp [kept, List.lookup_cons, ih, beq_false_of_ne here]

theorem get_erase (m : OrderedMap κ ν) (k k' : κ) :
    (m.erase k).get k' = if k' = k then none else m.get k' := by
  have kept := lookup_filter (fun key => decide (key ≠ k)) k' m.entries
  by_cases same : k' = k
  · simpa [erase, get, same] using kept
  · simpa [erase, get, same] using kept

@[simp] theorem get_erase_self (m : OrderedMap κ ν) (k : κ) : (m.erase k).get k = none := by
  simp [get_erase]

theorem get_erase_ne (m : OrderedMap κ ν) {k k' : κ} (different : k' ≠ k) :
    (m.erase k).get k' = m.get k' := by simp [get_erase, different]

theorem get_eraseAll (m : OrderedMap κ ν) (p : κ → Bool) (k : κ) :
    (m.eraseAll p).get k = if p k then none else m.get k := by
  have kept := lookup_filter (fun key => !p key) k m.entries
  cases gone : p k <;> simpa [eraseAll, get, gone] using kept

theorem mem_entries {m : OrderedMap κ ν} {k : κ} {v : ν} :
    (k, v) ∈ m.entries ↔ m.get k = some v := by
  obtain ⟨entries, nodup⟩ := m
  simp only [get]
  induction entries with
  | nil => simp
  | cons entry rest ih =>
      obtain ⟨key, value⟩ := entry
      obtain ⟨absent, tail⟩ := List.nodup_cons.mp nodup
      by_cases here : k = key
      · subst here
        have missing : (k, v) ∉ rest := fun member =>
          absent (List.mem_map.mpr ⟨_, member, rfl⟩)
        simp [missing, eq_comm]
      · simp [List.lookup_cons, here, beq_false_of_ne here, ih tail]

theorem mem_values {m : OrderedMap κ ν} {v : ν} : v ∈ m.values ↔ ∃ k, m.get k = some v := by
  simp only [values, List.mem_map, Prod.exists, exists_eq_right, mem_entries]

/-- Some entries of a list written into a map, each with another value. -/
theorem get_foldl_set {μ : Type} (f : ν → Option μ) {entries : List (κ × ν)}
    (nodup : (entries.map Prod.fst).Nodup) (start : OrderedMap κ μ) (k : κ) :
    (entries.foldl (fun m entry =>
      match f entry.2 with
      | some v => m.set entry.1 v
      | none => m) start).get k = ((entries.lookup k).bind f).or (start.get k) := by
  induction entries generalizing start with
  | nil => rfl
  | cons entry rest ih =>
      obtain ⟨key, value⟩ := entry
      obtain ⟨absent, tail⟩ := List.nodup_cons.mp nodup
      rw [List.foldl_cons, ih tail, List.lookup_cons]
      by_cases here : k = key
      · subst here
        have missing : rest.lookup k = none := List.lookup_eq_none_iff.mpr fun entry member =>
          bne_iff_ne.mpr fun same => absent (List.mem_map.mpr ⟨entry, member, same.symm⟩)
        rw [missing, beq_self_eq_true]
        cases kept : f value <;> simp [kept]
      · rw [beq_false_of_ne here]
        cases f value with
        | none => rfl
        | some v => simp [get_set, here]

/-! ## Where the entries stand -/

private theorem writeEntry_append {k : κ} {v : ν} {front back : List (κ × ν)}
    (absent : k ∉ front.map Prod.fst) :
    writeEntry k v (front ++ back) = front ++ writeEntry k v back := by
  induction front with
  | nil => rfl
  | cons entry rest ih =>
      simp only [List.map_cons, List.mem_cons, not_or] at absent
      simp [writeEntry, Ne.symm absent.1, ih absent.2]

/-- A new key goes to the end. -/
theorem entries_set_of_fresh {m : OrderedMap κ ν} {k : κ} (fresh : k ∉ m.keys) (v : ν) :
    (m.set k v).entries = m.entries ++ [(k, v)] := by
  have appended := @writeEntry_append _ _ _ k v m.entries [] fresh
  rwa [List.append_nil] at appended

/-- A key that is there keeps its place. -/
theorem entries_set_of_split {m : OrderedMap κ ν} {k : κ} {old v : ν} {front back : List (κ × ν)}
    (split : m.entries = front ++ (k, old) :: back) : (m.set k v).entries = front ++ (k, v) :: back := by
  have absent : k ∉ front.map Prod.fst := by
    have distinct := m.keysNodup
    rw [split, List.map_append, List.map_cons] at distinct
    exact fun member => (List.nodup_append.mp distinct).2.2 k member k (List.mem_cons_self ..) rfl
  simp [set, split, writeEntry_append absent, writeEntry]

theorem entries_erase_of_split {m : OrderedMap κ ν} {k : κ} {old : ν} {front back : List (κ × ν)}
    (split : m.entries = front ++ (k, old) :: back) : (m.erase k).entries = front ++ back := by
  have distinct := m.keysNodup
  rw [split, List.map_append, List.map_cons] at distinct
  obtain ⟨-, tail, apart⟩ := List.nodup_append.mp distinct
  have others : ∀ entry ∈ front ++ back, entry.1 ≠ k := by
    intro entry member same
    cases List.mem_append.mp member with
    | inl early =>
        exact apart entry.1 (List.mem_map_of_mem early) k (List.mem_cons_self ..) same
    | inr late => exact (List.nodup_cons.mp tail).1 (List.mem_map.mpr ⟨entry, late, same⟩)
  have kept : (front ++ back).filter (fun entry => entry.1 ≠ k) = front ++ back :=
    List.filter_eq_self.mpr fun entry member => by simpa using others entry member
  rw [List.filter_append] at kept
  simpa [erase, split] using kept

/-- Whatever the order, a walk meets exactly the entries of the map. -/
theorem mem_range {m : OrderedMap κ ν} {order : List κ} {k : κ} {v : ν} :
    (k, v) ∈ m.range order ↔ m.get k = some v := by
  simp only [range, List.mem_append, List.mem_filterMap, List.mem_dedup, Option.map_eq_some_iff,
    Prod.mk.injEq, List.mem_filter, mem_entries, decide_eq_true_eq]
  constructor
  · rintro (⟨key, -, value, found, rfl, rfl⟩ | ⟨found, -⟩) <;> exact found
  · intro found
    by_cases early : k ∈ order
    · exact .inl ⟨k, early, v, found, rfl, rfl⟩
    · exact .inr ⟨found, early⟩

theorem range_nodup (m : OrderedMap κ ν) (order : List κ) : (m.range order).Nodup := by
  apply List.Nodup.append
  · apply (List.nodup_dedup order).filterMap
    intro k k' entry first second
    obtain ⟨v, -, rfl⟩ := Option.map_eq_some_iff.mp first
    obtain ⟨v', -, same⟩ := Option.map_eq_some_iff.mp second
    exact (congrArg Prod.fst same).symm
  · exact m.keysNodup.of_map.filter _
  · intro entry early late
    obtain ⟨k, ordered, mapped⟩ := List.mem_filterMap.mp early
    obtain ⟨v, -, rfl⟩ := Option.map_eq_some_iff.mp mapped
    have unordered := (List.mem_filter.mp late).2
    simp only [decide_eq_true_eq] at unordered
    exact unordered (List.mem_dedup.mp ordered)

/-- Maps that hold the same are walked alike, up to the order. -/
theorem range_perm {m m' : OrderedMap κ ν} (same : ∀ k, m.get k = m'.get k) (order order' : List κ) :
    (m.range order).Perm (m'.range order') := by
  apply (List.perm_ext_iff_of_nodup (m.range_nodup order) (m'.range_nodup order')).mpr
  rintro ⟨k, v⟩
  rw [mem_range, mem_range, same]

/-! ## Values that are mapped -/

/-- The same map with other values. -/
def mapValues {μ : Type} (f : ν → μ) (m : OrderedMap κ ν) : OrderedMap κ μ :=
  ⟨m.entries.map fun entry => (entry.1, f entry.2), by simpa [Function.comp_def] using m.keysNodup⟩

section MapValues

variable {μ : Type} (f : ν → μ)

theorem get_mapValues (m : OrderedMap κ ν) (k : κ) : (m.mapValues f).get k = (m.get k).map f := by
  simp only [mapValues, get]
  induction m.entries with
  | nil => rfl
  | cons entry rest ih =>
      obtain ⟨key, value⟩ := entry
      by_cases same : k = key
      · subst same
        simp
      · simp [List.lookup_cons, beq_false_of_ne same, ih]

omit [DecidableEq κ] in
theorem values_mapValues (m : OrderedMap κ ν) : (m.mapValues f).values = m.values.map f := by
  simp [mapValues, values, Function.comp_def]

theorem range_mapValues (m : OrderedMap κ ν) (order : List κ) :
    (m.mapValues f).range order = (m.range order).map fun entry => (entry.1, f entry.2) := by
  have found : ∀ k, ((m.mapValues f).get k).map (fun v => (k, v)) =
      ((m.get k).map fun v => (k, v)).map fun entry => (entry.1, f entry.2) := by
    intro k
    rw [get_mapValues, Option.map_map, Option.map_map]
    rfl
  have rest : (m.mapValues f).entries = m.entries.map fun entry => (entry.1, f entry.2) := rfl
  simp only [range, found, rest, List.map_append, List.map_filterMap, List.filter_map]
  rfl

theorem mapValues_set (m : OrderedMap κ ν) (k : κ) (v : ν) :
    (m.set k v).mapValues f = (m.mapValues f).set k (f v) := by
  simp only [mapValues, set, mk.injEq]
  induction m.entries with
  | nil => rfl
  | cons entry rest ih =>
      by_cases same : entry.1 = k
      · simp [writeEntry, same]
      · simp [writeEntry, same, ih]

theorem mapValues_erase (m : OrderedMap κ ν) (k : κ) : (m.erase k).mapValues f = (m.mapValues f).erase k := by
  simp [mapValues, erase, List.filter_map, Function.comp_def]

end MapValues

end OrderedMap

end OpencodeRemote.Data
