import Mathlib.Data.List.Induction
import OpencodeRemote.Stub.GoString

/-! # Lexical paths

`filepath.Clean` and `filepath.Join` on slash-separated paths. A cleaned path is kept as
its components, so that equal paths are equal values and a descendant is a list
extension; `render` gives back the string Go returns. Symbolic links play no part: two
strings name the same file here when they clean to the same path.
-/

namespace OpencodeRemote.Stub

def dotdot : GoString := [dot, dot]

/-- A path as `filepath.Clean` leaves it. -/
structure CleanPath where
  rooted : Bool
  comps : List GoString
  deriving DecidableEq

namespace Filepath

def isAbs (s : GoString) : Bool := s.head? == some slash

/-- The elements of a path that mean something: no empty ones, no `.`. -/
def components (s : GoString) : List GoString :=
  (s.splitOn slash).filter fun name => name ≠ [] ∧ name ≠ [dot]

/-- One element of the input of `Clean`: `..` removes the element before it, is dropped
    at the root and kept at the front of a relative path. -/
def descend (rooted : Bool) (done : List GoString) (name : GoString) : List GoString :=
  if name = dotdot then
    if rooted then done.dropLast
    else if done.getLast? = none ∨ done.getLast? = some dotdot then done ++ [dotdot]
    else done.dropLast
  else done ++ [name]

def clean (s : GoString) : CleanPath :=
  ⟨isAbs s, (components s).foldl (descend (isAbs s)) []⟩

def render : CleanPath → GoString
  | ⟨true, comps⟩ => slash :: [slash].intercalate comps
  | ⟨false, []⟩ => [dot]
  | ⟨false, comps⟩ => [slash].intercalate comps

def join (elems : List GoString) : CleanPath :=
  clean ([slash].intercalate (elems.filter fun e => e ≠ []))

/-- A name that is one path component as it stands. -/
structure Plain (name : GoString) : Prop where
  nonempty : name ≠ []
  noSlash : slash ∉ name
  notDot : name ≠ [dot]
  notDotdot : name ≠ dotdot

theorem components_append (a b : GoString) :
    components (a ++ slash :: b) = components a ++ components b := by
  simp only [components, List.splitOn_append_cons_self, List.filter_append]

theorem components_plain {name : GoString} (plain : Plain name) : components name = [name] := by
  simp [components, List.splitOn_eq_singleton plain.noSlash, plain.nonempty, plain.notDot]

theorem isAbs_append {a : GoString} (b : GoString) (nonempty : a ≠ []) :
    isAbs (a ++ b) = isAbs a := by
  cases a with
  | nil => exact absurd rfl nonempty
  | cons c rest => rfl

end Filepath

namespace CleanPath

/-- The entry `name` of a directory. -/
def child (p : CleanPath) (name : GoString) : CleanPath := ⟨p.rooted, p.comps ++ [name]⟩

/-- `p` is `base` or lies below it. -/
def Under (base p : CleanPath) : Prop := base.rooted = p.rooted ∧ base.comps <+: p.comps

instance (base p : CleanPath) : Decidable (base.Under p) :=
  inferInstanceAs (Decidable (_ ∧ _))

theorem child_injective {p : CleanPath} {a b : GoString} (same : p.child a = p.child b) : a = b := by
  simpa [child] using same

theorem under_refl (p : CleanPath) : p.Under p := ⟨rfl, List.prefix_refl _⟩

end CleanPath

namespace Filepath

theorem clean_child {a name : GoString} (nonempty : a ≠ []) (plain : Plain name) :
    clean (a ++ slash :: name) = (clean a).child name := by
  simp only [clean, isAbs_append _ nonempty, components_append, components_plain plain,
    List.foldl_append, List.foldl_cons, List.foldl_nil, CleanPath.child]
  simp [descend, plain.notDotdot]

private theorem intercalate_snoc {elems : List GoString} (nonempty : elems ≠ []) (name : GoString) :
    [slash].intercalate (elems ++ [name]) = [slash].intercalate elems ++ slash :: name := by
  induction elems with
  | nil => exact absurd rfl nonempty
  | cons first rest ih =>
      cases rest with
      | nil => simp [List.intercalate]
      | cons second more =>
          have tail := ih (List.cons_ne_nil _ _)
          simp only [List.intercalate, List.cons_append, List.intersperse_cons_cons,
            List.flatten_cons] at tail ⊢
          simp only [tail, List.cons_append, List.append_assoc]

theorem clean_plain {name : GoString} (plain : Plain name) : clean name = (clean []).child name := by
  have relative : isAbs name = false := by
    cases name with
    | nil => rfl
    | cons c rest =>
        have other : c ≠ slash := fun same => plain.noSlash (by simp [same])
        simp [isAbs, other]
  simp only [clean, relative, components_plain plain, List.foldl_cons, List.foldl_nil]
  simp [descend, plain.notDotdot, CleanPath.child, isAbs, components]

/-- Joining a plain name to a directory gives the entry of that name in it. -/
theorem join_child {elems : List GoString} {name : GoString} (plain : Plain name) :
    join (elems ++ [name]) = (join elems).child name := by
  have kept : ([name].filter fun e => decide (e ≠ [])) = [name] := by simp [plain.nonempty]
  simp only [join, List.filter_append, kept]
  cases some : elems.filter fun e => decide (e ≠ []) with
  | nil => simpa [List.intercalate] using clean_plain plain
  | cons first rest =>
      have nonempty : first ≠ [] := by
        have member : first ∈ elems.filter fun e => decide (e ≠ []) := by
          rw [some]
          exact List.mem_cons_self
        simpa using (List.mem_filter.mp member).2
      have front : [slash].intercalate (first :: rest) ≠ [] := by
        intro empty
        cases rest with
        | nil => exact nonempty (by simpa [List.intercalate] using empty)
        | cons second more => simp [List.intercalate] at empty
      rw [intercalate_snoc (List.cons_ne_nil first rest), clean_child front plain]

/-- `..` takes back the name before it. -/
private theorem clean_sibling {a name last : GoString} {d : CleanPath} (here : clean a = d.child name)
    (other : name ≠ dotdot) (plain : Plain last) :
    clean (a ++ slash :: (dotdot ++ slash :: last)) = d.child last := by
  have nonempty : a ≠ [] := by
    rintro rfl
    have sizes := congrArg (fun p => p.comps.length) here
    simp [clean, components, CleanPath.child] at sizes
  have split : a ++ slash :: (dotdot ++ slash :: last) = (a ++ slash :: dotdot) ++ slash :: last := by simp
  have back : components dotdot = [dotdot] := by decide
  have parent : clean (a ++ slash :: dotdot) = d := by
    obtain ⟨rooted, comps⟩ := d
    obtain ⟨abs, names⟩ := CleanPath.mk.inj here
    simp only [clean, isAbs_append _ nonempty, components_append, back, List.foldl_append, List.foldl_cons,
      List.foldl_nil, names]
    rw [abs]
    cases rooted <;> simp [descend, other]
  rw [split, clean_child (by simp [nonempty]) plain, parent]

theorem join_sibling {elems : List GoString} {name last : GoString} (plain : Plain name)
    (plain' : Plain last) :
    join (elems ++ [name, dotdot ++ slash :: last]) = (join elems).child last := by
  have here : clean ([slash].intercalate ((elems ++ [name]).filter fun e => e ≠ [])) =
      (join elems).child name := join_child plain
  have some : (elems ++ [name]).filter (fun e => decide (e ≠ [])) ≠ [] := by simp [plain.nonempty]
  have split : (elems ++ [name, dotdot ++ slash :: last]).filter (fun e => decide (e ≠ [])) =
      (elems ++ [name]).filter (fun e => decide (e ≠ [])) ++ [dotdot ++ slash :: last] := by
    simp [dotdot, plain.nonempty]
  rw [join, split, intercalate_snoc some]
  exact clean_sibling here plain.notDotdot plain'

/-! ## What a suffix does to a rooted directory

Read on its own, a suffix first climbs some levels and then names a directory below the
place it has reached. -/

/-- Levels climbed so far, and the names below that place. -/
def climb (done : Nat × List GoString) (name : GoString) : Nat × List GoString :=
  if name = dotdot then
    if done.2 = [] then (done.1 + 1, []) else (done.1, done.2.dropLast)
  else (done.1, done.2 ++ [name])

def relative (rest : GoString) : Nat × List GoString := (components rest).foldl climb (0, [])

theorem foldl_descend_rooted (base names : List GoString) :
    names.foldl (descend true) base =
      base.take (base.length - (names.foldl climb (0, [])).1) ++ (names.foldl climb (0, [])).2 := by
  induction names using List.reverseRecOn with
  | nil => simp
  | append_singleton names name ih =>
      simp only [List.foldl_append, List.foldl_cons, List.foldl_nil, ih]
      generalize names.foldl climb (0, []) = done
      obtain ⟨up, below⟩ := done
      by_cases back : name = dotdot
      · by_cases top : below = []
        · simp only [descend, climb, back, top, if_true, List.append_nil, List.dropLast_eq_take,
            List.take_take, List.length_take]
          congr 1
          omega
        · simp [descend, climb, back, top, List.dropLast_append_of_ne_nil]
      · simp [descend, climb, back]

/-- A rooted directory followed by a suffix: what is left of the directory after
    climbing, then the names of the suffix. -/
theorem clean_append_rooted {d rest : GoString} (rooted : isAbs d = true) :
    clean (d ++ slash :: rest) =
      ⟨true, (clean d).comps.take ((clean d).comps.length - (relative rest).1) ++
        (relative rest).2⟩ := by
  have nonempty : d ≠ [] := by
    rintro rfl
    cases rooted
  simp only [clean, isAbs_append _ nonempty, rooted, components_append, List.foldl_append]
  rw [foldl_descend_rooted ((components d).foldl (descend true) []) (components rest)]
  rfl

end Filepath

end OpencodeRemote.Stub
