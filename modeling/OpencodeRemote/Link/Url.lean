import Mathlib.Data.List.DropRight
import OpencodeRemote.Link.Wire
import OpencodeRemote.Stub.Canonical

/-! # Paths on their way

The plugin puts a path together as a string. `fetch` parses it by the URL rules of the web
and sends the result, `net/http` decodes what arrives. Both work on the bytes of UTF-8 here:
the marks that they look for are ASCII.
-/

namespace OpencodeRemote.Link

open Stub (GoString lit slash dot dotdot joined elements)
open Service (toLower)

namespace Url

/-! ## The client -/

def percent : UInt8 := 37
def backslash : UInt8 := 92

def isTabOrNewline (c : UInt8) : Bool := c = 9 ∨ c = 10 ∨ c = 13

def upperHex (n : UInt8) : UInt8 := if n < 10 then 48 + n else 55 + n

def percentEncode (c : UInt8) : GoString := [percent, upperHex (c / 16), upperHex (c % 16)]

/-- The path percent-encode set. -/
def encoded (c : UInt8) : Bool :=
  c ≤ 32 ∨ 127 ≤ c ∨ c ∈ ([34, 35, 60, 62, 63, 94, 96, 123, 125] : List UInt8)

def encode (s : GoString) : GoString := s.flatMap fun c => if encoded c then percentEncode c else [c]

def isSingleDot (segment : GoString) : Bool := toLower segment = lit "." ∨ toLower segment = lit "%2e"

def isDoubleDot (segment : GoString) : Bool :=
  toLower segment = lit ".." ∨ toLower segment = lit ".%2e" ∨ toLower segment = lit "%2e." ∨
    toLower segment = lit "%2e%2e"

/-- Control characters and spaces at the end of a URL are left out, tabs and newlines
    everywhere. The path does not stand at the beginning. -/
def prepare (text : GoString) : GoString :=
  (text.rdropWhile fun c => c ≤ 32).filter fun c => !isTabOrNewline c

/-- Up to the query or the fragment; in a URL of this scheme a backslash is a slash. -/
def pathPart (text : GoString) : GoString :=
  ((prepare text).takeWhile fun c => c ≠ 63 ∧ c ≠ 35).map fun c => if c = backslash then slash else c

/-- The path state: two dots take a segment back, and dots at the end leave an empty one. -/
def walk : List GoString → List GoString → List GoString
  | done, [] => done
  | done, [last] =>
      if isDoubleDot last then done.dropLast ++ [[]]
      else if isSingleDot last then done ++ [[]]
      else done ++ [last]
  | done, segment :: rest =>
      if isDoubleDot segment then walk done.dropLast rest
      else if isSingleDot segment then walk done rest
      else walk (done ++ [segment]) rest

/-- The path that is sent for a URL whose text goes on like this behind the port. -/
def sent (text : GoString) : GoString := joined ((walk [] (elements (pathPart text))).map encode)

/-! ## The server -/

def hexValue (c : UInt8) : Option UInt8 :=
  if 48 ≤ c ∧ c ≤ 57 then some (c - 48)
  else if 65 ≤ c ∧ c ≤ 70 then some (c - 55)
  else if 97 ≤ c ∧ c ≤ 102 then some (c - 87)
  else none

/-- `net/url`'s unescaping of a path; on an error the request is answered 400. -/
def unescape : GoString → Option GoString
  | [] => some []
  | c :: rest =>
      if c = percent then
        match rest with
        | high :: low :: rest =>
            (hexValue high).bind fun h => (hexValue low).bind fun l =>
              (unescape rest).map fun decoded => (16 * h + l) :: decoded
        | _ => none
      else (unescape rest).map fun decoded => c :: decoded

/-- `r.URL.Path` for a URL that the client is given. -/
def requestPath (text : GoString) : Option GoString := unescape (sent text)

/-- What `net/url` leaves as it is in a path. -/
def unreserved (c : UInt8) : Bool :=
  (48 ≤ c ∧ c ≤ 57) ∨ (65 ≤ c ∧ c ≤ 90) ∨ (97 ≤ c ∧ c ≤ 122) ∨ c ∈ lit "-_.~$&+,/:;=@"

/-- The `Location` of a redirect. `http.Redirect` cleans it, which changes nothing in a path
    that is clean. -/
def escape (path : GoString) : GoString := path.flatMap fun c => if unreserved c then [c] else percentEncode c

/-! ## Encoding is invisible -/

theorem unescape_cons {c : UInt8} (other : c ≠ percent) (rest : GoString) :
    unescape (c :: rest) = (unescape rest).map fun decoded => c :: decoded := by
  conv_lhs => unfold unescape
  rw [if_neg other]

theorem unescape_percent (high low : UInt8) (rest : GoString) : unescape (percent :: high :: low :: rest) =
    (hexValue high).bind fun h => (hexValue low).bind fun l =>
      (unescape rest).map fun decoded => (16 * h + l) :: decoded := by
  conv_lhs => unfold unescape
  rw [if_pos rfl]

/-- What is to be shown of every byte. -/
theorem forall_byte {P : UInt8 → Prop} (all : ∀ n < 256, P (UInt8.ofNat n)) (c : UInt8) : P c := by
  have here := all c.toNat c.toNat_lt
  rwa [UInt8.ofNat_toNat] at here

theorem hex_digits (c : UInt8) : hexValue (upperHex (c / 16)) = some (c / 16) ∧
    hexValue (upperHex (c % 16)) = some (c % 16) ∧ 16 * (c / 16) + c % 16 = c := by
  revert c
  apply forall_byte
  decide +kernel

theorem unescape_percentEncode (c : UInt8) (rest : GoString) :
    unescape (percentEncode c ++ rest) = (unescape rest).map fun decoded => c :: decoded := by
  obtain ⟨high, low, back⟩ := hex_digits c
  rw [percentEncode, List.cons_append, List.cons_append, List.cons_append, List.nil_append, unescape_percent,
    high, low, Option.bind_some, Option.bind_some, back]

theorem unescape_escape (path rest : GoString) :
    unescape (escape path ++ rest) = (unescape rest).map fun decoded => path ++ decoded := by
  induction path with
  | nil =>
      change unescape rest = _
      cases unescape rest <;> rfl
  | cons c path ih =>
      have first : unescape ((if unreserved c then [c] else percentEncode c) ++ (escape path ++ rest)) =
          (unescape (escape path ++ rest)).map fun decoded => c :: decoded := by
        split
        · rename_i plain
          refine unescape_cons ?_ _
          rintro rfl
          exact absurd plain (by decide)
        · exact unescape_percentEncode c _
      rw [escape, List.flatMap_cons, List.append_assoc, ← escape, first, ih, Option.map_map]
      rfl

theorem hexValue_eq_none_of_encoded {c : UInt8} (special : encoded c = true) : hexValue c = none := by
  revert c
  apply forall_byte
  decide +kernel

theorem hexValue_percent : hexValue percent = none := by decide

theorem unescape_percent_eq_none {high : UInt8} (bad : hexValue high = none) (rest : GoString) :
    unescape (percent :: high :: rest) = none := by
  cases rest with
  | nil =>
      unfold unescape
      rw [if_pos rfl]
  | cons low rest => rw [unescape_percent, bad, Option.bind_none]

theorem unescape_percent_low_eq_none (high : UInt8) {low : UInt8} (bad : hexValue low = none) (rest : GoString) :
    unescape (percent :: high :: low :: rest) = none := by
  rw [unescape_percent, bad]
  cases hexValue high <;> rfl

theorem encode_cons (c : UInt8) (rest : GoString) :
    encode (c :: rest) = (if encoded c then percentEncode c else [c]) ++ encode rest := List.flatMap_cons

theorem encode_append (s t : GoString) : encode (s ++ t) = encode s ++ encode t := List.flatMap_append

theorem encode_percent (rest : GoString) : encode (percent :: rest) = percent :: encode rest :=
  encode_cons percent rest

/-- What the client encodes the server decodes, whatever stands behind a `%`. -/
theorem unescape_encode (s : GoString) : unescape (encode s) = unescape s := by
  fun_induction unescape s with
  | case1 => rfl
  | case2 high low rest ih =>
      rw [encode_percent, encode_cons, encode_cons]
      by_cases special : encoded high = true
      · rw [if_pos special, hexValue_eq_none_of_encoded special, Option.bind_none]
        exact unescape_percent_eq_none hexValue_percent _
      rw [if_neg special]
      by_cases special' : encoded low = true
      · rw [if_pos special', hexValue_eq_none_of_encoded special']
        have bad := unescape_percent_low_eq_none high hexValue_percent
        cases hexValue high <;> exact bad _
      · rw [if_neg special', List.singleton_append, List.singleton_append, unescape_percent, ih]
  | case3 rest short =>
      rw [encode_percent]
      rcases rest with _ | ⟨high, _ | ⟨low, rest⟩⟩
      · rfl
      · rw [encode_cons]
        split
        · exact unescape_percent_eq_none hexValue_percent _
        · rfl
      · exact absurd rfl (short high low rest)
  | case4 c rest other ih =>
      rw [encode_cons, ← ih]
      split
      · exact unescape_percentEncode c _
      · exact unescape_cons other _

theorem unescape_of_free {s : GoString} (free : percent ∉ s) : unescape s = some s := by
  induction s with
  | nil => rfl
  | cons c s ih =>
      simp only [List.mem_cons, not_or] at free
      rw [unescape_cons (Ne.symm free.1), ih free.2, Option.map_some]

/-- Decoding makes a path shorter, if there is anything to decode. -/
theorem length_unescape {s decoded : GoString} (read : unescape s = some decoded) :
    decoded.length ≤ s.length ∧ (percent ∈ s → decoded.length < s.length) := by
  fun_induction unescape s generalizing decoded with
  | case1 =>
      cases read
      simp
  | case2 high low rest ih =>
      simp only [Option.bind_eq_some_iff, Option.map_eq_some_iff] at read
      obtain ⟨h, -, l, -, decoded, below, rfl⟩ := read
      have shorter := (ih below).1
      simp only [List.length_cons]
      omega
  | case3 rest short => cases read
  | case4 c rest other ih =>
      obtain ⟨decoded, below, rfl⟩ := Option.map_eq_some_iff.mp read
      obtain ⟨shorter, less⟩ := ih below
      simp only [List.length_cons, List.mem_cons, Ne.symm other, false_or]
      exact ⟨by omega, fun inside => by have := less inside; omega⟩

/-! ## Segments -/

def isDots (segment : GoString) : Bool := isDoubleDot segment || isSingleDot segment

theorem joined_encode (names : List GoString) : joined (names.map encode) = encode (joined names) := by
  induction names with
  | nil => rfl
  | cons name names ih =>
      rw [List.map_cons, Stub.joined_cons, Stub.joined_cons, encode_cons, encode_append, ih]
      rfl

theorem requestPath_eq (text : GoString) :
    requestPath text = unescape (joined (walk [] (elements (pathPart text)))) := by
  rw [requestPath, sent, joined_encode, unescape_encode]

theorem walk_of_plain {done names : List GoString} (plain : ∀ name ∈ names, isDots name = false) :
    walk done names = done ++ names := by
  fun_induction walk done names with
  | case1 done => rw [List.append_nil]
  | case2 done last double | case3 done last _ single | case5 done name rest _ double _
  | case6 done name rest _ _ single _ => simp_all [isDots]
  | case4 => rfl
  | case7 done name rest _ _ _ ih =>
      rw [ih fun other member => plain other (List.mem_cons_of_mem _ member), List.append_assoc, List.singleton_append]

theorem length_joined_append (front back : List GoString) :
    (joined (front ++ back)).length = (joined front).length + (joined back).length := by
  rw [Stub.joined_append, List.length_append]

theorem length_joined_cons (name : GoString) (names : List GoString) :
    (joined (name :: names)).length = name.length + 1 + (joined names).length := by
  rw [Stub.joined_cons, List.length_cons, List.length_append]
  omega

theorem length_joined_dropLast (names : List GoString) : (joined names.dropLast).length ≤ (joined names).length :=
  ((List.dropLast_sublist names).flatMap _).length_le

theorem two_of_isDoubleDot {name : GoString} (double : isDoubleDot name = true) : 2 ≤ name.length := by
  have same : (toLower name).length = name.length := List.length_map _
  rw [← same]
  rcases of_decide_eq_true double with lower | lower | lower | lower <;>
  · rw [lower]
    decide

theorem pos_of_isSingleDot {name : GoString} (single : isSingleDot name = true) : 0 < name.length := by
  have same : (toLower name).length = name.length := List.length_map _
  rw [← same]
  rcases of_decide_eq_true single with lower | lower <;>
  · rw [lower]
    decide

/-- Walking makes a path shorter, if there are any dots. -/
theorem length_walk (done names : List GoString) :
    (joined (walk done names)).length ≤ (joined done).length + (joined names).length ∧
      ((∃ name ∈ names, isDots name = true) →
        (joined (walk done names)).length < (joined done).length + (joined names).length) := by
  have back := length_joined_dropLast done
  fun_induction walk done names with
  | case1 done => simp [joined]
  | case2 done last double =>
      have long := two_of_isDoubleDot double
      simp only [length_joined_append, length_joined_cons, List.length_nil]
      omega
  | case3 done last _ single =>
      have long : 0 < last.length := pos_of_isSingleDot single
      simp only [length_joined_append, length_joined_cons, List.length_nil]
      omega
  | case4 done last double single =>
      simp [length_joined_append, isDots, double, single]
  | case5 done name rest _ double ih =>
      have shorter := (ih (length_joined_dropLast _)).1
      have long := two_of_isDoubleDot double
      simp only [length_joined_cons]
      omega
  | case6 done name rest _ _ single ih =>
      have shorter := (ih back).1
      have long : 0 < name.length := pos_of_isSingleDot single
      simp only [length_joined_cons]
      omega
  | case7 done name rest _ double single ih =>
      obtain ⟨shorter, less⟩ := ih (length_joined_dropLast _)
      simp only [length_joined_append, length_joined_cons] at shorter less ⊢
      have plain : isDots name = false := by simp [isDots, double, single]
      simp only [List.mem_cons, exists_eq_or_imp, plain, Bool.false_eq_true, false_or]
      exact ⟨by simp [joined] at shorter ⊢; omega, fun more => by have := less more; simp [joined] at this ⊢; omega⟩

/-! ## The path that arrives -/

/-- A text that a URL takes as it is, but for what is decoded: no mark ends the path or is
    left out of it, and no segment is one or two dots. -/
structure Smooth (text : GoString) : Prop where
  rooted : text.head? = some slash
  last : ∀ c ∈ text.getLast?, 32 < c
  marks : ∀ c ∈ text, isTabOrNewline c = false ∧ c ≠ 63 ∧ c ≠ 35 ∧ c ≠ backslash
  segments : ∀ name ∈ elements text, isDots name = false

theorem pathPart_of_smooth {text : GoString} (smooth : Smooth text) : pathPart text = text := by
  have stripped : text.rdropWhile (fun c => c ≤ 32) = text :=
    List.rdropWhile_eq_self_iff.mpr fun some_ => by
      have last := smooth.last _ (List.getLast?_eq_some_getLast some_)
      simpa using last
  have marks := smooth.marks
  rw [pathPart, prepare, stripped, List.filter_eq_self.mpr fun c member => by simp [(marks c member).1],
    List.takeWhile_eq_self_iff.mpr fun c member => by simp [(marks c member).2.1, (marks c member).2.2.1]]
  refine (List.map_congr_left fun c member => ?_).trans (List.map_id _)
  exact if_neg (marks c member).2.2.2

theorem requestPath_of_smooth {text : GoString} (smooth : Smooth text) : requestPath text = unescape text := by
  rw [requestPath_eq, pathPart_of_smooth smooth, walk_of_plain smooth.segments, List.nil_append,
    Stub.joined_elements smooth.rooted]

theorem pathPart_head {text : GoString} (rooted : text.head? = some slash) : (pathPart text).head? = some slash := by
  cases text with
  | nil => cases rooted
  | cons c rest =>
      cases Option.some.inj rooted
      have front := List.rdropWhile_prefix (p := fun c : UInt8 => decide (c ≤ 32)) (slash :: rest)
      cases stripped : (slash :: rest).rdropWhile (fun c => c ≤ 32) with
      | nil =>
          have all := List.rdropWhile_eq_nil_iff.mp stripped slash List.mem_cons_self
          exact absurd all (by decide)
      | cons d rest' =>
          rw [stripped] at front
          obtain ⟨same, -⟩ := List.cons_prefix_cons.mp front
          rw [pathPart, prepare, stripped, same, List.filter_cons_of_pos (by decide),
            List.takeWhile_cons_of_pos (by decide)]
          rfl

/-- What the path loses of the text makes it shorter. -/
theorem length_pathPart (text : GoString) : (pathPart text).length ≤ text.length ∧
    ((pathPart text).length = text.length →
      (∀ c ∈ text.getLast?, 32 < c) ∧ (∀ c ∈ text, isTabOrNewline c = false ∧ c ≠ 63 ∧ c ≠ 35) ∧
        pathPart text = text.map fun c => if c = backslash then slash else c) := by
  have whole := List.rdropWhile_prefix (p := fun c : UInt8 => decide (c ≤ 32)) text
  have solid := List.filter_sublist (p := fun c => !isTabOrNewline c) (l := text.rdropWhile fun c => c ≤ 32)
  have front := List.takeWhile_prefix (fun c : UInt8 => decide (c ≠ 63 ∧ c ≠ 35)) (l := prepare text)
  rw [← prepare] at solid
  have shorter := front.length_le
  have shorter' := solid.length_le
  have shorter'' := whole.length_le
  rw [pathPart, List.length_map]
  refine ⟨by omega, fun full => ?_⟩
  have same := front.eq_of_length (by omega)
  have same' := solid.eq_of_length (by omega)
  have same'' := whole.eq_of_length (by omega)
  have kept : prepare text = text := same'.trans same''
  rw [same, kept]
  refine ⟨?_, ?_, rfl⟩
  · intro c last
    obtain ⟨some_, rfl⟩ := List.mem_getLast?_eq_getLast last
    simpa using List.rdropWhile_eq_self_iff.mp same'' some_
  · intro c member
    rw [kept] at same
    rw [prepare, same''] at kept
    have solid := List.filter_eq_self.mp kept c member
    have marks := List.takeWhile_eq_self_iff.mp same c member
    simpa using And.intro solid marks

/-- A path that arrives at its full length is as it was, with backslashes turned. -/
theorem requestPath_of_length {text path : GoString} (rooted : text.head? = some slash)
    (read : requestPath text = some path) (full : text.length ≤ path.length) :
    (∀ c ∈ text.getLast?, 32 < c) ∧ (∀ c ∈ text, isTabOrNewline c = false ∧ c ≠ 63 ∧ c ≠ 35 ∧ c ≠ percent) ∧
      path = text.map fun c => if c = backslash then slash else c := by
  rw [requestPath_eq] at read
  obtain ⟨decoded, less⟩ := length_unescape read
  obtain ⟨walked, less'⟩ := length_walk [] (elements (pathPart text))
  obtain ⟨cut, rest⟩ := length_pathPart text
  rw [Stub.joined_elements (pathPart_head rooted)] at walked less'
  change _ ≤ 0 + _ at walked
  change _ → _ < 0 + _ at less'
  obtain ⟨last, marks, turned⟩ := rest (by omega)
  have plain : ∀ name ∈ elements (pathPart text), isDots name = false := by
    intro name member
    by_contra dots
    have := less' ⟨name, member, by simpa using dots⟩
    omega
  rw [walk_of_plain plain, List.nil_append, Stub.joined_elements (pathPart_head rooted)] at read decoded less
  have free : percent ∉ pathPart text := fun inside => by
    have := less inside
    omega
  rw [unescape_of_free free, Option.some.injEq, turned] at read
  refine ⟨last, fun c member => ?_, read.symm⟩
  obtain ⟨solid, query, fragment⟩ := marks c member
  refine ⟨solid, query, fragment, ?_⟩
  rintro rfl
  rw [turned] at free
  exact free (List.mem_map.mpr ⟨percent, member, by decide⟩)

theorem walk_ne_nil {done names : List GoString} (some_ : names ≠ []) : walk done names ≠ [] := by
  fun_induction walk done names with
  | case1 => exact absurd rfl some_
  | case2 | case3 | case4 => simp
  | case5 done name rest more _ ih => exact ih more
  | case6 done name rest more _ _ ih => exact ih more
  | case7 done name rest more _ _ ih => exact ih more

theorem requestPath_head {text path : GoString} (read : requestPath text = some path) : path.head? = some slash := by
  have some_ : walk [] (elements (pathPart text)) ≠ [] := walk_ne_nil (List.splitOn_ne_nil slash _)
  obtain ⟨name, rest, names⟩ := List.exists_cons_of_ne_nil some_
  rw [requestPath_eq, names, Stub.joined_cons, unescape_cons (by decide)] at read
  obtain ⟨decoded, -, rfl⟩ := Option.map_eq_some_iff.mp read
  rfl

/-! ## Dots -/

theorem lower_cases (c : UInt8) : ∀ d, (if 65 ≤ c ∧ c ≤ 90 then c + 32 else c) = d →
    (d = 46 → c = 46) ∧ (d = 37 → c = 37) ∧ (d = 50 → c = 50) ∧ (d = 101 → c = 101 ∨ c = 69) := by
  rintro d rfl
  revert c
  apply forall_byte
  decide +kernel

/-- Either spelling of a dot is decoded to one. -/
theorem unescape_spelled {name rest : GoString}
    (lower : toLower name = lit "." ++ rest ∨ toLower name = lit "%2e" ++ rest) :
    ∃ rest', toLower rest' = rest ∧ unescape name = (unescape rest').map fun decoded => dot :: decoded := by
  have plain : lit "." = [46] := by decide
  have marks : lit "%2e" = [37, 50, 101] := by decide
  rcases lower with lower | lower
  · rw [plain, List.singleton_append] at lower
    obtain ⟨a, rest', rfl, first, same⟩ := List.map_eq_cons_iff.mp lower
    obtain rfl := (lower_cases a _ first).1 rfl
    exact ⟨rest', same, unescape_cons (by decide) rest'⟩
  · rw [marks, List.cons_append, List.cons_append, List.cons_append, List.nil_append] at lower
    simp only [toLower, List.map_eq_cons_iff] at lower
    obtain ⟨a, _, rfl, first, b, _, rfl, second, e, rest', rfl, third, same⟩ := lower
    obtain rfl := (lower_cases a _ first).2.1 rfl
    obtain rfl := (lower_cases b _ second).2.2.1 rfl
    refine ⟨rest', same, (unescape_percent 50 e rest').trans ?_⟩
    rcases (lower_cases e _ third).2.2.2 rfl with rfl | rfl <;> rfl

/-- Dots are dots to the server too, however they are written. -/
theorem unescape_of_isDots {name : GoString} (dots : isDots name = true) :
    unescape name = some [dot] ∨ unescape name = some dotdot := by
  have one : ∀ {rest}, (toLower rest = lit "." ∨ toLower rest = lit "%2e") → unescape rest = some [dot] := by
    intro rest single
    have spelled : toLower rest = lit "." ++ [] ∨ toLower rest = lit "%2e" ++ [] := by simpa using single
    obtain ⟨last, empty, read⟩ := unescape_spelled spelled
    rw [read, List.map_eq_nil_iff.mp empty]
    rfl
  rw [isDots, Bool.or_eq_true] at dots
  rcases dots with double | single
  · right
    have four := of_decide_eq_true double
    have split : ∃ second, (second = lit "." ∨ second = lit "%2e") ∧
        (toLower name = lit "." ++ second ∨ toLower name = lit "%2e" ++ second) := by
      rcases four with same | same | same | same
      · exact ⟨lit ".", .inl rfl, .inl same⟩
      · exact ⟨lit "%2e", .inr rfl, .inl same⟩
      · exact ⟨lit ".", .inl rfl, .inr same⟩
      · exact ⟨lit "%2e", .inr rfl, .inr same⟩
    obtain ⟨second, spelling, lower⟩ := split
    obtain ⟨rest, same, read⟩ := unescape_spelled lower
    rw [read, one (same ▸ spelling)]
    rfl
  · left
    exact one (of_decide_eq_true single)

theorem dots_of_free {name : GoString} (free : percent ∉ name) (dots : isDots name = true) :
    name = [dot] ∨ name = dotdot := by
  have read := unescape_of_isDots dots
  rwa [unescape_of_free free, Option.some.injEq, Option.some.injEq] at read

/-! ## Paths that arrive as they are -/

/-- The text is a clean path without any character that has a meaning in a URL. -/
structure Faithful (text : GoString) : Prop where
  canonical : Stub.Canonical text
  last : ∀ c ∈ text.getLast?, 32 < c
  marks : ∀ c ∈ text, isTabOrNewline c = false ∧ c ≠ 63 ∧ c ≠ 35 ∧ c ≠ backslash ∧ c ≠ percent

theorem mem_of_mem_elements {text name : GoString} {c : UInt8} (rooted : text.head? = some slash)
    (member : name ∈ elements text) (inside : c ∈ name) : c ∈ text := by
  rw [← Stub.joined_elements rooted]
  exact List.mem_flatMap.mpr ⟨name, member, List.mem_cons_of_mem _ inside⟩

theorem requestPath_of_faithful {text : GoString} (faithful : Faithful text) : requestPath text = some text := by
  have free : percent ∉ text := fun inside => (faithful.marks percent inside).2.2.2.2 rfl
  rw [requestPath_of_smooth, unescape_of_free free]
  refine ⟨faithful.canonical.rooted, faithful.last, ?_, ?_⟩
  · intro c member
    obtain ⟨solid, query, fragment, back, -⟩ := faithful.marks c member
    exact ⟨solid, query, fragment, back⟩
  · intro name member
    by_contra dots
    obtain ⟨single, double⟩ := faithful.canonical.plain name member
    have free' : percent ∉ name := fun inside => free (mem_of_mem_elements faithful.canonical.rooted member inside)
    rcases dots_of_free free' (by simpa using dots) with same | same
    · exact single same
    · exact double same

/-- A path that the server serves under its own name is one that arrives as it is. -/
theorem faithful_iff {text : GoString} (rooted : text.head? = some slash) :
    (∃ path, requestPath text = some path ∧ Stub.cleanPath path = text) ↔ Faithful text := by
  constructor
  · rintro ⟨path, read, clean⟩
    have rooted' := requestPath_head read
    have part := Stub.cleanPath_sublist rooted'
    rw [clean] at part
    obtain ⟨last, marks, turned⟩ := requestPath_of_length rooted read part.length_le
    have canonical := Stub.canonical_cleanPath rooted'
    rw [clean] at canonical
    refine ⟨canonical, last, fun c member => ?_⟩
    obtain ⟨solid, query, fragment, escape⟩ := marks c member
    refine ⟨solid, query, fragment, ?_, escape⟩
    rintro rfl
    -- the server sees no backslash
    have inside := part.subset member
    rw [turned] at inside
    obtain ⟨d, -, same⟩ := List.mem_map.mp inside
    split at same
    · exact absurd same (by decide)
    · rename_i other
      exact other same
  · intro faithful
    exact ⟨text, requestPath_of_faithful faithful, Stub.cleanPath_of_canonical faithful.canonical⟩

/-! ## Redirects -/

theorem escape_append (front back : GoString) : escape (front ++ back) = escape front ++ escape back :=
  List.flatMap_append

theorem escape_slash (rest : GoString) : escape (slash :: rest) = slash :: escape rest := rfl

theorem escape_joined (names : List GoString) : escape (joined names) = joined (names.map escape) := by
  induction names with
  | nil => rfl
  | cons name names ih => rw [List.map_cons, Stub.joined_cons, Stub.joined_cons, escape_slash, escape_append, ih]

theorem unreserved_byte (b : UInt8) : unreserved b = true → 32 < b ∧ isTabOrNewline b = false ∧ b ≠ 63 ∧ b ≠ 35 ∧
    b ≠ backslash := by
  revert b
  apply forall_byte
  decide +kernel

theorem hex_byte (d : UInt8) : d < 16 → 32 < upperHex d ∧ isTabOrNewline (upperHex d) = false ∧ upperHex d ≠ 63 ∧
    upperHex d ≠ 35 ∧ upperHex d ≠ backslash ∧ upperHex d ≠ slash := by
  revert d
  apply forall_byte
  decide +kernel

theorem percentEncode_byte (b c : UInt8) (member : c ∈ percentEncode b) : 32 < c ∧ isTabOrNewline c = false ∧ c ≠ 63 ∧
    c ≠ 35 ∧ c ≠ backslash ∧ c ≠ slash := by
  have high : b / 16 < 16 := by
    rw [UInt8.lt_iff_toNat_lt, UInt8.toNat_div]
    exact Nat.div_lt_of_lt_mul b.toNat_lt
  have low : b % 16 < 16 := by
    rw [UInt8.lt_iff_toNat_lt, UInt8.toNat_mod]
    exact Nat.mod_lt _ (by decide)
  simp only [percentEncode, List.mem_cons, List.not_mem_nil, or_false] at member
  obtain rfl | rfl | rfl := member
  · decide
  · exact hex_byte _ high
  · exact hex_byte _ low

theorem escaped_byte (b : UInt8) : ∀ c ∈ (if unreserved b then [b] else percentEncode b), 32 < c ∧
    isTabOrNewline c = false ∧ c ≠ 63 ∧ c ≠ 35 ∧ c ≠ backslash ∧ (c = slash → b = slash) := by
  intro c member
  split at member
  · rename_i plain
    obtain rfl := List.mem_singleton.mp member
    obtain ⟨printed, solid, query, fragment, back⟩ := unreserved_byte c plain
    exact ⟨printed, solid, query, fragment, back, id⟩
  · obtain ⟨printed, solid, query, fragment, back, other⟩ := percentEncode_byte b c member
    exact ⟨printed, solid, query, fragment, back, fun same => absurd same other⟩

theorem mem_escape {path : GoString} {c : UInt8} (member : c ∈ escape path) : 32 < c ∧
    isTabOrNewline c = false ∧ c ≠ 63 ∧ c ≠ 35 ∧ c ≠ backslash ∧ (c = slash → slash ∈ path) := by
  obtain ⟨b, inside, written⟩ := List.mem_flatMap.mp member
  obtain ⟨printed, solid, query, fragment, back, same⟩ := escaped_byte b c written
  exact ⟨printed, solid, query, fragment, back, fun own => same own ▸ inside⟩

theorem elements_escape {path : GoString} (rooted : path.head? = some slash) :
    elements (escape path) = (elements path).map escape := by
  have some_ : elements path ≠ [] := List.splitOn_ne_nil slash _
  conv_lhs => rw [← Stub.joined_elements rooted, escape_joined]
  refine Stub.elements_joined (by simpa using some_) fun name member => ?_
  obtain ⟨name', inside, rfl⟩ := List.mem_map.mp member
  intro separated
  exact Stub.slash_not_mem_of_mem_splitOn inside ((mem_escape separated).2.2.2.2.2 rfl)

/-- A redirect leads to the path that it names. -/
theorem requestPath_escape {path : GoString} (canonical : Stub.Canonical path) :
    requestPath (escape path) = some path := by
  have back : ∀ s, unescape (escape s) = some s := by
    intro s
    have read := unescape_escape s []
    rw [List.append_nil, unescape, Option.map_some, List.append_nil] at read
    exact read
  rw [requestPath_of_smooth, back]
  refine ⟨?_, ?_, ?_, ?_⟩
  · have rooted := canonical.rooted
    cases path with
    | nil => cases rooted
    | cons c rest =>
        cases Option.some.inj rooted
        rw [escape_slash, List.head?_cons]
  · exact fun c last => (mem_escape (List.mem_of_mem_getLast? last)).1
  · intro c member
    obtain ⟨-, solid, query, fragment, other, -⟩ := mem_escape member
    exact ⟨solid, query, fragment, other⟩
  · rw [elements_escape canonical.rooted]
    intro name member
    obtain ⟨name', inside, rfl⟩ := List.mem_map.mp member
    obtain ⟨single, double⟩ := canonical.plain name' inside
    by_contra dots
    have read := unescape_of_isDots (by simpa using dots)
    rw [back, Option.some.injEq, Option.some.injEq] at read
    exact read.elim single double

end Url

end OpencodeRemote.Link
