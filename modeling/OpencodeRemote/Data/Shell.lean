import Mathlib.Data.List.Basic
import Mathlib.Data.List.Induction

/-! # How a shell splits a command

The token recognition of the POSIX shell for commands of literal words: blanks, operators,
the three ways of quoting, line continuation, comments, and numbers before redirections. A
command that asks for an expansion has no tokens here, nor has one that ends inside quotes.
The letters of a word remember whether they were quoted: patterns, tildes and reserved
words are made of unquoted letters only.
-/

namespace OpencodeRemote.Data.Shell

structure Letter where
  char : Char
  quoted : Bool
  deriving DecidableEq

inductive Token where
  | word (letters : List Letter)
  /-- The digits right before a redirection. -/
  | ioNumber (letters : List Letter)
  | operator (text : List Char)
  deriving DecidableEq

def quoted (text : List Char) : List Letter := text.map fun c => ⟨c, true⟩

def bare (text : List Char) : List Letter := text.map fun c => ⟨c, false⟩

def chars (letters : List Letter) : List Char := letters.map Letter.char

/-- What is left of a token once the quotes are removed. -/
def Token.text : Token → List Char
  | .word letters => chars letters
  | .ioNumber letters => chars letters
  | .operator text => text

/-! ## Recognition -/

/-- Outside of quotes: what of the current token has been read. -/
inductive Outside where
  | between
  /-- `digits`: it consists of digits so far, without any quotes. -/
  | word (letters : List Letter) (digits : Bool)
  | operator (text : List Char)
  deriving DecidableEq

inductive State where
  | outside (before : Outside)
  /-- After a backslash. -/
  | escaped (before : Outside)
  | single (letters : List Letter)
  | double (letters : List Letter)
  | doubleEscaped (letters : List Letter)
  | comment
  deriving DecidableEq

def operators : List (List Char) :=
  [['&', '&'], ['|', '|'], [';', ';'], ['<', '<'], ['>', '>'], ['<', '&'], ['>', '&'], ['<', '>'],
    ['<', '<', '-'], ['>', '|'], ['&'], ['|'], [';'], ['<'], ['>'], ['('], [')'], ['\n']]

def isBlank (c : Char) : Bool := c = ' ' || c = '\t'

/-- Expansions start with a dollar sign or a backquote, also inside double quotes. -/
def expands (c : Char) : Bool := c = '$' || c.toNat = 96

namespace Outside

/-- The letters of the word to which a quoted part is added. -/
def letters : Outside → List Letter
  | .word letters _ => letters
  | .between | .operator _ => []

/-- The token that a quoted part ends. -/
def ended : Outside → List Token
  | .operator text => [.operator text]
  | .between | .word _ _ => []

def finish : Outside → List Token
  | .between => []
  | .word letters _ => [.word letters]
  | .operator text => [.operator text]

end Outside

/-- The first character of a token, or what stands between tokens. -/
def begin (c : Char) : State :=
  if isBlank c then .outside .between
  else if operators.contains [c] then .outside (.operator [c])
  else if c = '#' then .comment
  else .outside (.word [⟨c, false⟩] c.isDigit)

/-- A character that is not quoted and does not quote. -/
def plain : Outside → Char → List Token × State
  | .between, c => ([], begin c)
  | .operator text, c =>
      if operators.contains (text ++ [c]) then ([], .outside (.operator (text ++ [c])))
      else ([.operator text], begin c)
  | .word letters digits, c =>
      if isBlank c then ([.word letters], .outside .between)
      else if operators.contains [c] then
        ([if digits && (c = '<' || c = '>') then .ioNumber letters else .word letters],
          .outside (.operator [c]))
      else ([], .outside (.word (letters ++ [⟨c, false⟩]) (digits && c.isDigit)))

namespace State

def step : State → Char → Option (List Token × State)
  | .outside before, c =>
      if c = '\\' then some ([], .escaped before)
      else if expands c then none
      else if c = '\'' then some (before.ended, .single before.letters)
      else if c = '"' then some (before.ended, .double before.letters)
      else some (plain before c)
  | .escaped before, c =>
      if c = '\n' then some ([], .outside before)
      else some (before.ended, .outside (.word (before.letters ++ [⟨c, true⟩]) false))
  | .single letters, c =>
      if c = '\'' then some ([], .outside (.word letters false))
      else some ([], .single (letters ++ [⟨c, true⟩]))
  | .double letters, c =>
      if c = '"' then some ([], .outside (.word letters false))
      else if c = '\\' then some ([], .doubleEscaped letters)
      else if expands c then none
      else some ([], .double (letters ++ [⟨c, true⟩]))
  | .doubleEscaped letters, c =>
      if c = '\n' then some ([], .double letters)
      else if expands c || c = '"' || c = '\\' then some ([], .double (letters ++ [⟨c, true⟩]))
      else some ([], .double (letters ++ [⟨'\\', true⟩, ⟨c, true⟩]))
  | .comment, c => some ([], if c = '\n' then .outside (.operator ['\n']) else .comment)

def finish : State → Option (List Token)
  | .outside before => some before.finish
  | .comment => some []
  | .escaped _ | .single _ | .double _ | .doubleEscaped _ => none

def run : State → List Char → Option (List Token × State)
  | state, [] => some ([], state)
  | state, c :: rest => (state.step c).bind fun first =>
      (first.2.run rest).map fun later => (first.1 ++ later.1, later.2)

end State

def tokens (command : List Char) : Option (List Token) :=
  ((State.outside .between).run command).bind fun read =>
    read.2.finish.map fun last => read.1 ++ last

open State

theorem run_append (state : State) (first second : List Char) :
    state.run (first ++ second) = (state.run first).bind fun read =>
      (read.2.run second).map fun later => (read.1 ++ later.1, later.2) := by
  induction first generalizing state with
  | nil => simp [run]
  | cons c rest ih =>
      simp only [List.cons_append, run, Option.bind_assoc]
      refine congrArg (Option.bind _) (funext fun here => ?_)
      rw [ih, Option.map_bind]
      cases here.2.run rest with
      | none => rfl
      | some read => simp [Function.comp_def, List.append_assoc]

/-- Reading one part of a command and then another. -/
theorem run_parts {state middle last : State} {first second : List Char} {read later : List Token}
    (start : state.run first = some (read, middle)) (rest : middle.run second = some (later, last)) :
    state.run (first ++ second) = some (read ++ later, last) := by
  rw [run_append, start, Option.bind_some, rest, Option.map_some]

/-! ## Quoting -/

theorem run_single_literal {text : List Char} (free : '\'' ∉ text) (letters : List Letter) :
    (State.single letters).run text = some ([], .single (letters ++ quoted text)) := by
  induction text generalizing letters with
  | nil => simp [run, quoted]
  | cons c rest ih =>
      rw [List.mem_cons, not_or] at free
      rw [run, step, if_neg (Ne.symm free.1), Option.bind_some, ih free.2]
      simp [quoted]

/-- A text with `'\''` for each of its single quotes. -/
def escape (text : List Char) : List Char :=
  text.flatMap fun c => if c = '\'' then ['\'', '\\', '\'', '\''] else [c]

theorem run_single_escape (text : List Char) (letters : List Letter) :
    (State.single letters).run (escape text) = some ([], .single (letters ++ quoted text)) := by
  induction text generalizing letters with
  | nil => simp [escape, run, quoted]
  | cons c rest ih =>
      rw [escape, List.flatMap_cons]
      have here : (State.single letters).run (if c = '\'' then ['\'', '\\', '\'', '\''] else [c]) =
          some ([], .single (letters ++ [⟨c, true⟩])) := by
        split
        · rename_i quote
          rw [quote]
          rfl
        · rename_i other
          rw [run, step, if_neg other]
          rfl
      exact (run_parts here (ih _)).trans (by simp [quoted])

/-! ## Nothing appears

A single quote gets into a word only after a backslash or between double quotes, and these
do not get into it. -/

/-- Neither a blank nor a single quote, which are dropped at no cost. -/
def weighs (c : Char) : Bool := !isBlank c && c ≠ '\''

def weight (text : List Char) : Nat := text.countP weighs

@[simp] theorem weight_nil : weight [] = 0 := rfl

@[simp] theorem weight_append (first second : List Char) :
    weight (first ++ second) = weight first + weight second := List.countP_append ..

def spoken (read : List Token) : List Char := read.flatMap Token.text

@[simp] theorem spoken_append (first second : List Token) :
    spoken (first ++ second) = spoken first ++ spoken second := List.flatMap_append ..

@[simp] theorem chars_append (first second : List Letter) :
    chars (first ++ second) = chars first ++ chars second := List.map_append ..

@[simp] theorem chars_quoted (text : List Char) : chars (quoted text) = text := by
  simp [chars, quoted, Function.comp_def]

@[simp] theorem chars_bare (text : List Char) : chars (bare text) = text := by
  simp [chars, bare, Function.comp_def]

/-- What of the current token has been read. -/
def Outside.pending : Outside → List Char
  | .between => []
  | .word letters _ => chars letters
  | .operator text => text

namespace State

def pending : State → List Char
  | .outside before => before.pending
  | .escaped before => before.pending
  | .single letters => chars letters
  | .double letters => chars letters
  | .doubleEscaped letters => chars letters ++ ['\\']
  | .comment => []

/-- A backslash or a double quote is in force. -/
def Forcing : State → Prop
  | .outside _ | .single _ | .comment => False
  | .escaped _ | .double _ | .doubleEscaped _ => True

end State

/-- What a step may do with a character: keep it, drop it at no cost, or drop it for what follows. -/
structure Moves (state : State) (c : Char) (moved : List Char) (next : State) : Prop where
  le : weight moved ≤ weight state.pending + weight [c]
  quote : '\'' ∈ moved → '\'' ∈ state.pending ∨ state.Forcing
  forcing : next.Forcing → state.Forcing ∨ weight moved < weight state.pending + weight [c]

theorem begin_moves (c : Char) (other : c ≠ '\'') :
    weight (begin c).pending ≤ weight [c] ∧ '\'' ∉ (begin c).pending ∧ ¬(begin c).Forcing := by
  unfold begin
  split_ifs <;> simp [State.pending, Outside.pending, State.Forcing, chars, Ne.symm other]

/-- A character outside of quotes that is kept, dropped, or the start of something new. -/
theorem Moves.calm {state next : State} {c : Char} {moved : List Char} (other : c ≠ '\'')
    (kept : moved = state.pending ++ [c] ∨ moved = state.pending ++ (begin c).pending ∨ moved = state.pending)
    (calm : ¬next.Forcing) : Moves state c moved next where
  le := by
    have fresh := (begin_moves c other).1
    obtain rfl | rfl | rfl := kept
    · exact Nat.le_of_eq (weight_append ..)
    · rw [weight_append]
      omega
    · omega
  quote member := by
    have fresh := (begin_moves c other).2.1
    obtain rfl | rfl | rfl := kept
    · exact .inl (by simpa [Ne.symm other] using member)
    · exact .inl (by simpa [fresh] using member)
    · exact .inl member
  forcing force := absurd force calm

theorem plain_moves (before : Outside) {c : Char} (other : c ≠ '\'') :
    Moves (.outside before) c (spoken (plain before c).1 ++ (plain before c).2.pending) (plain before c).2 := by
  have calm := (begin_moves c other).2.2
  cases before with
  | between => exact .calm other (.inr (.inl rfl)) calm
  | operator text =>
      simp only [plain]
      split_ifs
      · exact .calm other (.inl rfl) id
      · exact .calm other (.inr (.inl (by simp [spoken, Token.text, State.pending, Outside.pending]))) calm
  | word letters digits =>
      simp only [plain]
      split_ifs
      · exact .calm other (.inr (.inr (by simp [spoken, Token.text, State.pending, Outside.pending]))) id
      · exact .calm other (.inl (by simp [spoken, Token.text, State.pending, Outside.pending])) id
      · exact .calm other (.inl (by simp [spoken, Token.text, State.pending, Outside.pending])) id
      · exact .calm other (.inl (by simp [spoken, State.pending, Outside.pending, chars])) id

/-- A quoted part goes on with the word before it, or ends the operator before it. -/
theorem spoken_ended (before : Outside) : spoken before.ended ++ chars before.letters = before.pending := by
  cases before <;> simp [Outside.ended, Outside.letters, Outside.pending, spoken, Token.text, chars]

/-- A character that puts a backslash or a double quote in force is dropped for it. -/
theorem Moves.forced {state next : State} {c : Char} (heavy : weighs c = true) :
    Moves state c state.pending next where
  le := Nat.le_add_right ..
  quote := .inl
  forcing _ := .inr (by simp [weight, heavy])

/-- In force, anything that weighs no more may happen. -/
theorem Moves.under_force {state next : State} {c : Char} {moved : List Char} (force : state.Forcing)
    (le : weight moved ≤ weight state.pending + weight [c]) : Moves state c moved next :=
  ⟨le, fun _ => .inr force, fun _ => .inl force⟩

/-- Nothing but the character is dropped. -/
theorem Moves.dropped {state next : State} {c : Char} (calm : ¬next.Forcing) :
    Moves state c state.pending next :=
  ⟨Nat.le_add_right .., .inl, fun force => absurd force calm⟩

theorem step_moves {state next : State} {c : Char} {read : List Token}
    (stepped : state.step c = some (read, next)) : Moves state c (spoken read ++ next.pending) next := by
  cases state with
  | outside before =>
      simp only [State.step] at stepped
      split_ifs at stepped with backslash expansion quote double
      · cases stepped
        exact .forced (by rw [backslash]; rfl)
      · cases stepped
        rw [State.pending, spoken_ended]
        exact .dropped id
      · cases stepped
        rw [State.pending, spoken_ended]
        exact .forced (by rw [double]; rfl)
      · obtain ⟨rfl, rfl⟩ := Prod.mk.inj (Option.some.inj stepped)
        exact plain_moves before quote
  | escaped before =>
      simp only [State.step] at stepped
      split_ifs at stepped
      · cases stepped
        exact .dropped id
      · cases stepped
        refine .under_force trivial ?_
        rw [State.pending, Outside.pending, chars_append, ← List.append_assoc, spoken_ended, weight_append]
        exact Nat.le_refl _
  | single letters =>
      simp only [State.step] at stepped
      split_ifs at stepped with quote
      · cases stepped
        exact .dropped id
      · cases stepped
        exact .calm quote (.inl (by simp [spoken, State.pending, chars])) id
  | double letters =>
      simp only [State.step] at stepped
      split_ifs at stepped with closing backslash
      all_goals
        cases stepped
        refine .under_force trivial ?_
      · exact Nat.le_add_right ..
      · rw [backslash]
        exact Nat.le_of_eq (weight_append (chars letters) ['\\'])
      · simp [spoken, State.pending, chars]
  | doubleEscaped letters =>
      simp only [State.step] at stepped
      have both : weight ['\\', c] = weight ['\\'] + weight [c] := weight_append ['\\'] [c]
      split_ifs at stepped
      all_goals
        cases stepped
        refine .under_force trivial ?_
      · simp only [spoken, State.pending, List.flatMap_nil, List.nil_append, weight_append]
        omega
      · simp [spoken, State.pending, chars]
      · simp only [spoken, State.pending, chars, List.flatMap_nil, List.nil_append, List.map_append, List.map_cons,
          List.map_nil, weight_append, both]
        omega
  | comment =>
      cases stepped
      split
      · rename_i newline
        exact .calm (by rw [newline]; decide) (.inl (by rw [newline]; rfl)) id
      · exact .dropped id

/-- The tokens and what is pending weigh no more than the text read so far, and less once a
    single quote is among them. -/
structure Balanced (past : List Char) (out : List Char) (state : State) : Prop where
  le : weight out ≤ weight past
  quote : '\'' ∈ out ∨ state.Forcing → weight out < weight past

theorem run_balanced {text past : List Char} {state last : State} {said : List Char} {read : List Token}
    (balanced : Balanced past (said ++ state.pending) state) (ran : state.run text = some (read, last)) :
    Balanced (past ++ text) (said ++ spoken read ++ last.pending) last := by
  induction text generalizing past state said read with
  | nil =>
      cases ran
      simpa [spoken] using balanced
  | cons c rest ih =>
      rw [State.run, Option.bind_eq_some_iff] at ran
      obtain ⟨⟨here, next⟩, stepped, ran⟩ := ran
      rw [Option.map_eq_some_iff] at ran
      obtain ⟨⟨later, _⟩, ran, same⟩ := ran
      cases same
      have moves := step_moves stepped
      have after : Balanced (past ++ [c]) (said ++ spoken here ++ next.pending) next := by
        have le := balanced.le
        have bound := moves.le
        constructor
        · simp only [weight_append] at le bound ⊢
          omega
        · intro cause
          have lighter : '\'' ∈ said ++ state.pending ∨ state.Forcing ∨
              weight (spoken here ++ next.pending) < weight state.pending + weight [c] := by
            rcases cause with member | force
            · rw [List.append_assoc, List.mem_append] at member
              rcases member with old | new
              · exact .inl (List.mem_append_left _ old)
              · exact (moves.quote new).imp (List.mem_append_right _) .inl
            · exact .inr (moves.forcing force)
          rcases lighter with old | force | lighter
          · have strict := balanced.quote (.inl old)
            simp only [weight_append] at strict bound ⊢
            omega
          · have strict := balanced.quote (.inr force)
            simp only [weight_append] at strict bound ⊢
            omega
          · simp only [weight_append] at le lighter ⊢
            omega
      have whole := ih after ran
      rw [List.append_assoc, List.singleton_append] at whole
      simpa [List.append_assoc] using whole

theorem spoken_finish {state : State} {rest : List Token} (finished : state.finish = some rest) :
    spoken rest = state.pending := by
  cases state with
  | outside before =>
      cases finished
      cases before <;> simp [Outside.finish, spoken, Token.text, State.pending, Outside.pending]
  | comment =>
      cases finished
      rfl
  | escaped | single | double | doubleEscaped => cases finished

/-- A command whose tokens have all of its weight has no single quote in them. -/
theorem quote_free_of_weight {command : List Char} {read : List Token} (split : tokens command = some read)
    (whole : weight command ≤ weight (spoken read)) : '\'' ∉ spoken read := by
  rw [tokens, Option.bind_eq_some_iff] at split
  obtain ⟨⟨emitted, last⟩, ran, split⟩ := split
  rw [Option.map_eq_some_iff] at split
  obtain ⟨rest, finished, rfl⟩ := split
  have start : Balanced [] ([] ++ (State.outside .between).pending) (.outside .between) := by
    refine ⟨Nat.le_refl _, fun cause => ?_⟩
    simp [State.pending, Outside.pending, State.Forcing] at cause
  have balanced := run_balanced start ran
  rw [List.nil_append, List.nil_append] at balanced
  rw [spoken_append, spoken_finish finished] at whole ⊢
  exact fun member => absurd whole (Nat.not_le_of_gt (balanced.quote (.inl member)))

end OpencodeRemote.Data.Shell
