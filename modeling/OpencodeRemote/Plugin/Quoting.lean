import OpencodeRemote.Data.Shell
import OpencodeRemote.Plugin.Ssh

/-! # Remote paths in remote commands

`installStub` and `remoteStubHash` put the path of the stub into single quotes. What the
shell of the host makes of their commands, token by token.
-/

namespace OpencodeRemote.Plugin

open Concurrency Data

/-- The shell splits the command into these tokens. -/
def Splits (command : String) (tokens : List Shell.Token) : Prop := Shell.tokens command.toList = some tokens

/-- The tokens of a command as texts. -/
def words (command : String) : Option (List String) :=
  (Shell.tokens command.toList).map fun read => read.map fun token => String.ofList token.text

def bareWord (text : String) : Shell.Token := .word (Shell.bare text.toList)

def quotedWord (text : String) : Shell.Token := .word (Shell.quoted text.toList)

def operator (text : String) : Shell.Token := .operator text.toList

theorem toNat_eq_quote {c : Char} : c.toNat = 39 ↔ c = '\'' := by
  constructor
  · intro same
    exact Char.toNat_inj.mp same
  · rintro rfl
    rfl

theorem replaceQuotes_toList (s text : String) : (replaceQuotes s text).toList =
    s.toList.flatMap fun c => if c = '\'' then text.toList else [c] := by
  simp only [replaceQuotes, String.toList_ofList, toNat_eq_quote]

namespace SSHManager

open Remote

/-! ## The commands -/

def installCommand (tempPath remotePath : String) : String :=
  let escapedTemp := replaceQuotes tempPath "'''"
  let escapedRemote := replaceQuotes remotePath "'''"
  s!"chmod +x '{escapedTemp}' && mv -f '{escapedTemp}' '{escapedRemote}' && chmod +x '{escapedRemote}'"

def hashCommand (remotePath : String) : String :=
  let escapedPath := replaceQuotes remotePath "'\\''"
  s!"if [ -f '{escapedPath}' ]; then sha256sum '{escapedPath}' 2>/dev/null | awk '" ++ "\x7bprint $1\x7d'; fi"

/-- What the command to install a stub is to be: both paths are literal words wherever they stand. -/
def installing (tempPath remotePath : String) : List Shell.Token :=
  [bareWord "chmod", bareWord "+x", quotedWord tempPath, operator "&&",
    bareWord "mv", bareWord "-f", quotedWord tempPath, quotedWord remotePath, operator "&&",
    bareWord "chmod", bareWord "+x", quotedWord remotePath]

def hashing (remotePath : String) : List Shell.Token :=
  [bareWord "if", bareWord "[", bareWord "-f", quotedWord remotePath, bareWord "]", operator ";",
    bareWord "then", bareWord "sha256sum", quotedWord remotePath, .ioNumber (Shell.bare ['2']), operator ">",
    bareWord "/dev/null", operator "|", bareWord "awk", quotedWord "\x7bprint $1\x7d", operator ";", bareWord "fi"]

/-- A quoted text, the end of its quotes, a blank and the rest of the command. -/
def closing (encoded rest : List Char) : List Char := encoded ++ '\'' :: ' ' :: rest

theorem installCommand_toList (tempPath remotePath : String) : (installCommand tempPath remotePath).toList =
    "chmod +x '".toList ++ closing (replaceQuotes tempPath "'''").toList
      ("&& mv -f '".toList ++ closing (replaceQuotes tempPath "'''").toList
        (['\''] ++ closing (replaceQuotes remotePath "'''").toList
          ("&& chmod +x '".toList ++ ((replaceQuotes remotePath "'''").toList ++ ['\''])))) := by
  have apart : "' && mv -f '".toList = '\'' :: ' ' :: "&& mv -f '".toList := by decide +kernel
  have apart' : "' '".toList = '\'' :: ' ' :: ['\''] := by decide +kernel
  have apart'' : "' && chmod +x '".toList = '\'' :: ' ' :: "&& chmod +x '".toList := by decide +kernel
  have last : "'".toList = ['\''] := by decide +kernel
  delta installCommand
  simp only [closing, toString, String.toList_append, apart, apart', apart'', last]
  simp only [List.append_assoc, List.cons_append, List.nil_append]

theorem hashCommand_toList (remotePath : String) : (hashCommand remotePath).toList =
    "if [ -f '".toList ++ closing (replaceQuotes remotePath "'\\''").toList
      ("]; then sha256sum '".toList ++ closing (replaceQuotes remotePath "'\\''").toList
        "2>/dev/null | awk '\x7bprint $1\x7d'; fi".toList) := by
  have apart : "' ]; then sha256sum '".toList = '\'' :: ' ' :: "]; then sha256sum '".toList := by decide +kernel
  have apart' : "' 2>/dev/null | awk '".toList ++ "\x7bprint $1\x7d'; fi".toList =
      '\'' :: ' ' :: "2>/dev/null | awk '\x7bprint $1\x7d'; fi".toList := by decide +kernel
  delta hashCommand
  simp only [closing, toString, String.toList_append, apart, apart', List.append_assoc,
    List.cons_append]

/-! ## Without quotes in the path -/

theorem run_closing {encoded text rest : List Char} {read : List Shell.Token} {last : Shell.State}
    (part : (Shell.State.single []).run encoded = some ([], .single (Shell.quoted text)))
    (later : (Shell.State.outside .between).run rest = some (read, last)) :
    (Shell.State.single []).run (closing encoded rest) = some (.word (Shell.quoted text) :: read, last) := by
  refine Shell.run_parts part ?_
  simp [Shell.State.run, Shell.State.step, Shell.plain, Shell.expands, Shell.isBlank, later]

/-- The correct replacement reads as the path, whatever is in it. -/
theorem run_replaceQuotes (text : String) : (Shell.State.single []).run (replaceQuotes text "'\\''").toList =
    some ([], .single (Shell.quoted text.toList)) := by
  have same : "'\\''".toList = ['\'', '\\', '\'', '\''] := by decide +kernel
  rw [replaceQuotes_toList, same]
  exact Shell.run_single_escape text.toList []

/-- Without a single quote the replacement does not matter. -/
theorem run_replaceQuotes_free {text : String} (free : '\'' ∉ text.toList) (replacement : String) :
    (Shell.State.single []).run (replaceQuotes text replacement).toList =
      some ([], .single (Shell.quoted text.toList)) := by
  have same : (replaceQuotes text replacement).toList = text.toList := by
    rw [replaceQuotes_toList, ← List.flatMap_singleton' text.toList, List.flatMap_assoc]
    refine List.flatMap_congr fun c member => ?_
    rw [List.flatMap_singleton, if_neg]
    rintro rfl
    exact free member
  rw [same]
  exact Shell.run_single_literal free []

theorem splits_hashCommand (remotePath : String) : Splits (hashCommand remotePath) (hashing remotePath) := by
  have part := run_replaceQuotes remotePath
  have start : (Shell.State.outside .between).run "if [ -f '".toList =
      some ([bareWord "if", bareWord "[", bareWord "-f"], .single []) := by decide +kernel
  have middle : (Shell.State.outside .between).run "]; then sha256sum '".toList =
      some ([bareWord "]", operator ";", bareWord "then", bareWord "sha256sum"], .single []) := by decide +kernel
  have last : (Shell.State.outside .between).run "2>/dev/null | awk '\x7bprint $1\x7d'; fi".toList =
      some ([.ioNumber (Shell.bare ['2']), operator ">", bareWord "/dev/null", operator "|", bareWord "awk",
        quotedWord "\x7bprint $1\x7d", operator ";"], .outside (.word (Shell.bare ['f', 'i']) false)) := by
    decide +kernel
  have whole := Shell.run_parts start (run_closing part (Shell.run_parts middle (run_closing part last)))
  rw [Splits, Shell.tokens, hashCommand_toList, whole]
  rfl

theorem splits_installCommand {tempPath remotePath : String} (temp : '\'' ∉ tempPath.toList)
    (remote : '\'' ∉ remotePath.toList) :
    Splits (installCommand tempPath remotePath) (installing tempPath remotePath) := by
  have tempPart := run_replaceQuotes_free temp "'''"
  have remotePart := run_replaceQuotes_free remote "'''"
  have start : (Shell.State.outside .between).run "chmod +x '".toList =
      some ([bareWord "chmod", bareWord "+x"], .single []) := by decide +kernel
  have move : (Shell.State.outside .between).run "&& mv -f '".toList =
      some ([operator "&&", bareWord "mv", bareWord "-f"], .single []) := by decide +kernel
  have gap : (Shell.State.outside .between).run ['\''] = some ([], .single []) := by decide +kernel
  have mark : (Shell.State.outside .between).run "&& chmod +x '".toList =
      some ([operator "&&", bareWord "chmod", bareWord "+x"], .single []) := by decide +kernel
  have last : (Shell.State.single (Shell.quoted remotePath.toList)).run ['\''] =
      some ([], .outside (.word (Shell.quoted remotePath.toList) false)) := rfl
  have whole := Shell.run_parts start (run_closing tempPart (Shell.run_parts move (run_closing tempPart
    (Shell.run_parts gap (run_closing remotePart (Shell.run_parts mark (Shell.run_parts remotePart last)))))))
  rw [Splits, Shell.tokens, installCommand_toList, whole]
  rfl

/-! ## With quotes in the path -/

/-- The three quotes weigh as little as the one. -/
theorem weight_replaceQuotes (text : String) :
    Shell.weight (replaceQuotes text "'''").toList = Shell.weight text.toList := by
  rw [replaceQuotes_toList]
  induction text.toList with
  | nil => rfl
  | cons c rest ih =>
      have cons : Shell.weight (c :: rest) = Shell.weight [c] + Shell.weight rest := Shell.weight_append [c] rest
      rw [List.flatMap_cons, Shell.weight_append, ih, cons]
      refine congrArg (· + Shell.weight rest) ?_
      split
      · rename_i quote
        rw [quote]
        decide +kernel
      · rfl

theorem weight_closing (encoded rest : List Char) :
    Shell.weight (closing encoded rest) = Shell.weight encoded + Shell.weight rest := by
  rw [closing, Shell.weight_append]
  rfl

/-- All of the command's weight is in the tokens that it is to have. -/
theorem weight_installCommand (tempPath remotePath : String) :
    Shell.weight (installCommand tempPath remotePath).toList =
      Shell.weight (Shell.spoken (installing tempPath remotePath)) := by
  have text : Shell.spoken (installing tempPath remotePath) =
      "chmod+x".toList ++ tempPath.toList ++ "&&mv-f".toList ++ tempPath.toList ++ remotePath.toList ++
        "&&chmod+x".toList ++ remotePath.toList := by
    have first : "chmod+x".toList = "chmod".toList ++ "+x".toList := by decide +kernel
    have second : "&&mv-f".toList = "&&".toList ++ ("mv".toList ++ "-f".toList) := by decide +kernel
    have third : "&&chmod+x".toList = "&&".toList ++ ("chmod".toList ++ "+x".toList) := by decide +kernel
    rw [first, second, third]
    simp only [Shell.spoken, installing, bareWord, quotedWord, operator, Shell.Token.text, Shell.chars_bare,
      Shell.chars_quoted, List.flatMap_cons, List.flatMap_nil, List.append_assoc, List.append_nil]
  have start : Shell.weight "chmod +x '".toList = Shell.weight "chmod+x".toList := by decide +kernel
  have move : Shell.weight "&& mv -f '".toList = Shell.weight "&&mv-f".toList := by decide +kernel
  have mark : Shell.weight "&& chmod +x '".toList = Shell.weight "&&chmod+x".toList := by decide +kernel
  have quote : Shell.weight ['\''] = 0 := by decide +kernel
  rw [installCommand_toList, text]
  simp only [Shell.weight_append, weight_closing, weight_replaceQuotes, start, move, mark, quote]
  omega

/-- However the shell splits the command: if it reads as intended once the quotes are removed,
    there are no single quotes in the path. -/
theorem quote_free_of_spoken {tempPath remotePath : String} {read : List Shell.Token}
    (split : Splits (installCommand tempPath remotePath) read)
    (same : Shell.spoken read = Shell.spoken (installing tempPath remotePath)) :
    '\'' ∉ remotePath.toList := by
  have free := Shell.quote_free_of_weight split (same ▸ Nat.le_of_eq (weight_installCommand tempPath remotePath))
  rw [same] at free
  intro quote
  have last : quotedWord remotePath ∈ installing tempPath remotePath := by
    simp only [installing, List.mem_cons, true_or, or_true]
  refine free (List.mem_flatMap.mpr ⟨quotedWord remotePath, last, ?_⟩)
  rw [quotedWord, Shell.Token.text, Shell.chars_quoted]
  exact quote

/-! ## The functions -/

/-- Every command that the function sends to a host satisfies `rule`, given what has happened
    in the function before. -/
def Sends {α : Type} (f : Remote α) (rule : List (Event RemoteOp RemoteRes) → String → Prop) : Prop :=
  f.run.Obeys (fun past event => ∀ args command, event.op = .ssh args command → rule past command) []
    fun _ _ => True

variable (manager : SSHManager)

/-- The path to which the stub is uploaded first. -/
def uploadPath (remotePath : String) (now : Nat) : String :=
  let pid := manager.pid
  s!"{remotePath}.upload-{pid}-{now}"

theorem toString_quote_free (n : Nat) : '\'' ∉ (toString n).toList := by
  intro member
  have digits : (toString n).toList = Nat.toDigits 10 n := by simp [Nat.repr]
  rw [digits] at member
  exact absurd (Nat.isDigit_of_mem_toDigits (by decide) (by decide) member) (by decide)

theorem uploadPath_quote_free {remotePath : String} (free : '\'' ∉ remotePath.toList) (now : Nat) :
    '\'' ∉ (manager.uploadPath remotePath now).toList := by
  have upload : '\'' ∉ ".upload-".toList := by decide +kernel
  have dash : '\'' ∉ "-".toList := by decide +kernel
  have pid := toString_quote_free manager.pid
  have time := toString_quote_free now
  simp only [toString] at pid time
  simp only [uploadPath, toString, String.toList_append, List.mem_append, free, upload, pid, dash, time, or_self,
    not_false_eq_true]

section Sending

variable {rule : List (Event RemoteOp RemoteRes) → String → Prop} {past : List (Event RemoteOp RemoteRes)}

/-- The rule as one about events. -/
abbrev Governs (rule : List (Event RemoteOp RemoteRes) → String → Prop)
    (past : List (Event RemoteOp RemoteRes)) (event : Event RemoteOp RemoteRes) : Prop :=
  ∀ args command, event.op = .ssh args command → rule past command

theorem identityArgs_obeys (identityFile : Option String)
    {post : List (Event RemoteOp RemoteRes) → Except String (List String) → Prop}
    (reached : ∀ more identity, post (past ++ more) (.ok identity)) :
    (identityArgs identityFile).run.Obeys (Governs rule) past post := by
  unfold identityArgs
  split
  · simpa using reached [] []
  · simpa using reached [] []
  · intro found
    refine ⟨fun _ _ other => (nomatch other), ?_⟩
    cases found <;> exact reached [_] _

theorem identityArgs_reaches {identityFile : Option String}
    {post : List (Event RemoteOp RemoteRes) → Except String (List String) → Prop}
    (obeys : (identityArgs identityFile).run.Obeys (Governs rule) past post) :
    ∃ more identity, post (past ++ more) (.ok identity) := by
  unfold identityArgs at obeys
  split at obeys
  · exact ⟨[], [], by simpa using obeys⟩
  · exact ⟨[], [], by simpa using obeys⟩
  · exact ⟨_, _, (obeys true).2⟩

variable (localPath : String) (sshConfig : SSHConfig) (identityFile : Option String) (destination : String)

/-- An upload sends no command. -/
theorem scp_obeys {post : List (Event RemoteOp RemoteRes) → Except String Unit → Prop}
    (reached : ∀ more outcome, post (past ++ more) outcome) :
    (await (manager.scp localPath sshConfig identityFile destination)).run.Obeys (Governs rule) past post := by
  refine Program.obeys_bind.mpr (Program.obeys_bind.mpr (identityArgs_obeys identityFile fun more identity => ?_))
  intro outcome
  refine ⟨fun _ _ other => (nomatch other), ?_⟩
  intro turn
  refine ⟨fun _ _ other => (nomatch other), ?_⟩
  rw [List.append_assoc, List.append_assoc]
  exact reached _ outcome

theorem scp_reaches {post : List (Event RemoteOp RemoteRes) → Except String Unit → Prop}
    (obeys : (await (manager.scp localPath sshConfig identityFile destination)).run.Obeys (Governs rule) past post) :
    ∃ more, post (past ++ more) (.ok ()) := by
  obtain ⟨more, identity, rest⟩ := identityArgs_reaches (Program.obeys_bind.mp (Program.obeys_bind.mp obeys))
  have ended := ((rest (.ok ())).2 ()).2
  rw [List.append_assoc, List.append_assoc] at ended
  exact ⟨_, ended⟩

theorem sends_remoteStubHash (sshArgs : List String) (remotePath : String) :
    Sends (remoteStubHash sshArgs remotePath) rule ↔ rule [] (hashCommand remotePath) := by
  constructor
  · intro obeys
    exact (obeys (.ok "")).1 sshArgs _ rfl
  · intro ruled outcome
    refine ⟨fun args command same => ?_, ?_⟩
    · cases same
      exact ruled
    · cases outcome
      all_goals
        intro turn
        refine ⟨fun _ _ other => (nomatch other), ?_⟩
        intro turn'
        exact ⟨fun _ _ other => (nomatch other), trivial⟩

theorem sends_installStub (sshArgs : List String) (remotePath : String)
    (ruled : ∀ now more, rule (⟨.now, now⟩ :: more)
      (installCommand (manager.uploadPath remotePath now) remotePath)) :
    Sends (manager.installStub localPath sshArgs sshConfig identityFile remotePath) rule := by
  intro now
  refine ⟨fun _ _ other => (nomatch other), ?_⟩
  change ((await (manager.scp localPath sshConfig identityFile _)).run.bind _).Obeys _ _ _
  refine Program.obeys_bind.mpr (manager.scp_obeys localPath sshConfig identityFile _ fun more outcome => ?_)
  cases outcome with
  | error e => trivial
  | ok _ =>
      intro output
      refine ⟨fun args command same => ?_, ?_⟩
      · cases same
        exact ruled now more
      · cases output <;> exact fun _ => ⟨fun _ _ other => (nomatch other), trivial⟩

/-- The upload can succeed, and then the command is sent. -/
theorem ruled_of_sends_installStub {sshArgs : List String} {remotePath : String}
    (sends : Sends (manager.installStub localPath sshArgs sshConfig identityFile remotePath) rule) (now : Nat) :
    ∃ more, rule (⟨.now, now⟩ :: more) (installCommand (manager.uploadPath remotePath now) remotePath) := by
  obtain ⟨more, later⟩ := manager.scp_reaches localPath sshConfig identityFile _
    (Program.obeys_bind.mp (sends now).2)
  exact ⟨more, (later (.ok "")).1 sshArgs _ rfl⟩

end Sending

/-- Both functions' commands split into what they are meant to be exactly if there is no
    single quote in the path. -/
theorem paths_survive_iff (localPath : String) (sshArgs : List String) (sshConfig : SSHConfig)
    (identityFile : Option String) (remotePath : String) :
    (Sends (manager.installStub localPath sshArgs sshConfig identityFile remotePath) fun past command =>
        ∀ now, past.head? = some ⟨.now, now⟩ →
          Splits command (installing (manager.uploadPath remotePath now) remotePath)) ∧
      (Sends (remoteStubHash sshArgs remotePath) fun _ command => Splits command (hashing remotePath)) ↔
    '\'' ∉ remotePath.toList := by
  constructor
  · rintro ⟨sends, -⟩
    obtain ⟨more, ruled⟩ := manager.ruled_of_sends_installStub localPath sshConfig identityFile sends 0
    exact quote_free_of_spoken (ruled 0 rfl) rfl
  · intro free
    refine ⟨?_, (sends_remoteStubHash sshArgs remotePath).mpr (splits_hashCommand remotePath)⟩
    refine manager.sends_installStub localPath sshConfig identityFile sshArgs remotePath fun now more later same => ?_
    cases same
    exact splits_installCommand (manager.uploadPath_quote_free free now) free

/-- In the home of a user with a quote in the name, the stub is uploaded and never moved: all of
    the command becomes the names of two files that do not exist. -/
theorem not_survive_with_quote :
    (¬∀ (manager : SSHManager) (localPath : String) (sshArgs : List String) (sshConfig : SSHConfig)
      (identityFile : Option String) (remotePath : String), Char.ofNat 0 ∉ remotePath.toList →
        Sends (manager.installStub localPath sshArgs sshConfig identityFile remotePath) fun past command =>
          ∀ now, past.head? = some ⟨.now, now⟩ →
            Splits command (installing (manager.uploadPath remotePath now) remotePath)) ∧
      words (installCommand "/home/o'brien/stub.upload-7-1" "/home/o'brien/stub") =
        some ["chmod", "+x", "/home/obrien/stub.upload-7-1 && mv -f /home/obrien/stub.upload-7-1",
          "/home/obrien/stub && chmod +x /home/obrien/stub"] := by
  refine ⟨fun survive => ?_, by rw [words, installCommand_toList]; decide +kernel⟩
  let manager : SSHManager := ⟨oneProvider "lab" [web] (List.cons_ne_nil _ _), some "/home/me", "/tmp", 7⟩
  obtain ⟨more, ruled⟩ := manager.ruled_of_sends_installStub "/opt/stub" web.ssh none
    (survive manager "/opt/stub" [] web.ssh none "/home/o'brien/stub" (by decide +kernel)) 1
  exact absurd (quote_free_of_spoken (ruled 1 rfl) rfl) (by decide +kernel)

end SSHManager

end OpencodeRemote.Plugin
