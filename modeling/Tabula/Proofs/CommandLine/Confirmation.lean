import Tabula.Proofs.CommandLine.Arguments
import Tabula.Proofs.CommandLine.LineEditor
import Tabula.Proofs.Storage.Failure
import Tabula.Proofs.Text.Keyword

/-!
# Confirmed input

Commands and the answers to the questions before them come from one input. The input that is
confirmed is what remains of it without the answers, without the commands that were not let happen,
and without what is never read as a command. A call that asks leaves the files and shows the errors
that a call which does not ask leaves and shows with the confirmed input.

What counts as an answer is the text that the line editor gives for a line, in which a backspace can
have turned one answer into another. Only the log tells the two calls apart, if it has a line for an
action that was not let happen.
-/

namespace Tabula

/-! ## Answers -/

/-- The verb of the commands that an answer belongs to. -/
def Answer.verb : Answer → Verb
  | .created _ _ => .createTable
  | .dropped _ => .dropTable
  | .tables _ => .listTables
  | .info _ _ _ => .info
  | .inserted _ _ => .insert
  | .rows _ _ _ => .select
  | .updated _ _ => .update
  | .deleted _ _ => .delete
  | .help => .help
  | .exit => .exit

theorem Engine.verb_of_execute {catalog : Catalog} {loader : Loader} {command : Command}
    {outcome : Outcome} (ran : Engine.execute catalog loader command = .ok outcome) :
    outcome.answer.verb = command.verb := by
  cases command with
  | createTable | dropTable | info | insert | select | update | delete =>
      simp only [execute, createTable, dropTable, info, insert, select, update, delete] at ran
      repeat' split at ran
      all_goals cases ran
      all_goals rfl
  | listTables | help | exit =>
      cases ran
      rfl

namespace Session

variable {State : Type} [Storage State] {session after : Session State} {command : Command}
  {answer : Answer}

theorem verb_of_perform {catalog : Catalog}
    (ran : session.perform catalog command = (after, .ok answer)) : answer.verb = command.verb := by
  rw [perform] at ran
  split at ran
  · cases ran
  · rename_i outcome executed
    split at ran
    · cases ran
    · cases ran
      exact Engine.verb_of_execute executed

theorem verb_of_selectRemembered {catalog : Catalog} {table : String}
    {predicate : Option Predicate}
    (ran : session.selectRemembered catalog table predicate = (after, .ok answer)) :
    answer.verb = .select := by
  unfold selectRemembered at ran
  repeat' split at ran
  all_goals cases ran
  all_goals rfl

/-- A command has an answer of its own kind. -/
theorem verb_of_execute (ran : session.execute command = (after, .ok answer)) :
    answer.verb = command.verb := by
  have ofCatalog {next : Catalog → Session State × Except Error Answer} {verb : Verb}
      (known : ∀ catalog, next catalog = (after, .ok answer) → answer.verb = verb)
      (ran : session.withCatalog next = (after, .ok answer)) : answer.verb = verb := by
    rw [withCatalog] at ran
    split at ran
    · cases ran
    · exact known _ ran
  cases command with
  | help | exit =>
      cases ran
      rfl
  | select table predicate =>
      apply ofCatalog _ ran
      intro catalog ran
      split at ran
      · exact verb_of_selectRemembered ran
      · exact verb_of_perform ran
  | createTable | dropTable | listTables | info | insert | update | delete =>
      exact ofCatalog (fun _ => verb_of_perform) ran

theorem answer_eq_exit_iff (ran : session.execute command = (after, .ok answer)) :
    answer = .exit ↔ command = .exit := by
  have same := verb_of_execute ran
  constructor
  · rintro rfl
    cases command with
    | exit => rfl
    | createTable | dropTable | listTables | info | insert | select | update | delete | help =>
        cases same
  · rintro rfl
    cases ran
    rfl

end Session

namespace CommandLine

/-! ## The confirmed input -/

/-- A line without the white space around it. -/
def strip (line : String) : String :=
  String.ofList (Text.trim line.toList)

/-- What a line is where a command is read. -/
inductive LineKind
  | blank
  | ending
  /-- A command that can lose data. -/
  | risky
  | plain
deriving DecidableEq

-- Irreducible, since the cases of what calls it are not told apart by running the parser.
@[irreducible]
def kindOf (line : String) : LineKind :=
  if strip line = "" then .blank
  else match Command.parse (strip line) with
    | .ok .exit => .ending
    | .ok (.dropTable _) | .ok (.delete _ _) => .risky
    | _ => .plain

/-- Whether a line, as an answer, lets a command happen. -/
def agrees (line : String) : Bool :=
  strip line = "y" || strip line = "Y"

/-- The lines of the confirmed input, given what each line is read as. The line after a command that
can lose data is its answer, whatever it says. -/
def confirmedLines (read : String → String) : List String → List String
  | [] => []
  | line :: rest =>
      match kindOf (read line), rest with
      | .blank, rest => confirmedLines read rest
      | .ending, _ => [line]
      | .risky, [] => []
      | .risky, answer :: rest =>
          if agrees (read answer) then line :: confirmedLines read rest
          else confirmedLines read rest
      | .plain, rest => line :: confirmedLines read rest

def confirmedInput (read : String → String) (input : String) : String :=
  String.join (confirmedLines read (typedLines input))

/-- Whether something that happens is an error or noted, and not that an action was not let
happen. -/
def Happening.counts : Happening → Bool
  | .shown (.err _) => true
  | .noted (.cancelled _) => false
  | .noted _ => true
  | .shown _ => false

/-! ## What is read of a line -/

@[simp]
theorem trim_strip (line : String) : Text.trim (strip line).toList = Text.trim line.toList := by
  rw [strip, String.toList_ofList, Text.trim_trim]

@[simp]
theorem parse_strip (line : String) : Command.parse (strip line) = Command.parse line := by
  rw [Command.parse, Command.parse, trim_strip]

theorem strip_eq_iff {line text : String} :
    strip line = text ↔ Text.trim line.toList = text.toList := by
  constructor
  · rintro rfl
    rw [strip, String.toList_ofList]
  · intro same
    rw [strip, same, String.ofList_toList]

theorem strip_eq_empty_iff {line : String} : strip line = "" ↔ Text.trim line.toList = [] :=
  strip_eq_iff

/-- What a kind tells of a line. -/
def LineKind.Tells (line : String) : LineKind → Prop
  | .blank => strip line = ""
  | .ending => strip line ≠ "" ∧ Command.parse line = .ok .exit
  | .risky =>
      strip line ≠ "" ∧
        ∃ command, Command.parse line = .ok command ∧ command.isDestructive = true
  | .plain =>
      strip line ≠ "" ∧
        ((∃ error, Command.parse line = .error error) ∨
          ∃ command, Command.parse line = .ok command ∧ command ≠ .exit ∧
            command.isDestructive = false)

theorem tells_of_kindOf {line : String} {kind : LineKind} (found : kindOf line = kind) :
    kind.Tells line := by
  rw [← found, kindOf, parse_strip]
  split
  · assumption
  · rename_i nonblank
    cases parsed : Command.parse line with
    | error error => exact ⟨nonblank, .inl ⟨error, parsed⟩⟩
    | ok command =>
        cases command with
        | exit => exact ⟨nonblank, parsed⟩
        | dropTable | delete => exact ⟨nonblank, _, parsed, rfl⟩
        | createTable | listTables | info | insert | select | update | help =>
            exact ⟨nonblank, .inr ⟨_, parsed, nofun, rfl⟩⟩

theorem toLower_eq_y_iff {c : Char} : c.toLower = 'y' ↔ c = 'y' ∨ c = 'Y' := by
  constructor
  · intro lower
    unfold Char.toLower at lower
    split at lower
    · right
      have same := congrArg Char.val lower
      apply Char.ext
      rw [← UInt32.add_left_inj ('a'.val - 'A'.val)]
      exact same
    · exact .inl lower
  · rintro (rfl | rfl) <;> rfl

theorem isAffirmative_eq_agrees (line : String) :
    Confirmation.isAffirmative line = agrees line := by
  rw [Bool.eq_iff_iff, agrees, Bool.or_eq_true, decide_eq_true_iff, decide_eq_true_iff,
    strip_eq_iff, strip_eq_iff, Confirmation.isAffirmative, Text.sameIgnoringCase, beq_iff_eq]
  cases Text.trim line.toList with
  | nil => decide
  | cons c rest =>
      cases rest with
      | nil => simpa using toLower_eq_y_iff
      | cons next rest => simp

namespace Dialogue

variable {State : Type} [Storage State] {dialogue : Dialogue State} {line : String}
  {command : Command}

/-! ## Two dialogues -/

/-- The dialogue without questions. -/
def sure (dialogue : Dialogue State) : Dialogue State :=
  { dialogue with confirms := false }

/-- What is left of a dialogue: its session, and what counts of all that happened. -/
def remains (result : Dialogue State × List Happening) : Session State × List Happening :=
  (result.1.session, result.2.filter Happening.counts)

/-- What is left of a dialogue before which something happened. -/
def afterwards (before : List Happening) (remains : Session State × List Happening) :
    Session State × List Happening :=
  (remains.1, before.filter Happening.counts ++ remains.2)

omit [Storage State] in
@[simp]
theorem filter_prompt (dialogue : Dialogue State) :
    dialogue.prompt.filter Happening.counts = [] := by
  rw [prompt]
  split <;> rfl

/-- Whether a command is let happen is all that an answer decides. -/
theorem takeAnswer_eq (dialogue : Dialogue State) (command : Command) (line? : Option String) :
    dialogue.takeAnswer command line? =
      if line?.any agrees then dialogue.perform command else dialogue.cancel command := by
  have same : Confirmation.isAffirmative = agrees := funext isAffirmative_eq_agrees
  rw [takeAnswer, Confirmation.confirm, same]
  by_cases agreed : line?.any agrees = true
  · rw [if_pos agreed, if_pos agreed]
    simp only [Except.map]
  · rw [if_neg agreed, if_neg agreed]

theorem remains_runOut (dialogue : Dialogue State) :
    remains dialogue.runOut = (dialogue.session, []) := by
  cases awaits : dialogue.awaiting <;>
    simp [runOut, finish, takeAnswer_eq, cancel, remains, Happening.counts, prompt, awaits]

theorem remains_run_of_nothing (closed : dialogue.awaiting = .nothing) (lines : List String) :
    remains (dialogue.run lines) = (dialogue.session, []) := by
  cases lines with
  | nil => exact remains_runOut dialogue
  | cons line rest =>
      rw [run, if_pos closed]
      rfl

theorem remains_run_cons (active : dialogue.awaiting ≠ .nothing) (line : String)
    (rest : List String) :
    remains (dialogue.run (line :: rest)) =
      afterwards (dialogue.take line).2 (remains ((dialogue.take line).1.run rest)) := by
  rw [run, if_neg active]
  simp [remains, afterwards]

/-! ## One line -/

theorem awaiting_perform (dialogue : Dialogue State) (command : Command) :
    (dialogue.perform command).1.awaiting = if command = .exit then .nothing else .command := by
  rw [perform]
  rcases ran : dialogue.session.execute command with ⟨after, error | answer⟩
  · have goesOn : command ≠ .exit := by
      rintro rfl
      cases ran
    rw [if_neg goesOn]
  · simp only [Session.answer_eq_exit_iff ran]

theorem confirms_perform (dialogue : Dialogue State) (command : Command) :
    (dialogue.perform command).1.confirms = dialogue.confirms := by
  rw [perform]
  split <;> rfl

theorem perform_sure (dialogue : Dialogue State) (command : Command) :
    dialogue.sure.perform command =
      ((dialogue.perform command).1.sure, (dialogue.perform command).2) := by
  simp only [perform, notes, sure]
  split <;> rfl

theorem take_of_blank (ready : dialogue.awaiting = .command) (blank : strip line = "") :
    dialogue.take line = (dialogue, []) := by
  simp only [take, ready, takeCommand, strip_eq_empty_iff.mp blank, if_true]

theorem take_of_error {error : Error} (ready : dialogue.awaiting = .command)
    (nonblank : strip line ≠ "") (refused : Command.parse line = .error error) :
    dialogue.take line = (dialogue, [.shown (.err ("Error: " ++ error.message))]) := by
  have something := mt strip_eq_empty_iff.mpr nonblank
  simp only [take, ready, takeCommand, if_neg something, refused]

theorem take_of_parse (ready : dialogue.awaiting = .command) (nonblank : strip line ≠ "")
    (parsed : Command.parse line = .ok command) :
    dialogue.take line =
      if dialogue.confirms ∧ command.isDestructive then
        ({ dialogue with awaiting := .confirmation command }, [])
      else dialogue.perform command := by
  have something := mt strip_eq_empty_iff.mpr nonblank
  simp only [take, ready, takeCommand, if_neg something, parsed]

theorem take_sure (ready : dialogue.awaiting = .command) (nonblank : strip line ≠ "")
    (parsed : Command.parse line = .ok command) :
    dialogue.sure.take line =
      ((dialogue.perform command).1.sure, (dialogue.perform command).2) := by
  have readySure : dialogue.sure.awaiting = .command := ready
  rw [take_of_parse readySure nonblank parsed, if_neg (fun asked => nomatch asked.1), perform_sure]

theorem take_answer (answer : String) :
    { dialogue with awaiting := .confirmation command }.take answer =
      if agrees answer then dialogue.perform command
      else ({ dialogue with awaiting := .command }.cancel command) := by
  simp only [take, takeAnswer_eq, Option.any_some, perform, notes, cancel]

/-- A dialogue that confirms, and awaits a command. -/
structure Asking (dialogue : Dialogue State) : Prop where
  confirms : dialogue.confirms = true
  ready : dialogue.awaiting = .command

omit [Storage State] in
theorem Asking.active (asking : dialogue.Asking) : dialogue.awaiting ≠ .nothing := by
  simp [asking.ready]

theorem Asking.perform (asking : dialogue.Asking) (goesOn : command ≠ .exit) :
    (dialogue.perform command).1.Asking :=
  ⟨by rw [confirms_perform, asking.confirms], by rw [awaiting_perform, if_neg goesOn]⟩

/-- A command that loses nothing, with all that follows it. -/
theorem Asking.remains_safe (asking : dialogue.Asking) (nonblank : strip line ≠ "")
    (parsed : Command.parse line = .ok command) (safe : command.isDestructive = false)
    (rest : List String) :
    remains (dialogue.run (line :: rest)) =
      afterwards (dialogue.perform command).2
        (remains ((dialogue.perform command).1.run rest)) := by
  have unasked : ¬(dialogue.confirms ∧ command.isDestructive) := by simp [safe]
  rw [remains_run_cons asking.active, take_of_parse asking.ready nonblank parsed, if_neg unasked]

/-- A command that nothing is asked before, with all that follows it. -/
theorem Asking.remains_sure (asking : dialogue.Asking) (nonblank : strip line ≠ "")
    (parsed : Command.parse line = .ok command) (rest : List String) :
    remains (dialogue.sure.run (line :: rest)) =
      afterwards (dialogue.perform command).2
        (remains ((dialogue.perform command).1.sure.run rest)) := by
  have active : dialogue.sure.awaiting ≠ .nothing := asking.active
  rw [remains_run_cons active, take_sure asking.ready nonblank parsed]

/-- A command that is asked about, with its answer and all that follows. -/
theorem Asking.remains_answered (asking : dialogue.Asking) (nonblank : strip line ≠ "")
    (parsed : Command.parse line = .ok command) (risks : command.isDestructive = true)
    (answer : String) (rest : List String) :
    remains (dialogue.run (line :: answer :: rest)) =
      if agrees answer then
        afterwards (dialogue.perform command).2 (remains ((dialogue.perform command).1.run rest))
      else remains (dialogue.run rest) := by
  have questioned : { dialogue with awaiting := .confirmation command }.awaiting ≠ .nothing := by
    simp
  have unchanged : { dialogue with awaiting := .command } = dialogue := by rw [← asking.ready]
  rw [remains_run_cons asking.active, take_of_parse asking.ready nonblank parsed,
    if_pos ⟨asking.confirms, risks⟩, remains_run_cons questioned, take_answer]
  split
  · rfl
  · rw [cancel, unchanged]
    rfl

/-- The induction is on the lines as `confirmedLines` walks them. Between its steps the dialogue
awaits a command; a question and its answer are one step. -/
theorem Asking.remains_run (asking : dialogue.Asking) (read : String → String)
    (lines : List String) :
    remains (dialogue.run (lines.map read)) =
      remains (dialogue.sure.run ((confirmedLines read lines).map read)) := by
  induction lines using confirmedLines.induct read generalizing dialogue with
  | case1 =>
      rw [confirmedLines]
      exact (remains_runOut dialogue).trans (remains_runOut dialogue.sure).symm
  | case2 line rest blank ih =>
      simp only [confirmedLines, blank, List.map_cons]
      rw [remains_run_cons asking.active, take_of_blank asking.ready (tells_of_kindOf blank),
        ← ih asking]
      rfl
  | case3 line rest ending =>
      rcases tells_of_kindOf ending with ⟨nonblank, parsed⟩
      have closed : (dialogue.perform .exit).1.awaiting = .nothing :=
        awaiting_perform dialogue .exit
      have closedSure : (dialogue.perform .exit).1.sure.awaiting = .nothing := closed
      simp only [confirmedLines, ending, List.map_cons]
      rw [asking.remains_safe nonblank parsed rfl, asking.remains_sure nonblank parsed,
        remains_run_of_nothing closed, remains_run_of_nothing closedSure]
      rfl
  | case4 line risky =>
      rcases tells_of_kindOf risky with ⟨nonblank, command, parsed, risks⟩
      simp only [confirmedLines, risky, List.map_cons]
      rw [remains_run_cons asking.active, take_of_parse asking.ready nonblank parsed,
        if_pos ⟨asking.confirms, risks⟩]
      exact (congrArg _ (remains_runOut _)).trans (remains_runOut dialogue.sure).symm
  | case5 line answer rest risky agreed ih =>
      rcases tells_of_kindOf risky with ⟨nonblank, command, parsed, risks⟩
      have goesOn : command ≠ .exit := by
        rintro rfl
        cases risks
      simp only [confirmedLines, risky, List.map_cons]
      rw [if_pos agreed, asking.remains_answered nonblank parsed risks, if_pos agreed,
        List.map_cons, asking.remains_sure nonblank parsed, ih (asking.perform goesOn)]
  | case6 line answer rest risky declined ih =>
      rcases tells_of_kindOf risky with ⟨nonblank, command, parsed, risks⟩
      simp only [confirmedLines, risky, List.map_cons]
      rw [if_neg declined, asking.remains_answered nonblank parsed risks, if_neg declined,
        ih asking]
  | case7 line rest plain ih =>
      simp only [confirmedLines, plain, List.map_cons]
      rcases tells_of_kindOf plain with
        ⟨nonblank, ⟨error, refused⟩ | ⟨command, parsed, goesOn, safe⟩⟩
      · have activeSure : dialogue.sure.awaiting ≠ .nothing := asking.active
        have readySure : dialogue.sure.awaiting = .command := asking.ready
        rw [remains_run_cons asking.active, take_of_error asking.ready nonblank refused,
          remains_run_cons activeSure, take_of_error readySure nonblank refused, ih asking]
      · rw [asking.remains_safe nonblank parsed safe, asking.remains_sure nonblank parsed,
          ih (asking.perform goesOn)]

end Dialogue

/-! ## The lines of the confirmed input -/

theorem confirmedLines_sublist (read : String → String) (lines : List String) :
    (confirmedLines read lines).Sublist lines := by
  induction lines using confirmedLines.induct read with
  | case1 => exact .slnil
  | case2 line rest blank ih =>
      simp only [confirmedLines, blank]
      exact ih.cons line
  | case3 line rest ending =>
      simp only [confirmedLines, ending]
      exact (List.nil_sublist rest).cons_cons line
  | case4 line risky =>
      simp only [confirmedLines, risky]
      exact List.nil_sublist [line]
  | case5 line answer rest risky agreed ih =>
      simp only [confirmedLines, risky, if_pos agreed]
      exact (ih.cons answer).cons_cons line
  | case6 line answer rest risky declined ih =>
      simp only [confirmedLines, risky, if_neg declined]
      exact (ih.cons answer).cons line
  | case7 line rest plain ih =>
      simp only [confirmedLines, plain]
      exact ih.cons_cons line

theorem confirmedLines_congr {left right : String → String} {lines : List String}
    (same : ∀ line ∈ lines, left line = right line) :
    confirmedLines left lines = confirmedLines right lines := by
  induction lines using confirmedLines.induct left with
  | case1 => rfl
  | case2 line rest kind ih | case7 line rest kind ih =>
      have first := same line List.mem_cons_self
      have later := ih fun other other_mem => same other (List.mem_cons_of_mem line other_mem)
      simp only [confirmedLines, ← first, kind, later]
  | case3 line rest kind | case4 line kind =>
      have first := same line List.mem_cons_self
      simp only [confirmedLines, ← first, kind]
  | case5 line answer rest kind agreed ih | case6 line answer rest kind agreed ih =>
      have first := same line List.mem_cons_self
      have second := same answer (List.mem_cons_of_mem line List.mem_cons_self)
      have later := ih fun other other_mem =>
        same other (List.mem_cons_of_mem line (List.mem_cons_of_mem answer other_mem))
      simp only [confirmedLines, ← first, ← second, kind, agreed, later]

/-- Without backspaces, no line editor makes a difference to what is confirmed. -/
theorem confirmedInput_of_plain (editor : LineEditor) {input : String}
    (plain : backspace ∉ input.toList) :
    confirmedInput editor.text input = confirmedInput dropEnding input := by
  rw [confirmedInput, confirmedInput,
    confirmedLines_congr fun line line_mem => editor.text_of_mem plain line_mem]

/-! ## Calls -/

/-- Calls that come to the same, whatever they print in the ordinary output, and whichever actions
they note that were not let happen. -/
structure Outcome.Matches (left right : Outcome) : Prop where
  code : left.code = right.code
  files : left.files = right.files
  errorOutput : ∀ log : Note → List String, (∀ action, log (.cancelled action) = []) →
    left.errorOutput log = right.errorOutput log

/-- A call with arguments that do not say `--yes`, by which commands that can lose data are
confirmed and no lines are kept in a file. -/
structure Asks (arguments : List String) (files : FileSystem) (options : Options)
    (config : Config) : Prop where
  read : Request.ofArguments arguments = .run options
  unsure : .yes ∉ options.given
  configured : configure options files = .ok config
  confirms : config.confirmDestructive = true
  forgets : config.historyFile = none

variable {arguments : List String} {files : FileSystem} {options : Options} {config : Config}

theorem Asks.call_eq (asks : Asks arguments files options config) (editor : LineEditor)
    (input : String) :
    callWith editor arguments input files = converse editor config input files := by
  simp only [callWith, asks.read, asks.configured]

theorem Asks.call_yes_eq (asks : Asks arguments files options config) (editor : LineEditor)
    (input : String) :
    callWith editor ("--yes" :: arguments) input files =
      converse editor config.sure input files := by
  simp only [callWith, ofArguments_yes asks.read asks.unsure,
    configure_sure asks.read asks.configured]

theorem Asks.asking {State : Type} [Storage State] (asks : Asks arguments files options config)
    (storage : State) : (Dialogue.start config storage).Asking :=
  ⟨asks.confirms, rfl⟩

theorem Dialogue.start_sure {State : Type} [Storage State] (config : Config) (storage : State) :
    Dialogue.start config.sure storage = (Dialogue.start config storage).sure :=
  rfl

section Converse

variable (editor : LineEditor) (config : Config) (input : String) (files : FileSystem)

theorem happenings_converse :
    (converse editor config input files).happenings.filter Happening.counts =
      if config.inMemory then
        (Dialogue.remains ((Dialogue.start config Memory.empty).run (editor.lines input))).2
      else (Dialogue.remains ((overFiles config files).run (editor.lines input))).2 := by
  rw [converse]
  split <;> simp [Dialogue.remains, Happening.counts]

theorem files_converse :
    (converse editor config input files).files =
      if config.inMemory then files
      else
        (Dialogue.remains ((overFiles config files).run (editor.lines input))).1.storage.files := by
  rw [converse]
  split <;> simp [Dialogue.remains]

theorem code_converse : (converse editor config input files).code = 0 := by
  rw [converse]
  split <;> rfl

end Converse

/-- What does not count has no line in the error output. -/
theorem errorLines_of_not_counts {log : Note → List String} {happening : Happening}
    (silent : ∀ action, log (.cancelled action) = []) (idle : happening.counts = false) :
    happening.errorLines log = [] := by
  match happening with
  | .shown (.err _) | .noted (.created _ _) | .noted (.dropped _) => cases idle
  | .shown (.out _) | .shown (.elapsed _) => rfl
  | .noted (.cancelled action) => exact silent action

theorem flatMap_errorLines_filter {log : Note → List String}
    (silent : ∀ action, log (.cancelled action) = []) (happenings : List Happening) :
    (happenings.filter Happening.counts).flatMap (Happening.errorLines log) =
      happenings.flatMap (Happening.errorLines log) := by
  induction happenings with
  | nil => rfl
  | cons happening rest ih =>
      rw [List.filter_cons]
      split
      · rw [List.flatMap_cons, List.flatMap_cons, ih]
      · rename_i idle
        rw [List.flatMap_cons, ih,
          errorLines_of_not_counts silent (Bool.not_eq_true _ |>.mp idle), List.nil_append]

theorem Outcome.matches_of_counts {left right : Outcome} (code : left.code = right.code)
    (files : left.files = right.files)
    (counts : left.happenings.filter Happening.counts =
      right.happenings.filter Happening.counts) : left.Matches right where
  code := code
  files := files
  errorOutput log silent := by
    rw [Outcome.errorOutput, Outcome.errorOutput, ← flatMap_errorLines_filter silent, counts,
      flatMap_errorLines_filter silent]

/-- What is left of a dialogue with the confirmed input and no questions. -/
theorem remains_confirmedInput {State : Type} [Storage State] {dialogue : Dialogue State}
    (asking : dialogue.Asking) (editor : LineEditor) (input : String) :
    Dialogue.remains (dialogue.sure.run (editor.lines (confirmedInput editor.text input))) =
      Dialogue.remains (dialogue.run (editor.lines input)) := by
  rw [confirmedInput, editor.lines_join (confirmedLines_sublist _ _), LineEditor.lines,
    asking.remains_run]

/-- Commands that can lose data run only when they are confirmed: a call that asks comes to the
same as a call with `--yes` that is given the confirmed input. Which input that is depends on the
line editor only if there are backspaces. -/
theorem call_yes_confirmedInput (editor : LineEditor)
    (asks : Asks arguments files options config) (input : String) :
    (callWith editor ("--yes" :: arguments) (confirmedInput editor.text input) files).Matches
        (callWith editor arguments input files) ∧
      (backspace ∉ input.toList →
        confirmedInput editor.text input = confirmedInput dropEnding input) := by
  refine ⟨?_, confirmedInput_of_plain editor⟩
  rw [asks.call_eq, asks.call_yes_eq]
  have memory := remains_confirmedInput (asks.asking Memory.empty) editor input
  have directory (directory : Directory) :=
    remains_confirmedInput (asks.asking directory) editor input
  apply Outcome.matches_of_counts
  · rw [code_converse, code_converse]
  · simp only [files_converse, overFiles, Dialogue.start_sure, directory]
    rfl
  · simp only [happenings_converse, overFiles, Dialogue.start_sure, memory, directory]
    rfl

theorem call_yes_confirmedInput_declined :
    Asks [] (.ofDirectory []) {} {} ∧
      confirmedInput dropEnding "create_table t a:int\n\ndrop_table t\nno\nexit\nhelp\n" =
          "create_table t a:int\nexit\n" ∧
        (call ["--yes"] "create_table t a:int\nexit\n" (.ofDirectory [])).Matches
          (call [] "create_table t a:int\n\ndrop_table t\nno\nexit\nhelp\n" (.ofDirectory [])) := by
  have asks : Asks [] (.ofDirectory []) {} {} := ⟨rfl, nofun, rfl, rfl, rfl⟩
  have confirmed :
      confirmedInput dropEnding "create_table t a:int\n\ndrop_table t\nno\nexit\nhelp\n" =
        "create_table t a:int\nexit\n" := by decide +kernel
  rcases call_yes_confirmedInput .erasing asks
    "create_table t a:int\n\ndrop_table t\nno\nexit\nhelp\n" with ⟨same, ofPlain⟩
  rw [ofPlain (by decide +kernel), confirmed] at same
  exact ⟨asks, confirmed, same⟩

/-- A refusal that a backspace turns into consent. -/
def takenBack : String :=
  "create_table t a:int\ndrop_table t\nn\x08y\ninfo t\n"

def declined : String :=
  "create_table t a:int\ndrop_table t\nn\n"

/-- A log of the actions that were not let happen. -/
def cancellations : Note → List String
  | .cancelled action => [action]
  | _ => []

/-- What was typed does not tell what is confirmed if there are backspaces, and a log that says
which actions were not let happen tells the two calls apart. -/
theorem call_yes_typedInput_differs :
    Asks ["--in-memory"] (.ofDirectory [])
        { given := [.inMemory], settings := [.inMemory true] } { inMemory := true } ∧
      ¬(call ["--yes", "--in-memory"] (confirmedInput dropEnding takenBack)
          (.ofDirectory [])).Matches (call ["--in-memory"] takenBack (.ofDirectory [])) ∧
      (call ["--yes", "--in-memory"] (confirmedInput dropEnding declined)
          (.ofDirectory [])).errorOutput cancellations ≠
        (call ["--in-memory"] declined (.ofDirectory [])).errorOutput cancellations := by
  refine ⟨⟨by decide +kernel, by decide, rfl, rfl, rfl⟩, ?_, ?_⟩
  · have confirmed : confirmedInput dropEnding takenBack = "create_table t a:int\ninfo t\n" := by
      decide +kernel
    have kept : (call ["--yes", "--in-memory"] "create_table t a:int\ninfo t\n"
        (.ofDirectory [])).errorOutput (fun _ => []) = [] := by decide +kernel
    have dropped : (call ["--in-memory"] takenBack (.ofDirectory [])).errorOutput (fun _ => []) =
        ["Error: Table \"t\" does not exist"] := by decide +kernel
    intro same
    have shown := same.errorOutput (fun _ => []) fun _ => rfl
    rw [confirmed, kept, dropped] at shown
    cases shown
  · have confirmed : confirmedInput dropEnding declined = "create_table t a:int\n" := by
      decide +kernel
    have unasked : (call ["--yes", "--in-memory"] "create_table t a:int\n"
        (.ofDirectory [])).errorOutput cancellations = [] := by decide +kernel
    have asked : (call ["--in-memory"] declined (.ofDirectory [])).errorOutput cancellations =
        ["drop table t"] := by decide +kernel
    rw [confirmed, unasked, asked]
    exact nofun

end CommandLine

end Tabula
