/-
The interactive session on one practice.

It is fed one line at a time and says what to print. Lines that begin with a colon are commands to the session itself. A
question is answered by the line after it; nothing but `y` and `yes` is a yes.
-/
import RepoTutor.Cli.Printed

namespace RepoTutor.Cli

open Store Session Repo
open Workspace (Failure)

/-- what the next line is taken for -/
inductive Mode where
  | command
  /-- whether to start over a session of another version -/
  | confirmStart
  /-- whether to discard the progress -/
  | confirmReset
  | left
  | failed (f : Failure)
  deriving DecidableEq, Repr

structure Repl (σ : Type) where
  executor : Executor σ
  key : SessionKey
  state : Option Repository := none
  hintsShown : Nat := 0
  mode : Mode := .command

/-- commands to the session itself -/
inductive Meta where
  | validate
  | hint
  | state
  | reset
  | help
  | quit
  | unknown (name : String)
  deriving DecidableEq, Repr

/-- the command that a line names behind its colon -/
def Meta.ofLine? (line : String) : Option Meta :=
  match line.toList with
  | ':' :: rest =>
    let name := Text.trim (String.ofList rest)
    some (match name with
      | "validate" => validate
      | "v" => validate
      | "hint" => hint
      | "state" => state
      | "s" => state
      | "reset" => reset
      | "help" => help
      | "h" => help
      | "?" => help
      | "quit" => quit
      | "q" => quit
      | "exit" => quit
      | other => unknown other)
  | _ => none

def helpLines : List String :=
  ["Type git commands as you would in a terminal, plus:",
    "  touch <file>, echo <text> > <file>, rm <file>",
    "",
    "  :validate   check your repository against the goal",
    "  :hint       show the next hint",
    "  :state      show status and command history",
    "  :reset      discard progress and start over",
    "  :quit       leave (progress is saved after every command)"]

/-- whether an answer is a yes -/
def isYes (answer : String) : Bool :=
  let a := String.ofList ((Text.trim answer).toList.map Text.latinLower)
  a == "y" || a == "yes"

/-- a question before its answer -/
def questionText (question : String) : String := question ++ " [y/N] "

namespace Repl

variable {σ : Type}

def practice? (r : Repl σ) : Option Practice.Compiled := r.executor.practice? r.key.practice

def prompt (r : Repl σ) : String :=
  let place := match r.state.map (·.head) with
    | some (.attached branch) => branch
    | some (.detached id) => "detached " ++ short id
    | none => "?"
  r.key.practice ++ " (" ++ place ++ ")$ "

/-- print the prompt for the next command -/
def prompted (p : Printed) (r : Repl σ) : Printed × Repl σ := (p ++ .text r.prompt, { r with mode := .command })

variable [Backend σ]

/-- start over, and say so -/
def restart (r : Repl σ) (note : List String) : Printed × Repl σ :=
  let reply := r.executor.reset r.key
  let r := { r with executor := reply.executor }
  match reply.answer with
  | .ok view => prompted (.lines note) { r with state := some view.state }
  | .error e => ({}, { r with mode := .failed (sessionFailure e) })

/-- enter the session -/
def enter (r : Repl σ) : Printed × Repl σ :=
  let welcome := match r.practice? with
    | some p => p.definition.title :: p.definition.description.toList ++ ["Type :help for session commands."]
    | none => []
  let reply := r.executor.state r.key
  let r := { r with executor := reply.executor }
  match reply.answer with
  | .ok view =>
    let resuming := if view.history.isEmpty then []
      else ["Resuming: " ++ Text.natText view.history.length ++ " commands so far."]
    prompted (.lines (welcome ++ resuming)) { r with state := some view.state }
  | .error e =>
    if e.versions?.isSome then
      (.lines (welcome ++ [e.message]) ++ .text (questionText "Reset and start over?"),
        { r with mode := .confirmStart })
    else (.lines welcome, { r with mode := .failed (sessionFailure e) })

/-- run one line of the terminal -/
def run (r : Repl σ) (line : String) : Printed × Repl σ :=
  let reply := r.executor.execute r.key line
  let r := { r with executor := reply.executor }
  match reply.answer with
  | .ok response =>
    let mark := if response.isOk then "" else "error: "
    prompted (.lines (response.output.map (mark ++ ·))) { r with state := some response.state }
  | .error e =>
    prompted (.lines (("error: " ++ e.message) :: (if e.isHalt then ["Use :reset to start over."] else []))) r

/-- the next hint -/
def hint (r : Repl σ) : Printed × Repl σ :=
  let hints := match r.practice? with
    | some p => p.definition.hints
    | none => []
  match hints[r.hintsShown]? with
  | some h =>
    let shown := r.hintsShown + 1
    prompted (.lines ["hint " ++ Text.natText shown ++ "/" ++ Text.natText hints.length ++ ": " ++ h])
      { r with hintsShown := shown }
  | none => prompted (.lines [if hints.isEmpty then "No hints for this practice." else "No more hints."]) r

def runMeta (r : Repl σ) : Meta → Printed × Repl σ
  | .validate =>
    let reply := r.executor.validate r.key
    let r := { r with executor := reply.executor }
    match reply.answer with
    | .ok v => prompted (.lines v.lines) r
    | .error e => prompted (.lines ["error: " ++ e.message]) r
  | .hint => r.hint
  | .state =>
    let reply := r.executor.state r.key
    let r := { r with executor := reply.executor }
    match reply.answer with
    | .ok view => prompted (.lines view.lines) r
    | .error e => prompted (.lines ["error: " ++ e.message]) r
  | .reset => (.text (questionText "Discard all progress on this practice?"), { r with mode := .confirmReset })
  | .help => prompted (.lines helpLines) r
  | .quit => ({}, { r with mode := .left })
  | .unknown name => prompted (.lines ["error: unknown session command \":" ++ name ++ "\" (try :help)"]) r

/-- take the next line of input, or its end -/
def feed (r : Repl σ) (input : Option String) : Printed × Repl σ :=
  match r.mode with
  | .left => ({}, r)
  | .failed _ => ({}, r)
  | .confirmStart =>
    if isYes (input.getD "") then r.restart []
    else (.lines ["Leaving your saved progress untouched."], { r with mode := .left })
  | .confirmReset =>
    if isYes (input.getD "") then { r with hintsShown := 0 }.restart ["Reset to the starting state."]
    else prompted {} r
  | .command =>
    match input with
    | none => (.lines [""], { r with mode := .left })
    | some text =>
      let line := Text.trim text
      if line.isEmpty then prompted {} r
      else
        match Meta.ofLine? line with
        | some m => r.runMeta m
        | none => r.run line

end Repl

end RepoTutor.Cli
