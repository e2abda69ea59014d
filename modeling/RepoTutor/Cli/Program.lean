/-
The program: one invocation over a tree of files.

An invocation is begun with its arguments and, where it asks or is interactive, fed with lines of input until it has
finished. Progress is written to the store's file whenever it may have changed.
-/
import RepoTutor.Cli.Arguments
import RepoTutor.Cli.Repl
import RepoTutor.Command.Words
import RepoTutor.Store.ArchiveText

namespace RepoTutor.Cli

open Store Session
open Workspace (Layout FileTree Config Failure)

/-! ## Workspaces -/

/-- the practice that a new workspace starts with -/
def starterPractice : String := "id: first-commit
title: Your first commit
description: Stage a file and record it in a commit.
version: 1
goal:
  commands:
    - git add README.md
    - git commit -m \"init\"
expected_commands:
  - git add
  - git commit
ordered: true
rules:
  - commit_count: 1
  - \x7b type: clean_working_tree, message: \"commit everything you staged\" \x7d
hints:
  - Stage a file with \x60git add README.md\x60.
  - Record it with \x60git commit -m \"init\"\x60.
"

/-- a workspace with its configuration -/
structure Opened where
  workspace : Layout
  config : Config

namespace Opened

def practicesDirectory (o : Opened) : String := o.workspace.resolve o.config.practicesDir

def storeFile (o : Opened) : String := o.workspace.resolve o.config.storePath

end Opened

def notInitialized : Failure := ["No .gitdojo/ workspace found. Run \x60gitdojo init\x60 first."]

/-- the configuration of a workspace -/
def loadConfig (w : Layout) (t : FileTree) : Except Failure Config :=
  (Config.load w.configFile (t.read? w.configFile)).mapError Workspace.ConfigError.chain

/-- a workspace that has been initialized -/
def openWorkspace (w : Layout) (t : FileTree) : Except Failure Opened :=
  if !t.isDirectory w.home then .error notInitialized
  else (loadConfig w t).map (fun c => ⟨w, c⟩)

/-- the archive in a store's file; a missing file is made -/
def openArchive (path : String) (t : FileTree) : Except Failure (Archive × FileTree) :=
  match t.read? path with
  | none => .ok (.empty, t.write path Archive.empty.toText)
  | some text =>
    match Archive.ofText? text with
    | some a => .ok (a, t)
    | none =>
      .error ["opening snapshot store " ++ path, "sqlite: file is not a database", "file is not a database",
        "Error code 26: File opened that is not a database file"]

/-- an executor over the workspace's practices and store -/
def executor (o : Opened) (t : FileTree) : Except Failure (Executor Archive × FileTree) := do
  let ps ← Workspace.compilePractices t o.practicesDirectory o.config.defaultBranch
  let (archive, t) ← openArchive o.storeFile t
  return ((Executor.new archive ps).withSaveAttempts o.config.saveAttempts, t)

/-- a session of a practice that exists -/
def sessionKey (e : Executor Archive) (learner practice : String) : Except Failure SessionKey :=
  if (e.practice? practice).isSome then .ok ⟨learner, practice⟩
  else
    let known := e.practices.keys
    .error ["unknown practice \"" ++ practice ++ "\" ("
      ++ (if known.isEmpty then "no practices are installed" else "available: " ++ Text.joinWith ", " known) ++ ")"]

/-! ## Running -/

/-- where an invocation is -/
inductive Stage where
  | finished (exitCode : Nat)
  /-- asked whether to reset a session -/
  | confirming (e : Executor Archive) (key : SessionKey)
  | playing (r : Repl Archive)

/-- an invocation with the files as they are now -/
structure Run where
  files : FileTree
  storeFile : String := ""
  stage : Stage

def Run.isFinished (r : Run) : Bool :=
  match r.stage with
  | .finished _ => true
  | _ => false

def Run.exitCode (r : Run) : Nat :=
  match r.stage with
  | .finished n => n
  | _ => 0

/-- files with the store's progress written -/
def saved (storeFile : String) (a : Archive) (t : FileTree) : FileTree :=
  if t.read? storeFile = some a.toText then t else t.write storeFile a.toText

def finish (t : FileTree) (p : Printed) (exitCode : Nat) : Printed × Run :=
  (p, { files := t, stage := .finished exitCode })

def fail (t : FileTree) (f : Failure) : Printed × Run := finish t ⟨"", failureText f⟩ 1

/-- exit code for words that are no arguments -/
def usageExitCode : Nat := 2

/-! ## Subcommands -/

def runInit (w : Layout) (t : FileTree) : Printed × Run :=
  if t.isDirectory w.home then finish t (.lines ["Already initialized at " ++ w.home]) 0
  else
    let config : Config := {}
    let directory := w.resolve config.practicesDir
    let t := (t.addDirectory w.home).write w.configFile config.toJson.pretty
    let t := t.write (w.resolve config.storePath) Archive.empty.toText
    let (t, wrote) :=
      if t.has directory then (t, [])
      else (t.write (Workspace.joinPath directory "first-commit.yaml") starterPractice,
        ["Wrote starter practice to " ++ directory])
    finish t (.lines (wrote ++ ["Initialized gitdojo workspace at " ++ w.home, "Next: gitdojo play first-commit"])) 0

/-- the line of a practice in the list -/
def listLine (progress : List (String × Nat)) (p : Practice.Compiled) : String :=
  let pad (width : Nat) (s : String) : String := s ++ String.ofList (List.replicate (width - s.length) ' ')
  let marker := match progress.find? (fun e => e.1 == p.id) with
    | none => ""
    | some (_, v) =>
      if v = p.version then "  [in progress]" else "  [saved at v" ++ Text.natText v ++ ", reset required]"
  pad 24 p.id ++ " v" ++ pad 3 (Text.natText p.version) ++ " " ++ p.definition.title ++ marker

/-- what a subcommand does, or why it fails -/
abbrev Attempt := Except (FileTree × Failure) (Printed × Run)

/-- an attempt that fails without a change of the files -/
def orFail {α : Type} (t : FileTree) (r : Except Failure α) : Except (FileTree × Failure) α :=
  r.mapError (fun f => (t, f))

def runList (w : Layout) (learner : String) (t : FileTree) : Attempt := do
  let o ← orFail t (openWorkspace w t)
  let (e, t) ← orFail t (executor o t)
  let progress ← orFail t ((e.progress learner).mapError sessionFailure)
  let ps := e.practices.values
  let lines := if ps.isEmpty then ["(no practices in " ++ o.practicesDirectory ++ ")"] else ps.map (listLine progress)
  return finish t (.lines lines) 0

def lockFile (w : Layout) : String := Workspace.joinPath w.home "LOCK"

/-- an executor for a subcommand that writes, behind the workspace's lock, and the session it is about -/
def openSession (w : Layout) (learner practice : String) (t : FileTree) :
    Except (FileTree × Failure) (Opened × Executor Archive × SessionKey × FileTree) := do
  let o ← orFail t (openWorkspace w t)
  let t := t.touch (lockFile w)
  let (e, t) ← orFail t (executor o t)
  let key ← orFail t (sessionKey e learner practice)
  return (o, e, key, t)

def runExec (w : Layout) (learner practice : String) (json : Bool) (words : List String) (t : FileTree) : Attempt := do
  if words.isEmpty then throw (t, ["nothing to run (usage: gitdojo exec <practice> -- git status)"])
  let (o, e, key, t) ← openSession w learner practice t
  let reply := e.execute key (RepoTutor.Command.joinWords words)
  let t := saved o.storeFile reply.executor.store t
  let response ← orFail t (reply.answer.mapError sessionFailure)
  let printed : Printed :=
    if json then .lines [response.toJson.pretty]
    else if response.isOk then .lines response.output
    else .errorLines (response.output.map ("error: " ++ ·))
  return finish t printed (if response.isOk then 0 else 1)

def runValidate (w : Layout) (learner practice : String) (json : Bool) (t : FileTree) : Attempt := do
  let o ← orFail t (openWorkspace w t)
  let (e, t) ← orFail t (executor o t)
  let key ← orFail t (sessionKey e learner practice)
  let verdict ← orFail t ((e.validate key).answer.mapError sessionFailure)
  let lines := if json then [verdict.toJson.pretty] else verdict.lines
  return finish t (.lines lines) (if verdict.isCorrect then 0 else 1)

/-- reset a session that may be reset -/
def resetSession (storeFile : String) (e : Executor Archive) (key : SessionKey) (t : FileTree) : Printed × Run :=
  let reply := e.reset key
  let t := saved storeFile reply.executor.store t
  match reply.answer with
  | .error cause => fail t (sessionFailure cause)
  | .ok view =>
    finish t (.lines ["Reset " ++ view.key.practice ++ " to version " ++ Text.natText view.version ++ "."]) 0

def runReset (w : Layout) (learner practice : String) (yes : Bool) (t : FileTree) : Attempt := do
  let (o, e, key, t) ← openSession w learner practice t
  if yes then return resetSession o.storeFile e key t
  else
    return (.text (questionText ("Discard all progress on \"" ++ practice ++ "\"?")),
      ⟨t, o.storeFile, .confirming e key⟩)

/-- an interactive session after a step of it -/
def played (storeFile : String) (t : FileTree) (step : Printed × Repl Archive) : Printed × Run :=
  let (p, r) := step
  let t := saved storeFile r.executor.store t
  match r.mode with
  | .left => finish t p 0
  | .failed f => finish t (p ++ ⟨"", failureText f⟩) 1
  | _ => (p, ⟨t, storeFile, .playing r⟩)

def runPlay (w : Layout) (learner practice : String) (t : FileTree) : Attempt := do
  let (o, e, key, t) ← openSession w learner practice t
  let repl : Repl Archive := { executor := e, key := key }
  return played o.storeFile t repl.enter

/-- `key = value` -/
def entryLine (key : String) (v : Json.Value) : String := key ++ " = " ++ v.compact

def runConfigSet (w : Layout) (key value : String) (t : FileTree) : Attempt := do
  if !t.isDirectory w.home then throw (t, notInitialized)
  let (t, outcome) := Config.setIn w t key value
  let c ← orFail t (outcome.mapError Workspace.ConfigError.chain)
  return finish t (.lines ((c.get? key).toList.map (entryLine key))) 0

def runConfigGet (w : Layout) (key : String) (t : FileTree) : Attempt := do
  let o ← orFail t (openWorkspace w t)
  match o.config.get? key with
  | some v => return finish t (.lines [v.compact]) 0
  | none => throw (t, (Workspace.ConfigError.unknownKey key).chain)

def runConfigList (w : Layout) (t : FileTree) : Attempt := do
  let o ← orFail t (openWorkspace w t)
  return finish t (.lines (o.config.entries.map (fun e => entryLine e.1 e.2))) 0

/-! ## Invocations -/

/-- what a subcommand does -/
def attempt (w : Layout) (a : Arguments) (t : FileTree) : Attempt :=
  match a.command with
  | .init => .ok (runInit w t)
  | .list => runList w a.learner t
  | .play practice => runPlay w a.learner practice t
  | .exec practice json words => runExec w a.learner practice json words t
  | .validate practice json => runValidate w a.learner practice json t
  | .reset practice yes => runReset w a.learner practice yes t
  | .configSet key value => runConfigSet w key value t
  | .configGet key => runConfigGet w key t
  | .configList => runConfigList w t

/-- begin an invocation; words that are no arguments are a usage error -/
def Run.start (w : Layout) (environment : Option String) (words : List String) (t : FileTree) : Printed × Run :=
  match Arguments.parse? environment words with
  | none => finish t {} usageExitCode
  | some a =>
    match attempt w a t with
    | .ok r => r
    | .error (t, f) => fail t f

/-- take the next line of input, or its end -/
def Run.feed (r : Run) (input : Option String) : Printed × Run :=
  match r.stage with
  | .finished _ => ({}, r)
  | .confirming e key =>
    if isYes (input.getD "") then resetSession r.storeFile e key r.files
    else finish r.files (.lines ["Aborted."]) 0
  | .playing repl => played r.storeFile r.files (repl.feed input)

/-- take all lines of an input and then its end, for as long as something is asked -/
def Run.feedAll (r : Run) : List String → Printed × Run
  | [] =>
    let (p, r) := r.feed none
    let (q, r) := r.feed none
    (p ++ q, r)
  | line :: rest =>
    if r.isFinished then ({}, r)
    else
      let (p, r) := r.feed (some line)
      let (q, r) := r.feedAll rest
      (p ++ q, r)

end RepoTutor.Cli
