/-
One terminal line as one operation.

A leading `git` is optional. Each subcommand reads its words from left to right, so of two faults the one further left
is reported, unless it concerns how options combine: such faults are found after all words are read.
-/
import RepoTutor.Numeric.Word
import RepoTutor.Command.BranchName
import RepoTutor.Command.Operation
import RepoTutor.Command.Path
import RepoTutor.Command.Words

namespace RepoTutor.Command

/-- what reads words: a value or the fault of the line -/
abbrev Parse (α : Type) := Except ParseError α

/-- a word of more than one byte that begins with a dash -/
def isFlag (token : String) : Bool := token.utf8ByteSize > 1 && token.toList.head? == some '-'

/-- the text after `pre`, when a word begins with it -/
def after? (pre token : String) : Option String :=
  (Text.dropPrefix? pre.toList token.toList).map String.ofList

def missing {α : Type} (command expected : String) : Parse α := .error (.missingArgument command expected)

def invalid {α : Type} (command token reason : String) : Parse α := .error (.invalidArgument command token reason)

def unknownFlag {α : Type} (command flag : String) : Parse α := invalid command flag "unknown option"

def tooMany {α : Type} (command extra : String) : Parse α := invalid command extra "unexpected extra argument"

def missingValue {α : Type} (command flag : String) : Parse α := missing command ("value for " ++ flag)

/-! ## Repository setup and paths -/

def initName : Option String → List String → Parse (Option String)
  | name, [] => .ok name
  | name, t :: rest =>
    if t = "-b" ∨ t = "--initial-branch" then
      match rest with
      | [] => missingValue "init" t
      | v :: rest => initName (some v) rest
    else if t = "-q" ∨ t = "--quiet" then initName name rest
    else
      match after? "--initial-branch=" t with
      | some v => initName (some v) rest
      | none =>
        if isFlag t then unknownFlag "init" t
        else invalid "init" t "the simulated repository has no directories"

def parseInit (tokens : List String) : Parse Operation := do
  let name ← initName none tokens
  match name with
  | some n => checkBranchName "init" n
  | none => pure ()
  return .init name

/-- the words of `add`: whether everything is staged, and the paths -/
def addPaths (onlyPaths : Bool) : List String → Parse (Bool × List String)
  | [] => .ok (false, [])
  | t :: rest =>
    if t = "--" ∧ !onlyPaths then addPaths true rest
    else if (t = "-A" ∨ t = "--all") ∧ !onlyPaths then
      (addPaths onlyPaths rest).map (fun r => (true, r.2))
    else if t = "." then (addPaths onlyPaths rest).map (fun r => (true, r.2))
    else if !onlyPaths ∧ isFlag t then unknownFlag "add" t
    else do
      let path ← normalizePath "add" t
      let r ← addPaths onlyPaths rest
      return (r.1, path :: r.2)

def parseAdd (tokens : List String) : Parse Operation := do
  let (all, paths) ← addPaths false tokens
  if !all && paths.isEmpty then
    missing "add" "pathspec (e.g. \x60git add README.md\x60 or \x60git add .\x60)"
  else if all then return .add [] true
  else return .add paths false

/-- flags and normalized paths, with `--` before paths that look like flags -/
def flagsAndPaths (command : String) (allowed : List String) (onlyPaths : Bool) :
    List String → Parse (List String × List String)
  | [] => .ok ([], [])
  | t :: rest =>
    if !onlyPaths ∧ t = "--" then flagsAndPaths command allowed true rest
    else if !onlyPaths ∧ isFlag t then
      if allowed.contains t then
        (flagsAndPaths command allowed onlyPaths rest).map (fun r => (t :: r.1, r.2))
      else unknownFlag command t
    else do
      let path ← normalizePath command t
      let r ← flagsAndPaths command allowed onlyPaths rest
      return (r.1, path :: r.2)

/-- flags and at least one path -/
def collectPaths (command : String) (allowed tokens : List String) : Parse (List String × List String) := do
  let r ← flagsAndPaths command allowed false tokens
  if r.2.isEmpty then missing command "path" else return r

def parseRemove (tokens : List String) : Parse Operation := do
  let (_, paths) ← collectPaths "rm" ["-r", "--cached", "-q", "--quiet"] tokens
  return .remove paths

def parseRestore (tokens : List String) : Parse Operation := do
  let (flags, paths) ← collectPaths "restore" ["--staged", "-S", "--worktree", "-W"] tokens
  return .restore paths (flags.contains "--staged" || flags.contains "-S")

/-! ## Commit -/

/-- what the words of `commit` have said so far -/
structure CommitWords where
  args : CommitArgs := {}
  messages : List String := []
  noEdit : Bool := false

def CommitWords.say (w : CommitWords) (message : String) : CommitWords :=
  { w with messages := w.messages ++ [message] }

/-- how a cluster of one-letter options ends -/
inductive ClusterEnd where
  /-- all letters are read -/
  | done
  /-- the message option came last, with this text after it -/
  | message (text : String)

/-- a cluster of one-letter options: whether `a` occurs, and how it ends; `none` at an unknown letter -/
def cluster? : List Char → Option (Bool × ClusterEnd)
  | [] => some (false, .done)
  | 'a' :: rest => (cluster? rest).map (fun r => (true, r.2))
  | 'm' :: rest => some (false, .message (String.ofList rest))
  | _ :: _ => none

def commitWords (w : CommitWords) : List String → Parse CommitWords
  | [] => .ok w
  | t :: rest =>
    if t = "-m" ∨ t = "--message" then
      match rest with
      | [] => missingValue "commit" t
      | v :: rest => commitWords (w.say v) rest
    else if t = "-a" ∨ t = "--all" then commitWords { w with args := { w.args with all := true } } rest
    else if t = "--amend" then commitWords { w with args := { w.args with amend := true } } rest
    else if t = "--allow-empty" then commitWords { w with args := { w.args with allowEmpty := true } } rest
    else if t = "--no-edit" then commitWords { w with noEdit := true } rest
    else if t = "--author" then
      match rest with
      | [] => missingValue "commit" t
      | v :: rest => commitWords { w with args := { w.args with author := some v } } rest
    else
      match after? "--message=" t with
      | some v => commitWords (w.say v) rest
      | none =>
        match after? "--author=" t with
        | some v => commitWords { w with args := { w.args with author := some v } } rest
        | none =>
          if (after? "--" t).isSome then unknownFlag "commit" t
          else if isFlag t then
            match cluster? (t.toList.drop 1) with
            | none => unknownFlag "commit" t
            | some (all, ending) =>
              let w := if all then { w with args := { w.args with all := true } } else w
              match ending with
              | .done => commitWords w rest
              | .message text =>
                if text.isEmpty then
                  match rest with
                  | [] => missingValue "commit" "-m"
                  | v :: rest => commitWords (w.say v) rest
                else commitWords (w.say text) rest
          else
            invalid "commit" t "committing individual paths is not supported; stage them with \x60git add\x60"

def parseCommit (tokens : List String) : Parse Operation := do
  let w ← commitWords {} tokens
  if w.messages.any Text.isBlankText then invalid "commit" "-m" "empty commit message"
  else
    let message := if w.messages.isEmpty then none else some (Text.joinWith "\n\n" w.messages)
    if message.isNone && !w.args.amend && !w.noEdit then missing "commit" "-m <message>"
    else return .commit { w.args with message := message }

/-! ## Branches -/

structure BranchWords where
  delete : Bool := false
  force : Bool := false
  rename : Bool := false
  list : Bool := false
  names : List String := []

def branchWords (w : BranchWords) : List String → Parse BranchWords
  | [] => .ok w
  | t :: rest =>
    if t = "-d" ∨ t = "--delete" then branchWords { w with delete := true } rest
    else if t = "-D" then branchWords { w with delete := true, force := true } rest
    else if t = "-f" ∨ t = "--force" then branchWords { w with force := true } rest
    else if t = "-m" ∨ t = "--move" then branchWords { w with rename := true } rest
    else if t = "-l" ∨ t = "--list" then branchWords { w with list := true } rest
    else if isFlag t then unknownFlag "branch" t
    else branchWords { w with names := w.names ++ [t] } rest

def listBranches : List String → Parse Operation
  | [] => .ok (.branch .list)
  | extra :: _ => tooMany "branch" extra

def deleteBranch (force : Bool) : List String → Parse Operation
  | [] => missing "branch" "branch name"
  | [name] => .ok (.branch (.delete name force))
  | _ :: extra :: _ => tooMany "branch" extra

def renameBranch : List String → Parse Operation
  | [] => missing "branch" "new branch name"
  | [target] => do
    checkBranchName "branch" target
    return .branch (.rename none target)
  | [source, target] => do
    checkBranchName "branch" target
    return .branch (.rename (some source) target)
  | _ :: _ :: extra :: _ => tooMany "branch" extra

def createBranch : List String → Parse Operation
  | [] => missing "branch" "branch name"
  | [name] => do
    checkBranchName "branch" name
    return .branch (.create name none)
  | [name, start] => do
    checkBranchName "branch" name
    return .branch (.create name (some start))
  | _ :: _ :: extra :: _ => tooMany "branch" extra

def parseBranch (tokens : List String) : Parse Operation := do
  let w ← branchWords {} tokens
  if (w.delete && w.rename) || (w.delete && w.list) || (w.rename && w.list) then
    invalid "branch" "-d/-m/-l" "options cannot be combined"
  else if w.force && !w.delete then
    invalid "branch" "-f" "only supported together with -d"
  else if w.list then listBranches w.names
  else if w.delete then deleteBranch w.force w.names
  else if w.rename then renameBranch w.names
  else if w.names.isEmpty then listBranches w.names
  else createBranch w.names

/-! ## Moving HEAD -/

structure HeadWords where
  /-- branch to create, and whether an existing one may be moved -/
  create : Option (String × Bool) := none
  detach : Bool := false
  targets : List String := []

/-- what the words of a command that moves HEAD come to -/
def finishHead (command : String) (plain : CheckoutMode) (w : HeadWords) : Parse Operation :=
  match w.targets with
  | _ :: extra :: _ => tooMany command extra
  | targets =>
    match w.create, w.detach with
    | some _, true => invalid command "--detach" "cannot be combined with creating a branch"
    | some (name, force), false => .ok (.checkout name (.create targets.head? force))
    | none, true => .ok (.checkout (targets.head?.getD "HEAD") .detach)
    | none, false =>
      match targets.head? with
      | some target => .ok (.checkout target plain)
      | none => missing command "branch or commit"

/-- words up to a lone `--`, if there is one, and the words after it -/
inductive HeadEnd where
  | all (w : HeadWords)
  | paths (w : HeadWords) (rest : List String)

/-- the words of a command that moves HEAD, with its flags for creating, forced creating and detaching -/
def headWords (command : String) (creates forces detaches : List String) (paths : Bool) (w : HeadWords) :
    List String → Parse HeadEnd
  | [] => .ok (.all w)
  | t :: rest =>
    if paths ∧ t = "--" then .ok (.paths w rest)
    else if creates.contains t ∨ forces.contains t then
      if w.create.isSome then invalid command t "only one new branch allowed"
      else
        match rest with
        | [] => missingValue command t
        | v :: rest => do
          checkBranchName command v
          headWords command creates forces detaches paths { w with create := some (v, forces.contains t) } rest
    else if detaches.contains t then
      headWords command creates forces detaches paths { w with detach := true } rest
    else if isFlag t then unknownFlag command t
    else headWords command creates forces detaches paths { w with targets := w.targets ++ [t] } rest

def parseCheckout (tokens : List String) : Parse Operation := do
  match ← headWords "checkout" ["-b"] ["-B"] ["--detach"] true {} tokens with
  | .all w => finishHead "checkout" .any w
  | .paths w rest =>
    let (_, paths) ← collectPaths "checkout" [] rest
    if w.create.isSome || w.detach || !w.targets.isEmpty then
      invalid "checkout" "--" "checking out paths from a commit is not supported"
    else return .restore paths false

def parseSwitch (tokens : List String) : Parse Operation := do
  match ← headWords "switch" ["-c", "--create"] ["-C", "--force-create"] ["-d", "--detach"] false {} tokens with
  | .all w => finishHead "switch" .branchOnly w
  | .paths w _ => finishHead "switch" .branchOnly w

/-! ## Merge and reset -/

structure MergeWords where
  abort : Bool := false
  ff : Option FastForward := none
  commit : Bool := true
  message : Option String := none
  sources : List String := []

/-- the fast-forward option that a word names -/
def fastForwardFlag? (t : String) : Option FastForward :=
  if t = "--ff" then some .allow
  else if t = "--no-ff" then some .never
  else if t = "--ff-only" then some .only
  else none

def mergeWords (w : MergeWords) : List String → Parse MergeWords
  | [] => .ok w
  | t :: rest =>
    match fastForwardFlag? t with
    | some ff =>
      if w.ff.any (· ≠ ff) then invalid "merge" t "conflicting fast-forward options"
      else mergeWords { w with ff := some ff } rest
    | none =>
      if t = "--abort" then mergeWords { w with abort := true } rest
      else if t = "--no-commit" then mergeWords { w with commit := false } rest
      else if t = "--commit" ∨ t = "--no-edit" then mergeWords w rest
      else if t = "-m" ∨ t = "--message" then
        match rest with
        | [] => missingValue "merge" t
        | v :: rest => mergeWords { w with message := some v } rest
      else
        match after? "--message=" t with
        | some v => mergeWords { w with message := some v } rest
        | none =>
          if isFlag t then unknownFlag "merge" t
          else mergeWords { w with sources := w.sources ++ [t] } rest

def parseMerge (tokens : List String) : Parse Operation := do
  let w ← mergeWords {} tokens
  if w.abort then
    match w.sources with
    | extra :: _ => tooMany "merge" extra
    | [] => return .merge .abort
  else
    match w.sources with
    | _ :: extra :: _ => invalid "merge" extra "merging more than one branch is not supported"
    | [] => missing "merge" "branch to merge"
    | [source] =>
      let ff := w.ff.getD .allow
      if !w.commit && ff = .only then invalid "merge" "--no-commit" "cannot be combined with --ff-only"
      else if !w.commit && w.message.isSome then
        invalid "merge" "-m" "pass the message to \x60git commit\x60 after --no-commit"
      else return .merge (.start source ff w.commit w.message)

/-- the mode that a word names -/
def resetFlag? (t : String) : Option ResetMode :=
  if t = "--soft" then some .soft
  else if t = "--mixed" then some .mixed
  else if t = "--hard" then some .hard
  else none

/-- the words of `reset`: mode and targets, and the words after a lone `--` -/
def resetWords (mode : Option ResetMode) (targets : List String) :
    List String → Parse (Option ResetMode × List String × Option (List String))
  | [] => .ok (mode, targets, none)
  | t :: rest =>
    match resetFlag? t with
    | some m =>
      if mode.any (· ≠ m) then invalid "reset" t "only one of --soft, --mixed, --hard"
      else resetWords (some m) targets rest
    | none =>
      if t = "--" then .ok (mode, targets, some rest)
      else if isFlag t then unknownFlag "reset" t
      else resetWords mode (targets ++ [t]) rest

def parseReset (tokens : List String) : Parse Operation := do
  match ← resetWords none [] tokens with
  | (mode, targets, some rest) =>
    let (_, paths) ← collectPaths "reset" [] rest
    if mode.isSome || targets.any (· ≠ "HEAD") then invalid "reset" "--" "path reset only supports HEAD"
    else return .restore paths true
  | (mode, targets, none) =>
    match targets with
    | _ :: extra :: _ => tooMany "reset" extra
    | targets => return .reset targets.head? (mode.getD .mixed)

/-! ## Log and status -/

structure LogWords where
  oneline : Bool := false
  limit : Option Nat := none
  targets : List String := []

/-- a count below 2^64 -/
def parseCount (flag raw : String) : Parse Nat :=
  match Text.natBelow? (wordCount 64) raw.toList with
  | some n => .ok n
  | none => invalid "log" raw (flag ++ " expects a number")

/-- the digits of a word that is a dash and digits -/
def dashDigits? (t : String) : Option String :=
  match t.toList with
  | '-' :: c :: rest => if (c :: rest).all Text.isDigit then some (String.ofList (c :: rest)) else none
  | _ => none

/-- the text after `-n` in the same word -/
def attachedCount? (t : String) : Option String :=
  match t.toList with
  | '-' :: 'n' :: c :: rest => some (String.ofList (c :: rest))
  | _ => none

def logWords (w : LogWords) : List String → Parse LogWords
  | [] => .ok w
  | t :: rest =>
    if t = "--oneline" then logWords { w with oneline := true } rest
    else if t = "-n" ∨ t = "--max-count" then
      match rest with
      | [] => missingValue "log" t
      | v :: rest => do
        let n ← parseCount t v
        logWords { w with limit := some n } rest
    else
      match after? "--max-count=" t with
      | some v => do
        let n ← parseCount "--max-count" v
        logWords { w with limit := some n } rest
      | none =>
        match attachedCount? t with
        | some v => do
          let n ← parseCount "-n" v
          logWords { w with limit := some n } rest
        | none =>
          match dashDigits? t with
          | some v => do
            let n ← parseCount "-<n>" v
            logWords { w with limit := some n } rest
          | none =>
            if isFlag t then unknownFlag "log" t
            else logWords { w with targets := w.targets ++ [t] } rest

def parseLog (tokens : List String) : Parse Operation := do
  let w ← logWords {} tokens
  match w.targets with
  | _ :: extra :: _ => tooMany "log" extra
  | targets => return .log targets.head? w.limit w.oneline

def parseStatus : List String → Parse Operation
  | [] => .ok .status
  | t :: _ => if isFlag t then unknownFlag "status" t else tooMany "status" t

/-! ## Shell commands -/

def parseTouch (tokens : List String) : Parse Operation := do
  let (_, paths) ← collectPaths "touch" [] tokens
  return .touch paths

def parseShellRemove (tokens : List String) : Parse Operation := do
  let (_, paths) ← collectPaths "rm" ["-f"] tokens
  return .deleteFile paths

/-- words before the first redirect, whether it appends, and the words after it -/
def redirect? : List String → Option (List String × Bool × List String)
  | [] => none
  | t :: rest =>
    if t = ">" then some ([], false, rest)
    else if t = ">>" then some ([], true, rest)
    else (redirect? rest).map (fun r => (t :: r.1, r.2))

def parseEcho (tokens : List String) : Parse Operation :=
  match redirect? tokens with
  | none => missing "echo" "redirect (\x60echo text > file\x60)"
  | some (_, _, []) => missing "echo" "file after redirect"
  | some (_, _, _ :: extra :: _) => tooMany "echo" extra
  | some (words, append, [raw]) => do
    let path ← normalizePath "echo" raw
    return .writeFile path (Text.joinWith " " words) append

/-! ## Lines -/

/-- a subcommand and its words -/
def parseSubcommand (name : String) (tokens : List String) : Parse Operation :=
  match name with
  | "init" => parseInit tokens
  | "add" => parseAdd tokens
  | "rm" => parseRemove tokens
  | "restore" => parseRestore tokens
  | "commit" => parseCommit tokens
  | "branch" => parseBranch tokens
  | "checkout" => parseCheckout tokens
  | "switch" => parseSwitch tokens
  | "merge" => parseMerge tokens
  | "reset" => parseReset tokens
  | "log" => parseLog tokens
  | "status" => parseStatus tokens
  | other => .error (.unknownCommand other)

/-- the words of a whole line -/
def parseWords : List String → Parse Operation
  | [] => .error .empty
  | "git" :: [] => missing "git" "subcommand"
  | "git" :: name :: rest => parseSubcommand name rest
  | "touch" :: rest => parseTouch rest
  | "echo" :: rest => parseEcho rest
  | "rm" :: rest => parseShellRemove rest
  | name :: rest => parseSubcommand name rest

/-- the operation that a terminal line asks for -/
def parse (line : String) : Parse Operation := do
  parseWords (← tokenize line)

end RepoTutor.Command
