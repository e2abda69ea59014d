/-
The command line: a learner and a subcommand.

Options stand anywhere before `--`, the learner also before the subcommand. What follows `--` is taken as it is: for
`exec` it is the line to run, elsewhere it fills the places that are left. No option may be given twice.
-/
import RepoTutor.Text.Basic

namespace RepoTutor.Cli

inductive Command where
  | init
  | list
  | play (practice : String)
  | exec (practice : String) (json : Bool) (words : List String)
  | validate (practice : String) (json : Bool)
  | reset (practice : String) (yes : Bool)
  | configSet (key value : String)
  | configGet (key : String)
  | configList
  deriving DecidableEq, Repr

structure Arguments where
  learner : String
  command : Command
  deriving DecidableEq, Repr

/-! ## Words -/

/-- what the words of a subcommand come to -/
structure Scan where
  learner : Option String := none
  /-- the subcommand's own option was given -/
  option : Bool := false
  places : List String := []
  /-- what follows `--` -/
  rest : List String := []

/-- whether a word looks like an option -/
def isOption (word : String) : Bool := word.toList.head? == some '-' && word != "-"

/-- the value of an option in its own word -/
def attached? (option word : String) : Option String :=
  (Text.dropPrefix? (option ++ "=").toList word.toList).map String.ofList

/-- the words of a subcommand whose own option has these spellings -/
def scan (spellings : List String) : Scan → List String → Option Scan
  | s, [] => some s
  | s, "--" :: rest => some { s with rest := rest }
  | s, "--learner" :: v :: rest =>
    if isOption v || s.learner.isSome then none else scan spellings { s with learner := some v } rest
  | s, word :: rest =>
    match attached? "--learner" word with
    | some v => if s.learner.isSome then none else scan spellings { s with learner := some v } rest
    | none =>
      if spellings.contains word then
        if s.option then none else scan spellings { s with option := true } rest
      else if isOption word then none
      else scan spellings { s with places := s.places ++ [word] } rest

/-- the places of a subcommand, those after `--` included -/
def Scan.allPlaces (s : Scan) : List String := s.places ++ s.rest

/-! ## Subcommands -/

/-- the learner before the subcommand, and the words from the subcommand on -/
def leading : Option String → List String → Option (Option String × List String)
  | _, [] => none
  | learner, "--learner" :: v :: rest => if isOption v || learner.isSome then none else leading (some v) rest
  | learner, word :: rest =>
    match attached? "--learner" word with
    | some v => if learner.isSome then none else leading (some v) rest
    | none => if isOption word then none else some (learner, word :: rest)

/-- a subcommand, with the learner among its own words -/
def command? : List String → Option (Option String × Command)
  | "init" :: rest => do
    let s ← scan [] {} rest
    if s.allPlaces.isEmpty then some (s.learner, .init) else none
  | "list" :: rest => do
    let s ← scan [] {} rest
    if s.allPlaces.isEmpty then some (s.learner, .list) else none
  | "play" :: rest => do
    let s ← scan [] {} rest
    match s.allPlaces with
    | [practice] => some (s.learner, .play practice)
    | _ => none
  | "exec" :: rest => do
    let s ← scan ["--json"] {} rest
    match s.places with
    | [practice] => some (s.learner, .exec practice s.option s.rest)
    | _ => none
  | "validate" :: rest => do
    let s ← scan ["--json"] {} rest
    match s.allPlaces with
    | [practice] => some (s.learner, .validate practice s.option)
    | _ => none
  | "reset" :: rest => do
    let s ← scan ["--yes", "-y"] {} rest
    match s.allPlaces with
    | [practice] => some (s.learner, .reset practice s.option)
    | _ => none
  | "config" :: rest => do
    let (outer, words) ← leading none rest
    let (learner, c) ← match words with
      | "set" :: rest => do
        let s ← scan [] {} rest
        match s.allPlaces with
        | [key, value] => some (s.learner, .configSet key value)
        | _ => none
      | "get" :: rest => do
        let s ← scan [] {} rest
        match s.allPlaces with
        | [key] => some (s.learner, .configGet key)
        | _ => none
      | "list" :: rest => do
        let s ← scan [] {} rest
        if s.allPlaces.isEmpty then some (s.learner, .configList) else none
      | _ => none
    return (learner.or outer, c)
  | _ => none

/-- the arguments in some words; the learner may also come from the environment -/
def Arguments.parse? (environment : Option String) (words : List String) : Option Arguments := do
  let (outer, words) ← leading none words
  let (inner, c) ← command? words
  return ⟨((inner.or outer).or environment).getD "local", c⟩

end RepoTutor.Cli
