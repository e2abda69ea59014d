/-
Whether a line of a history satisfies an expected command.

An expected command after `re:` is a regular expression that has to match somewhere in the line's words; any other one
has to begin the line word for word. A leading `git` does not count on either side.
-/
import RepoTutor.Command.Words
import RepoTutor.Pattern.RegexSyntax

namespace RepoTutor.Grading

/-- words between blanks, without any quoting -/
def blankWords (line : String) : List String :=
  ((Text.splitChars Text.isBlank line.toList).filter (fun w => !w.isEmpty)).map String.ofList

/-- words of a line without a leading `git`; a line with an open quotation is cut at its blanks -/
def normalizedWords (line : String) : List String :=
  let words := match Command.tokenize line with
    | .ok ws => ws
    | .error _ => blankWords line
  match words with
  | "git" :: rest => rest
  | words => words

def commandMatches (expected line : String) : Bool :=
  let have' := normalizedWords line
  match Text.dropPrefix? "re:".toList expected.toList with
  | some pattern =>
    match Pattern.Regex.ofText? (Text.trim (String.ofList pattern)) with
    | some e => e.isMatch (Text.joinWith " " have').toList
    | none => false
  | none =>
    let want := normalizedWords expected
    !want.isEmpty && want.isPrefixOf have'

/-- the longest prefix of the expected commands that occurs in order, taking each as early as possible -/
def matchInOrder : List String → List String → Nat
  | [], _ => 0
  | _ :: _, [] => 0
  | want :: wants, line :: history =>
    if commandMatches want line then matchInOrder wants history + 1 else matchInOrder (want :: wants) history

end RepoTutor.Grading
