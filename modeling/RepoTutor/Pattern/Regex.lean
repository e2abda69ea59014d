/-
Regular expressions over Unicode text and the question whether one matches somewhere in a text.

Matching follows sets of places: `ends e ps` holds the places that `e` can reach from one of `ps`. A repetition is
bounded by the length of the text, after which the sets of places change no more, so every search ends whatever the
expression.
-/
import RepoTutor.Text.Basic

namespace RepoTutor.Pattern

/-- a set of characters by its test -/
abbrev CharSet := Char → Bool

/-- a condition on the characters before and after a place; `none` at the ends of the text -/
abbrev Condition := Option Char → Option Char → Bool

inductive Regex where
  | empty
  /-- one character of a set; the weight tells how much room the set takes in a compiled expression -/
  | set (weight : Nat) (holds : CharSet)
  | look (holds : Condition)
  | cat (a b : Regex)
  | alt (a b : Regex)
  /-- at least `min` repetitions and at most `max`, if there is a bound -/
  | many (e : Regex) (min : Nat) (max : Option Nat)

namespace Regex

/-- room that an expression takes, repetitions written out -/
def size : Regex → Nat
  | empty => 1
  | set weight _ => weight
  | look _ => 1
  | cat a b => size a + size b
  | alt a b => size a + size b + 1
  | many e min max => size e * (Nat.max 1 (Nat.max min (max.getD 0))) + 1

/-- a place in a text -/
structure Place where
  index : Nat
  before : Option Char
  rest : List Char

/-- places of a text, the first one at its start -/
def places (index : Nat) (before : Option Char) : List Char → List Place
  | [] => [⟨index, before, []⟩]
  | c :: rest => ⟨index, before, c :: rest⟩ :: places (index + 1) (some c) rest

/-- the place after one character of a set -/
def Place.step (holds : CharSet) (p : Place) : Option Place :=
  match p.rest with
  | [] => none
  | c :: rest => if holds c then some ⟨p.index + 1, some c, rest⟩ else none

/-- add a place unless it is there -/
def addPlace (ps : List Place) (p : Place) : List Place :=
  if ps.any (fun q => q.index == p.index) then ps else p :: ps

/-- places of both lists, each once -/
def join (ps qs : List Place) : List Place := qs.foldl addPlace ps

/-- apply a function a number of times -/
def repeatTimes (f : List Place → List Place) : Nat → List Place → List Place
  | 0, ps => ps
  | n + 1, ps => repeatTimes f n (f ps)

/-- add what a function reaches, up to a number of times, until nothing is new -/
def spread (f : List Place → List Place) : Nat → List Place → List Place
  | 0, ps => ps
  | n + 1, ps =>
    let next := join ps (f ps)
    if next.length = ps.length then ps else spread f n next

/-- places reached from one of `ps`; `bound` is one more than the length of the text -/
def ends (bound : Nat) : Regex → List Place → List Place
  | empty, ps => ps
  | set _ holds, ps => ps.filterMap (Place.step holds)
  | look holds, ps => ps.filter (fun p => holds p.before p.rest.head?)
  | cat a b, ps => ends bound b (ends bound a ps)
  | alt a b, ps => join (ends bound a ps) (ends bound b ps)
  | many e min max, ps =>
    let most := match max with
      | none => bound
      | some m => Nat.min (m - min) bound
    spread (ends bound e) most (repeatTimes (ends bound e) (Nat.min min bound) ps)

/-- whether the expression matches somewhere in a text -/
def isMatch (e : Regex) (text : List Char) : Bool :=
  !(ends (text.length + 1) e (places 0 none text)).isEmpty

end Regex

end RepoTutor.Pattern
