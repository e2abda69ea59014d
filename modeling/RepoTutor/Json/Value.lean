/-
JSON values.

Numbers are whole numbers or doubles. An object keeps its members as written, in order and with repetitions;
`canonical` sorts the members of every object by key and keeps the last of those with one key, so two values that
differ only in the order of their members have one canonical form.
-/
import RepoTutor.Numeric.Word
import RepoTutor.Data.Table
import RepoTutor.Numeric.Binary64

namespace RepoTutor.Json

/-- a number of a JSON text -/
inductive Number where
  | whole (n : Int)
  | real (x : Binary64)
  deriving DecidableEq, Repr

inductive Value where
  | null
  | bool (b : Bool)
  | num (n : Number)
  | str (s : String)
  | arr (items : List Value)
  | obj (members : List (String × Value))
  deriving Repr

namespace Value

instance : Inhabited Value := ⟨null⟩

def ofNat (n : Nat) : Value := .num (.whole n)

def ofInt (n : Int) : Value := .num (.whole n)

/-- an absent value is null -/
def ofOption {α : Type} (f : α → Value) : Option α → Value
  | none => null
  | some a => f a

def ofStrings (l : List String) : Value := .arr (l.map .str)

/-- an object with the members of a table -/
def ofTable {α : Type} (f : α → Value) (t : Table α) : Value :=
  .obj (t.entries.map (fun e => (e.1, f e.2)))

/-- value of the last member with this key -/
def member? (key : String) : Value → Option Value
  | .obj members => (members.reverse.find? (fun m => m.1 == key)).map (·.2)
  | _ => none

def str? : Value → Option String
  | .str s => some s
  | _ => none

def bool? : Value → Option Bool
  | .bool b => some b
  | _ => none

def arr? : Value → Option (List Value)
  | .arr items => some items
  | _ => none

/-- a whole number from zero up to but excluding `bound` -/
def natBelow? (bound : Nat) : Value → Option Nat
  | .num (.whole n) => if 0 ≤ n ∧ n.toNat < bound then some n.toNat else none
  | _ => none

def nat64? : Value → Option Nat := natBelow? (wordCount 64)

def nat32? : Value → Option Nat := natBelow? (wordCount 32)

mutual

/-- members sorted by key, the last of each key, at every depth -/
def canonical : Value → Value
  | .arr items => .arr (canonicalItems items)
  | .obj members => .obj (Table.ofList (canonicalMembers members)).entries
  | .null => .null
  | .bool b => .bool b
  | .num n => .num n
  | .str s => .str s

def canonicalItems : List Value → List Value
  | [] => []
  | v :: rest => canonical v :: canonicalItems rest

def canonicalMembers : List (String × Value) → List (String × Value)
  | [] => []
  | (k, v) :: rest => (k, canonical v) :: canonicalMembers rest

end

end Value

end RepoTutor.Json
