/-
An archive as the text of a file.

The text is a JSON object by learner and practice. An empty file is an empty archive. The file stands for the database of
the program; to close the database and open it again is to write the archive and read it from there (`Reopens`).
-/
import RepoTutor.Store.Backend

namespace RepoTutor.Store

open Json (Value)

namespace Row

def toJson (row : Row) : Value :=
  .obj [("version", Value.ofNat row.version), ("state", Value.ofOption .str row.state), ("history", .str row.history)]

def ofJson? (v : Value) : Option Row := do
  let r ← v.record? ["version", "state", "history"]
  return ⟨← r.required "version" Value.nat32?, ← r.optional "state" Value.str?, ← r.required "history" Value.str?⟩

end Row

namespace Archive

def toText (a : Archive) : String := (Value.ofTable (Value.ofTable Row.toJson) a.rows.learners).pretty

def ofText? (text : String) : Option Archive :=
  if text.isEmpty then some empty
  else (Value.parse? text).bind (fun v => (v.tableOf? (Value.tableOf? Row.ofJson?)).map (fun t => ⟨⟨t⟩⟩))

end Archive

/-! ## Closing and opening -/

/-- stores that are closed and opened again -/
class Reopens (σ : Type) where
  reopen : σ → Except StoreError σ

/-- a store in memory is never closed -/
instance : Reopens MemoryStore := ⟨.ok⟩

/-- an archive is written to its file and read from there -/
instance : Reopens Archive where
  reopen a := match Archive.ofText? a.toText with
    | some a => .ok a
    | none => .error .unreadable

end RepoTutor.Store
