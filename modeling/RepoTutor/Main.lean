/-
The program on the file system and the terminal.

The files that an invocation may look at are read first; what it changed is written after each of its steps.
-/
import RepoTutor.Cli.Program

namespace RepoTutor.Main

open Cli
open Workspace (Layout FileTree Config)

/-- add a file, if there is one -/
def addFile (t : FileTree) (path : String) : IO FileTree := do
  try return t.write path (← IO.FS.readFile path)
  catch _ => return t

/-- add a directory and its practices, if there is one -/
def addPractices (t : FileTree) (directory : String) : IO FileTree := do
  let place := (← IO.currentDir) / directory
  if !(← place.isDir) then return t
  (← place.readDir).foldlM (fun t e =>
    if Workspace.isPracticeFile e.fileName then addFile t (Workspace.joinPath directory e.fileName) else return t)
    (t.addDirectory directory)

/-- the files of a workspace -/
def readFiles (w : Layout) : IO FileTree := do
  let home := (← IO.currentDir) / w.home
  let t := FileTree.empty
  let t ← if ← home.isDir then addFile (t.addDirectory w.home) w.configFile else pure t
  match loadConfig w t with
  | .error _ => return t
  | .ok c => addFile (← addPractices t (w.resolve c.practicesDir)) (w.resolve c.storePath)

/-- write the files that differ from what was read -/
def writeFiles (old new : FileTree) : IO Unit := do
  for d in new.directories.keys do
    if !old.directories.contains d then IO.FS.createDirAll d
  for (path, text) in new.files.entries do
    if old.files.get? path != some text then IO.FS.writeFile path text

def print (p : Printed) : IO Unit := do
  let out ← IO.getStdout
  out.putStr p.out
  out.flush
  (← IO.getStderr).putStr p.err

/-- feed an invocation with lines until it has finished -/
partial def converse (input : IO.FS.Stream) (r : Run) : IO Run := do
  if r.isFinished then return r
  let line ← input.getLine
  let (p, next) := r.feed (if line.isEmpty then none else some line)
  writeFiles r.files next.files
  print p
  converse input next

end RepoTutor.Main

open RepoTutor in
def main (words : List String) : IO UInt32 := do
  let w : Workspace.Layout := ⟨(← IO.currentDir).toString⟩
  let files ← Main.readFiles w
  let (p, r) := Cli.Run.start w (← IO.getEnv "GITDOJO_LEARNER") words files
  Main.writeFiles files r.files
  Main.print p
  if r.isFinished && r.exitCode = Cli.usageExitCode then IO.eprintln "usage: gitdojo [--learner <LEARNER>] <COMMAND>"
  let r ← Main.converse (← IO.getStdin) r
  return UInt32.ofNat r.exitCode
