/-
Where a workspace keeps its files.

A workspace is a directory that holds `.gitdojo/`. Configured paths are taken from the workspace's root unless they
begin with a slash.
-/
import RepoTutor.Text.Basic

namespace RepoTutor.Workspace

/-- a path below a directory; a path that begins with a slash stands for itself -/
def joinPath (directory path : String) : String :=
  match path.toList with
  | '/' :: _ => path
  | _ => if Text.endsWith ['/'] directory.toList then directory ++ path else directory ++ "/" ++ path

/-- the places of a workspace, by its root directory -/
structure Layout where
  root : String
  deriving DecidableEq, Repr

namespace Layout

def home (w : Layout) : String := joinPath w.root ".gitdojo"

def configFile (w : Layout) : String := joinPath w.home "config.json"

/-- the file that is locked while the configuration is set -/
def lockFile (w : Layout) : String := joinPath w.home "config.lock"

/-- a configured path, taken from the root -/
def resolve (w : Layout) (configured : String) : String := joinPath w.root configured

end Layout

end RepoTutor.Workspace
