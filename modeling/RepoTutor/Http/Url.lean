/-
Targets of requests: a path and a query with percent-encoded bytes.
-/
import RepoTutor.Json.Parser
import RepoTutor.Text.Utf8

namespace RepoTutor.Http

/-- the bytes behind percent signs with two hexadecimal digits; other signs stand for themselves -/
def percentDecode : List Nat → List Nat
  | 0x25 :: a :: b :: rest =>
    match Json.hexValue? (Char.ofNat a), Json.hexValue? (Char.ofNat b) with
    | some high, some low => (high * 16 + low) :: percentDecode rest
    | _, _ => 0x25 :: percentDecode (a :: b :: rest)
  | b :: rest => b :: percentDecode rest
  | [] => []

/-- a segment of a path; `none` when its bytes are no text -/
def segmentText? (s : String) : Option String := Text.Utf8.decode? (percentDecode (Text.Utf8.encode s))

/-- a name or a value of a query, where a plus sign stands for a space -/
def queryText (s : String) : String :=
  Text.Utf8.decodeLossy (percentDecode ((Text.Utf8.encode s).map (fun b => if b = 0x2B then 0x20 else b)))

/-- names and values of a query -/
def queryPairs (query : String) : List (String × String) :=
  ((Text.splitOn '&' query).filter (fun s => !s.isEmpty)).map (fun s =>
    let cs := s.toList
    (queryText (String.ofList (cs.takeWhile (· != '='))), queryText (String.ofList ((cs.dropWhile (· != '=')).drop 1))))

/-- path and query of a target; what follows a number sign does not count -/
def splitTarget (target : String) : String × String :=
  let cs := target.toList.takeWhile (· != '#')
  (String.ofList (cs.takeWhile (· != '?')), String.ofList ((cs.dropWhile (· != '?')).drop 1))

end RepoTutor.Http
