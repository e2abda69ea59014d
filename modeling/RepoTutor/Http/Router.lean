/-
The HTTP interface of the executor.

A request is routed by its path, then by its method; what a route takes is read before the executor is asked. A stream
of events is an answer that stays open: what happens to its session later is delivered on it.
-/
import RepoTutor.Http.Body
import RepoTutor.Http.Url
import RepoTutor.Session.Executor

namespace RepoTutor.Http

open Store Session
open Json (Value)

structure Request where
  method : String
  /-- path and query -/
  target : String
  body : Option String
  /-- the content is declared to be JSON -/
  isJson : Bool

inductive Content where
  | empty
  | json (v : Value)
  /-- the events of a session from now on -/
  | stream (key : SessionKey)

structure Response where
  status : Nat
  content : Content

/-- what a path stands for -/
inductive Resource where
  | health
  | practices
  | execute (practice : String)
  | state (practice : String)
  | validate (practice : String)
  | reset (practice : String)
  | events (practice : String)

namespace Resource

/-- the resource at a path; the practice is still encoded -/
def ofPath? (path : String) : Option Resource :=
  match Text.splitOn '/' path with
  | ["", "api", "health"] => some health
  | ["", "api", "practices"] => some practices
  | ["", "api", "practices", id, action] =>
    if id.isEmpty then none
    else
      match action with
      | "execute" => some (execute id)
      | "state" => some (state id)
      | "validate" => some (validate id)
      | "reset" => some (reset id)
      | "events" => some (events id)
      | _ => none
  | _ => none

/-- the method that a resource takes -/
def method : Resource → String
  | execute _ => "POST"
  | validate _ => "POST"
  | reset _ => "POST"
  | _ => "GET"

/-- whether a method is allowed; where reading is, reading the head alone is too -/
def allows (r : Resource) (method : String) : Bool := method == r.method || (method == "HEAD" && r.method == "GET")

end Resource

/-! ## Answers -/

namespace Response

def ok (v : Value) : Response := ⟨200, .json v⟩

/-- a refusal without a body of its own -/
def bare (status : Nat) : Response := ⟨status, .empty⟩

def badRequest (message : String) : Response := ⟨400, .json (.obj [("error", .str message)])⟩

def ofError (e : SessionError) : Response :=
  match e.versions? with
  | some (stored, current) =>
    ⟨409, .json (.obj [("error", .str e.message), ("reset_required", .bool true),
      ("stored_version", Value.ofNat stored), ("current_version", Value.ofNat current)])⟩
  | none =>
    let status := match e with
      | .unknownPractice _ => 404
      | .invariant _ => 409
      | .halted _ _ => 409
      | .store _ => 500
    ⟨status, .json (.obj [("error", .str e.message), ("code", .str e.code)])⟩

/-- the answer without its content -/
def headOnly (r : Response) : Response := ⟨r.status, .empty⟩

end Response

/-! ## What a route takes -/

/-- the named fields of a request's body -/
def Request.fields (r : Request) (names : List String) : Except Response (List (String × String)) :=
  if !r.isJson then .error (.bare 415)
  else
    match bodyFields names (r.body.getD "") with
    | .ok fields => .ok fields
    | .error .malformed => .error (.bare 400)
    | .error .mismatch => .error (.bare 422)

/-- the learner in a query, named exactly once -/
def queryLearner (query : String) : Except Response String :=
  match (queryPairs query).filter (fun p => p.1 == "learner_id") with
  | [p] => .ok p.2
  | _ => .error (.bare 400)

def field (fields : List (String × String)) (name : String) : String :=
  ((fields.find? (fun f => f.1 == name)).map (·.2)).getD ""

def practiceId (encoded : String) : Except Response String :=
  match segmentText? encoded with
  | some id => .ok id
  | none => .error (.bare 400)

/-! ## Routes -/

/-- the executor behind the interface and the open streams with what they have to deliver -/
structure Service (σ : Type) where
  executor : Executor σ
  streams : List (SessionKey × List Event) := []

namespace Service

variable {σ α : Type}

/-- hand an event to the streams of its session -/
def publish (s : Service σ) (e : Event) : Service σ :=
  { s with streams := s.streams.map (fun p => if p.1 = e.key then (p.1, p.2 ++ [e]) else p) }

/-- the session of a request -/
def key (s : Service σ) (practice learner : String) : Except Response SessionKey :=
  if Text.isBlankText learner then .error (.badRequest "learner_id must not be empty")
  else if (s.executor.practice? practice).isNone then .error (.ofError (.unknownPractice practice))
  else .ok ⟨learner, practice⟩

/-- the answer to a call, and the service after it -/
def answer (s : Service σ) (key : SessionKey) (r : Reply σ α) (encode : α → Value) : Response × Service σ :=
  let s := { s with executor := r.executor }
  let s := match r.event with
    | some kind => s.publish ⟨key, kind⟩
    | none => s
  match r.answer with
  | .ok a => (.ok (encode a), s)
  | .error e => (.ofError e, s)

variable [Backend σ]

/-- the session and the fields that a request with a body is about -/
def posted (s : Service σ) (r : Request) (practice : String) (names : List String) :
    Except Response (SessionKey × List (String × String)) := do
  let id ← practiceId practice
  let fields ← r.fields names
  return (← s.key id (field fields "learner_id"), fields)

/-- the session that a request with a query is about -/
def asked (s : Service σ) (query practice : String) : Except Response SessionKey := do
  let id ← practiceId practice
  s.key id (← queryLearner query)

/-- the answer of a resource to a method that it takes -/
def serve (s : Service σ) (r : Request) (query : String) : Resource → Response × Service σ
  | .health => (.ok (.obj [("ok", .bool true)]), s)
  | .practices => (.ok (.obj [("practices", .arr (s.executor.practices.values.map Session.summary))]), s)
  | .execute practice =>
    match s.posted r practice ["learner_id", "command"] with
    | .error e => (e, s)
    | .ok (key, fields) => s.answer key (s.executor.execute key (field fields "command")) Session.Response.toJson
  | .validate practice =>
    match s.posted r practice ["learner_id"] with
    | .error e => (e, s)
    | .ok (key, _) => s.answer key (s.executor.validate key) Grading.Verdict.toJson
  | .reset practice =>
    match s.posted r practice ["learner_id"] with
    | .error e => (e, s)
    | .ok (key, _) => s.answer key (s.executor.reset key) View.toJson
  | .state practice =>
    match s.asked query practice with
    | .error e => (e, s)
    | .ok key => s.answer key (s.executor.state key) View.toJson
  | .events practice =>
    match s.asked query practice with
    | .error e => (e, s)
    | .ok key => (⟨200, .stream key⟩, s)

/-- keep a stream open that was answered to a reader -/
def opened (s : Service σ) (r : Response) : Service σ :=
  match r.content with
  | .stream key => { s with streams := s.streams ++ [(key, [])] }
  | _ => s

/-- the answer to a request, and the service after it; a browser that asks what is allowed may do everything -/
def handle (s : Service σ) (r : Request) : Response × Service σ :=
  let (path, query) := splitTarget r.target
  if r.method = "OPTIONS" then (.bare 200, s)
  else
    match Resource.ofPath? path with
    | none => (.bare 404, s)
    | some resource =>
      if !resource.allows r.method then (.bare 405, s)
      else
        let (response, s) := s.serve r query resource
        if r.method = "HEAD" then (response.headOnly, s) else (response, s.opened response)

/-- the next events of the first stream, at most so many -/
def readEvents (s : Service σ) (n : Nat) : List Event × Service σ :=
  match s.streams with
  | [] => ([], s)
  | (key, pending) :: rest => (pending.take n, { s with streams := (key, pending.drop n) :: rest })

end Service

end RepoTutor.Http
