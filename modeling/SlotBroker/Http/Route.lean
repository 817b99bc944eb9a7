import SlotBroker.Http.MediaType
import SlotBroker.Http.Message
import SlotBroker.Json.Record
import SlotBroker.Program
import SlotBroker.Text.Percent

/-!
# Routes

A route is a template of path pieces, one of which may be left open, and the actions for its
methods. The path is matched as it is written and its open piece decoded only afterwards; an open
piece at the end of a template must not be empty. `HEAD` is answered as `GET` is, without the body.
Every request that matches a template is counted, also one whose method is not allowed.
-/

namespace SlotBroker.Http

/-- A piece of a template. -/
inductive Piece where
  /-- A fixed word. -/
  | word (w : String)
  /-- The place of an id. -/
  | hole
  deriving Repr, DecidableEq

/-- The text of a template. -/
def templateText (ps : List Piece) : String :=
  String.join (ps.map fun
    | .word w => "/" ++ w
    | .hole => "/\x7bid\x7d")

/-- The pieces in the holes of a template, none if the pieces of a path do not match it. -/
def matchPieces : List Piece → List String → Option (List String)
  | [], [] => some []
  | .word w :: ps, s :: ss => if w = s then matchPieces ps ss else none
  | [.hole], [s] => if s = "" then none else some [s]
  | .hole :: ps, s :: ss => (matchPieces ps ss).map (s :: ·)
  | _, _ => none

/-- The pieces of a path, none if it does not begin with a slash. -/
def pathPieces? : List Char → Option (List String)
  | '/' :: rest => some ((Text.pieces (· = '/') rest).map String.ofList)
  | _ => none

/-- The methods that some route serves. -/
inductive Method where
  | get
  | post
  | delete
  deriving Repr, DecidableEq

namespace Method

/-- The method that serves a request's method. -/
def ofName? : String → Option Method
  | "GET" | "HEAD" => some get
  | "POST" => some post
  | "DELETE" => some delete
  | _ => none

/-- The names of the request methods that a method serves. -/
def names : Method → String
  | get => "GET,HEAD"
  | post => "POST"
  | delete => "DELETE"

end Method

/-- The work on a request, which may be refused on the way. -/
abbrev Handling := ExceptT Refusal Program

/-- An action: what it does with the piece in the hole of the path and the request. -/
abbrev Action := String → Request → Handling Response

/-- A template with the actions for its methods. -/
structure Route where
  template : List Piece
  actions : List (Method × Action)

namespace Route

/-- The methods of a route, as they are listed for a request with another one. -/
def allowed (r : Route) : String := String.intercalate "," (r.actions.map fun a => a.1.names)

/-- The answer of a route to a request, with the piece in the hole of its path. -/
def answer (r : Route) (id : String) (request : Request) : Program Response := do
  match (Method.ofName? request.method).bind (fun m => r.actions.lookup m) with
  | none => return { status := 405, allow := some r.allowed }
  | some action =>
    let response ←
      match ← (action id request).run with
      | .ok response => pure response
      | .error refusal => pure (refusal.response request)
    if request.method = "HEAD" then
      return { response with body := .none }
    else
      return response

end Route

/-- The first route that matches the pieces of a path, with what stands in its hole. -/
def findRoute? (pieces : List String) : List Route → Option (Route × String)
  | [] => none
  | r :: rs =>
    match matchPieces r.template pieces with
    | some holes => some (r, holes.headD "")
    | none => findRoute? pieces rs

/-- The answer of some routes to a request. Once it is made it is counted under the template of its
route. -/
def serve (routes : List Route) (request : Request) : Program Response := do
  match (pathPieces? request.path).bind (fun pieces => findRoute? pieces routes) with
  | none => return { status := 404 }
  | some (route, id) =>
    let response ← route.answer id request
    Program.count (.answered (templateText route.template) (toString response.status)) 1
    return response

/-- A look at the store. It is never refused. -/
def Handling.query {α : Type} (f : Store → α) : Handling α := ExceptT.lift (Program.query f)

/-! ## What actions read off a request -/

/-- Goes on with what a program gives, or is refused for its failure. -/
def Handling.ofFailing {α : Type} (p : Program (Except Failure α)) : Handling α :=
  ExceptT.mk do
    match ← p with
    | .ok a => return .ok a
    | .error e => return .error (.failed e)

/-- The id that stands in the hole of a path. -/
def pathId (hole : String) : Handling String :=
  match Text.percentDecoded? hole with
  | some id => return id
  | none => throw .unreadablePath

/-- The values of a query's field. Only one is allowed. -/
def queryField (name : String) (request : Request) : Handling (Option String) :=
  match (Text.formPairs request.query).filter fun p => p.1 = name with
  | [] => return none
  | [p] => return some p.2
  | _ => throw .unreadableQuery

/-- A query's field that is a time. -/
def queryMillis (name : String) (request : Request) : Handling (Option Millis) := do
  match ← queryField name request with
  | none => return none
  | some s =>
    match Text.natural? UInt64.size s with
    | some n => return some (UInt64.ofNat n)
    | none => throw .unreadableQuery

/-- A query's field that is a choice, not taken if it is missing. -/
def queryFlag (name : String) (request : Request) : Handling Bool := do
  match ← queryField name request with
  | none => return false
  | some "true" => return true
  | some "false" => return false
  | some _ => throw .unreadableQuery

/-- How many bytes of a body are read at most. -/
def bodyLimit : Nat := 2 * 1024 * 1024

/-- The values of some text fields of a request's body. What it is said to be is looked at first,
and its length before any of it is read. -/
def bodyFields (names : List String) (request : Request) : Handling (List Json.Scalar) :=
  if request.contentType.any namesJson then
    if request.body.utf8ByteSize ≤ bodyLimit then
      match Json.recordOf (names.map fun n => { name := n, kind := .text }) request.body with
      | .ok values => return values
      | .error fault => throw (.unreadableBody fault)
    else throw .bodyTooLong
  else throw .notJson

end SlotBroker.Http
