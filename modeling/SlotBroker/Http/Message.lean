import SlotBroker.Failure
import SlotBroker.Json.Value
import SlotBroker.Json.Lexeme
import SlotBroker.Metrics
import SlotBroker.View

/-!
# Requests, answers and refusals

A request is answered or refused. What is wrong with what it asks for is refused with a record of
the kind and the text of the fault. What is wrong with its form is refused in plain words, which are
not settled here: a `Wording` chooses them, and they may depend on all that `Unread` keeps of the
request. Whatever is said of answers therefore holds for any choice of words.
-/

namespace SlotBroker.Http

/-- A request. Its body is text: what is answered to bytes that are not UTF-8 is left out. -/
structure Request where
  method : String := "GET"
  /-- The path, and the query after a question mark. -/
  target : String := "/"
  contentType : Option String := none
  body : String := ""

namespace Request

/-- The target without a fragment. -/
def targetChars (r : Request) : List Char := r.target.toList.takeWhile (· ≠ '#')

/-- The path, still encoded. -/
def path (r : Request) : List Char := r.targetChars.takeWhile (· ≠ '?')

/-- What follows the question mark. -/
def query (r : Request) : String := String.ofList ((r.targetChars.dropWhile (· ≠ '?')).drop 1)

end Request

/-- What of a request is not read, with all that the words about it may depend on. -/
inductive Unread where
  /-- A piece of the path is not UTF-8. -/
  | path (target : String)
  /-- A field of the query is not what it should be. -/
  | query (target : String)
  /-- The body is not said to be JSON. -/
  | mediaType
  /-- The body is longer than what is read of one. -/
  | length
  /-- The body is not what was expected. The words may quote it, or tell where in it reading
  stopped. -/
  | body (fault : Json.Fault) (request : Request)

/-- A choice of words for what is not read. -/
abbrev Wording := Unread → String

/-- What an answer carries. -/
inductive Body where
  | none
  | json (value : Json)
  /-- Words for people about what is not read. -/
  | words (about : Unread)
  /-- The exposition of the metrics. -/
  | metrics (lines : List Metrics.Line)

/-- An answer. -/
structure Response where
  status : Nat
  contentType : Option String := none
  /-- The methods that are allowed, where the one used is not. -/
  allow : Option String := none
  body : Body := .none

/-- The words that a body carries, under a choice of them. -/
def Body.text? (wording : Wording) : Body → Option String
  | words about => some (wording about)
  | _ => Option.none

namespace Response

/-- An answer with a JSON value. -/
def ofJson (status : Nat) (value : Json) : Response :=
  { status := status, contentType := some "application/json", body := .json value }

/-- An answer with words. -/
def ofWords (status : Nat) (about : Unread) : Response :=
  { status := status, contentType := some "text/plain; charset=utf-8", body := .words about }

end Response

/-- Why a request is refused. -/
inductive Refusal where
  /-- A piece of the path is not UTF-8. -/
  | unreadablePath
  /-- A field of the query is not what it should be. -/
  | unreadableQuery
  /-- The body is not said to be JSON. -/
  | notJson
  /-- The body is longer than what is read of one. -/
  | bodyTooLong
  /-- The body is not read. -/
  | unreadableBody (fault : Json.Fault)
  /-- The operation asked for fails. -/
  | failed (cause : Failure)
  /-- What is asked for makes no sense. -/
  | invalid (message : String)
  /-- There is no provider to verify credentials of a service at. -/
  | noProvider (service : String)
  deriving Repr, DecidableEq

namespace Refusal

/-- The status of the answer. -/
def status : Refusal → Nat
  | unreadablePath => 400
  | unreadableQuery => 400
  | notJson => 415
  | bodyTooLong => 413
  | unreadableBody .malformed => 400
  | unreadableBody .mismatched => 422
  | failed (.secretUnreadable _) => 500
  | failed _ => 404
  | invalid _ => 400
  | noProvider _ => 422

/-- The refusal as an answer to a request. -/
def response (r : Refusal) (request : Request := {}) : Response :=
  match r with
  | unreadablePath => .ofWords r.status (.path request.target)
  | unreadableQuery => .ofWords r.status (.query request.target)
  | notJson => .ofWords r.status .mediaType
  | bodyTooLong => .ofWords r.status .length
  | unreadableBody fault => .ofWords r.status (.body fault request)
  | failed cause => .ofJson r.status (View.fault cause.kind cause.message)
  | invalid message => .ofJson r.status (View.fault "invalid_request" message)
  | noProvider service =>
    .ofJson r.status (View.fault "no_upstream" ("no upstream provider for service " ++ service))

end Refusal

end SlotBroker.Http
