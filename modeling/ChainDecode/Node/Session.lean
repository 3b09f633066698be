import ChainDecode.Json.Access
import ChainDecode.Json.Compare
import ChainDecode.Json.Literal
import ChainDecode.Json.Printer
import ChainDecode.Json.Reader

/-! # Sessions with a node

A node answers requests in JSON-RPC. The replies of the network are a value that is used up one
request at a time, so a session is an ordinary function of them.
-/
namespace ChainDecode.Node

inductive Reply where
  | failed (reason : Text)
  | answered (status : Json) (body : Text)
  | broken (cause : Fault)
  deriving Repr

/-- The reply with a body. A body goes out in UTF-8, so one that UTF-8 cannot write is no reply. -/
def Reply.ofBody (status : Json) (body : Text) : Reply :=
  match Text.Encoding.utf8.unencodable? body with
  | some u => .broken (.unencodable u)
  | none => .answered status body

structure Request where
  url : Text
  method : Text
  params : List Json
  id : Nat
  deriving Repr

def Request.toJson (r : Request) : Json :=
  .obj [("jsonrpc", .str "2.0"), ("method", .str r.method), ("params", .arr r.params),
    ("id", .nat r.id)]

structure Network where
  replies : List Reply
  posted : List Request
  deriving Repr

namespace Network

def ofReplies (replies : List Reply) : Network := ⟨replies, []⟩

def next (n : Network) : Reply := n.replies.head?.getD (.failed "no response")

def post (n : Network) (r : Request) : Network := ⟨n.replies.tail, n.posted ++ [r]⟩

end Network

structure Session where
  url : Text
  nextId : Nat
  network : Network
  deriving Repr

def Session.start (url : Text) (network : Network) : Session := ⟨url, 1, network⟩

abbrev Talk (α : Type) := EStateM Fault Session α

def exchange (method : Text) (params : List Json) : Talk Reply := fun s =>
  let request : Request := ⟨s.url, method, params, s.nextId⟩
  .ok s.network.next { s with nextId := s.nextId + 1, network := s.network.post request }

/-- What an `error` member says: its message when it is a record, itself otherwise. -/
def errorText : Json → Text
  | .obj members => ((Json.field? members "message").getD .null).display
  | v => v.display

/-- The result in an answer. A blank `error` is none; a result may report an error itself. -/
def resultOf (method : Text) (members : List (Text × Json)) : Except Fault Json :=
  match (Json.field? members "error").bind Json.present? with
  | some error => .error (.answerError method (errorText error))
  | none =>
    let result := (Json.field? members "result").getD .null
    match result.get? "error" with
    | some (.str text) => .error (.answerError method text)
    | _ => .ok result

def Reply.result (method : Text) : Reply → Except Fault Json
  | failed reason => .error (.requestFailed method reason)
  | answered status body =>
    if !status.same (.int 200) then .error (.requestStatus method status.display)
    else
      match Json.read body with
      | .error _ => .error (.answerNotJson method)
      | .ok (.obj members) => resultOf method members
      | .ok _ => .error (.answerUnexpected method)
  | broken cause => .error cause

def call (method : Text) (params : List Json) : Talk Json := do
  let reply ← exchange method params
  match reply.result method with
  | .ok result => pure result
  | .error f => throw f

def contracts (chain withMethods : Json) : Talk (List Json) := do
  match ← call "getContracts" [chain, withMethods] with
  | .arr items => pure items
  | _ => throw .contractsUnexpected

end ChainDecode.Node
