import ClusterInventory.Json.Printer
import ClusterInventory.Json.Reader
import ClusterInventory.Object
import ClusterInventory.Text.Quoted
import ClusterInventory.Uri

/-! # API servers

A server answers a request with a status and a body, or not at all. What it answers may depend on
all requests that it has seen, so that no statement about servers assumes more than it says.
-/

namespace ClusterInventory

inductive Answer where
  | reply (status : Nat) (body : String)
  /-- The request did not get through. -/
  | unreachable (error : String)
  deriving DecidableEq, Repr, Inhabited

structure Server where
  /-- What stands before every path in the address of the server. -/
  base : String := ""
  /-- The answer to a path after the earlier requests. -/
  answer : List String → String → Answer

structure Refusal where
  status : String
  message : String
  reason : String
  code : Nat
  deriving DecidableEq, Repr

inductive RequestError where
  | refused (refusal : Refusal)
  | malformed
  | unreachable (error : String)
  | badPath
  | badRequest
  | emptyGroup (name : String)
  | missingGroup (name : String)
  /-- The proxy needs a feature that is left out. -/
  | proxyDisabled (proxy : Uri) (feature : String)
  | proxyUnsupported (proxy : Uri)
  deriving DecidableEq, Repr

namespace RequestError

def message : RequestError → String
  | refused r =>
      "ApiError: " ++ r.message ++ ": " ++ r.reason ++ " (ErrorResponse \x7b status: " ++
        Text.quoted r.status ++ ", message: " ++ Text.quoted r.message ++ ", reason: " ++
        Text.quoted r.reason ++ ", code: " ++ toString r.code ++ " \x7d)"
  | malformed => "Error deserializing response"
  | unreachable error => "ServiceError: " ++ error
  | badPath => "HttpError: invalid uri character"
  | badRequest => "Failed to build request: failed to build request: invalid uri character"
  | emptyGroup name => "Error from discovery: Empty Api Group: " ++ name
  | missingGroup name => "Error from discovery: Missing Api Group: " ++ name
  | proxyDisabled proxy feature =>
      "configured proxy " ++ proxy.write ++ " requires the disabled feature " ++ Text.quoted feature
  | proxyUnsupported proxy => "configured proxy " ++ proxy.write ++ " is not supported by kube"

end RequestError

/-! ## Refusals -/

namespace Refusal

/-- The phrases of the registered status codes from 400 on. -/
def phrases : List (Nat × String) := [
  (400, "Bad Request"), (401, "Unauthorized"), (402, "Payment Required"), (403, "Forbidden"),
  (404, "Not Found"), (405, "Method Not Allowed"), (406, "Not Acceptable"),
  (407, "Proxy Authentication Required"), (408, "Request Timeout"), (409, "Conflict"),
  (410, "Gone"), (411, "Length Required"), (412, "Precondition Failed"),
  (413, "Payload Too Large"), (414, "URI Too Long"), (415, "Unsupported Media Type"),
  (416, "Range Not Satisfiable"), (417, "Expectation Failed"), (418, "I'm a teapot"),
  (421, "Misdirected Request"), (422, "Unprocessable Entity"), (423, "Locked"),
  (424, "Failed Dependency"), (425, "Too Early"), (426, "Upgrade Required"),
  (428, "Precondition Required"), (429, "Too Many Requests"),
  (431, "Request Header Fields Too Large"), (451, "Unavailable For Legal Reasons"),
  (500, "Internal Server Error"), (501, "Not Implemented"), (502, "Bad Gateway"),
  (503, "Service Unavailable"), (504, "Gateway Timeout"), (505, "HTTP Version Not Supported"),
  (506, "Variant Also Negotiates"), (507, "Insufficient Storage"), (508, "Loop Detected"),
  (510, "Not Extended"), (511, "Network Authentication Required")]

def phrase (code : Nat) : String := (phrases.lookup code).getD "<unknown status code>"

def text? : Json → Option String
  | .string s => some s
  | _ => none

def code? : Json → Option Nat
  | .int n => if 0 ≤ n ∧ n < 65536 then some n.toNat else none
  | _ => none

/-- A field that may be absent but not be given twice. -/
def single (key : String) (fields : List (String × Json)) : Option (Option Json) :=
  match fields.filter fun e => e.1 == key with
  | [] => some none
  | [(_, v)] => some (some v)
  | _ => none

def optionalText (v : Option Json) : Option String :=
  match v with
  | none => some ""
  | some v => text? v

/-- A refusal in the words of the server: the four fields by name, or in order in an array. -/
def ofJson? : Json → Option Refusal
  | .object fields => do
      let status ← text? (← (← single "status" fields))
      let message ← optionalText (← single "message" fields)
      let reason ← optionalText (← single "reason" fields)
      let code ← code? (← (← single "code" fields))
      return ⟨status, message, reason, code⟩
  | .array [status, message, reason, code] => do
      return ⟨← text? status, ← text? message, ← text? reason, ← code? code⟩
  | _ => none

/-- Where the body does not say what is wrong, it is the message itself. -/
def ofBody (code : Nat) (body : String) : Refusal :=
  ((Json.parse? body).bind ofJson?).getD
    ⟨toString code ++ " " ++ phrase code, Text.quoted body, "Failed to parse error data", code⟩

end Refusal

/-! ## Requests -/

/-- The requests made so far, as the server sees them, are the state of an exchange. -/
abbrev Exchange (α : Type) := StateM (List String) α

namespace Server

def queryText (query : Option (List Char)) : String :=
  (query.map fun q => String.ofList ('?' :: q)).getD ""

/-- Sends a request; the server looks up the path without the query. -/
def send (server : Server) (path : List Char) (query : Option (List Char)) : Exchange Answer :=
  fun past =>
    let path := server.base ++ String.ofList path
    (server.answer past path, past ++ [path ++ queryText query])

/-- The text of a reply that is not a refusal. -/
def bodyOf : Answer → Except RequestError String
  | .unreachable error => .error (.unreachable error)
  | .reply status body =>
      if 400 ≤ status ∧ status ≤ 599 then .error (.refused (Refusal.ofBody status body))
      else .ok body

def get {α : Type} (server : Server) (onBadPath : RequestError) (read : Json → Option α)
    (text : String) : Exchange (Except RequestError α) :=
  match Uri.target? text.toList with
  | none => pure (.error onBadPath)
  | some (path, query) => do
      match bodyOf (← server.send path query) with
      | .error e => return .error e
      | .ok body =>
          match (Json.parse? body).bind read with
          | some v => return .ok v
          | none => return .error .malformed

/-! ## Lists of objects -/

def listMetadata : Shape := .record [
  Shape.field "continue" .string, Shape.field "remainingItemCount" .integer,
  Shape.field "resourceVersion" .string, Shape.field "selfLink" .string]

/-- Null stands for no objects. -/
def objects? : Json → Option (List Object)
  | .null => some []
  | .array items => items.mapM Object.ofJson?
  | _ => none

/-- The items of a list document; they are required. -/
def readItems (v : Json) : Option (List Object) :=
  match v with
  | .object fields => do
      match ← Refusal.single "metadata" fields with
      | none => pure ()
      | some .null => none
      | some m => let _ ← listMetadata.conform? m; pure ()
      objects? (← (← Refusal.single "items" fields))
  | _ => none

def listPath (r : Resource) : String :=
  (if r.group = "" then "/api/" else "/apis/") ++ r.apiVersion ++ "/" ++ r.plural ++ "?"

def list (server : Server) (r : Resource) : Exchange (Except RequestError (List Object)) :=
  server.get .badRequest readItems (listPath r)

/-- The request of a list call; a path with a character that may not stand in it is not sent. -/
def listRequest? (server : Server) (r : Resource) : Option String :=
  (Uri.target? (listPath r).toList).map fun (path, query) =>
    server.base ++ String.ofList path ++ queryText query

end Server

end ClusterInventory
