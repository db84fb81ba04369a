import CrmEmulator.Http.Message
import CrmEmulator.Json.Reader
import CrmEmulator.Text.Utf8

/-!
# CrmEmulator.Http.Exchange — requests and responses as documents

A request is an object with a method, a path and a body, of which only the path is needed.  A
response shows its status, its headers and its body as text.
-/

namespace CrmEmulator.Http

/-- The text of a member, if it is one. -/
def textMember? (doc : Json) (name : String) : Option String :=
  match doc.member? name with
  | some (.str s) => some s
  | _ => none

/-- The request that a document describes.  A body that is no text is sent as a document. -/
def Request.ofJson? (doc : Json) : Option Request := do
  let body := match doc.member? "body" with
    | none | some .null => []
    | some (.str s) => s.toList
    | some other => other.text
  Request.make? ((textMember? doc "method").getD "GET") (← textMember? doc "path")
    (Utf8.encode body)

/-- The text of a body; bytes that make no characters are replaced. -/
def Body.shown : Body → String
  | .empty => ""
  | .json doc => doc.compact
  | .text _ s => s
  | .bytes _ content => String.ofList (Utf8.decodeLenient content)

def Response.toJson (r : Response) : Json :=
  .obj [
    ("status", .ofNat r.status),
    ("type", (r.contentType.map Json.str).getD .null),
    ("headers", .obj (r.sentHeaders.map fun (name, value) => (name, .str value))),
    ("body", .str r.body.shown)]

/-- The answer to a document that describes no request. -/
def unreadable : Json := .obj [("error", .str "this is not a request")]

/-- What stands for the response to a request that has none. -/
def unanswered : Json := .obj [("error", .str "the work was broken off")]

end CrmEmulator.Http
