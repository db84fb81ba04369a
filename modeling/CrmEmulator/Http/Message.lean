import CrmEmulator.Failure
import CrmEmulator.Http.Address

/-!
# CrmEmulator.Http.Message — requests and responses

1. `Method` and `Request`.
2. `Response`, with the ways in which successes and failures are answered.
-/

namespace CrmEmulator.Http

/-! ## Requests -/

inductive Method
  | get
  | head
  | post
  | put
  | patch
  | delete
  | other (name : String)
deriving Repr, DecidableEq

namespace Method

def name : Method → String
  | get => "GET"
  | head => "HEAD"
  | post => "POST"
  | put => "PUT"
  | patch => "PATCH"
  | delete => "DELETE"
  | other name => name

def ofName (written : String) : Method :=
  ([get, head, post, put, patch, delete].find? (·.name == written)).getD (other written)

/-- The method whose answer is wanted, with or without its body. -/
def answered : Method → Method
  | head => get
  | m => m

/-- May a name be sent as a method? -/
def isToken (name : String) : Bool :=
  !name.isEmpty && name.toList.all fun c =>
    c.isAlphanum || "!#$%&'*+-.^_\x60|~".toList.contains c

end Method

structure Request where
  method : Method
  address : Address
  body : List UInt8
deriving Repr, DecidableEq

/-- The request of a method and a target, if they can be sent. -/
def Request.make? (method target : String) (body : List UInt8) : Option Request := do
  let address ← Address.parse? target.toList
  if Method.isToken method then some ⟨.ofName method, address, body⟩ else none

/-! ## Responses -/

inductive Body
  | empty
  | json (doc : Json)
  | text (contentType text : String)
  | bytes (contentType : String) (bytes : List UInt8)
deriving DecidableEq

structure Response where
  status : Nat
  headers : List (String × String)
  body : Body
deriving DecidableEq

namespace Response

def json (status : Nat) (doc : Json) : Response := ⟨status, [], .json doc⟩

def text (status : Nat) (contentType text : String) : Response :=
  ⟨status, [], .text contentType text⟩

def empty (status : Nat) : Response := ⟨status, [], .empty⟩

def jsonType : String := "application/json"

def xmlType : String := "application/xml"

def csvType : String := "text/csv"

def plainType : String := "text/plain; charset=utf-8"

/-- A list of errors. -/
def errors (status : Nat) (bodies : List ErrorBody) : Response :=
  json status (ErrorBody.toJsonList bodies)

/-- A failure, answered as a list of errors. -/
def failure (e : Failure) : Response := errors e.status e.bodies

/-- May a text be sent as the value of a header?  Control characters other than tabs may not. -/
def isHeaderValue (s : String) : Bool :=
  s.toList.all fun c => c == '\t' || (32 ≤ c.toNat && c.toNat != 127)

/-- The content type that is sent; one that cannot be sent becomes that of plain bytes. -/
def contentType (r : Response) : Option String :=
  match r.body with
  | .empty => none
  | .json _ => some jsonType
  | .text type _ => some type
  | .bytes type _ => some (if isHeaderValue type then type else "application/octet-stream")

/-- The headers that can be sent. -/
def sentHeaders (r : Response) : List (String × String) :=
  r.headers.filter fun (_, value) => isHeaderValue value

/-- The response without its body, as it answers a request for the head alone; the content type
stays. -/
def headOnly (r : Response) : Response :=
  match r.contentType with
  | some type => { r with body := .text type "" }
  | none => r

end Response

end CrmEmulator.Http
