import CrmEmulator.Json.Basic

/-!
# CrmEmulator.Failure — error codes, violations and failures

1. `ErrorCode`: the codes of the platform with their default messages.
2. `Violation`: a field that breaks a rule of its schema.
3. `Failure`: why a request cannot be answered, with its message, its code and the error bodies
   that a response carries.
4. `Halt`: how work ends without a result, with a failure or with none to answer.
-/

namespace CrmEmulator

/-! ## Codes -/

/-- The platform's error codes. -/
inductive ErrorCode
  | notFound
  | requiredFieldMissing
  | invalidField
  | invalidType
  | invalidFieldForInsertUpdate
  | invalidOrNullForRestrictedPicklist
  | stringTooLong
  | malformedQuery
  | entityIsDeleted
  | invalidCrossReferenceKey
  | invalidState
  | invalidOperation
  | invalidSessionId
  | missingArgument
  | duplicateValue
  | methodNotAllowed
  | unknownException
deriving Repr, DecidableEq

namespace ErrorCode

def text : ErrorCode → String
  | notFound => "NOT_FOUND"
  | requiredFieldMissing => "REQUIRED_FIELD_MISSING"
  | invalidField => "INVALID_FIELD"
  | invalidType => "INVALID_TYPE"
  | invalidFieldForInsertUpdate => "INVALID_FIELD_FOR_INSERT_UPDATE"
  | invalidOrNullForRestrictedPicklist => "INVALID_OR_NULL_FOR_RESTRICTED_PICKLIST"
  | stringTooLong => "STRING_TOO_LONG"
  | malformedQuery => "MALFORMED_QUERY"
  | entityIsDeleted => "ENTITY_IS_DELETED"
  | invalidCrossReferenceKey => "INVALID_CROSS_REFERENCE_KEY"
  | invalidState => "INVALID_STATE"
  | invalidOperation => "INVALID_OPERATION"
  | invalidSessionId => "INVALID_SESSION_ID"
  | missingArgument => "MISSING_ARGUMENT"
  | duplicateValue => "DUPLICATE_VALUE"
  | methodNotAllowed => "METHOD_NOT_ALLOWED"
  | unknownException => "UNKNOWN_EXCEPTION"

/-- The message of an error that brings none of its own. -/
def defaultMessage : ErrorCode → String
  | notFound => "The requested resource does not exist"
  | requiredFieldMissing => "Required fields are missing"
  | invalidField => "Invalid field"
  | invalidType => "Invalid type"
  | invalidFieldForInsertUpdate => "Unable to create/update fields"
  | invalidOrNullForRestrictedPicklist => "Invalid value for restricted picklist field"
  | stringTooLong => "Data value too large"
  | malformedQuery => "SOQL query is malformed"
  | entityIsDeleted => "Entity is deleted"
  | invalidCrossReferenceKey => "Invalid cross reference key"
  | invalidState => "Invalid state transition"
  | invalidOperation => "Unsupported operation"
  | invalidSessionId => "Session expired or invalid"
  | missingArgument => "Required argument is missing"
  | duplicateValue => "Duplicate value found"
  | methodNotAllowed => "HTTP method not allowed for this resource"
  | unknownException => "An error occurred"

def all : List ErrorCode := [
  notFound, requiredFieldMissing, invalidField, invalidType, invalidFieldForInsertUpdate,
  invalidOrNullForRestrictedPicklist, stringTooLong, malformedQuery, entityIsDeleted,
  invalidCrossReferenceKey, invalidState, invalidOperation, invalidSessionId, missingArgument,
  duplicateValue, methodNotAllowed, unknownException]

/-- The code with a given text. -/
def ofText? (s : String) : Option ErrorCode := all.find? (·.text == s)

theorem ofText?_text (code : ErrorCode) : ofText? code.text = some code := by
  cases code <;> decide

end ErrorCode

/-! ## Error bodies -/

/-- One entry of the list that a failing request answers. -/
structure ErrorBody where
  message : String
  code : ErrorCode
  fields : List String
deriving Repr, DecidableEq

namespace ErrorBody

def toJson (body : ErrorBody) : Json :=
  .obj [("message", .str body.message), ("errorCode", .str body.code.text),
    ("fields", .ofStrings body.fields)]

/-- An error is answered as a list, also when there is only one. -/
def listOf (code : ErrorCode) (message : Option String) (fields : List String) : List ErrorBody :=
  [⟨message.getD code.defaultMessage, code, fields⟩]

def toJsonList (bodies : List ErrorBody) : Json := .arr (bodies.map toJson)

end ErrorBody

/-! ## Violations -/

/-- A field that breaks a rule. -/
structure Violation where
  code : ErrorCode
  field : String
  message : String
deriving Repr, DecidableEq

namespace Violation

/-- Code and message in one line, as the failure columns of bulk results show them. -/
def summary (v : Violation) : String := v.code.text ++ ":" ++ v.message

def body (v : Violation) : ErrorBody := ⟨v.message, v.code, [v.field]⟩

end Violation

/-! ## Failures -/

/-- Why a request cannot be answered. -/
inductive Failure
  | notFound (message : String)
  | batchNotFound (message : String)
  | invalidType (message : String)
  | invalidField (message : String)
  | malformedQuery (message : String)
  | invalidState (message : String)
  | invalidBatchState (message : String)
  | entityIsDeleted (message : String)
  | missingArgument (message : String)
  | methodNotAllowed (message : String)
  | violations (found : List Violation)
  | lock (detail : String)
  | io (detail : String)
  | internal (message : String)
deriving Repr, DecidableEq

namespace Failure

/-! ### Named causes -/

/-- No object of that name is in the catalog. -/
def unknownObject (object : String) : Failure :=
  .notFound ("sObject type '" ++ object ++ "' is not supported.")

/-- A query names an object that is not in the catalog. -/
def unknownQueryObject (object : String) : Failure :=
  .invalidType ("sObject type '" ++ object ++
    "' is not supported. Check the spelling or your schema files.")

/-- A body is not JSON. -/
def notJson : Failure := .invalidField "Invalid JSON: the text is not a JSON document"

/-! ### What a failure shows -/

def message : Failure → String
  | .notFound m | .batchNotFound m | .invalidType m | .invalidField m | .malformedQuery m
  | .invalidState m | .invalidBatchState m | .entityIsDeleted m | .missingArgument m
  | .methodNotAllowed m | .internal m => m
  | .violations found => "validation failed: " ++ String.intercalate "; " (found.map (·.summary))
  | .lock detail => "Lock error: " ++ detail
  | .io detail => "I/O error: " ++ detail

/-- The code of a failure; violations show that of the first. -/
def code : Failure → ErrorCode
  | .notFound _ | .batchNotFound _ => .notFound
  | .invalidType _ => .invalidType
  | .invalidField _ => .invalidField
  | .malformedQuery _ => .malformedQuery
  | .invalidState _ | .invalidBatchState _ => .invalidState
  | .entityIsDeleted _ => .entityIsDeleted
  | .missingArgument _ => .missingArgument
  | .methodNotAllowed _ => .methodNotAllowed
  | .violations found => (found.head?.map (·.code)).getD .unknownException
  | .lock _ | .io _ | .internal _ => .unknownException

/-- The error bodies: one for each violation, one for any other failure. -/
def bodies : Failure → List ErrorBody
  | .violations found => found.map (·.body)
  | failure => ErrorBody.listOf failure.code (some failure.message) []

/-- The HTTP status of a failure. -/
def status : Failure → Nat
  | .notFound _ | .batchNotFound _ | .entityIsDeleted _ => 404
  | .methodNotAllowed _ => 405
  | .lock _ | .io _ | .internal _ => 500
  | _ => 400

end Failure

/-! ## Work without a result -/

/-- How work ends without a result.  A failure is answered; when the sum of two integers leaves the
64-bit range, the work is broken off in the middle, and the request gets no answer at all. -/
inductive Halt
  | failure (e : Failure)
  | overflow
deriving Repr, DecidableEq

namespace Halt

/-- The failure of work that may be broken off, said in other words. -/
def mapFailure (f : Failure → Failure) : Halt → Halt
  | .failure e => .failure (f e)
  | .overflow => .overflow

end Halt

end CrmEmulator
