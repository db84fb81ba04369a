import CrmEmulator.Org.Basic
import CrmEmulator.Text.Base64

/-!
# CrmEmulator.Org.Content — binary content of records

Attachments, documents and versions of contents keep their bytes in a text field, written in
base 64; a download gives the bytes back.
-/

namespace CrmEmulator

/-- Content with its type and the name of its file. -/
structure Download where
  contentType : String
  fileName : String
  bytes : List UInt8
deriving Repr, DecidableEq

namespace Download

/-- The fields that hold content, by object. -/
def contentFields : List (String × String) := [
  ("Attachment", "Body"), ("Document", "Body"), ("ContentVersion", "VersionData")]

/-- The type of content that says nothing else. -/
def plainBytes : String := "application/octet-stream"

/-- The fields that may name the file, the first that does counts. -/
def nameFields : List String := ["Name", "Title", "PathOnClient"]

/-- A text in a field that is not empty. -/
def nonEmptyText? (r : Record) (field : String) : Option String :=
  ((r.get? field).bind Value.text?).filter fun s => !s.isEmpty

/-- The content of a record; blanks between its characters do not matter. -/
def ofRecord (r : Record) (object id field : String) : Except Failure Download := do
  let written ← match nonEmptyText? r field with
    | some written => .ok written
    | none => .error (.notFound (object ++ " record " ++ id ++ " has no " ++ field ++ " data"))
  match Base64.decode? (written.toList.filter fun c => !isBlank c) with
  | some bytes => return {
      contentType := (nonEmptyText? r "ContentType").getD plainBytes
      fileName := (nameFields.findSome? (nonEmptyText? r)).getD "download"
      bytes }
  | none => .error (.invalidField
      (field ++ " of " ++ id ++ " is not valid base64: a character or the padding is wrong"))

end Download

namespace Org

/-- The content in a field of a record. -/
def download (o : Org) (object id field : String) : Except Failure Download :=
  if !Download.contentFields.contains (object, field) then
    .error (.notFound (object ++ "." ++ field ++ " is not a downloadable field"))
  else
    match ((o.store.collection object).toOption).bind (·.find? id) with
    | some r => Download.ofRecord r object id field
    | none => .error (.notFound (object ++ " record not found: " ++ id))

end Org

end CrmEmulator
