import CrmEmulator.Analytics.Pipeline
import CrmEmulator.Supply

/-!
# CrmEmulator.Analytics.Dataset — datasets and their registry

A dataset has rows and a list of versions, of which the last is current.  Datasets are found by id,
by an id followed by a slash and a version, or by name.
-/

namespace CrmEmulator

structure DatasetVersion where
  id : String
  createdDate : String
deriving Repr, DecidableEq

structure Dataset where
  id : String
  name : String
  label : String
  description : String
  createdDate : String
  lastModifiedDate : String
  folderId : String
  folderName : String
  versions : List DatasetVersion
  rows : List Record
deriving DecidableEq

namespace Dataset

/-- The text after its first `n` bytes; empty if a character lies across the cut. -/
def afterBytes : (n : Nat) → List Char → List Char
  | 0, cs => cs
  | _ + 1, [] => []
  | n + 1, c :: cs => if c.utf8Size ≤ n + 1 then afterBytes (n + 1 - c.utf8Size) cs else []

/-- The id of the only version of a new dataset. -/
def versionId (id : String) : String := "0Fc" ++ String.ofList (afterBytes 3 id.toList)

/-- A dataset with one version and the usual dates and folder. -/
def ofRows (id name : String) (rows : List Record) : Dataset where
  id := id
  name := name
  label := name
  description := ""
  createdDate := "2024-01-15T10:00:00.000Z"
  lastModifiedDate := "2024-06-01T14:30:00.000Z"
  folderId := "00lFOLDER0000001"
  folderName := "SharedApp"
  versions := [⟨versionId id, "2024-06-01T14:30:00.000Z"⟩]
  rows := rows

def currentVersion? (d : Dataset) : Option String := d.versions.getLast?.map (·.id)

/-- A dataset in a listing: everything but its rows. -/
def summary (d : Dataset) : List (String × Json) := [
  ("id", .str d.id),
  ("name", .str d.name),
  ("label", .str d.label),
  ("description", .str d.description),
  ("datasetType", .str "default"),
  ("currentVersionId", (d.currentVersion?.map Json.str).getD .null),
  ("createdDate", .str d.createdDate),
  ("lastModifiedDate", .str d.lastModifiedDate),
  ("folderId", .str d.folderId),
  ("folderName", .str d.folderName)]

def versionsJson (d : Dataset) : Json :=
  .arr (d.versions.map fun v => .obj [
    ("id", .str v.id),
    ("datasetId", .str d.id),
    ("createdDate", .str v.createdDate),
    ("totalRowCount", .ofNat d.rows.length)])

/-! ## Samples -/

def deal (name : String) (amount : Int64) (stage region : String) : Record :=
  ⟨[("Name", .text name), ("Amount", .integer amount), ("Stage", .text stage),
    ("Region", .text region)]⟩

def salesPipeline : Dataset :=
  { ofRows "0FbSALES00000001" "SalesPipeline" [
      deal "Acme Deal" 50000 "Closed Won" "West",
      deal "Beta Opportunity" 75000 "Negotiation" "East",
      deal "Gamma Contract" 120000 "Closed Won" "West",
      deal "Delta Prospect" 30000 "Prospecting" "Central",
      deal "Epsilon Renewal" 95000 "Negotiation" "East"] with
    label := "Sales Pipeline"
    description := "Sales pipeline data for testing Wave Analytics queries"
    versions := [⟨"0FcSALESV0000001", "2024-06-01T14:30:00.000Z"⟩] }

def customer (name : String) (score : Int64) (segment : String) (revenue : Int64) : Record :=
  ⟨[("Customer", .text name), ("Score", .integer score), ("Segment", .text segment),
    ("Revenue", .integer revenue)]⟩

def customerMetrics : Dataset :=
  { ofRows "0FbMETRICS000001" "CustomerMetrics" [
      customer "Acme Corp" 92 "Enterprise" 500000,
      customer "Beta Inc" 78 "Mid-Market" 150000,
      customer "Gamma LLC" 85 "Enterprise" 320000] with
    label := "Customer Metrics"
    description := "Customer satisfaction and segmentation metrics"
    createdDate := "2024-02-20T09:00:00.000Z"
    lastModifiedDate := "2024-06-10T11:00:00.000Z"
    versions := [⟨"0FcMETRICSV00001", "2024-06-10T11:00:00.000Z"⟩] }

end Dataset

/-- The datasets of an organisation, in order of registration. -/
structure Datasets where
  all : List Dataset
deriving DecidableEq

namespace Datasets

def empty : Datasets := ⟨[]⟩

/-- Every organisation starts with the samples. -/
def samples : Datasets := ⟨[Dataset.salesPipeline, Dataset.customerMetrics]⟩

def place (d : Dataset) : List Dataset → List Dataset
  | [] => [d]
  | old :: rest => if old.id == d.id then d :: rest else old :: place d rest

/-- Add a dataset; one with the same id is replaced. -/
def register (s : Datasets) (d : Dataset) : Datasets := ⟨place d s.all⟩

def get (s : Datasets) (id : String) : Except Failure Dataset :=
  match s.all.find? (·.id == id) with
  | some d => .ok d
  | none => .error (.notFound ("Wave dataset not found: " ++ id))

/-- The dataset that a reference means: an id, an id before a slash, or else a name. -/
def resolve (s : Datasets) (reference : String) : Except Failure Dataset :=
  let id := String.ofList (reference.toList.takeWhile (· ≠ '/'))
  match (s.all.find? fun d => d.id == reference || d.id == id).or
      (s.all.find? (·.name == reference)) with
  | some d => .ok d
  | none => .error (.malformedQuery ("Dataset not found for reference: " ++ reference))

/-! ## Answers -/

def datasetsUrl (version : String) : String := "/services/data/" ++ version ++ "/wave/datasets"

def datasetUrl (version id : String) : String := datasetsUrl version ++ "/" ++ id

def versionsUrl (version id : String) : String := datasetUrl version id ++ "/versions"

def listJson (s : Datasets) (version : String) : Json :=
  .obj [
    ("datasets", .arr (s.all.map fun d => .obj d.summary)),
    ("totalSize", .ofNat s.all.length),
    ("url", .str (datasetsUrl version))]

def getJson (s : Datasets) (version id : String) : Except Failure Json := do
  let d ← s.get id
  return .obj (d.summary ++ [
    ("url", .str (datasetUrl version id)),
    ("versionsUrl", .str (versionsUrl version id))])

def getVersionsJson (s : Datasets) (version id : String) : Except Failure Json := do
  let d ← s.get id
  return .obj [("versions", d.versionsJson), ("url", .str (versionsUrl version id))]

/-- The prefix of the ids of answers. -/
def responsePrefix : String := "0Aq"

/-- The rows that a program makes of the dataset that it loads. -/
def runText (s : Datasets) (text : String) : Except Halt (List Record) := do
  let p ← (Saql.Program.parse text).mapError fun fault => .failure fault.failure
  let d ← (s.resolve p.dataset).mapError .failure
  p.run d.rows

/-- Run a program over the dataset that it loads. -/
def query (s : Datasets) (supply : Supply) (text : String) : Except Halt Json × Supply :=
  match s.runText text with
  | .error halt => (.error halt, supply)
  | .ok rows =>
    let (id, supply) := supply.freshId responsePrefix
    (.ok (.obj [
      ("action", .str "query"),
      ("responseId", .str id),
      ("results", .obj [("metadata", columnsJson rows), ("records", .arr (rows.map Record.toJson))]),
      ("query", .str text),
      ("responseTime", .ofNat 0),
      ("warnings", .arr [])]), supply)

end Datasets

end CrmEmulator
