import CrmEmulator.Org.Basic
import CrmEmulator.Schema.Json

/-!
# CrmEmulator.Org.Overview — what an organisation shows of itself

1. Its records, schemas and jobs as documents, and its health.
2. Resetting it: everything but the schemas, the datasets and the settings is dropped.
3. Its addresses, its limits and the token that it gives to anyone.
-/

namespace CrmEmulator

namespace Org

/-! ## Contents -/

def collectionJson (c : Collection) : Json :=
  .obj [("count", .ofNat c.size), ("records", .arr (c.records.map Record.toJson))]

/-- The records of all objects. -/
def recordsJson (o : Org) : Json :=
  .obj (o.store.collections.map fun (object, c) => (object, collectionJson c))

/-- The records of one object. -/
def objectJson (o : Org) (object : String) : Except Failure Json :=
  if o.catalog.contains object then do
    return collectionJson (← o.store.collection object)
  else .error (.notFound ("Object '" ++ object ++ "' not found in database"))

def schemasJson (o : Org) : Json :=
  .obj (o.catalog.schemas.map fun s => (s.name, s.toJson))

/-- The jobs of all generations, in order of creation. -/
def jobsJson (o : Org) : Json :=
  .obj [("count", .ofNat o.jobs.size), ("jobs", .arr (o.jobs.toList.map Job.toJson))]

def healthJson (o : Org) : Json :=
  .obj [
    ("status", .str "UP"),
    ("timestamp", .str o.supply.now),
    ("objects", .ofNat o.catalog.schemas.length),
    ("totalRecords", .ofNat o.store.total),
    ("bulkJobs", .ofNat o.jobs.size),
    ("events", .ofNat o.bus.eventCount),
    ("streamingClients", .ofNat o.bus.clients.size)]

/-- The answer that only says that someone is there. -/
def livenessJson : Json := .obj [("status", .str "healthy")]

/-! ## Reset -/

/-- How much a reset drops. -/
structure Dropped where
  records : Nat
  jobs : Nat
  events : Nat
  clients : Nat
deriving Repr, DecidableEq

def Dropped.toJson (d : Dropped) : Json :=
  .obj [
    ("status", .str "reset"),
    ("recordsCleared", .ofNat d.records),
    ("bulkJobsCleared", .ofNat d.jobs),
    ("eventsCleared", .ofNat d.events),
    ("clientsCleared", .ofNat d.clients)]

/-- Drop records, jobs, events and sessions. -/
def reset (o : Org) : Dropped × Org :=
  let (records, store) := o.store.cleared
  let ((events, clients), bus) := o.bus.clear
  (⟨records, o.jobs.size, events, clients⟩, { o with store, jobs := .empty, bus })

/-! ## Addresses, limits and tokens -/

/-- An address without the slashes at its end. -/
def bareAddress (address : String) : String :=
  String.ofList (address.toList.reverse.dropWhile (· = '/')).reverse

/-- The addresses of the interfaces. -/
def indexJson (o : Org) : Json :=
  let base := bareAddress o.settings.instanceUrl
  let version := Job.plainVersion o.settings.apiVersion
  let data := base ++ "/services/data/v" ++ version
  .obj [
    ("service", .str "sfmock"),
    ("status", .str "UP"),
    ("endpoints", .obj [
      ("health", .str (base ++ "/health")),
      ("oauth_token", .str (base ++ "/services/oauth2/token")),
      ("rest_api", .str (data ++ "/sobjects/\x7bObject\x7d")),
      ("soql_query", .str (data ++ "/query?q=SELECT+Id+FROM+Account")),
      ("bulk_v2_ingest", .str (data ++ "/jobs/ingest")),
      ("bulk_v2_query", .str (data ++ "/jobs/query")),
      ("bulk_v1", .str (base ++ "/services/async/" ++ version ++ "/job")),
      ("cometd", .str (base ++ "/cometd/" ++ version)),
      ("admin_db", .str (base ++ "/__admin/db")),
      ("admin_schemas", .str (base ++ "/__admin/schemas")),
      ("admin_reset", .str (base ++ "/__admin/reset")),
      ("admin_bulk_jobs", .str (base ++ "/__admin/bulk-jobs"))])]

def limit (max remaining : Nat) : Json :=
  .obj [("Max", .ofNat max), ("Remaining", .ofNat remaining)]

/-- The limits, which no request uses up. -/
def limitsJson : Json :=
  .obj [
    ("DailyApiRequests", limit 1000000 999000),
    ("DailyBulkApiRequests", limit 10000 9900),
    ("ConcurrentAsyncGetReportInstances", limit 200 200),
    ("ConcurrentSyncReportRuns", limit 20 20),
    ("DailyAsyncApexExecutions", limit 250000 250000),
    ("HourlyDashboardRefreshes", limit 200 200)]

def organisationId : String := "00D000000000000EAA"

/-- An access token for anyone who asks. -/
def issueToken (o : Org) : Json × Org :=
  let issued := toString o.supply.millis
  let base := bareAddress o.settings.instanceUrl
  let (token, supply) := o.supply.freshToken 13
  let (signature, supply) := supply.freshToken 44
  (.obj [
    ("access_token", .str ("00D000000000000!mock.token." ++ issued ++ "." ++ token)),
    ("instance_url", .str base),
    ("id", .str (base ++ "/id/" ++ organisationId ++ "/" ++ Job.creatorId)),
    ("token_type", .str "Bearer"),
    ("issued_at", .str issued),
    ("signature", .str signature)], { o with supply })

end Org

end CrmEmulator
