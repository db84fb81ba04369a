import CrmEmulator.Analytics.Dataset
import CrmEmulator.Bulk.Job
import CrmEmulator.Store.Basic
import CrmEmulator.Streaming.Bus

/-!
# CrmEmulator.Org.Basic — an emulated organisation

An organisation has its object definitions, the records under them, bulk jobs, the event bus and
datasets.  Every operation on it either gives the organisation after it, or a failure, after which
the organisation is as before.
-/

namespace CrmEmulator

/-- What shapes answers but is no state. -/
structure Settings where
  /-- The version of the interfaces, without the leading letter. -/
  apiVersion : String := "59.0"
  /-- How long a streaming client waits for events, in milliseconds. -/
  longPoll : Nat := 0
  /-- The address under which the organisation is reached. -/
  instanceUrl : String := "http://localhost:8080"
deriving Repr, DecidableEq

structure Org where
  catalog : Catalog
  store : Store
  jobs : Jobs
  bus : EventBus
  datasets : Datasets
  settings : Settings
  supply : Supply
deriving DecidableEq

namespace Org

/-- A new organisation: no records, jobs or events, and the sample datasets. -/
def ofCatalog (c : Catalog) (settings : Settings) (supply : Supply) : Org where
  catalog := c
  store := .ofCatalog c
  jobs := .empty
  bus := .empty
  datasets := .samples
  settings := settings
  supply := supply

/-- The organisation at another time. -/
def atTime (o : Org) (millis : Nat) : Org := { o with supply := { o.supply with millis } }

end Org

end CrmEmulator
