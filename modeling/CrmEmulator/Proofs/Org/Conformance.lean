import CrmEmulator.Proofs.Org.Invariant
import CrmEmulator.Proofs.Schema.Validation

/-!
# CrmEmulator.Proofs.Org.Conformance — stored records conform to their schemas

Every way of writing checks the very fields that it stores.

1. `Schema.Fits`: a record holds nothing in a defined field that its definition does not allow.
2. It is true of a record that is created from accepted fields, and an update with accepted fields
   keeps it.
3. So it holds of every record that an organisation has stored since it was empty.
-/

namespace CrmEmulator

namespace Schema

/-- Where a field is defined, other than those that the store sets itself, the record has either
no value or one that the definition allows. -/
def Fits (s : Schema) (r : Record) : Prop :=
  ∀ name d value, s.field? name = some d → name ∉ systemFields → r.get? name = some value →
    d.Allows value

variable {s : Schema} {sent : Record}

/-- A field of a valid record that is defined has a value that its definition allows. -/
theorem allows_last? {mode : WriteMode} (hvalid : s.violations mode sent = []) {name : String}
    {d : FieldDef} (hd : s.field? name = some d) {value : Value}
    (hvalue : sent.last? name = some value) : d.Allows value := by
  have hmem := Record.mem_of_lookup hvalue
  exact allows_of_violations_eq_nil hvalid (List.mem_reverse.mp hmem) hd

/-- A record that is created from valid fields fits. -/
theorem fits_created (hvalid : s.violations .create sent = []) (id now : String) :
    s.Fits (.created id now sent) := by
  intro name d value hd hname hvalue
  rw [Record.get?_created hname] at hvalue
  exact allows_last? hvalid hd hvalue

/-- A record that fits is updated by valid fields to one that fits. -/
theorem Fits.updated {r : Record} (h : s.Fits r) (hvalid : s.violations .update sent = [])
    (now : String) : s.Fits (r.updated now sent) := by
  intro name d value hd hname hvalue
  have hopen : name ∉ Record.protectedFields := fun h => hname (Record.protectedFields_subset h)
  rw [Record.get?_updated hopen, Option.or_eq_some_iff] at hvalue
  rcases hvalue with hsent | ⟨-, hold⟩
  · exact allows_last? hvalid hd hsent
  · exact h name d value hd hname hold

/-- Every write keeps all records fitting. -/
theorem kept_fits : Kept Fits where
  created _ _ _ hvalid := fits_created hvalid _ _
  updated _ _ now _ hvalid h := h.updated hvalid now

end Schema

namespace Org

/-- Whatever requests and batches an organisation has answered since it was empty, every stored
record fits the schema of its object. -/
theorem run_fits (c : Catalog) (settings : Settings) (supply : Supply) (ops : List Op) :
    Everywhere Schema.Fits ((ofCatalog c settings supply).run ops) :=
  run_everywhere Schema.kept_fits c settings supply ops

/-- An object with a short name and a rating out of two. -/
def rated : Schema where
  name := "Account"
  idPrefix := "001"
  fields := [
    ("Name", { maxLength := some 3 }),
    ("Rating", { type := .picklist, values := ["Hot", "Cold"] })]

/-- Records with ratings and names that are allowed and some that are not, one by one and in a
batch. -/
def ratings : List Op := [
  .call (.create "Account" (.obj [("Name", .str "one"), ("Rating", .str "Hot")])),
  .call (.create "Account" (.obj [("Name", .str "two"), ("Rating", .str "Lukewarm")])),
  .createIngest ⟨some "Account", some "upsert", some "Name", none, none, none⟩,
  .upload "750AAAAAAAAAAAAAAB" "Name,Rating\none,Warm\nthree,Hot\nsix,Cold\none,#N/A\n",
  .closeIngest "750AAAAAAAAAAAAAAB",
  .processIngest "750AAAAAAAAAAAAAAB"]

/-- What is left are a record whose rating was emptied and one that a row has added; the others were
refused. -/
theorem run_ratings_fit :
    let o := (ofCatalog ⟨[rated]⟩ {} ⟨0, 0⟩).run ratings
    (o.store.collections.map fun entry => entry.2.records.map fun r =>
        (r.get? "Name", r.get? "Rating")) =
      [[(some (.text "one"), some .null), (some (.text "six"), some (.text "Cold"))]] ∧
    Everywhere Schema.Fits o :=
  ⟨by decide +kernel, run_fits ⟨[rated]⟩ {} ⟨0, 0⟩ ratings⟩

end Org

end CrmEmulator
