import CrmEmulator.Proofs.Org.BatchJobs
import CrmEmulator.Proofs.Org.Integrity
import CrmEmulator.Proofs.Org.Invariant
import CrmEmulator.Proofs.Sorting

/-!
# CrmEmulator.Proofs.Org.Attributes — the attributes of a document

A document begins with attributes that name the object and the address of its record.  They stand
among the members under a name that a field of the record may have as well.

1. `Record.shown?`: the value that a selection shows under a name, and `Record.label`: the member
   that stands as attributes of a document.
2. Every document that an organisation answers with shows a stored record: when a record is read, a
   query run or a search made.
3. The attributes are those of the record, by its object and id, unless the selection shows a field
   of their name.
-/

namespace CrmEmulator

/-! ## Documents -/

namespace Record

/-- The value that a selection shows under a name. -/
def shown? (r : Record) (names : List String) (name : String) : Option Value :=
  if names.isEmpty || names.contains "*" || names.contains name then r.get? name else none

/-- What stands as attributes in the document of a record with an id: the object and the address,
or the value of a field of that name in their place. -/
def label (r : Record) (names : List String) (version object id : String) : Json :=
  match r.shown? names "attributes" with
  | some v => v.toJson
  | none => .obj [("type", .str object), ("url", .str (recordUrl version object id))]

/-- Among the fields that a selection takes, each name shows its field. -/
theorem lookup_filterMap_get? (r : Record) (names : List String) (name : String) :
    lookup name (names.filterMap fun key => (r.get? key).map (key, ·)) =
      if name ∈ names then r.get? name else none := by
  induction names with
  | nil => rfl
  | cons key names ih =>
    rw [List.filterMap_cons]
    by_cases hkey : key = name
    · subst hkey
      cases hvalue : r.get? key with
      | none => simpa [hvalue] using ih
      | some v => simp [lookup]
    · cases r.get? key with
      | none => simpa [Ne.symm hkey] using ih
      | some v => simpa [lookup, hkey, Ne.symm hkey] using ih

/-- A name is selected for one value at most, however often it is mentioned. -/
theorem lookup_reverse_selected {r : Record} (h : r.names.Nodup) (names : List String)
    (name : String) : lookup name (r.selected names).reverse = r.shown? names name := by
  unfold selected shown?
  cases hall : names.isEmpty || names.contains "*" with
  | true => exact last?_of_nodup h name
  | false =>
    rw [if_neg Bool.false_ne_true, ← List.filterMap_reverse, lookup_filterMap_get?]
    simp

/-- The attributes of a shown record are its label, or the field of that name if it is shown. -/
theorem member?_attributes {r : Record} (h : r.names.Nodup) {id : String} (hid : r.id? = some id)
    (names : List String) (version object : String) :
    (r.project object names version).member? "attributes" =
      some (r.label names version object id) := by
  show Json.lookup "attributes" ((r.selected names).foldl (fun members field =>
    Json.setMember field.1 field.2.toJson members) _) = _
  rw [lookup_foldl_setMember, lookup_reverse_selected h, label]
  cases r.shown? names "attributes" with
  | none => simp [Json.lookup, attributes, hid]
  | some v => rfl

end Record

/-! ## Records that are found -/

/-- A page shows some of the elements. -/
theorem mem_of_mem_page {α : Type} {offset limit : Option Nat} {xs : List α} {x : α}
    (h : x ∈ page offset limit xs) : x ∈ xs := by
  unfold page at h
  cases limit with
  | none => exact List.mem_of_mem_drop h
  | some n => exact List.mem_of_mem_drop (List.mem_of_mem_take h)

/-- A filter keeps some of the records. -/
theorem Where.mem_of_mem_select {w : Option Where} {records : List Record} {r : Record}
    (h : r ∈ Where.select w records) : r ∈ records := by
  cases w with
  | none => exact h
  | some w => exact List.mem_of_mem_filter h

/-- What a query finds was there before it was selected, sorted and put on a page. -/
theorem Soql.mem_of_mem_rows {q : Soql} {records : List Record} {r : Record}
    (h : r ∈ q.rows records) : r ∈ records := by
  have harranged := mem_of_mem_page h
  cases horder : q.orderBy with
  | none =>
    rw [horder] at harranged
    exact Where.mem_of_mem_select harranged
  | some o =>
    rw [horder] at harranged
    exact Where.mem_of_mem_select ((stableSort_perm o.compare _).mem_iff.mp harranged)

namespace Org

/-! ## Answers -/

/-- Every stored record has distinct names, the id as first field and its stamps. -/
theorem kept_stored : Kept fun _ => Record.Stored where
  created _ _ _ _ := Record.stored_created _ _ _
  updated _ _ now sent _ h := h.updated now sent

/-- A document of a stored record of an object, with what stands as its attributes. -/
def Shows (o : Org) (version object : String) (names : List String) (doc : Json) : Prop :=
  ∃ r id, o.Stores object r ∧ r.id? = some id ∧ doc = r.project object names version ∧
    doc.member? "attributes" = some (r.label names version object id)

/-- All records of an organisation are stored ones. -/
def AllStored (o : Org) : Prop := ∀ object r, o.Stores object r → r.Stored

/-- The records of a collection are shown as stored ones. -/
theorem AllStored.shows {o : Org} (h : o.AllStored) {object : String} {c : Collection}
    (hc : o.store.collection object = .ok c) {r : Record} (hr : r ∈ c.records) (version : String)
    (names : List String) : o.Shows version object names (r.project object names version) := by
  have hstores : o.Stores object r := ⟨c, Store.mem_of_lookup (collection_eq_ok.mp hc), hr⟩
  have hstored := h object r hstores
  rcases hstored.id_first with ⟨id, hfirst⟩
  have hid := Record.id?_of_head? hfirst
  exact ⟨r, id, hstores, hid, rfl, Record.member?_attributes hstored.names_nodup hid _ _ _⟩

/-- Whatever operations ran, all records are stored ones. -/
theorem allStored_run (c : Catalog) (settings : Settings) (supply : Supply) (ops : List Op) :
    ((ofCatalog c settings supply).run ops).AllStored := by
  intro object r ⟨collection, hmem, hr⟩
  have hall := run_everywhere kept_stored c settings supply ops
  have hbooked := (booked_ofCatalog c settings supply).run ops
  have hobject : object ∈ ((ofCatalog c settings supply).run ops).catalog.names := by
    rw [← hbooked.objects]
    exact List.mem_map_of_mem hmem
  rcases List.mem_map.mp hobject with ⟨s, hs, hname⟩
  have hfound : (((ofCatalog c settings supply).run ops).catalog.find? object).isSome := by
    rw [Catalog.find?, List.find?_isSome]
    exact ⟨s, hs, by simp [hname]⟩
  rcases Option.isSome_iff_exists.mp hfound with ⟨schema, hschema⟩
  exact hall object collection schema hmem hschema r hr

/-- A record is read with all its fields. -/
theorem AllStored.getRecord {o : Org} (h : o.AllStored) {version object id : String} {doc : Json}
    (hget : o.getRecord version object id = .ok doc) : o.Shows version object [] doc := by
  unfold Org.getRecord at hget
  rcases bind_eq_ok.mp hget with ⟨_, -, hget⟩
  rcases bind_eq_ok.mp hget with ⟨c, hc, hget⟩
  split at hget
  · next r hfound =>
    cases hget
    exact h.shows hc (List.mem_of_find?_eq_some hfound) version []
  · cases hget

/-- What a query answers are stored records under the names that it selects. -/
theorem AllStored.query {o : Org} (h : o.AllStored) {version text : String}
    {answer : Store.QueryResult} (hquery : o.store.query o.catalog text version = .ok answer) :
    ∃ q, Soql.parse text = .ok q ∧
      ∀ doc ∈ answer.records, ∃ names, q.select = .fields names ∧
        o.Shows version q.object names doc := by
  rcases bind_eq_ok.mp hquery with ⟨q, hparse, hquery⟩
  rcases bind_eq_ok.mp hquery with ⟨records, hrun, hquery⟩
  refine ⟨q, mapError_eq_ok.mp hparse, fun doc hdoc => ?_⟩
  split at hquery
  · cases hquery
    cases hdoc
  · next names hselect =>
    cases hquery
    rcases List.mem_map.mp hdoc with ⟨r, hr, rfl⟩
    unfold Store.run at hrun
    split at hrun
    · rcases bind_eq_ok.mp hrun with ⟨c, hc, hrows⟩
      cases hrows
      exact ⟨names, hselect, h.shows hc (Soql.mem_of_mem_rows hr) version names⟩
    · cases hrun

/-- What a search answers are stored records under the fields of its parts. -/
theorem AllStored.search {o : Org} (h : o.AllStored) {version text : String} {docs : List Json}
    (hsearch : o.store.search o.catalog text version = .ok docs) :
    ∃ q, Sosl.parse text = .ok q ∧
      ∀ doc ∈ docs, ∃ spec ∈ q.returning, o.Shows version spec.object spec.fields doc := by
  rcases bind_eq_ok.mp hsearch with ⟨q, hparse, hsearch⟩
  rcases bind_eq_ok.mp hsearch with ⟨found, hfound, hsearch⟩
  cases hsearch
  refine ⟨q, mapError_eq_ok.mp hparse, fun doc hdoc => ?_⟩
  rcases List.mem_flatten.mp hdoc with ⟨part, hpart, hdoc⟩
  rcases exists_of_mem_mapM hfound hpart with ⟨spec, hspec, hobject⟩
  refine ⟨spec, hspec, ?_⟩
  unfold Store.searchObject at hobject
  split at hobject
  · rcases bind_eq_ok.mp hobject with ⟨c, hc, hhits⟩
    cases hhits
    rcases List.mem_map.mp hdoc with ⟨r, hr, rfl⟩
    have hrecord := Where.mem_of_mem_select (mem_of_mem_page hr)
    exact h.shows hc (List.mem_of_mem_filter hrecord) version spec.fields
  · cases hobject
    cases hdoc

/-- Whatever requests an organisation has answered since it was empty, the attributes in the
document of a stored record name the object and the address of the record by its id, unless the
selection shows a field with the name of the attributes, whose value then stands in their place.
So it is when a record is read, in the answer to a query and in that to a search. -/
theorem attributes_yield_to_their_name (c : Catalog) (settings : Settings) (supply : Supply)
    (ops : List Op) :
    let o := (ofCatalog c settings supply).run ops
    (∀ object r, o.Stores object r → ∃ id, r.id? = some id ∧ ∀ version named names,
      (r.project named names version).member? "attributes" =
        some (r.label names version named id)) ∧
    (∀ version object id doc, o.getRecord version object id = .ok doc →
      o.Shows version object [] doc) ∧
    (∀ version text answer, o.store.query o.catalog text version = .ok answer →
      ∃ q, Soql.parse text = .ok q ∧ ∀ doc ∈ answer.records, ∃ names, q.select = .fields names ∧
        o.Shows version q.object names doc) ∧
    (∀ version text docs, o.store.search o.catalog text version = .ok docs →
      ∃ q, Sosl.parse text = .ok q ∧ ∀ doc ∈ docs, ∃ spec ∈ q.returning,
        o.Shows version spec.object spec.fields doc) := by
  have hall := allStored_run c settings supply ops
  refine ⟨fun object r hr => ?_, fun _ _ _ _ => hall.getRecord, fun _ _ _ => hall.query,
    fun _ _ _ => hall.search⟩
  have hstored := hall object r hr
  rcases hstored.id_first with ⟨id, hfirst⟩
  have hid := Record.id?_of_head? hfirst
  exact ⟨id, hid, fun _ _ _ => Record.member?_attributes hstored.names_nodup hid _ _ _⟩

/-- An account that was sent no attributes shows its own, also when only they are asked for. -/
theorem named_account_shows_its_attributes :
    ∃ r, (withAccounts.run [.call (.create "Account" (.obj [("Name", .str "a")]))]).Stores
        "Account" r ∧
      ∀ names ∈ [[], ["*"], ["Name"], ["attributes"]],
        (r.project "Account" names "v59.0").member? "attributes" =
          some (.obj [("type", .str "Account"),
            ("url", .str "/services/data/v59.0/sobjects/Account/001AAAAAAAAAAAAAAA")]) := by
  let r : Record := .created "001AAAAAAAAAAAAAAA" (Supply.now ⟨0, 0⟩) ⟨[("Name", .text "a")]⟩
  have hr : (withAccounts.run [.call (.create "Account" (.obj [("Name", .str "a")]))]).Stores
      "Account" r := ⟨⟨[r]⟩, by decide +kernel, by simp⟩
  obtain ⟨id, hid, hlabel⟩ := (attributes_yield_to_their_name _ _ _ _).1 "Account" r hr
  obtain rfl : "001AAAAAAAAAAAAAAA" = id := Option.some.inj hid
  refine ⟨r, hr, fun names hnames => (hlabel "v59.0" "Account" names).trans ?_⟩
  revert names
  decide +kernel

/-- A body with a field of the name of the attributes. -/
def labelledBody : Json := .obj [("attributes", .str "mine")]

/-- Its value stands in the place of the attributes when the record is read, in the answer to a
query and in that to a search. -/
theorem sent_attributes_are_shown : ∃ id after doc found hits,
    withAccounts.createRecord "Account" labelledBody = .ok (id, after) ∧
      after.getRecord "v59.0" "Account" id = .ok doc ∧
      doc.member? "attributes" = some (.str "mine") ∧
      after.store.query after.catalog "SELECT attributes FROM Account" "v59.0" =
        .ok ⟨1, [found]⟩ ∧
      found.member? "attributes" = some (.str "mine") ∧
      after.store.search after.catalog "FIND {mine} RETURNING Account" "v59.0" = .ok [hits] ∧
      hits.member? "attributes" = some (.str "mine") :=
  ⟨_, _, _, _, _, rfl, rfl, rfl, rfl, rfl, rfl, rfl⟩

end Org

end CrmEmulator
