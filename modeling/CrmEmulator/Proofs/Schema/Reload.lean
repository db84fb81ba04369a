import CrmEmulator.Proofs.Json.Members
import CrmEmulator.Schema.Json
import CrmEmulator.Store.Catalog

/-!
# CrmEmulator.Proofs.Schema.Reload — schemas survive writing and reading

A written schema leaves out what is empty, and a schema that is read has defaults for what is left
out.  The defaults are just what is left out.

1. The type of a field is named as its name is read, in whatever case it was written.
2. `FieldDef.Readable`: what holds of every definition that is read.  A readable definition is read
   back from its document, and its text shows it exactly.
3. Fields are read back in order.  The schemas that can be read are those whose fields can, and
   they are read back, from documents and from texts (`schemas_survive_reload`).
-/

namespace CrmEmulator

/-! ## Types of fields -/

namespace FieldType

/-- A known type is read back from its name. -/
theorem ofName_name_of_mem_known {t : FieldType} (h : t ∈ known) : ofName t.name = t := by
  have hall : ∀ t ∈ known, ofName t.name = t := by decide
  exact hall t h

/-- The name of a type is read as the type, in whatever case it was written. -/
theorem ofName_name_ofName (written : String) : ofName (ofName written).name = ofName written := by
  have hread : ofName written = (known.find? (·.name.toList == written.toList.map Char.toLower)).getD
    (other written) := rfl
  cases hfind : known.find? (·.name.toList == written.toList.map Char.toLower) with
  | none =>
    -- the name is kept as it is written
    have hother : ofName written = other written := by rw [hread, hfind, Option.getD_none]
    rw [hother]
    exact hother
  | some t =>
    have ht : ofName written = t := by rw [hread, hfind, Option.getD_some]
    rw [ht]
    exact ofName_name_of_mem_known (List.mem_of_find?_eq_some hfind)

end FieldType

/-! ## Definitions of fields -/

namespace FieldDef

/-- An optional member is found under its key, if it is there. -/
theorem lookup_optionalMember (name key : String) (doc : Option Json) :
    Json.lookup name (optionalMember key doc) = if key = name then doc else none := by
  cases doc with
  | none => rw [ite_self]; rfl
  | some doc => rfl

/-- The members of a written definition. -/
def members (d : FieldDef) : List (String × Json) :=
  [("type", .str d.type.name)] ++
  optionalMember "label" (d.label.map .str) ++
  [("required", .bool d.required), ("createable", .bool d.createable),
    ("updateable", .bool d.updateable)] ++
  optionalMember "maxLength" (d.maxLength.map .ofNat) ++
  optionalMember "values" (if d.values.isEmpty then none else some (.ofStrings d.values)) ++
  optionalMember "referenceTo"
    (if d.referenceTo.isEmpty then none else some (.ofStrings d.referenceTo)) ++
  [("precision", .ofNat d.precision), ("scale", .ofNat d.scale), ("digits", .ofNat d.digits)]

theorem toJson_eq (d : FieldDef) : d.toJson = .obj d.members := rfl

/-- What holds of every definition that is read: its type is what its own name is read as, and its
numbers have no more bits than are read. -/
structure Readable (d : FieldDef) : Prop where
  type_eq : FieldType.ofName d.type.name = d.type
  maxLength_lt : ∀ n, d.maxLength = some n → n < Nat.pow 2 64
  precision_lt : d.precision < Nat.pow 2 32
  scale_lt : d.scale < Nat.pow 2 32
  digits_lt : d.digits < Nat.pow 2 32

/-- Every definition that is read can be read again. -/
theorem readable_of_ofJson? {doc : Json} {d : FieldDef} (h : ofJson? doc = some d) :
    d.Readable := by
  simp only [ofJson?, Option.bind_eq_bind, Option.bind_eq_some_iff, Option.pure_def] at h
  obtain ⟨members, -, type, htype, label, -, required, -, createable, -, updateable, -,
    maxLength, hmaxLength, values, -, referenceTo, -, precision, hprecision, scale, hscale,
    digits, hdigits, heq⟩ := h
  cases heq
  -- the default of a count is zero, which has any number of bits
  have hcount : ∀ {name : String} {n : Nat},
      Json.readMember? members name 0 (Json.readCount? 32) = some n → n < Nat.pow 2 32 := by
    intro name n hn
    rcases Json.readMember?_cases hn with rfl | ⟨_, -, hread⟩
    · exact Double.pow_two_pos 32
    · exact Json.lt_of_readCount? hread
  refine ⟨?_, ?_, hcount hprecision, hcount hscale, hcount hdigits⟩
  · rcases Json.readMember?_cases htype with rfl | ⟨_, -, hread⟩
    · exact FieldType.ofName_name_of_mem_known (t := .string) (by decide)
    · obtain ⟨written, -, rfl⟩ := Option.map_eq_some_iff.mp hread
      exact FieldType.ofName_name_ofName written
  · rintro n rfl
    rcases Json.readMember?_cases hmaxLength with hnone | ⟨doc, -, hread⟩
    · cases hnone
    · exact Json.lt_of_readCount? (Json.readOption?_some hread)

/-- The members of a written definition, by name. -/
theorem lookup_members (d : FieldDef) :
    Json.lookup "type" d.members = some (.str d.type.name) ∧
    Json.lookup "label" d.members = d.label.map .str ∧
    Json.lookup "required" d.members = some (.bool d.required) ∧
    Json.lookup "createable" d.members = some (.bool d.createable) ∧
    Json.lookup "updateable" d.members = some (.bool d.updateable) ∧
    Json.lookup "maxLength" d.members = d.maxLength.map .ofNat ∧
    Json.lookup "values" d.members =
      (if d.values.isEmpty then none else some (.ofStrings d.values)) ∧
    Json.lookup "referenceTo" d.members =
      (if d.referenceTo.isEmpty then none else some (.ofStrings d.referenceTo)) ∧
    Json.lookup "precision" d.members = some (.ofNat d.precision) ∧
    Json.lookup "scale" d.members = some (.ofNat d.scale) ∧
    Json.lookup "digits" d.members = some (.ofNat d.digits) := by
  simp [members, Json.lookup_append, lookup_optionalMember, Json.lookup]

/-- **A definition survives writing and reading.** -/
theorem Readable.ofJson?_toJson {d : FieldDef} (h : d.Readable) : ofJson? d.toJson = some d := by
  obtain ⟨htype, hlabel, hrequired, hcreateable, hupdateable, hmaxLength, hvalues, hreferenceTo,
    hprecision, hscale, hdigits⟩ := d.lookup_members
  have htype : Json.readMember? d.members "type" .string
      (fun doc => doc.readString?.map FieldType.ofName) = some d.type := by
    refine Json.readMember?_written htype ?_
    rw [Json.readString?, Option.map_some, h.type_eq]
  have hlabel : Json.readMember? d.members "label" none (Json.readOption? Json.readString?) =
      some d.label := Json.readMember?_option hlabel fun _ _ => rfl
  have hrequired : Json.readMember? d.members "required" false Json.readBool? = some d.required :=
    Json.readMember?_written hrequired rfl
  have hcreateable : Json.readMember? d.members "createable" true Json.readBool? =
      some d.createable := Json.readMember?_written hcreateable rfl
  have hupdateable : Json.readMember? d.members "updateable" true Json.readBool? =
      some d.updateable := Json.readMember?_written hupdateable rfl
  have hmaxLength : Json.readMember? d.members "maxLength" none
      (Json.readOption? (Json.readCount? 64)) = some d.maxLength := by
    refine Json.readMember?_option hmaxLength fun n hn => ?_
    have hread := Json.readCount?_ofNat (h.maxLength_lt n hn)
    show (Json.readCount? 64 (.ofNat n)).map some = _
    rw [hread]
    rfl
  have hvalues := Json.readMember?_strings hvalues
  have hreferenceTo := Json.readMember?_strings hreferenceTo
  have hprecision : Json.readMember? d.members "precision" 0 (Json.readCount? 32) =
      some d.precision := Json.readMember?_written hprecision (Json.readCount?_ofNat h.precision_lt)
  have hscale : Json.readMember? d.members "scale" 0 (Json.readCount? 32) = some d.scale :=
    Json.readMember?_written hscale (Json.readCount?_ofNat h.scale_lt)
  have hdigits : Json.readMember? d.members "digits" 0 (Json.readCount? 32) = some d.digits :=
    Json.readMember?_written hdigits (Json.readCount?_ofNat h.digits_lt)
  -- each member reads as its field, be it written or left to its default
  rw [toJson_eq]
  simp only [ofJson?, Json.membersByName?, Option.bind_eq_bind, Option.bind_some, htype, hlabel,
    hrequired, hcreateable, hupdateable, hmaxLength, hvalues, hreferenceTo, hprecision, hscale,
    hdigits, Option.pure_def]

/-! ### Texts of definitions -/

/-- An optional member adds its name at most. -/
theorem sublist_optionalMember (name : String) (doc : Option Json) :
    ((optionalMember name doc).map (·.1)).Sublist [name] := by
  cases doc with
  | none => exact List.nil_sublist [name]
  | some doc => exact List.Sublist.refl [name]

/-- A member is shown exactly if its value is, where it has one. -/
theorem exact_optionalMember {α : Type} {depth : Nat} {x : Option α} {write : α → Json}
    (h : ∀ y, x = some y → Json.Exact depth (write y)) (name : String) :
    ∀ member ∈ optionalMember name (x.map write), Json.Exact depth member.2 := by
  cases x with
  | none => exact List.forall_mem_nil _
  | some y => exact List.forall_mem_singleton.mpr (h y rfl)

/-- Optional strings can be written exactly. -/
theorem exact_optionalStrings (name : String) (items : List String) (depth : Nat) :
    ∀ member ∈ optionalMember name (if items.isEmpty then none else some (.ofStrings items)),
      Json.Exact (depth + 1) member.2 := by
  cases items with
  | nil => exact List.forall_mem_nil _
  | cons item items => exact List.forall_mem_singleton.mpr (Json.exact_ofStrings _ depth)

/-- The names of the members that are written are among those that are read, in order. -/
theorem names_sublist (d : FieldDef) : (d.members.map (·.1)).Sublist memberNames := by
  have hparts : memberNames = ["type"] ++ ["label"] ++ ["required", "createable", "updateable"] ++
      ["maxLength"] ++ ["values"] ++ ["referenceTo"] ++ ["precision", "scale", "digits"] := rfl
  rw [hparts, members]
  simp only [List.map_append]
  refine .append (.append (.append (.append (.append (.append ?_ ?_) ?_) ?_) ?_) ?_) ?_
  all_goals first
    | exact sublist_optionalMember _ _
    | exact List.Sublist.refl _

/-- The text of a definition that can be read shows it exactly. -/
theorem Readable.exact_toJson {d : FieldDef} (h : d.Readable) (depth : Nat) :
    Json.Exact (depth + 2) d.toJson := by
  have hlabel : ∀ s, d.label = some s → Json.Exact (depth + 1) (.str s) := fun s _ => .str s
  have hmaxLength : ∀ n, d.maxLength = some n → Json.Exact (depth + 1) (.ofNat n) :=
    fun n hn => Json.exact_ofNat (Nat.le_refl 64) (h.maxLength_lt n hn) _
  have hcount {n : Nat} (hn : n < Nat.pow 2 32) : Json.Exact (depth + 1) (.ofNat n) :=
    Json.exact_ofNat (by decide) hn _
  rw [toJson_eq]
  refine .obj (d.names_sublist.nodup (by decide)) ?_
  simp only [members, List.forall_mem_append]
  refine ⟨⟨⟨⟨⟨⟨?_, exact_optionalMember hlabel _⟩, ?_⟩, exact_optionalMember hmaxLength _⟩,
    exact_optionalStrings _ _ _⟩, exact_optionalStrings _ _ _⟩, ?_⟩
  · exact List.forall_mem_singleton.mpr (.str _)
  · simp only [List.forall_mem_cons]
    exact ⟨.bool _, .bool _, .bool _, List.forall_mem_nil _⟩
  · simp only [List.forall_mem_cons]
    exact ⟨hcount h.precision_lt, hcount h.scale_lt, hcount h.digits_lt, List.forall_mem_nil _⟩

end FieldDef

namespace Schema

/-! ## Fields -/

/-- The fields of an object are read one after the other. -/
theorem fieldsOfJson?_cons (name : String) (doc : Json) (members : List (String × Json)) :
    fieldsOfJson? (.obj ((name, doc) :: members)) =
      (FieldDef.ofJson? doc).bind fun d =>
        (fieldsOfJson? (.obj members)).map ((name, d) :: ·) := by
  simp only [fieldsOfJson?, List.mapM_cons, Option.map_eq_bind, Option.bind_eq_bind,
    Option.bind_assoc]
  rfl

/-- Fields are read under the names of their members, in order, and can be read again. -/
theorem of_fieldsOfJson? {members : List (String × Json)} {fields : List (String × FieldDef)}
    (h : fieldsOfJson? (.obj members) = some fields) :
    fields.map (·.1) = members.map (·.1) ∧ ∀ field ∈ fields, field.2.Readable := by
  induction members generalizing fields with
  | nil =>
    cases h
    exact ⟨rfl, List.forall_mem_nil _⟩
  | cons member members ih =>
    obtain ⟨name, doc⟩ := member
    rw [fieldsOfJson?_cons] at h
    obtain ⟨d, hd, h⟩ := Option.bind_eq_some_iff.mp h
    obtain ⟨others, hothers, rfl⟩ := Option.map_eq_some_iff.mp h
    obtain ⟨hnames, hreadable⟩ := ih hothers
    refine ⟨?_, List.forall_mem_cons.mpr ⟨FieldDef.readable_of_ofJson? hd, hreadable⟩⟩
    rw [List.map_cons, List.map_cons, hnames]

/-- **Fields survive writing and reading**, in order. -/
theorem fieldsOfJson?_written {fields : List (String × FieldDef)}
    (h : ∀ field ∈ fields, field.2.Readable) :
    fieldsOfJson? (.obj (fields.map fun (name, d) => (name, d.toJson))) = some fields := by
  induction fields with
  | nil => rfl
  | cons field fields ih =>
    obtain ⟨name, d⟩ := field
    rw [List.forall_mem_cons] at h
    have hd : FieldDef.ofJson? d.toJson = some d := h.1.ofJson?_toJson
    rw [List.map_cons, fieldsOfJson?_cons, hd, ih h.2]
    rfl

/-! ## Schemas -/

/-- The members of a written schema. -/
def members (s : Schema) : List (String × Json) :=
  [("name", .str s.name), ("idPrefix", .str s.idPrefix), ("label", .str s.label)] ++
  FieldDef.optionalMember "labelPlural" (s.labelPlural.map .str) ++
  [("fields", .obj (s.fields.map fun (name, d) => (name, d.toJson)))]

theorem toJson_eq (s : Schema) : s.toJson = .obj s.members := rfl

/-- The members of a schema, by their names. -/
theorem lookup_members (s : Schema) :
    Json.lookup "name" s.members = some (.str s.name) ∧
    Json.lookup "idPrefix" s.members = some (.str s.idPrefix) ∧
    Json.lookup "label" s.members = some (.str s.label) ∧
    Json.lookup "labelPlural" s.members = s.labelPlural.map .str ∧
    Json.lookup "fields" s.members =
      some (.obj (s.fields.map fun (name, d) => (name, d.toJson))) := by
  simp [members, Json.lookup_append, FieldDef.lookup_optionalMember, Json.lookup]

/-- A schema whose fields can be read. -/
def Readable (s : Schema) : Prop := ∀ field ∈ s.fields, field.2.Readable

/-- The fields of a schema that is read were read from a member, or there are none. -/
theorem fields_of_ofJson? {doc : Json} {s : Schema} (h : ofJson? doc = some s) :
    s.fields = [] ∨ ∃ members, (∃ all, doc.membersByName? memberNames = some all ∧
      ("fields", Json.obj members) ∈ all) ∧ fieldsOfJson? (.obj members) = some s.fields := by
  simp only [ofJson?, Option.bind_eq_bind, Option.bind_eq_some_iff, Option.pure_def] at h
  obtain ⟨all, hall, name, -, idPrefix, -, label, -, labelPlural, -, fields, hfields, heq⟩ := h
  cases heq
  rcases Json.readMember?_cases hfields with rfl | ⟨doc, hmem, hread⟩
  · exact .inl rfl
  · cases doc with
    | obj members => exact .inr ⟨members, ⟨all, hall, hmem⟩, hread⟩
    | _ => cases hread

/-- A schema that is read has fields that can be read. -/
theorem readable_of_ofJson? {doc : Json} {s : Schema} (h : ofJson? doc = some s) :
    s.Readable := by
  rcases fields_of_ofJson? h with hnone | ⟨members, -, hread⟩
  · unfold Readable
    rw [hnone]
    exact List.forall_mem_nil _
  · exact (of_fieldsOfJson? hread).2

/-- A schema whose fields can be read is read back. -/
theorem Readable.ofJson?_toJson {s : Schema} (h : s.Readable) : ofJson? s.toJson = some s := by
  obtain ⟨hname, hidPrefix, hlabel, hlabelPlural, hfields⟩ := s.lookup_members
  have hlabel : Json.readMember? s.members "label" "" Json.readString? = some s.label :=
    Json.readMember?_written hlabel rfl
  have hlabelPlural : Json.readMember? s.members "labelPlural" none
      (Json.readOption? Json.readString?) = some s.labelPlural :=
    Json.readMember?_option hlabelPlural fun _ _ => rfl
  have hfields : Json.readMember? s.members "fields" [] fieldsOfJson? = some s.fields :=
    Json.readMember?_written hfields (fieldsOfJson?_written h)
  rw [toJson_eq]
  simp only [ofJson?, Json.membersByName?, Option.bind_eq_bind, Option.bind_some, hname,
    Json.readString?, hidPrefix, hlabel, hlabelPlural, hfields, Option.pure_def]

/-! ### Texts of schemas -/

/-- The members come in the order in which they are read. -/
theorem names_sublist (s : Schema) : (s.members.map (·.1)).Sublist memberNames := by
  have hparts : memberNames = ["name", "idPrefix", "label"] ++ ["labelPlural"] ++ ["fields"] := rfl
  rw [hparts, members]
  simp only [List.map_append]
  refine .append (.append ?_ ?_) ?_
  · exact List.Sublist.refl _
  · exact FieldDef.sublist_optionalMember _ _
  · exact List.Sublist.refl _

/-- The text of a schema that can be read shows it exactly, if its fields have distinct names. -/
theorem Readable.exact_toJson {s : Schema} (h : s.Readable) (hnames : s.fieldNames.Nodup)
    (depth : Nat) : Json.Exact (depth + 4) s.toJson := by
  have hlabelPlural : ∀ label, s.labelPlural = some label → Json.Exact (depth + 3) (.str label) :=
    fun label _ => .str label
  have hfields : Json.Exact (depth + 3)
      (.obj (s.fields.map fun (name, d) => (name, d.toJson))) := by
    refine .obj ?_ ?_
    · rw [List.map_map]
      exact hnames
    · intro member hmember
      obtain ⟨⟨name, d⟩, hfield, rfl⟩ := List.mem_map.mp hmember
      exact (h _ hfield).exact_toJson depth
  rw [toJson_eq]
  refine .obj (s.names_sublist.nodup (by decide)) ?_
  simp only [members, List.forall_mem_append]
  refine ⟨⟨?_, FieldDef.exact_optionalMember hlabelPlural _⟩,
    List.forall_mem_singleton.mpr hfields⟩
  simp only [List.forall_mem_cons]
  exact ⟨.str _, .str _, .str _, List.forall_mem_nil _⟩

/-- The fields of a schema that is read from a text have distinct names. -/
theorem nodup_of_readFor? {names : List String} {cs : List Char} {doc : Json} {s : Schema}
    (hdoc : Json.readFor? names cs = some doc) (h : ofJson? doc = some s) :
    s.fieldNames.Nodup := by
  unfold fieldNames
  rcases fields_of_ofJson? h with hnone | ⟨members, ⟨all, hall, hmem⟩, hread⟩
  · rw [hnone]
    exact List.nodup_nil
  · have hproper := Json.proper_of_membersByName? (Json.proper_of_readFor? hdoc) hall _ hmem
    rw [(of_fieldsOfJson? hread).1]
    cases hproper with
    | obj hnames => exact hnames

/-- A schema in a text is read from the document of the text. -/
theorem ofJson?_of_schemaOfText? {cs : List Char} {s : Schema}
    (h : Catalog.schemaOfText? cs = some s) :
    ∃ doc, Json.readFor? memberNames cs = some doc ∧ ofJson? doc = some s := by
  obtain ⟨doc, hdoc, h⟩ := Option.bind_eq_some_iff.mp h
  refine ⟨doc, hdoc, ?_⟩
  split at h
  · split at h
    · exact h
    · cases h
  · exact h

/-- A schema that is read from a text has distinct fields that can be read. -/
theorem readable_of_schemaOfText? {cs : List Char} {s : Schema}
    (h : Catalog.schemaOfText? cs = some s) : s.fieldNames.Nodup ∧ s.Readable := by
  obtain ⟨doc, hdoc, hread⟩ := ofJson?_of_schemaOfText? h
  exact ⟨nodup_of_readFor? hdoc hread, readable_of_ofJson? hread⟩

/-- A schema whose fields have distinct names and can be read is read back from its text. -/
theorem Readable.schemaOfText?_compact {s : Schema} (h : s.Readable)
    (hnames : s.fieldNames.Nodup) : Catalog.schemaOfText? s.toJson.compact.toList = some s := by
  have hread := h.ofJson?_toJson
  -- lists stand four containers deep in a schema, and a reader goes 127 deep
  have hexact : Json.Exact Json.maxDepth s.toJson := h.exact_toJson hnames 123
  rw [toJson_eq] at hread hexact ⊢
  have hasked : ∀ member ∈ s.members, member.1 ∈ memberNames :=
    fun member hmember => s.names_sublist.subset (List.mem_map_of_mem hmember)
  have hmembers : (s.members.map (·.1)).Nodup := s.names_sublist.nodup (by decide)
  rw [Json.compact, String.toList_ofList, Catalog.schemaOfText?, hexact.readFor?_text hasked]
  show (if (s.members.map (·.1)).Nodup then ofJson? (.obj s.members) else none) = some s
  rw [if_pos hmembers]
  exact hread

/-- **Schemas survive reloading.**  The schemas that can be read from documents are those whose
fields can be read, and each is read again from the document that is written for it.  Those that can
be read from texts also have fields of distinct names, and each is read again from its compact
text. -/
theorem schemas_survive_reload :
    (∀ s : Schema, (∃ doc, ofJson? doc = some s) ↔ s.Readable) ∧
    (∀ doc s, ofJson? doc = some s → ofJson? s.toJson = some s) ∧
    (∀ s : Schema, (∃ cs, Catalog.schemaOfText? cs = some s) ↔ s.fieldNames.Nodup ∧ s.Readable) ∧
    ∀ cs s, Catalog.schemaOfText? cs = some s →
      Catalog.schemaOfText? s.toJson.compact.toList = some s := by
  refine ⟨?_, ?_, ?_, ?_⟩
  · intro s
    constructor
    · rintro ⟨doc, hdoc⟩
      exact readable_of_ofJson? hdoc
    · intro h
      exact ⟨s.toJson, h.ofJson?_toJson⟩
  · intro doc s hdoc
    exact (readable_of_ofJson? hdoc).ofJson?_toJson
  · intro s
    constructor
    · rintro ⟨cs, hcs⟩
      exact readable_of_schemaOfText? hcs
    · rintro ⟨hnames, h⟩
      exact ⟨s.toJson.compact.toList, h.schemaOfText?_compact hnames⟩
  · intro cs s hcs
    obtain ⟨hnames, h⟩ := readable_of_schemaOfText? hcs
    exact h.schemaOfText?_compact hnames

/-- A schema with members that no schema has, and with members left out. -/
def ticketDoc : Json :=
  .obj [("name", .str "Ticket__c"), ("idPrefix", .str "a0T"),
    ("icon", .obj [("size", .int 2)]),
    ("fields", .obj [
      ("Subject", .obj [("type", .str "TextArea"), ("label", .str "\"Subject\""),
        ("required", .bool true), ("maxLength", .int 80)]),
      ("Level", .obj [("type", .str "Care Level"), ("values", .ofStrings ["low", "high"]),
        ("createable", .bool false), ("hint", .null)]),
      ("Note", .arr [])])]

/-- The schema of that document. -/
def ticket : Schema where
  name := "Ticket__c"
  idPrefix := "a0T"
  fields := [
    ("Subject",
      { type := .textArea, label := some "\"Subject\"", required := true, maxLength := some 80 }),
    ("Level", { type := .other "Care Level", values := ["low", "high"], createable := false }),
    ("Note", {})]

/-- The schema is read from a document, and read back from the one that it is written as. -/
theorem ticket_survives_reload :
    ofJson? ticketDoc = some ticket ∧ ofJson? ticket.toJson = some ticket ∧
    Catalog.schemaOfText? ticketDoc.text = some ticket ∧
    Catalog.schemaOfText? ticket.toJson.compact.toList = some ticket := by
  have hdoc : ofJson? ticketDoc = some ticket := by decide
  have htext : Catalog.schemaOfText? ticketDoc.text = some ticket := by decide +kernel
  obtain ⟨-, hreload, -, hreload'⟩ := schemas_survive_reload
  exact ⟨hdoc, hreload _ _ hdoc, htext, hreload' _ _ htext⟩

end Schema

end CrmEmulator
