import CrmEmulator.Bulk.Job
import CrmEmulator.Proofs.Edits
import CrmEmulator.Proofs.Registry
import Mathlib.Data.List.Basic

/-!
# CrmEmulator.Proofs.Registry.Index — a map and an order side by side

A registry can be kept in two parts: a finite map that finds what is under a name, and a list of
names that tells the order.  Every change has to reach both.

1. `Index`: the two parts and their changes.  `put` lists a name if it is new, `append` lists it
   every time, which is the same as long as the name is not there.
2. `Consistent`: the two parts agree with each other, with the registry that keeps entries in one
   list, and with the edits.  It follows when both are in step with the edits.
3. Every series of edits keeps them in step, and so does every series of calls to the job table
   that inserts each id once.
-/

namespace CrmEmulator

/-- Things under names: a map that finds them, and the names in order. -/
structure Index (α : Type) where
  byName : Finmap fun _ : String => α
  order : List String

namespace Index

variable {α : Type} {i : Index α} {name : String} {edits : List (Edit α)}

def empty : Index α := ⟨∅, []⟩

/-- Put under a name, which is listed last if it is new. -/
def put (i : Index α) (name : String) (x : α) : Index α :=
  ⟨i.byName.insert name x, if name ∈ i.byName then i.order else i.order ++ [name]⟩

/-- Put under a name, which is listed last. -/
def append (i : Index α) (name : String) (x : α) : Index α :=
  ⟨i.byName.insert name x, i.order ++ [name]⟩

/-- Take a name from the map, and from the list if the map had it; and say whether it had. -/
def remove (i : Index α) (name : String) : Bool × Index α :=
  let rest := i.byName.erase name
  if (i.byName.lookup name).isNone then (false, { i with byName := rest })
  else (true, ⟨rest, i.order.filter (· ≠ name)⟩)

/-- Empty both parts, and say how many names were listed. -/
def clear (i : Index α) : Nat × Index α := (i.order.length, empty)

/-- The names in order, each with what the map finds under it. -/
def entries (i : Index α) : List (String × α) :=
  i.order.filterMap fun name => (i.byName.lookup name).map (name, ·)

/-- What the map finds under the names, in their order. -/
def items (i : Index α) : List α := i.order.filterMap i.byName.lookup

def size (i : Index α) : Nat := i.order.length

/-! ## Changes -/

/-- An index after an edit; how something is put under a name is a parameter. -/
def edit (insert : Index α → String → α → Index α) (i : Index α) : Edit α → Index α
  | .put name x => insert i name x
  | .drop name => (i.remove name).2
  | .clear => i.clear.2

def run (insert : Index α → String → α → Index α) (edits : List (Edit α)) : Index α :=
  edits.foldl (edit insert) empty

theorem append_eq_put (h : name ∉ i.byName) (x : α) : i.append name x = i.put name x := by
  unfold append put
  rw [if_neg h]

/-- Under a name that is listed, `append` lists it twice. -/
theorem append_lists_twice (h : name ∈ i.order) (x : α) : ¬(i.append name x).order.Nodup := by
  intro hnodup
  have happart := (List.nodup_append.mp hnodup).2.2
  exact happart name h name (List.mem_singleton.mpr rfl) rfl

/-- Removing a name that is not there fails and changes nothing. -/
theorem remove_of_not_mem (h : name ∉ i.byName) : i.remove name = (false, i) := by
  have hsame : i.byName.erase name = i.byName := by
    refine Finmap.ext_lookup ?_
    intro key
    by_cases hkey : key = name
    · rw [hkey, Finmap.lookup_erase, Finmap.lookup_eq_none.mpr h]
    · exact Finmap.lookup_erase_ne hkey
  unfold remove
  rw [Finmap.lookup_eq_none.mpr h, hsame]
  rfl

/-- Removing a name takes it from the map and from the list. -/
theorem remove_of_mem (h : name ∈ i.byName) :
    i.remove name = (true, ⟨i.byName.erase name, i.order.filter (· ≠ name)⟩) := by
  obtain ⟨x, hx⟩ := Finmap.mem_iff.mp h
  unfold remove
  rw [hx]
  rfl

/-! ## In step with edits -/

/-- An index is in step with edits: it lists the names that they leave, and finds what is held
under each. -/
def Follows (i : Index α) (edits : List (Edit α)) : Prop :=
  Edit.Keeps i.order (fun name => i.byName.lookup name) edits

/-- The map of an index that follows edits is what they leave. -/
theorem Follows.byName_eq (h : i.Follows edits) : i.byName = Edit.contents edits :=
  Finmap.ext_lookup h.get?_eq

/-- The list of an index that follows edits has the names of its map. -/
theorem Follows.mem_order (h : i.Follows edits) (name : String) :
    name ∈ i.order ↔ name ∈ i.byName := by
  rw [h.mem_iff, h.byName_eq]

theorem lookup_empty : (fun name => (empty : Index α).byName.lookup name) = fun _ => none := by
  funext name
  exact Finmap.lookup_empty name

theorem follows_empty : (empty : Index α).Follows [] := by
  unfold Follows
  rw [lookup_empty]
  exact Edit.Keeps.empty

/-- An index that follows edits follows one more when something is put. -/
theorem Follows.put (h : i.Follows edits) (name : String) (x : α) :
    (i.put name x).Follows (edits ++ [.put name x]) := by
  refine Edit.Keeps.put h x ?_ (Edit.lookup_insert i.byName name · x)
  simp only [Index.put, h.mem_order]

/-- An index that follows edits follows one more when a name is removed. -/
theorem Follows.remove (h : i.Follows edits) (name : String) :
    (i.remove name).2.Follows (edits ++ [.drop name]) := by
  by_cases hmem : name ∈ i.byName
  · rw [remove_of_mem hmem]
    exact Edit.Keeps.drop h rfl (Edit.lookup_erase i.byName name)
  · -- nothing is listed under the name, so that leaving it out changes nothing
    have hnot : name ∉ i.order := fun hlisted => hmem ((h.mem_order name).mp hlisted)
    rw [remove_of_not_mem hmem]
    refine Edit.Keeps.drop h ?_ ?_
    · refine (List.filter_eq_self.mpr ?_).symm
      intro key hkey
      exact decide_eq_true fun heq => hnot (heq ▸ hkey)
    · intro key
      split
      · next hkey => rw [hkey, Finmap.lookup_eq_none.mpr hmem]
      · rfl

/-- An index that follows edits follows one more of any kind. -/
theorem Follows.edit (h : i.Follows edits) (e : Edit α) :
    (Index.edit Index.put i e).Follows (edits ++ [e]) := by
  cases e with
  | put name x => exact h.put name x
  | drop name => exact h.remove name
  | clear =>
    show Edit.Keeps [] (fun name => (empty : Index α).byName.lookup name) _
    rw [lookup_empty]
    exact Edit.Keeps.clear edits

/-- A run of edits ends with the last one. -/
theorem run_concat (insert : Index α → String → α → Index α) (edits : List (Edit α))
    (e : Edit α) : run insert (edits ++ [e]) = edit insert (run insert edits) e := by
  unfold run
  rw [List.foldl_append]
  rfl

/-- Every run of edits follows them. -/
theorem follows_run (edits : List (Edit α)) : (run put edits).Follows edits := by
  induction edits using List.reverseRecOn with
  | nil => exact follows_empty
  | append_singleton edits e ih =>
    rw [run_concat]
    exact ih.edit e

/-! ## What is listed -/

/-- The entries of an index come in the order of its list. -/
theorem Follows.map_fst_entries (h : i.Follows edits) : i.entries.map (·.1) = i.order := by
  have hlisted : ∀ name ∈ i.order,
      ((i.byName.lookup name).map (name, ·)).map (·.1) = some name := by
    intro name hname
    obtain ⟨x, hx⟩ := Finmap.mem_iff.mp ((h.mem_order name).mp hname)
    rw [hx]
    rfl
  unfold entries
  rw [List.map_filterMap, List.filterMap_congr hlisted]
  exact List.filterMap_some

/-- The entries of an index are what its map holds. -/
theorem Follows.mem_entries (h : i.Follows edits) (name : String) (x : α) :
    (name, x) ∈ i.entries ↔ i.byName.lookup name = some x := by
  unfold entries
  rw [List.mem_filterMap]
  constructor
  · rintro ⟨key, -, hkey⟩
    obtain ⟨y, hy, heq⟩ := Option.map_eq_some_iff.mp hkey
    cases heq
    exact hy
  · intro hx
    have hlisted := (h.mem_order name).mpr (Finmap.mem_of_lookup_eq_some hx)
    exact ⟨name, hlisted, by rw [hx]; rfl⟩

/-- The items are what the entries hold. -/
theorem items_eq (i : Index α) : i.items = i.entries.map (·.2) := by
  have hsecond : ∀ name ∈ i.order,
      i.byName.lookup name = ((i.byName.lookup name).map (name, ·)).map (·.2) := by
    intro name _
    cases i.byName.lookup name <;> rfl
  unfold items entries
  rw [List.map_filterMap]
  exact List.filterMap_congr hsecond

end Index

/-! ## Registries in step with edits -/

namespace Registry

variable {α : Type} {r : Registry α} {edits : List (Edit α)}

/-- A registry after an edit; how something is put under a name is a parameter. -/
def edit (insert : Registry α → String → α → Registry α) (r : Registry α) : Edit α → Registry α
  | .put name x => insert r name x
  | .drop name => r.erase name
  | .clear => .empty

def run (insert : Registry α → String → α → Registry α) (edits : List (Edit α)) : Registry α :=
  edits.foldl (edit insert) empty

/-- A registry is in step with edits: it has the names that they leave, with what is held under
each. -/
def Follows (r : Registry α) (edits : List (Edit α)) : Prop := Edit.Keeps r.names r.get? edits

/-- A registry that follows edits follows one more. -/
theorem Follows.edit (h : r.Follows edits) (e : Edit α) :
    (Registry.edit put r e).Follows (edits ++ [e]) := by
  cases e with
  | put name x => exact Edit.Keeps.put h x (names_put r name x) (get?_put r name · x)
  | drop name => exact Edit.Keeps.drop h (names_erase r name) (get?_erase r name)
  | clear => exact Edit.Keeps.clear edits

/-- A run of edits over a registry ends with the last one. -/
theorem run_concat (insert : Registry α → String → α → Registry α) (edits : List (Edit α))
    (e : Edit α) : run insert (edits ++ [e]) = edit insert (run insert edits) e := by
  unfold run
  rw [List.foldl_append]
  rfl

/-- Every run of edits over a registry follows them. -/
theorem follows_run (edits : List (Edit α)) : (run put edits).Follows edits := by
  induction edits using List.reverseRecOn with
  | nil => exact Edit.Keeps.empty
  | append_singleton edits e ih =>
    rw [run_concat]
    exact ih.edit e

/-- With distinct names, the entries are the names with what is looked up under them. -/
theorem entries_eq_filterMap (h : r.names.Nodup) :
    r.entries = r.names.filterMap fun name => (r.get? name).map (name, ·) := by
  rcases r with ⟨entries⟩
  have hnames : (entries.map (·.1)).Nodup := h
  show entries = (entries.map (·.1)).filterMap fun name => (lookup name entries).map (name, ·)
  clear h
  induction entries with
  | nil => rfl
  | cons entry rest ih =>
    rcases entry with ⟨first, x⟩
    rw [List.map_cons, List.nodup_cons] at hnames
    -- the other names are not the first one, so they are looked up among the rest
    have hrest : (rest.map (·.1)).filterMap
          (fun name => (lookup name ((first, x) :: rest)).map (name, ·)) =
        (rest.map (·.1)).filterMap fun name => (lookup name rest).map (name, ·) := by
      refine List.filterMap_congr ?_
      intro name hname
      have hne : first ≠ name := fun heq => hnames.1 (heq ▸ hname)
      rw [lookup, if_neg hne]
    rw [List.map_cons, List.filterMap_cons_some (b := (first, x)) (by simp [lookup]), hrest,
      ← ih hnames.2]

/-- Both keep the same entries in the same order. -/
theorem Follows.entries_eq {i : Index α} (hr : r.Follows edits) (hi : i.Follows edits) :
    r.entries = i.entries := by
  have hlookup : ∀ name ∈ i.order,
      (r.get? name).map (name, ·) = (i.byName.lookup name).map (name, ·) := by
    intro name _
    rw [hr.get?_eq, hi.byName_eq]
  rw [entries_eq_filterMap hr.nodup, hr.names_eq hi]
  exact List.filterMap_congr hlookup

end Registry

/-! ## Consistency -/

/-- An index in two parts, and a registry in one, after edits. -/
structure Consistent {α : Type} (i : Index α) (r : Registry α) (edits : List (Edit α)) : Prop where
  /-- The list has no name twice, and it has exactly the names of the map. -/
  order_nodup : i.order.Nodup
  order_eq : i.order.toFinset = i.byName.keys
  /-- Under each name the map has what the edits leave there. -/
  byName_eq : i.byName = Edit.contents edits
  /-- The names are in the order in which they came to stay. -/
  ordered : i.order.Pairwise (Edit.Before edits)
  /-- The entries are what the edits leave, one for each name and in the order of the names. -/
  map_fst_entries : i.entries.map (·.1) = i.order
  mem_entries : ∀ name x, (name, x) ∈ i.entries ↔ (Edit.contents edits).lookup name = some x
  items_eq : i.items = i.entries.map (·.2)
  /-- The registry has the same entries in the same order. -/
  entries_eq : r.entries = i.entries
  /-- They are counted, also by clearing. -/
  size_eq : i.size = (Edit.contents edits).keys.card
  size_registry : r.size = (Edit.contents edits).keys.card
  clear_eq : i.clear = ((Edit.contents edits).keys.card, .empty)
  /-- A name is removed if it is there.  If it is not, nothing changes. -/
  remove_iff : ∀ name, (i.remove name).1 ↔ name ∈ Edit.contents edits
  contains_iff : ∀ name, r.contains name ↔ name ∈ Edit.contents edits
  remove_absent : ∀ name, name ∉ Edit.contents edits →
    i.remove name = (false, i) ∧ r.erase name = r

/-- An index and a registry that follow the same edits are consistent. -/
theorem consistent_of_follows {α : Type} {i : Index α} {r : Registry α} {edits : List (Edit α)}
    (hi : i.Follows edits) (hr : r.Follows edits) : Consistent i r edits where
  order_nodup := hi.nodup
  order_eq := by rw [hi.toFinset_eq, hi.byName_eq]
  byName_eq := hi.byName_eq
  ordered := hi.ordered
  map_fst_entries := hi.map_fst_entries
  mem_entries name x := by rw [hi.mem_entries, hi.byName_eq]
  items_eq := i.items_eq
  entries_eq := hr.entries_eq hi
  size_eq := hi.length_eq
  size_registry := by
    have hlength : r.size = r.names.length := (List.length_map _).symm
    rw [hlength, hr.length_eq]
  clear_eq := Prod.ext hi.length_eq rfl
  remove_iff name := by
    rw [← hi.byName_eq]
    by_cases hmem : name ∈ i.byName
    · rw [Index.remove_of_mem hmem]
      exact iff_of_true rfl hmem
    · rw [Index.remove_of_not_mem hmem]
      exact iff_of_false Bool.false_ne_true hmem
  contains_iff name := Registry.contains_iff.trans (hr.mem_iff name)
  remove_absent name habsent := by
    constructor
    · rw [← hi.byName_eq] at habsent
      exact Index.remove_of_not_mem habsent
    · exact Registry.erase_of_not_mem fun hmem => habsent ((hr.mem_iff name).mp hmem)

/-! ## Names that are put once -/

section Once

variable {α : Type} {edits : List (Edit α)}

/-- Where no name is put again, appending to an index is the same as putting. -/
theorem Index.run_append (h : Edit.PutsOnce edits) :
    Index.run Index.append edits = Index.run Index.put edits := by
  induction edits using List.reverseRecOn with
  | nil => rfl
  | append_singleton edits e ih =>
    rw [Index.run_concat, Index.run_concat, ih h.of_concat]
    cases e with
    | put name x =>
      have hnew : name ∉ (Index.run Index.put edits).byName := by
        rw [(Index.follows_run edits).byName_eq]
        exact h.not_mem
      exact Index.append_eq_put hnew x
    | drop | clear => rfl

/-- Where no name is put again, appending to a registry is the same as putting. -/
theorem Registry.run_append (h : Edit.PutsOnce edits) :
    Registry.run Registry.append edits = Registry.run Registry.put edits := by
  induction edits using List.reverseRecOn with
  | nil => rfl
  | append_singleton edits e ih =>
    rw [Registry.run_concat, Registry.run_concat, ih h.of_concat]
    cases e with
    | put name x =>
      have hnew : name ∉ (Registry.run Registry.put edits).names := by
        rw [(Registry.follows_run edits).mem_iff]
        exact h.not_mem
      exact Registry.append_eq_put hnew x
    | drop | clear => rfl

end Once

/-! ## The job table -/

namespace Jobs

/-- A call to the job table. -/
inductive Call
  | insert (j : Job)
  | remove (id : String)
  | clear

/-- What a call means for the ids. -/
def Call.edit : Call → Edit Job
  | insert j => .put j.id j
  | remove id => .drop id
  | clear => .clear

/-- The job table after a call; one that fails leaves it as it is. -/
def next (jobs : Jobs) : Call → Jobs
  | .insert j => jobs.insert j
  | .remove id => (jobs.remove id).toOption.getD jobs
  | .clear => .empty

def run (calls : List Call) : Jobs := calls.foldl next .empty

theorem remove_of_not_mem {jobs : Jobs} {id : String} (h : id ∉ jobs.names) :
    jobs.remove id = .error (.notFound ("Job not found: " ++ id)) := by
  unfold remove
  rw [if_neg fun hthere => h (Registry.contains_iff.mp hthere)]

/-- Every call on the jobs is an edit of the registry. -/
theorem next_eq (jobs : Jobs) (c : Call) : next jobs c = Registry.edit Registry.append jobs c.edit := by
  cases c with
  | insert | clear => rfl
  | remove id =>
    show (jobs.remove id).toOption.getD jobs = jobs.erase id
    by_cases hthere : id ∈ jobs.names
    · unfold remove
      rw [if_pos (Registry.contains_iff.mpr hthere)]
      rfl
    · rw [remove_of_not_mem hthere, Registry.erase_of_not_mem hthere]
      rfl

/-- Calls on the jobs run as the edits that they stand for. -/
theorem run_eq (calls : List Call) :
    run calls = Registry.run Registry.append (calls.map Call.edit) := by
  unfold run Registry.run
  rw [List.foldl_map]
  congr
  funext jobs c
  exact next_eq jobs c

end Jobs

/-! ## The main result -/

/-- A map and an order that are kept side by side stay consistent, and they agree with the registry
that keeps entries in one list: after every series of edits if a name is listed when it is new, and
after every series of calls to the job table that inserts no id twice.  The jobs of a generation are
those of the listed ones, and removing an id that is not there fails. -/
theorem registries_stay_consistent :
    (∀ (α : Type) (edits : List (Edit α)),
      Consistent (Index.run Index.put edits) (Registry.run Registry.put edits) edits) ∧
    ∀ calls : List Jobs.Call, Edit.PutsOnce (calls.map Jobs.Call.edit) →
      Consistent (Index.run Index.append (calls.map Jobs.Call.edit)) (Jobs.run calls)
        (calls.map Jobs.Call.edit) ∧
      (∀ kind, (Jobs.run calls).ofKind kind =
        (Index.run Index.append (calls.map Jobs.Call.edit)).items.filter (·.kind == kind)) ∧
      ∀ id, id ∉ Edit.contents (calls.map Jobs.Call.edit) →
        (Jobs.run calls).remove id = .error (.notFound ("Job not found: " ++ id)) := by
  constructor
  · intro α edits
    exact consistent_of_follows (Index.follows_run edits) (Registry.follows_run edits)
  · intro calls honce
    have hindex := Index.follows_run (calls.map Jobs.Call.edit)
    rw [← Index.run_append honce] at hindex
    have hjobs := Registry.follows_run (calls.map Jobs.Call.edit)
    rw [← Registry.run_append honce, ← Jobs.run_eq] at hjobs
    refine ⟨consistent_of_follows hindex hjobs, ?_, ?_⟩
    · intro kind
      rw [Index.items_eq, ← hjobs.entries_eq hindex]
      rfl
    · intro id habsent
      exact Jobs.remove_of_not_mem fun hthere => habsent ((hjobs.mem_iff id).mp hthere)

namespace Jobs

/-- A job on accounts with an id and a payload. -/
def accountJob (id : String) (payload : Payload) : Job where
  id := id
  operation := .insert
  object := "Account"
  contentType := "CSV"
  state := .open
  externalId := none
  lineEnding := "LF"
  columnDelimiter := "COMMA"
  apiVersion := "v59.0"
  createdDate := "2024-01-01T00:00:00.000Z"
  modifiedDate := "2024-01-01T00:00:00.000Z"
  processed := 0
  failed := 0
  payload := payload

/-- Three jobs are inserted, and the second is removed twice. -/
def threeJobs : List Call := [
  .insert (accountJob "750A" (.ingest ⟨"", [], []⟩)),
  .insert (accountJob "750B" (.query ⟨"", "", none⟩)),
  .insert (accountJob "750C" (.ingest ⟨"", [], []⟩)),
  .remove "750B", .remove "750B"]

/-- The other two jobs are left in the order in which they came, and removing the second once more
fails. -/
theorem threeJobs_leave_two :
    Edit.PutsOnce (threeJobs.map Call.edit) ∧
      (run threeJobs).names = ["750A", "750C"] ∧
      (Index.run Index.append (threeJobs.map Call.edit)).order = ["750A", "750C"] ∧
      (Index.run Index.append (threeJobs.map Call.edit)).clear = (2, .empty) ∧
      (run threeJobs).remove "750B" = .error (.notFound "Job not found: 750B") := by
  have honce : Edit.PutsOnce (threeJobs.map Call.edit) := by
    unfold Edit.PutsOnce
    decide
  obtain ⟨hconsistent, -, hremove⟩ := registries_stay_consistent.2 threeJobs honce
  have hnames : (run threeJobs).names = ["750A", "750C"] := by decide
  have hsize : (run threeJobs).size = 2 := by decide
  refine ⟨honce, hnames, ?_, ?_, ?_⟩
  · rw [← hconsistent.map_fst_entries, ← hconsistent.entries_eq]
    exact hnames
  · rw [hconsistent.clear_eq, ← hconsistent.size_registry, hsize]
  · refine hremove "750B" ?_
    rw [← hconsistent.contains_iff]
    decide

end Jobs

end CrmEmulator
