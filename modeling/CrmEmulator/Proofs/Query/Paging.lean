import CrmEmulator.Proofs.Query.Acceptance
import CrmEmulator.Query.Engine

/-!
# CrmEmulator.Proofs.Query.Paging — pages of a query

A query is filtered and put in order before a page is cut out of it, so that all pages are cut out
of one and the same list.

1. `flatMap_page`: pages of one size, one after the other, are the beginning of the list.
2. `Store.answer`: the answer to a query that was read, and `answer_paged`, by which the answer to a
   page is a page of the answer.
3. `pages_partition`: the pages of a query make up the whole answer, and counting agrees with
   showing.
-/

namespace CrmEmulator

/-! ## Pages of a list -/

section page
variable {α β : Type}

@[simp] theorem page_none (xs : List α) : page none none xs = xs := rfl

theorem page_some (offset limit : Nat) (xs : List α) :
    page (some offset) (some limit) xs = (xs.drop offset).take limit := rfl

/-- Converting the elements of a page is taking a page of converted elements. -/
theorem map_page (f : α → β) (offset limit : Option Nat) (xs : List α) :
    (page offset limit xs).map f = page offset limit (xs.map f) := by
  cases limit with
  | none => simp [page]
  | some n => simp [page]

theorem length_page_le (offset : Option Nat) (limit : Nat) (xs : List α) :
    (page offset (some limit) xs).length ≤ limit :=
  List.length_take_le ..

/-- How long a page is depends on how many elements there are, and on nothing else. -/
theorem length_page_congr (offset limit : Option Nat) {xs ys : List α}
    (h : xs.length = ys.length) : (page offset limit xs).length = (page offset limit ys).length := by
  cases limit with
  | none => simp [page, h]
  | some n => simp [page, h]

/-- The first pages hold what the list begins with, in the same order. -/
theorem flatMap_page (n count : Nat) (xs : List α) :
    ((List.range count).flatMap fun k => page (some (k * n)) (some n) xs) = xs.take (count * n) := by
  induction count with
  | zero => simp
  | succ count ih =>
    rw [List.range_succ, List.flatMap_append, ih, List.flatMap_singleton, page_some,
      Nat.succ_mul, List.take_add]

/-- As many pages as there are elements are enough, and all pages after them are empty. -/
theorem flatMap_page_length {n : Nat} (hn : 0 < n) (xs : List α) :
    ((List.range xs.length).flatMap fun k => page (some (k * n)) (some n) xs) = xs ∧
      ∀ k, xs.length ≤ k → page (some (k * n)) (some n) xs = [] := by
  have hreach : ∀ k, xs.length ≤ k → xs.length ≤ k * n := by
    intro k hk
    exact Nat.le_trans hk (Nat.le_mul_of_pos_right k hn)
  constructor
  · rw [flatMap_page]
    exact List.take_of_length_le (hreach _ (Nat.le_refl _))
  · intro k hk
    rw [page_some, List.drop_eq_nil_of_le (hreach k hk), List.take_nil]

end page

/-! ## Pages of a query -/

/-- Ordering keeps the number of records. -/
theorem OrderBy.length_arrange (o : Option OrderBy) (records : List Record) :
    (OrderBy.arrange o records).length = records.length := by
  cases o with
  | none => rfl
  | some o => exact (stableSort_perm o.compare records).length_eq

namespace Soql

/-- The query with another page. -/
def paged (q : Soql) (limit offset : Option Nat) : Soql := { q with limit, offset }

/-- The query without a page. -/
def whole (q : Soql) : Soql := q.paged none none

/-- A page of a given size, counted from zero. -/
def nthPage (q : Soql) (size k : Nat) : Soql := q.paged (some size) (some (k * size))

/-- The query with the same conditions and page that only counts, in whatever order. -/
def counting (q : Soql) (orderBy : Option OrderBy) : Soql :=
  { q with select := .count, orderBy }

theorem Documented.paged {q : Soql} (h : q.Documented) {limit offset : Option Nat}
    (hlimit : ∀ n ∈ limit, n < Nat.pow 2 64) (hoffset : ∀ n ∈ offset, n < Nat.pow 2 64) :
    (q.paged limit offset).Documented :=
  { h with limit := hlimit, offset := hoffset }

theorem Documented.counting {q : Soql} (h : q.Documented) : (q.counting none).Documented :=
  { h with select := nofun, orderBy := nofun }

/-- Every documented query is read from some text. -/
theorem Documented.exists_parse {q : Soql} (h : q.Documented) : ∃ text, parse text = .ok q := by
  rcases h.exists_written with ⟨text, htext⟩
  exact ⟨text, htext.parse h⟩

/-- How many records are found does not depend on their order. -/
theorem length_rows_counting (q : Soql) (orderBy : Option OrderBy) (records : List Record) :
    ((q.counting orderBy).rows records).length = (q.rows records).length := by
  refine length_page_congr _ _ ?_
  rw [OrderBy.length_arrange, OrderBy.length_arrange]
  rfl

end Soql

namespace Store

/-- The answer to a query that was read. -/
def answer (s : Store) (c : Catalog) (version : String) (q : Soql) : Except Failure QueryResult := do
  let records ← s.run c q
  match q.select with
  | .count => return ⟨records.length, []⟩
  | .fields names => return ⟨records.length, records.map (·.project q.object names version)⟩

theorem query_eq_answer {text : String} {q : Soql} (h : Soql.parse text = .ok q) (s : Store)
    (c : Catalog) (version : String) : s.query c text version = s.answer c version q := by
  rw [query, h]
  rfl

variable {s : Store} {c : Catalog} {version : String} {q : Soql}

/-- The records of a page are a page of all records. -/
theorem run_paged (limit offset : Option Nat) :
    s.run c (q.paged limit offset) = (s.run c q.whole).map (page offset limit) := by
  unfold run
  by_cases hobject : c.contains q.object
  · simp only [Soql.paged, Soql.whole, hobject, if_true]
    cases s.collection q.object <;> rfl
  · simp only [Soql.paged, Soql.whole, hobject]
    rfl

/-- The answer with only a page of its records. -/
def QueryResult.page (limit offset : Option Nat) (r : QueryResult) : QueryResult where
  totalSize := (CrmEmulator.page offset limit r.records).length
  records := CrmEmulator.page offset limit r.records

/-- The answer under a page is that page of the whole answer. -/
theorem answer_paged {names : List String} (hselect : q.select = .fields names)
    (limit offset : Option Nat) :
    s.answer c version (q.paged limit offset) =
      (s.answer c version q.whole).map (QueryResult.page limit offset) := by
  have hpaged : (q.paged limit offset).select = .fields names := hselect
  have hwhole : q.whole.select = .fields names := hselect
  unfold answer
  rw [run_paged, hpaged, hwhole]
  cases s.run c q.whole with
  | error e => rfl
  | ok records =>
    show Except.ok _ = Except.ok _
    congr 1
    simp only [QueryResult.page, ← map_page, List.length_map]
    rfl

/-- The total of a query that shows fields is the number of records it shows. -/
theorem totalSize_of_answer {names : List String} (hselect : q.select = .fields names)
    {r : QueryResult} (h : s.answer c version q = .ok r) : r.totalSize = r.records.length := by
  rw [answer, hselect] at h
  rcases bind_eq_ok.mp h with ⟨records, -, ⟨⟩⟩
  simp

/-- Counting sees as many records as selecting fields. -/
theorem run_counting (orderBy : Option OrderBy) :
    (s.run c (q.counting orderBy)).map List.length = (s.run c q).map List.length := by
  unfold run
  by_cases hobject : c.contains q.object
  · simp only [Soql.counting, hobject, if_true]
    cases s.collection q.object with
    | error e => rfl
    | ok found => exact congrArg Except.ok (Soql.length_rows_counting q orderBy found.records)
  · simp only [Soql.counting, hobject]
    rfl

/-- A count is the number of records that the query shows, and shows none itself. -/
theorem answer_counting {names : List String} (hselect : q.select = .fields names)
    (orderBy : Option OrderBy) :
    s.answer c version (q.counting orderBy) =
      (s.answer c version q).map fun r => ⟨r.records.length, []⟩ := by
  have hcount : (q.counting orderBy).select = .count := rfl
  have hrun := run_counting (s := s) (c := c) (q := q) orderBy
  unfold answer
  rw [hcount, hselect]
  -- both fail in the same way, or both find equally many records
  cases hcounted : s.run c (q.counting orderBy) with
  | error e =>
    cases hshown : s.run c q with
    | error e' =>
      rw [hcounted, hshown] at hrun
      cases hrun
      rfl
    | ok shown =>
      rw [hcounted, hshown] at hrun
      cases hrun
  | ok records =>
    cases hshown : s.run c q with
    | error e' =>
      rw [hcounted, hshown] at hrun
      cases hrun
    | ok shown =>
      rw [hcounted, hshown] at hrun
      have hlength : records.length = shown.length := Except.ok.inj hrun
      show Except.ok _ = Except.ok _
      congr 1
      simp [hlength]

/-! ## All pages together -/

/-- What the pages of a query, all of one size, have to do with the query itself. -/
structure Pages (s : Store) (c : Catalog) (version : String) (q : Soql) (size : Nat) : Prop where
  /-- A text is answered as the query that it spells out, and every page of a documented query, as
  far as its offset can be written, has a text, as has its count. -/
  text : ∀ text q', Soql.parse text = .ok q' → s.query c text version = s.answer c version q'
  written : q.Documented → size < Nat.pow 2 64 → ∀ k, k * size < Nat.pow 2 64 →
    (∃ text, Soql.parse text = .ok (q.nthPage size k)) ∧
      ∃ text, Soql.parse text = .ok ((q.nthPage size k).counting none)
  /-- A query that fails fails on every page. -/
  failed : ∀ e, s.answer c version q.whole = .error e →
    ∀ k, s.answer c version (q.nthPage size k) = .error e
  /-- The pages are not longer than their size, make up the whole one after the other, and end. -/
  partition : ∀ whole, s.answer c version q.whole = .ok whole → ∃ found : Nat → QueryResult,
    (∀ k, s.answer c version (q.nthPage size k) = .ok (found k) ∧
      (found k).records.length ≤ size) ∧
    ∃ count, ((List.range count).flatMap fun k => (found k).records) = whole.records ∧
      ∀ k, count ≤ k → (found k).records = []
  /-- The total is the number of records shown, with any page or none. -/
  total : ∀ limit offset r, s.answer c version (q.paged limit offset) = .ok r →
    r.totalSize = r.records.length
  /-- Counting finds as many records as are shown, with any page or none and in any order. -/
  counted : ∀ limit offset orderBy,
    s.answer c version ((q.paged limit offset).counting orderBy) =
      (s.answer c version (q.paged limit offset)).map fun r => ⟨r.records.length, []⟩

/-- Whatever the store holds, the pages of a query that shows fields make up the whole answer. -/
theorem pages_partition (s : Store) (c : Catalog) (version : String) (q : Soql)
    {names : List String} (hselect : q.select = .fields names) {size : Nat} (hsize : 0 < size) :
    Pages s c version q size where
  text text q' h := query_eq_answer h s c version
  written hq hlimit k hoffset := by
    have hpage : (q.nthPage size k).Documented := by
      refine hq.paged ?_ ?_
      · rintro _ ⟨⟩
        exact hlimit
      · rintro _ ⟨⟩
        exact hoffset
    exact ⟨hpage.exists_parse, hpage.counting.exists_parse⟩
  failed e h k := by
    rw [Soql.nthPage, answer_paged hselect, h]
    rfl
  partition whole h := by
    -- as many pages as there are records are always enough
    refine ⟨fun k => whole.page (some size) (some (k * size)), fun k => ⟨?_, ?_⟩, ?_⟩
    · rw [Soql.nthPage, answer_paged hselect, h]
      rfl
    · exact length_page_le _ size whole.records
    · exact ⟨whole.records.length, flatMap_page_length hsize whole.records⟩
  total limit offset r h := by
    have hpaged : (q.paged limit offset).select = .fields names := hselect
    exact totalSize_of_answer hpaged h
  counted limit offset orderBy := by
    have hpaged : (q.paged limit offset).select = .fields names := hselect
    exact answer_counting hpaged orderBy

/-- A catalog with one object. -/
def accountsOnly : Catalog := ⟨[{ name := "Account", idPrefix := "001" }]⟩

/-- Accounts that are not in order of their names. -/
def towns : Store where
  collections := [("Account",
    ⟨["Ulm", "Bonn", "Rome", "Lund"].map fun name => ⟨[("Name", .text name)]⟩⟩)]

/-- All towns but one, from the last in the alphabet to the first. -/
def northernTowns : Soql where
  select := .fields ["Name"]
  object := "Account"
  filter := some ⟨⟨"Name", .ne, .value (.text "Rome")⟩, []⟩
  orderBy := some ⟨"Name", .desc, .last⟩
  limit := none
  offset := none

/-- Three towns make two pages, and the second is not full. -/
theorem northernTowns_pages :
    (towns.run accountsOnly northernTowns.whole).toOption =
        some (["Ulm", "Lund", "Bonn"].map fun name => ⟨[("Name", .text name)]⟩) ∧
      (towns.run accountsOnly (northernTowns.nthPage 2 1)).toOption =
        some [⟨[("Name", .text "Bonn")]⟩] ∧
      Pages towns accountsOnly "v60.0" northernTowns 2 := by
  have hselect : northernTowns.select = .fields ["Name"] := rfl
  have hsize : 0 < 2 := by decide
  refine ⟨by decide +kernel, by decide +kernel, ?_⟩
  exact pages_partition towns accountsOnly "v60.0" northernTowns hselect hsize

end Store

end CrmEmulator
