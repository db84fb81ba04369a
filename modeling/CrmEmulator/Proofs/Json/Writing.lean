import CrmEmulator.Proofs.Json.Equality
import CrmEmulator.Proofs.Json.Tokens

/-!
# CrmEmulator.Proofs.Json.Writing — written documents are read back

1. `Exact`: documents that their text shows exactly.  `ReadsBack`: a reader finds the document at
   the beginning of any text that goes on after it.  Every exact document is read back, by induction
   over its parts.
2. The whole text of an exact document is read as the document, by the reader of documents
   (`Exact.parse?_text`) and by the reader of some members (`Exact.readFor?_text`).
3. What the reader of some members finds has proper parts.
-/

namespace CrmEmulator

namespace Json

/-! ## Documents -/

/-- A document that its text shows exactly, with containers nested at most `depth` deep: it has no
doubles, its whole numbers have 64 bits, and its objects have distinct names. -/
inductive Exact : (depth : Nat) → Json → Prop
  | null {depth : Nat} : Exact depth .null
  | bool {depth : Nat} (b : Bool) : Exact depth (.bool b)
  | int {depth : Nat} {n : Int} (h : (Json.int n).inRange) : Exact depth (.int n)
  | str {depth : Nat} (s : String) : Exact depth (.str s)
  | arr {depth : Nat} {items : List Json} (h : ∀ item ∈ items, Exact depth item) :
      Exact (depth + 1) (.arr items)
  | obj {depth : Nat} {members : List (String × Json)} (names : (members.map (·.1)).Nodup)
      (h : ∀ member ∈ members, Exact depth member.2) : Exact (depth + 1) (.obj members)

/-- A reader finds the document at the beginning of any text that goes on after it.  Two units of
fuel for a character are enough. -/
def ReadsBack (depth : Nat) (doc : Json) : Prop :=
  ∀ (fuel : Nat) (rest : List Char), 2 * doc.text.length ≤ fuel → Ended rest →
    value? fuel depth (doc.text ++ rest) = some (doc, rest)

/-- A document begins with what is no space and closes no list. -/
theorem Exact.text_eq_cons {depth : Nat} {doc : Json} (h : Exact depth doc) :
    ∃ c cs, doc.text = c :: cs ∧ isSpace c = false ∧ c ≠ ']' := by
  cases h with
  | null => exact ⟨'n', _, rfl, by decide⟩
  | bool b =>
    cases b with
    | true => exact ⟨'t', _, rfl, by decide⟩
    | false => exact ⟨'f', _, rfl, by decide⟩
  | str s => exact ⟨'"', _, rfl, by decide⟩
  | arr => exact ⟨'[', _, rfl, by decide⟩
  | obj => exact ⟨'\x7b', _, rfl, by decide⟩
  | @int _ n =>
    obtain ⟨c, cs, hcs, hc⟩ := toString_eq_cons n
    refine ⟨c, cs, hcs, isSpace_of_number hc, ?_⟩
    rintro rfl
    rcases hc with hminus | hdigit
    · cases hminus
    · cases hdigit

/-! ### Lists -/

theorem itemsText_cons (item next : Json) (others : List Json) :
    itemsText (item :: next :: others) = text item ++ ',' :: itemsText (next :: others) := by
  rw [itemsText]
  exact List.cons_ne_nil next others

/-- An item before the end of a list is the last one. -/
theorem items?_last {fuel depth : Nat} {cs rest : List Char} {item : Json}
    (h : value? fuel depth cs = some (item, ']' :: rest)) :
    items? (fuel + 1) depth cs = some ([item], rest) := by
  rw [items?, h]
  rfl

/-- An item before a comma is followed by those that are read from there. -/
theorem items?_more {fuel depth : Nat} {cs more rest : List Char} {item : Json}
    {items : List Json} (h : value? fuel depth cs = some (item, ',' :: more))
    (hmore : items? fuel depth more = some (items, rest)) :
    items? (fuel + 1) depth cs = some (item :: items, rest) := by
  rw [items?, h]
  show (items? fuel depth more).bind _ = _
  rw [hmore]
  rfl

/-- Items that are read back are read back as a list. -/
theorem items?_itemsText {depth : Nat} {items : List Json} (hne : items ≠ [])
    (hitems : ∀ item ∈ items, ReadsBack depth item) {fuel : Nat}
    (hfuel : 2 * (itemsText items).length < fuel) (rest : List Char) :
    items? fuel depth (itemsText items ++ ']' :: rest) = some (items, rest) := by
  induction items generalizing fuel with
  | nil => exact absurd rfl hne
  | cons item items ih =>
    rw [List.forall_mem_cons] at hitems
    obtain ⟨hitem, hitems⟩ := hitems
    obtain ⟨fuel, rfl⟩ := Nat.exists_eq_add_one_of_ne_zero (Nat.ne_zero_of_lt hfuel)
    cases items with
    | nil =>
      rw [itemsText] at hfuel ⊢
      exact items?_last (hitem _ _ (by omega) (.bracket rest))
    | cons next others =>
      rw [itemsText_cons, List.length_append, List.length_cons] at hfuel
      rw [itemsText_cons, List.append_assoc, List.cons_append]
      refine items?_more (hitem _ _ (by omega) (.comma _)) ?_
      exact ih (List.cons_ne_nil next others) hitems (by omega)

/-! ### Objects -/

/-- Members are written with commas between them. -/
theorem membersText_cons (key : String) (doc : Json) (next : String × Json)
    (others : List (String × Json)) :
    membersText ((key, doc) :: next :: others) =
      quoted key ++ ':' :: text doc ++ ',' :: membersText (next :: others) := by
  rw [membersText]
  exact List.cons_ne_nil next others

/-- A member before the end of an object is the last one. -/
theorem members?_last {fuel depth : Nat} {cs afterKey rest : List Char} {key : String} {doc : Json}
    (hkey : string? cs = some (key, ':' :: afterKey))
    (h : value? fuel depth afterKey = some (doc, '\x7d' :: rest)) :
    members? (fuel + 1) depth ('"' :: cs) = some ([(key, doc)], rest) := by
  rw [members?, skipSpace_cons rfl]
  show (string? cs).bind _ = _
  rw [hkey]
  show (value? fuel depth afterKey).bind _ = _
  rw [h]
  rfl

/-- A member before a comma is followed by those that are read from there. -/
theorem members?_more {fuel depth : Nat} {cs afterKey more rest : List Char} {key : String}
    {doc : Json} {members : List (String × Json)} (hkey : string? cs = some (key, ':' :: afterKey))
    (h : value? fuel depth afterKey = some (doc, ',' :: more))
    (hmore : members? fuel depth more = some (members, rest)) :
    members? (fuel + 1) depth ('"' :: cs) = some ((key, doc) :: members, rest) := by
  rw [members?, skipSpace_cons rfl]
  show (string? cs).bind _ = _
  rw [hkey]
  show (value? fuel depth afterKey).bind _ = _
  rw [h]
  show (members? fuel depth more).bind _ = _
  rw [hmore]
  rfl

/-- Members whose values are read back are read back as an object. -/
theorem members?_membersText {depth : Nat} {members : List (String × Json)} (hne : members ≠ [])
    (hmembers : ∀ member ∈ members, ReadsBack depth member.2) {fuel : Nat}
    (hfuel : 2 * (membersText members).length < fuel) (rest : List Char) :
    members? fuel depth (membersText members ++ '\x7d' :: rest) = some (members, rest) := by
  induction members generalizing fuel with
  | nil => exact absurd rfl hne
  | cons member members ih =>
    obtain ⟨key, doc⟩ := member
    rw [List.forall_mem_cons] at hmembers
    obtain ⟨hdoc, hmembers⟩ := hmembers
    change ReadsBack depth doc at hdoc
    -- one unit of fuel reads one member
    obtain ⟨fuel, rfl⟩ := Nat.exists_eq_add_one_of_ne_zero (Nat.ne_zero_of_lt hfuel)
    cases members with
    | nil =>
      rw [membersText, List.length_append, List.length_cons] at hfuel
      have hread := hdoc fuel ('\x7d' :: rest) (by omega) (.brace rest)
      have hkey := string?_quoted key (':' :: (doc.text ++ '\x7d' :: rest))
      have htext : membersText [(key, doc)] ++ '\x7d' :: rest =
          '"' :: (key.toList.flatMap escapeChar ++ '"' :: ':' :: (doc.text ++ '\x7d' :: rest)) := by
        simp [membersText, quoted]
      rw [htext]
      exact members?_last hkey hread
    | cons next others =>
      rw [membersText_cons, List.length_append, List.length_append, List.length_cons,
        List.length_cons] at hfuel
      have hmore : members? fuel depth (membersText (next :: others) ++ '\x7d' :: rest) = _ :=
        ih (List.cons_ne_nil next others) hmembers (by omega)
      have hread := hdoc fuel (',' :: (membersText (next :: others) ++ '\x7d' :: rest)) (by omega)
        (.comma _)
      have hkey := string?_quoted key
        (':' :: (doc.text ++ ',' :: (membersText (next :: others) ++ '\x7d' :: rest)))
      have htext : membersText ((key, doc) :: next :: others) ++ '\x7d' :: rest =
          '"' :: (key.toList.flatMap escapeChar ++ '"' ::
            ':' :: (doc.text ++ ',' :: (membersText (next :: others) ++ '\x7d' :: rest))) := by
        simp [membersText_cons, quoted]
      rw [htext]
      exact members?_more hkey hread hmore

/-! ### All exact documents -/

/-- A string is read back, whatever follows it. -/
theorem value?_str (s : String) (fuel depth : Nat) (rest : List Char) :
    value? (fuel + 1) depth (quoted s ++ rest) = some (.str s, rest) := by
  have htext : quoted s ++ rest = '"' :: (s.toList.flatMap escapeChar ++ '"' :: rest) := by
    simp [quoted]
  rw [htext, value?, skipSpace_cons rfl]
  show (string? _).map _ = _
  rw [string?_quoted]
  rfl

theorem value?_noItems (fuel depth : Nat) (rest : List Char) :
    value? (fuel + 1) (depth + 1) ('[' :: ']' :: rest) = some (.arr [], rest) := by
  rw [value?, skipSpace_cons rfl]
  rfl

/-- A list is read by reading its items. -/
theorem value?_arr {fuel depth : Nat} {c : Char} {cs rest : List Char} {items : List Json}
    (hspace : isSpace c = false) (hopen : c ≠ ']')
    (h : items? fuel depth (c :: cs) = some (items, rest)) :
    value? (fuel + 1) (depth + 1) ('[' :: c :: cs) = some (.arr items, rest) := by
  rw [value?, skipSpace_cons rfl]
  simp only [skipSpace_cons hspace]
  split
  · next hzero => cases hzero
  · next heq => exact absurd (List.cons.inj heq).1 hopen
  · next hdepth _ =>
    cases hdepth
    rw [h]
    rfl

theorem value?_noMembers (fuel depth : Nat) (rest : List Char) :
    value? (fuel + 1) (depth + 1) ('\x7b' :: '\x7d' :: rest) = some (.obj [], rest) := by
  rw [value?, skipSpace_cons rfl]
  rfl

/-- An object is read by reading its members. -/
theorem value?_obj {fuel depth : Nat} {cs rest : List Char} {members : List (String × Json)}
    (h : members? fuel depth ('"' :: cs) = some (members, rest)) :
    value? (fuel + 1) (depth + 1) ('\x7b' :: '"' :: cs) = some (.obj members, rest) := by
  rw [value?, skipSpace_cons rfl]
  show (members? fuel depth ('"' :: cs)).map _ = _
  rw [h]
  rfl

/-- The text of members begins with a quote. -/
theorem membersText_eq_cons (member : String × Json) (members : List (String × Json)) :
    ∃ cs, membersText (member :: members) = '"' :: cs := by
  obtain ⟨key, doc⟩ := member
  cases members with
  | nil => exact ⟨_, rfl⟩
  | cons next others =>
    rw [membersText_cons]
    exact ⟨_, rfl⟩

/-- The text of items begins as the text of the first one. -/
theorem itemsText_eq_cons {item : Json} {c : Char} {cs : List Char} (h : item.text = c :: cs)
    (items : List Json) : ∃ more, itemsText (item :: items) = c :: more := by
  cases items with
  | nil => exact ⟨cs, h⟩
  | cons next others =>
    rw [itemsText_cons, h]
    exact ⟨_, rfl⟩

/-- A document has a character, so its reader has a unit of fuel for the step into it. -/
theorem ReadsBack.of_succ {depth : Nat} {doc : Json} (hexact : Exact depth doc)
    (h : ∀ (fuel : Nat) (rest : List Char), 2 * doc.text.length ≤ fuel + 1 → Ended rest →
      value? (fuel + 1) depth (doc.text ++ rest) = some (doc, rest)) : ReadsBack depth doc := by
  intro fuel rest hfuel hrest
  obtain ⟨c, cs, hcs, -⟩ := hexact.text_eq_cons
  have hlength : doc.text.length = cs.length + 1 := by rw [hcs, List.length_cons]
  obtain ⟨less, rfl⟩ := Nat.exists_eq_add_one_of_ne_zero (n := fuel) (by omega)
  exact h less rest hfuel hrest

/-- Every exact document is read back. -/
theorem Exact.readsBack {depth : Nat} {doc : Json} (h : Exact depth doc) :
    ReadsBack depth doc := by
  -- on the document; the fuel that a list or an object needs is left for each of its parts
  induction h with
  | null => exact .of_succ .null fun _ _ _ _ => rfl
  | bool b => exact .of_succ (.bool b) fun _ _ _ _ => by cases b <;> rfl
  | int hrange => exact .of_succ (.int hrange) fun _ _ _ hrest => value?_int hrange _ _ hrest
  | str s => exact .of_succ (.str s) fun _ _ _ _ => value?_str s _ _ _
  | @arr depth items hitems ih =>
    refine .of_succ (.arr hitems) fun fuel rest hfuel _ => ?_
    cases items with
    | nil => exact value?_noItems fuel depth rest
    | cons first others =>
      rw [text, List.cons_append, List.length_cons, List.length_append,
        List.length_singleton] at hfuel
      obtain ⟨c, cs, hcs, hspace, hopen⟩ := (hitems first List.mem_cons_self).text_eq_cons
      obtain ⟨more, hmore⟩ := itemsText_eq_cons hcs others
      have hread : items? fuel depth (itemsText (first :: others) ++ ']' :: rest) = _ :=
        items?_itemsText (List.cons_ne_nil first others) ih (by omega) rest
      have htext : (Json.arr (first :: others)).text ++ rest =
          '[' :: c :: (more ++ ']' :: rest) := by
        simp [text, hmore]
      rw [hmore] at hread
      rw [htext]
      exact value?_arr hspace hopen hread
  | @obj depth members names hmembers ih =>
    refine .of_succ (.obj names hmembers) fun fuel rest hfuel _ => ?_
    cases members with
    | nil => exact value?_noMembers fuel depth rest
    | cons first others =>
      rw [text, List.cons_append, List.length_cons, List.length_append,
        List.length_singleton] at hfuel
      obtain ⟨more, hmore⟩ := membersText_eq_cons first others
      have hread : members? fuel depth (membersText (first :: others) ++ '\x7d' :: rest) = _ :=
        members?_membersText (List.cons_ne_nil first others) ih (by omega) rest
      have htext : (Json.obj (first :: others)).text ++ rest =
          '\x7b' :: '"' :: (more ++ '\x7d' :: rest) := by
        simp [text, hmore]
      rw [hmore] at hread
      rw [htext]
      exact value?_obj hread

/-! ## Whole texts -/

/-- A list whose items are settled is settled. -/
theorem settleItems_eq {items : List Json} (h : ∀ item ∈ items, settle item = item) :
    settleItems items = items := by
  induction items with
  | nil => rfl
  | cons item items ih =>
    rw [List.forall_mem_cons] at h
    rw [settleItems, h.1, ih h.2]

/-- A new member is set behind the others. -/
theorem setMember_of_not_mem {name : String} {doc : Json} {members : List (String × Json)}
    (h : name ∉ members.map (·.1)) : setMember name doc members = members ++ [(name, doc)] := by
  induction members with
  | nil => rfl
  | cons member members ih =>
    rw [List.map_cons, List.mem_cons, not_or] at h
    rw [setMember, if_neg (Ne.symm h.1), ih h.2, List.cons_append]

/-- There is nothing to settle in members with distinct names and settled values. -/
theorem settleMembers_eq {done members : List (String × Json)}
    (hnames : ((done ++ members).map (·.1)).Nodup)
    (h : ∀ member ∈ members, settle member.2 = member.2) :
    settleMembers done members = done ++ members := by
  induction members generalizing done with
  | nil => rw [settleMembers, List.append_nil]
  | cons member members ih =>
    obtain ⟨name, doc⟩ := member
    rw [List.forall_mem_cons] at h
    have hdoc : settle doc = doc := h.1
    have hnew : name ∉ done.map (·.1) := by
      rw [List.map_append, List.map_cons, List.nodup_append] at hnames
      intro hmem
      exact hnames.2.2 name hmem name List.mem_cons_self rfl
    have hsplit : done ++ (name, doc) :: members = done ++ [(name, doc)] ++ members := by simp
    rw [settleMembers, hdoc, setMember_of_not_mem hnew, hsplit]
    exact ih (hsplit ▸ hnames) h.2

/-- An exact document is settled. -/
theorem Exact.settle_eq {depth : Nat} {doc : Json} (h : Exact depth doc) : settle doc = doc := by
  induction h with
  | null | bool | int | str => simp [settle]
  | arr _ ih => rw [settle, settleItems_eq ih]
  | @obj _ members names _ ih =>
    have hmembers : settleMembers [] members = members := settleMembers_eq names ih
    rw [settle, hmembers]

/-- **Reading inverts writing.**  The text of an exact document is read as that document. -/
theorem Exact.parse?_text {doc : Json} (h : Exact maxDepth doc) : parse? doc.text = some doc := by
  have hread : value? (fuelFor doc.text) maxDepth doc.text = some (doc, []) := by
    have hback := h.readsBack (fuelFor doc.text) [] (by unfold fuelFor; omega) .nothing
    rwa [List.append_nil] at hback
  rw [parse?, read?, hread, Option.map_eq_some_iff]
  exact ⟨doc, rfl, h.settle_eq⟩

/-! ## Some members of a text -/

/-- Where every name is asked for, all members are read. -/
theorem membersFor?_of_members? {names : List String} {fuel : Nat} {cs rest : List Char}
    {members : List (String × Json)} (h : members? fuel (maxDepth - 1) cs = some (members, rest))
    (hnames : ∀ member ∈ members, member.1 ∈ names) :
    membersFor? names fuel cs =
      some (members.map fun member => (member.1, settle member.2), rest) := by
  -- on the fuel, which both readers spend in the same way
  induction fuel generalizing cs members with
  | zero => cases h
  | succ fuel ih =>
    unfold members? at h
    split at h
    · next inner hquote =>
      obtain ⟨⟨key, afterKey⟩, hkey, h⟩ := Option.bind_eq_some_iff.mp h
      simp only at h
      split at h
      · next afterColon hcolon =>
        obtain ⟨⟨doc, afterDoc⟩, hdoc, h⟩ := Option.bind_eq_some_iff.mp h
        simp only at h
        split at h
        · next more hcomma =>
          obtain ⟨⟨others, afterOthers⟩, hothers, h⟩ := Option.bind_eq_some_iff.mp h
          cases h
          rw [List.forall_mem_cons] at hnames
          have hrest := ih hothers hnames.2
          simp [membersFor?, hquote, hkey, hcolon, hdoc, hnames.1, hcomma, hrest]
        · next hbrace =>
          cases h
          have hname : key ∈ names := hnames _ List.mem_cons_self
          simp [membersFor?, hquote, hkey, hcolon, hdoc, hname, hbrace]
        · cases h
      · cases h
    · cases h

/-- The object of the members that are asked for is read from a text of members. -/
theorem readFor?_obj {names : List String} {cs : List Char} {members : List (String × Json)}
    (h : membersFor? names (fuelFor ('\x7b' :: '"' :: cs)) ('"' :: cs) = some (members, [])) :
    readFor? names ('\x7b' :: '"' :: cs) = some (.obj members) := by
  rw [readFor?, skipSpace_cons rfl]
  show (membersFor? names (fuelFor ('\x7b' :: '"' :: cs)) ('"' :: cs)).bind _ = _
  rw [h]
  rfl

/-- The text of an exact object is read as the object where all its names are asked for. -/
theorem Exact.readFor?_text {names : List String} {members : List (String × Json)}
    (h : Exact maxDepth (.obj members)) (hnames : ∀ member ∈ members, member.1 ∈ names) :
    readFor? names (Json.obj members).text = some (.obj members) := by
  cases h with
  | obj _ hmembers =>
    have hsettled : (members.map fun member => (member.1, settle member.2)) = members := by
      have heach : ∀ member ∈ members, (member.1, settle member.2) = member := by
        intro member hmember
        rw [(hmembers member hmember).settle_eq]
      rw [List.map_congr_left heach, List.map_id']
    -- an object without members is read without looking for them
    cases members with
    | nil => rfl
    | cons first others =>
      obtain ⟨more, hmore⟩ := membersText_eq_cons first others
      have htext : (Json.obj (first :: others)).text = '\x7b' :: '"' :: (more ++ ['\x7d']) := by
        simp [text, hmore]
      have hfuel : 2 * (membersText (first :: others)).length <
          fuelFor ('\x7b' :: '"' :: (more ++ ['\x7d'])) := by
        simp only [hmore, fuelFor, List.length_cons, List.length_append]
        omega
      have hread := members?_membersText (List.cons_ne_nil first others)
        (fun member hmember => (hmembers member hmember).readsBack) hfuel []
      rw [htext]
      rw [hmore, List.cons_append] at hread
      apply readFor?_obj
      rw [membersFor?_of_members? hread hnames, hsettled]

/-- The members that are kept have proper values. -/
theorem proper_of_membersFor? {names : List String} {fuel : Nat} {cs rest : List Char}
    {members : List (String × Json)} (h : membersFor? names fuel cs = some (members, rest)) :
    ∀ member ∈ members, member.2.Proper := by
  induction fuel generalizing cs rest members with
  | zero => cases h
  | succ fuel ih =>
    unfold membersFor? at h
    split at h
    · obtain ⟨⟨key, afterKey⟩, -, h⟩ := Option.bind_eq_some_iff.mp h
      simp only at h
      split at h
      · split at h
        -- the text goes on in the same way, whether the value is kept or passed over
        all_goals
          obtain ⟨⟨found, afterFound⟩, hfound, h⟩ := Option.bind_eq_some_iff.mp h
          have hproper : ∀ member ∈ found, member.2.Proper := by
            obtain ⟨read, hread, heq⟩ := Option.map_eq_some_iff.mp hfound
            cases heq
            first
            | exact List.forall_mem_nil _
            | exact List.forall_mem_singleton.mpr ((proper_settle fuel).1 _ _ _ _ hread)
          simp only at h
          split at h
          · obtain ⟨⟨others, afterOthers⟩, hothers, h⟩ := Option.bind_eq_some_iff.mp h
            cases h
            exact List.forall_mem_append.mpr ⟨hproper, ih hothers⟩
          · cases h
            exact hproper
          · cases h
      · cases h
    · cases h

/-- What is read for some members has proper parts, whether it is an object or a list. -/
theorem proper_of_readFor? {names : List String} {cs : List Char} {doc : Json}
    (h : readFor? names cs = some doc) :
    (∃ members, doc = .obj members ∧ ∀ member ∈ members, member.2.Proper) ∨ doc.Proper := by
  unfold readFor? at h
  split at h
  · next inner _ =>
    refine .inl ?_
    have hend : ∀ {members : List (String × Json)} {rest : List Char},
        (if skipSpace rest = [] then some (Json.obj members) else none) = some doc →
        (∀ member ∈ members, member.2.Proper) →
        ∃ members, doc = .obj members ∧ ∀ member ∈ members, member.2.Proper := by
      intro members rest hif hproper
      split at hif
      · cases hif
        exact ⟨members, rfl, hproper⟩
      · cases hif
    simp only at h
    split at h
    · exact hend h (List.forall_mem_nil _)
    · obtain ⟨⟨members, rest⟩, hmembers, h⟩ := Option.bind_eq_some_iff.mp h
      exact hend h (proper_of_membersFor? hmembers)
  · exact .inr (proper_of_parse? h)

end Json

end CrmEmulator
