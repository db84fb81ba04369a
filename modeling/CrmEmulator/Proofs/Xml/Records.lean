import CrmEmulator.Proofs.Record
import CrmEmulator.Proofs.Text.LetterCase
import CrmEmulator.Proofs.Xml.Escaping

/-!
# CrmEmulator.Proofs.Xml.Records — records that are written are read back

1. A field is found where it stands, with its escaped text, and is not taken for one that is null.
2. A record ends with the first closing tag of records, and no field has that tag.
3. `ofRecords`: a document with an element for every record and, inside it, one for every field.
4. The records of the document are read back: its root is told apart from them by the character
   after the name that it begins with, and each record is found between its tags.
-/

namespace CrmEmulator

namespace Xml

/-! ## Names -/

/-- A name that a field can have: letters, digits and underscores, and no digit first. -/
structure IsFieldName (name : List Char) : Prop where
  start : name.head?.any isNameStart
  chars : ∀ c ∈ name, isNameChar c

instance (name : List Char) : Decidable (IsFieldName name) :=
  decidable_of_iff (name.head?.any isNameStart ∧ name.all isNameChar)
    ⟨fun ⟨hstart, hchars⟩ => ⟨hstart, List.all_eq_true.mp hchars⟩,
      fun h => ⟨h.start, List.all_eq_true.mpr h.chars⟩⟩

/-- A field name has a first character that may begin one. -/
theorem IsFieldName.exists_cons {name : List Char} (h : IsFieldName name) :
    ∃ first more, name = first :: more ∧ isNameStart first := by
  rcases name with - | ⟨first, more⟩
  · exact absurd h.start (by decide)
  · exact ⟨first, more, rfl, h.start⟩

/-- The characters of names are letters, digits and the underscore, all of them ASCII. -/
theorem ascii_of_isNameChar {c : Char} (h : isNameChar c) : c.toNat < 128 := by
  rw [isNameChar, Bool.or_eq_true, beq_iff_eq] at h
  rcases h with halphanum | rfl
  · exact ascii_of_isAlphanum halphanum
  · decide

/-- A character of a name agrees with no mark of punctuation. -/
theorem sameFolded_isNameChar {c d : Char} (hc : isNameChar c) (hlow : d.toNat < 0x41)
    (hd : isNameChar d = false) : sameFolded d c = false := by
  rw [Bool.eq_false_iff, ne_eq, sameFolded_iff_of_lt hlow]
  rintro rfl
  simp [hc] at hd

/-- A field name is read up to the first character that cannot be in one. -/
theorem fieldName?_append {name : List Char} (h : IsFieldName name) {c : Char}
    (hc : isNameChar c = false) (rest : List Char) :
    fieldName? (name ++ c :: rest) = some (name, c :: rest) := by
  rcases h.exists_cons with ⟨first, more, rfl, hfirst⟩
  have htake : (first :: more ++ c :: rest).takeWhile isNameChar = first :: more := by
    rw [List.takeWhile_append_of_pos h.chars]
    simp [hc]
  have hdrop : (first :: more ++ c :: rest).dropWhile isNameChar = c :: rest := by
    rw [List.dropWhile_append_of_pos h.chars]
    simp [hc]
  rw [List.cons_append] at htake hdrop ⊢
  rw [fieldName?, if_pos hfirst, htake, hdrop]

/-! ## Elements -/

theorem afterBeginning?_append (beginning rest : List Char) :
    afterBeginning? beginning (beginning ++ rest) = some rest := by
  simp [afterBeginning?]

theorem afterBeginning?_cons_of_ne {c d : Char} (h : d ≠ c) (more cs : List Char) :
    afterBeginning? (c :: more) (d :: cs) = none := by
  simp [afterBeginning?, Ne.symm h]

theorem fieldElement_opensWith : OpensWith fieldElement '<' := by
  intro d cs hd
  rw [fieldElement, afterBeginning?_cons_of_ne hd]
  rfl

theorem nilElement_opensWith : OpensWith nilElement '<' := by
  intro d cs hd
  rw [nilElement, afterBeginning?_cons_of_ne hd]
  rfl

/-- A field with its text, as it is written. -/
def fieldText (name value : List Char) : List Char :=
  '<' :: name ++ '>' :: escape value ++ '<' :: '/' :: name ++ ['>']

section element
variable {name : List Char} (h : IsFieldName name) (value : List Char)
include h

/-- A field is found where it is written. -/
theorem fieldElement_fieldText (rest : List Char) :
    fieldElement (fieldText name value ++ rest) = some (⟨name, escape value, name⟩, rest) := by
  have hangle : '<' ∉ escape value := not_mem_escape (by decide) (by decide) value
  have hplain : ∀ c ∈ escape value, (decide (c ≠ '<')) = true := by
    intro c hc
    rw [decide_eq_true_iff]
    rintro rfl
    exact hangle hc
  have htext : fieldText name value ++ rest =
      ['<'] ++ (name ++ '>' :: (escape value ++ '<' :: '/' :: (name ++ '>' :: rest))) := by
    simp [fieldText]
  have hopened := fieldName?_append h (c := '>') (by decide)
    (escape value ++ '<' :: '/' :: (name ++ '>' :: rest))
  have hclosed := fieldName?_append h (c := '>') (by decide) rest
  have htag : afterBeginning? ['>'] ('>' :: (escape value ++ '<' :: '/' :: (name ++ '>' :: rest))) =
      some (escape value ++ '<' :: '/' :: (name ++ '>' :: rest)) := afterBeginning?_append ['>'] _
  have hslash : afterBeginning? "</".toList ('<' :: '/' :: (name ++ '>' :: rest)) =
      some (name ++ '>' :: rest) := afterBeginning?_append "</".toList _
  have hend : afterBeginning? ['>'] ('>' :: rest) = some rest := afterBeginning?_append ['>'] rest
  -- the content ends at the only angle bracket after it
  have htake : (escape value ++ '<' :: '/' :: (name ++ '>' :: rest)).takeWhile (· ≠ '<') =
      escape value := by
    rw [List.takeWhile_append_of_pos hplain]
    simp
  have hdrop : (escape value ++ '<' :: '/' :: (name ++ '>' :: rest)).dropWhile (· ≠ '<') =
      '<' :: '/' :: (name ++ '>' :: rest) := by
    rw [List.dropWhile_append_of_pos hplain]
    simp
  rw [htext, fieldElement]
  simp only [afterBeginning?_append, hopened, htag, elementRest?, htake, hdrop, hslash, hclosed,
    hend, Option.bind_eq_bind, Option.bind_some, Option.pure_def]

/-- A pattern that begins with an angle bracket passes over a field if it does not match at either
of its tags. -/
theorem passesOver_fieldText {α : Type} {p : Pattern α} (hp : OpensWith p '<')
    (hopening : ∀ rest, p ('<' :: (name ++ '>' :: rest)) = none)
    (hclosing : ∀ rest, p ('<' :: '/' :: (name ++ '>' :: rest)) = none) :
    PassesOver p (fieldText name value) := by
  have hangle : '<' ∉ escape value := not_mem_escape (by decide) (by decide) value
  have hname : '<' ∉ name := by
    intro hmem
    exact absurd (h.chars '<' hmem) (by decide)
  have hfront : PassesOver p ('<' :: (name ++ '>' :: escape value)) := by
    refine passesOver_cons hp (by simpa [hname] using hangle) ?_
    intro rest
    simpa using hopening (escape value ++ rest)
  have hback : PassesOver p ('<' :: '/' :: (name ++ ['>'])) := by
    refine passesOver_cons hp (by simpa using hname) ?_
    intro rest
    simpa using hclosing rest
  have hsplit : fieldText name value =
      '<' :: (name ++ '>' :: escape value) ++ '<' :: '/' :: (name ++ ['>']) := by
    simp [fieldText]
  rw [hsplit]
  exact hfront.append hback

/-- No place of a field is the beginning of one that is null: its opening tag ends at once, and
the other tag closes. -/
theorem nilElement_passesOver_fieldText : PassesOver nilElement (fieldText name value) := by
  refine passesOver_fieldText h value nilElement_opensWith ?_ ?_
  · intro rest
    have hopened := fieldName?_append h (c := '>') (by decide) rest
    have hblank : isBlank '>' = false := by decide
    have hafter : afterBeginning? ['<'] ('<' :: (name ++ '>' :: rest)) =
        some (name ++ '>' :: rest) := afterBeginning?_append ['<'] _
    rw [nilElement]
    simp only [hafter, hopened, hblank, Option.bind_eq_bind, Option.bind_some, List.head?_cons,
      Option.any_some, Bool.not_false, if_true, Option.bind_none]
  · intro rest
    have hafter : afterBeginning? ['<'] ('<' :: '/' :: (name ++ '>' :: rest)) =
        some ('/' :: (name ++ '>' :: rest)) := afterBeginning?_append ['<'] _
    have hstart : isNameStart '/' = false := by decide
    rw [nilElement]
    simp only [hafter, fieldName?, hstart, Option.bind_eq_bind, Option.bind_some, if_false,
      Option.bind_none, Bool.false_eq_true]

end element

/-! ## Records between their tags -/

/-- A mark of punctuation has no letter case. -/
theorem afterFolded?_cons_of_ne {c d : Char} (hc : c.toNat < 0x41) (h : d ≠ c)
    (word cs : List Char) : afterFolded? (c :: word) (d :: cs) = none := by
  have hnot : sameFolded c d = false := by
    rwa [Bool.eq_false_iff, ne_eq, sameFolded_iff_of_lt hc]
  rw [afterFolded?_cons, hnot]
  rfl

/-- The end of a record begins with a bracket. -/
theorem closeRecord_opensWith : OpensWith closeRecord '<' := by
  intro d cs hd
  have hnone := afterFolded?_cons_of_ne (c := '<') (by decide) hd "/sObject>".toList cs
  show ((afterFolded? ('<' :: "/sObject>".toList) (d :: cs)).map ((), ·)) = none
  rw [hnone]
  rfl

/-- Records begin with a bracket. -/
theorem recordBlock_opensWith : OpensWith recordBlock '<' := by
  intro d cs hd
  have hnone : afterFolded? "<sObject".toList (d :: cs) = none :=
    afterFolded?_cons_of_ne (c := '<') (by decide) hd "sObject".toList cs
  rw [recordBlock, hnone]
  rfl

/-- A tag is told apart from another one by its name: the end of the shorter name agrees with no
character of the longer. -/
theorem afterFolded?_tag {word name : List Char} (hword : ∀ c ∈ word, isNameChar c)
    (hname : ∀ c ∈ name, isNameChar c) (hne : sameWord name word = false) (rest : List Char) :
    afterFolded? (word ++ ['>']) (name ++ '>' :: rest) = none := by
  induction word generalizing name with
  | nil =>
    cases name with
    | nil => simp [sameWord] at hne
    | cons d name =>
      -- the word has ended, and the name goes on
      rw [List.forall_mem_cons] at hname
      have hgoes : sameFolded '>' d = false :=
        sameFolded_isNameChar hname.1 (by decide) (by decide)
      rw [List.nil_append, List.cons_append, afterFolded?_cons, hgoes]
      rfl
  | cons c word ih =>
    rw [List.forall_mem_cons] at hword
    rcases hword with ⟨hc, hword⟩
    cases name with
    | nil =>
      -- the name has ended, and the word goes on
      have hend : sameFolded c '>' = false := by
        have hend' := sameFolded_isNameChar hc (d := '>') (by decide) (by decide)
        rw [sameFolded] at hend' ⊢
        rwa [Bool.beq_comm]
      rw [List.cons_append, List.nil_append, afterFolded?_cons, hend]
      rfl
    | cons d name =>
      rw [List.forall_mem_cons] at hname
      rcases hname with ⟨hd, hname⟩
      rw [List.cons_append, List.cons_append, afterFolded?_cons]
      split
      · next hsame =>
        -- the names agree here, so they differ further on
        refine ih hword hname ?_
        rw [sameFolded_of_ascii (ascii_of_isNameChar hc) (ascii_of_isNameChar hd),
          beq_iff_eq] at hsame
        simpa [sameWord, hsame] using hne
      · rfl

/-- The name of the element of a record. -/
def recordTag : List Char := "sObject".toList

/-- No place of a field ends its record. -/
theorem closeRecord_passesOver_fieldText {name : List Char} (h : IsFieldName name)
    (hne : sameWord name recordTag = false) (value : List Char) :
    PassesOver closeRecord (fieldText name value) := by
  have hself : sameFolded '<' '<' = true := by decide
  refine passesOver_fieldText h value closeRecord_opensWith ?_ ?_
  · intro rest
    rcases h.exists_cons with ⟨first, more, rfl, -⟩
    have hslash : sameFolded '/' first = false :=
      sameFolded_isNameChar (h.chars first List.mem_cons_self) (by decide) (by decide)
    show ((afterFolded? ('<' :: '/' :: "sObject>".toList)
      ('<' :: first :: (more ++ '>' :: rest))).map ((), ·)) = none
    rw [afterFolded?_cons, if_pos hself, afterFolded?_cons, hslash]
    rfl
  · intro rest
    have hslash : sameFolded '/' '/' = true := by decide
    have hother := afterFolded?_tag (List.all_eq_true.mp (by decide)) h.chars hne rest
    show ((afterFolded? ('<' :: '/' :: (recordTag ++ ['>']))
      ('<' :: '/' :: (name ++ '>' :: rest))).map ((), ·)) = none
    rw [afterFolded?_cons, if_pos hself, afterFolded?_cons, if_pos hslash, hother]
    rfl

/-- The content of a record that is written, between its tags. -/
theorem recordBlock_append {block : List Char} (h : PassesOver closeRecord block)
    (rest : List Char) :
    recordBlock ("<sObject>".toList ++ block ++ "</sObject>".toList ++ rest) = some (block, rest) := by
  have hclose : closeRecord ("</sObject>".toList ++ rest) = some ((), rest) := by
    rw [closeRecord, afterFolded?_self]
    rfl
  have hcontent := h.untilMatch?_append hclose (by simp)
  have hopened : afterFolded? "<sObject".toList
      ("<sObject>".toList ++ block ++ "</sObject>".toList ++ rest) =
        some ('>' :: (block ++ ("</sObject>".toList ++ rest))) := by
    have hsplit : "<sObject>".toList ++ block ++ "</sObject>".toList ++ rest =
        "<sObject".toList ++ '>' :: (block ++ ("</sObject>".toList ++ rest)) := by simp
    rw [hsplit, afterFolded?_self]
  rw [recordBlock, hopened]
  exact hcontent

/-! ## Written documents -/

/-- The blanks before a line. -/
def indent (depth : Nat) : List Char := List.replicate (2 * depth) ' '

theorem not_mem_indent {c : Char} (hc : c ≠ ' ') (depth : Nat) : c ∉ indent depth :=
  fun h => hc (List.eq_of_mem_replicate h)

namespace Document

/-- A record as an element with an element for every field. -/
def addRecord (d : Document) (fields : List (String × String)) : Document :=
  (fields.foldl (fun d field => d.element field.1 field.2) (d.openTag "sObject")).closeTag "sObject"

/-- The document of records of texts. -/
def ofRecords (records : List (List (String × String))) : Document :=
  records.foldl addRecord (new "sObjects")

/-- The lines of a document so far. -/
def body (d : Document) : List Char := d.lines.flatMap fun l => l.toList ++ ['\n']

theorem body_line (d : Document) (s : String) :
    (d.line s).body = d.body ++ (indent d.depth ++ s.toList ++ ['\n']) := by
  simp [body, line, indent]

/-- The text of a document: its lines between the tags of its root. -/
theorem toList_finish (d : Document) :
    d.finish.toList = (declaration ++ "\n<" ++ d.root ++ " xmlns=\"" ++ dataloadNamespace ++
      "\">\n").toList ++ d.body ++ ("</" ++ d.root ++ ">").toList := by
  simp only [finish, body, String.toList_append, String.toList_join, List.flatMap_map,
    List.append_assoc]
  rfl

/-- A document with a text added to it, and where it was before. -/
structure Extends (d : Document) (text : List Char) (d' : Document) : Prop where
  body : d'.body = d.body ++ text
  depth : d'.depth = d.depth
  root : d'.root = d.root

/-- Texts that are added one after the other are added as one. -/
theorem Extends.trans {d d' d'' : Document} {text more : List Char} (h : d.Extends text d')
    (h' : d'.Extends more d'') : d.Extends (text ++ more) d'' := by
  refine ⟨?_, h'.depth.trans h.depth, h'.root.trans h.root⟩
  rw [h'.body, h.body, List.append_assoc]

/-- A line adds its text. -/
theorem extends_line (d : Document) (s : String) :
    d.Extends (indent d.depth ++ s.toList ++ ['\n']) (d.line s) :=
  ⟨body_line d s, rfl, rfl⟩

/-- Steps that each add a text at some depth add all their texts, in order. -/
theorem extends_foldl {α : Type} {step : Document → α → Document} {text : α → List Char} {depth : Nat}
    (hstep : ∀ (d : Document) x, d.depth = depth → d.Extends (text x) (step d x)) {d : Document}
    (hd : d.depth = depth) (xs : List α) : d.Extends (xs.flatMap text) (xs.foldl step d) := by
  induction xs generalizing d with
  | nil => exact ⟨(List.append_nil _).symm, rfl, rfl⟩
  | cons x xs ih =>
    have hfirst := hstep d x hd
    rw [List.flatMap_cons]
    exact hfirst.trans (ih (hfirst.depth.trans hd))

end Document

/-- The line of a field in a record. -/
def fieldLine (field : String × String) : List Char :=
  indent 2 ++ fieldText field.1.toList field.2.toList ++ ['\n']

/-- The lines between the tags of a record. -/
def blockText (fields : List (String × String)) : List Char :=
  ['\n'] ++ fields.flatMap fieldLine ++ indent 1

/-- The lines of a record. -/
def recordText (fields : List (String × String)) : List Char :=
  indent 1 ++ ("<sObject>".toList ++ blockText fields ++ "</sObject>".toList) ++ ['\n']

/-- An element adds the line of its field. -/
theorem Document.extends_element {d : Document} (hd : d.depth = 2) (field : String × String) :
    d.Extends (fieldLine field) (d.element field.1 field.2) := by
  have htext : ("<" ++ field.1 ++ ">" ++ String.ofList (escape field.2.toList) ++ "</" ++ field.1 ++
      ">").toList = fieldText field.1.toList field.2.toList := by
    simp only [String.toList_append, String.toList_ofList, fieldText, List.append_assoc]
    rfl
  have hline := extends_line d ("<" ++ field.1 ++ ">" ++ String.ofList (escape field.2.toList) ++
    "</" ++ field.1 ++ ">")
  rwa [htext, hd] at hline

/-- A record adds the text of its fields. -/
theorem Document.extends_addRecord {d : Document} (hd : d.depth = 1)
    (fields : List (String × String)) : d.Extends (recordText fields) (d.addRecord fields) := by
  -- the fields stand one level deeper than the tags of their record
  have hopened : (d.openTag "sObject").body =
      d.body ++ (indent 1 ++ "<sObject>".toList ++ ['\n']) := by
    have hline : (d.openTag "sObject").body = (d.line "<sObject>").body := rfl
    rw [hline, body_line, hd]
  have hdeeper : (d.openTag "sObject").depth = 2 := congrArg (· + 1) hd
  have hfields := extends_foldl (fun d field hdepth => extends_element hdepth field) hdeeper fields
  generalize hinner : fields.foldl (fun d field => d.element field.1 field.2) (d.openTag "sObject") =
    inner at hfields
  have hinside : inner.depth = 2 := hfields.depth.trans hdeeper
  have hclosed : d.addRecord fields = (Document.mk inner.root inner.lines 1).line "</sObject>" := by
    simp [addRecord, hinner, closeTag, hinside]
  refine ⟨?_, ?_, ?_⟩
  · have hlines : (Document.mk inner.root inner.lines 1).body = inner.body := rfl
    rw [hclosed, body_line, hlines, hfields.body, hopened]
    simp only [recordText, blockText, List.append_assoc]
  · rw [hclosed, hd]
    rfl
  · rw [hclosed]
    exact hfields.root

/-- The lines of a document of records stand between the tags of its root. -/
theorem Document.toList_ofRecords (records : List (List (String × String))) :
    (ofRecords records).finish.toList = (declaration ++ "\n<sObjects xmlns=\"" ++
      dataloadNamespace ++ "\">\n").toList ++ records.flatMap recordText ++ "</sObjects>".toList := by
  have hall := extends_foldl (fun d fields hd => extends_addRecord hd fields) (d := new "sObjects")
    rfl records
  have hroot : (ofRecords records).root = "sObjects" := hall.root
  have hbody : (ofRecords records).body = records.flatMap recordText := hall.body
  rw [toList_finish, hroot, hbody]
  rfl

/-! ## Reading -/

/-- Records that a document can hold: with at least one field, and fields that are named apart from
each other and from records, and whose texts are trimmed. -/
structure Writable (fields : List (String × String)) : Prop where
  filled : fields ≠ []
  nodup : (fields.map (·.1)).Nodup
  named : ∀ field ∈ fields, IsFieldName field.1.toList
  apart : ∀ field ∈ fields, sameWord field.1.toList recordTag = false
  trimmed : ∀ field ∈ fields, trim field.2.toList = field.2.toList

instance (fields : List (String × String)) : Decidable (Writable fields) :=
  decidable_of_iff (fields ≠ [] ∧ (fields.map (·.1)).Nodup ∧ ∀ field ∈ fields,
      IsFieldName field.1.toList ∧ sameWord field.1.toList recordTag = false ∧
        trim field.2.toList = field.2.toList)
    ⟨fun ⟨hfilled, hnodup, hfields⟩ => ⟨hfilled, hnodup, fun f hf => (hfields f hf).1,
      fun f hf => (hfields f hf).2.1, fun f hf => (hfields f hf).2.2⟩,
    fun h => ⟨h.filled, h.nodup, fun f hf => ⟨h.named f hf, h.apart f hf, h.trimmed f hf⟩⟩⟩

/-- The record of fields with texts. -/
def textRecord (fields : List (String × String)) : Record :=
  ⟨fields.map fun field => (field.1, .text field.2)⟩

/-- What passes over every field passes over the lines of a record. -/
theorem passesOver_blockText {α : Type} {p : Pattern α} (hp : OpensWith p '<')
    {fields : List (String × String)}
    (h : ∀ field ∈ fields, PassesOver p (fieldText field.1.toList field.2.toList)) :
    PassesOver p (blockText fields) := by
  have hlines : PassesOver p (fields.flatMap fieldLine) := by
    refine passesOver_flatMap fun field hfield => ?_
    have hfront : PassesOver p (indent 2) := passesOver_of_not_mem hp (not_mem_indent (by decide) 2)
    have hback : PassesOver p ['\n'] := passesOver_of_not_mem hp (by decide)
    exact (hfront.append (h field hfield)).append hback
  have hfront : PassesOver p ['\n'] := passesOver_of_not_mem hp (by decide)
  have hback : PassesOver p (indent 1) := passesOver_of_not_mem hp (not_mem_indent (by decide) 1)
  exact (hfront.append hlines).append hback

/-- All fields of a record are found in its lines. -/
theorem findAll_fieldElement_blockText {fields : List (String × String)}
    (h : ∀ field ∈ fields, IsFieldName field.1.toList) :
    findAll fieldElement (blockText fields) = fields.map fun field =>
      ⟨field.1.toList, escape field.2.toList, field.1.toList⟩ := by
  have hblank {cs : List Char} (hcs : '<' ∉ cs) : PassesOver fieldElement cs :=
    passesOver_of_not_mem fieldElement_opensWith hcs
  have hline : ∀ field ∈ fields, ∀ rest, findAll fieldElement (fieldLine field ++ rest) =
      ⟨field.1.toList, escape field.2.toList, field.1.toList⟩ :: findAll fieldElement rest := by
    intro field hfield rest
    have hfound := fieldElement_fieldText (h field hfield) field.2.toList (['\n'] ++ rest)
    have htaken : fieldText field.1.toList field.2.toList ≠ [] := List.cons_ne_nil _ _
    rw [fieldLine, List.append_assoc, List.append_assoc,
      (hblank (not_mem_indent (by decide) 2)).findAll_append, findAll_match htaken hfound,
      (hblank (by decide : '<' ∉ ['\n'])).findAll_append]
  rw [blockText, List.append_assoc, (hblank (by decide : '<' ∉ ['\n'])).findAll_append,
    findAll_flatMap hline, (hblank (not_mem_indent (by decide) 1)).findAll_eq_nil, List.append_nil]

/-- Trimmed text is read as it was before it was escaped. -/
theorem contentText_escape {value : String} (h : trim value.toList = value.toList) :
    contentText (escape value.toList) = value := by
  rw [contentText, trim_escape, h, unescape_escape, String.ofList_toList]

/-- The fields of a record are read back from its block. -/
theorem recordOfBlock_blockText {fields : List (String × String)} (h : Writable fields) :
    recordOfBlock (blockText fields) = textRecord fields := by
  have hnulls : findAll nilElement (blockText fields) = [] :=
    (passesOver_blockText nilElement_opensWith fun field hfield =>
      nilElement_passesOver_fieldText (h.named field hfield) _).findAll_eq_nil
  have htexts : ((findAll fieldElement (blockText fields)).filter fun e => e.opened == e.closed).map
      (fun e => (String.ofList e.opened, Value.text (contentText e.content))) =
        fields.map fun field => (field.1, .text field.2) := by
    -- every element is closed by its own name
    have hpaired : ∀ e ∈ fields.map (fun field => Element.mk field.1.toList
        (escape field.2.toList) field.1.toList), (e.opened == e.closed) = true := by
      simp only [List.forall_mem_map, BEq.rfl, implies_true]
    rw [findAll_fieldElement_blockText h.named, List.filter_eq_self.mpr hpaired, List.map_map]
    refine List.map_congr_left fun field hfield => ?_
    simp [contentText_escape (h.trimmed field hfield)]
  have hnames : (fields.map fun field => (field.1, Value.text field.2)).map (·.1) =
      fields.map (·.1) := by simp
  have hfields := Record.fields_ofFields_of_nodup (hnames ▸ h.nodup)
  rw [recordOfBlock, hnulls]
  show Record.ofFields _ = _
  rw [htexts]
  exact congrArg Record.mk hfields

/-- A record is found in its lines. -/
theorem findAll_recordText {fields : List (String × String)} (h : Writable fields)
    (rest : List Char) :
    findAll recordBlock (recordText fields ++ rest) =
      blockText fields :: findAll recordBlock rest := by
  have hblank {cs : List Char} (hcs : '<' ∉ cs) : PassesOver recordBlock cs :=
    passesOver_of_not_mem recordBlock_opensWith hcs
  have hblock : PassesOver closeRecord (blockText fields) :=
    passesOver_blockText closeRecord_opensWith fun field hfield =>
      closeRecord_passesOver_fieldText (h.named field hfield) (h.apart field hfield) _
  have htaken : "<sObject>".toList ++ blockText fields ++ "</sObject>".toList ≠ [] := by simp
  rw [recordText, List.append_assoc, List.append_assoc,
    (hblank (not_mem_indent (by decide) 1)).findAll_append,
    findAll_match htaken (recordBlock_append hblock _),
    (hblank (by decide : '<' ∉ ['\n'])).findAll_append]

/-- No record is found in the declaration of a document and the opening tag of its root, whose name
goes on where a record would end its own. -/
theorem recordBlock_passesOver_head : PassesOver recordBlock
    (declaration ++ "\n<sObjects xmlns=\"" ++ dataloadNamespace ++ "\">\n").toList := by
  have hsplit : (declaration ++ "\n<sObjects xmlns=\"" ++ dataloadNamespace ++ "\">\n").toList =
      '<' :: (declaration.toList.drop 1 ++ ['\n']) ++
        '<' :: ("sObject".toList ++ 's' :: (" xmlns=\"" ++ dataloadNamespace ++ "\">\n").toList) := by
    simp only [String.toList_append]
    rfl
  rw [hsplit]
  refine PassesOver.append ?_ ?_
  · refine passesOver_cons recordBlock_opensWith (by decide) ?_
    intro rest
    rfl
  · refine passesOver_cons recordBlock_opensWith (by decide) ?_
    intro rest
    rfl

theorem recordBlock_passesOver_tail : PassesOver recordBlock "</sObjects>".toList := by
  refine passesOver_cons recordBlock_opensWith (by decide) ?_
  intro rest
  rfl

/-- Records of texts, written as a document, are the records that the document is read as,
whatever markup, entities and line breaks their texts hold. -/
theorem records_read_back {records : List (List (String × String))}
    (h : ∀ fields ∈ records, Writable fields) :
    parseRecords (Document.ofRecords records).finish.toList = records.map textRecord := by
  have hblocks : findAll recordBlock (Document.ofRecords records).finish.toList =
      records.map blockText := by
    rw [Document.toList_ofRecords, List.append_assoc, recordBlock_passesOver_head.findAll_append,
      findAll_flatMap fun fields hfields => findAll_recordText (h fields hfields),
      recordBlock_passesOver_tail.findAll_eq_nil, List.append_nil]
  have hrecords : (records.map blockText).map recordOfBlock = records.map textRecord := by
    rw [List.map_map]
    exact List.map_congr_left fun fields hfields => recordOfBlock_blockText (h fields hfields)
  rw [parseRecords, hblocks, hrecords]
  -- no record is without fields, so none is left out
  refine List.filter_eq_self.mpr ?_
  rw [List.forall_mem_map]
  intro fields hfields
  simpa [textRecord] using (h fields hfields).filled

/-- Texts with markup, entities and closing tags in them are read as they are, and so is a field
whose name begins as the tag of records does. -/
theorem awkward_records_read_back :
    parseRecords (Document.ofRecords [
      [("Name", "Tom & \"Jerry\" &lt;\n</sObject>"), ("sObjects", "")],
      [("_x1", "it's <Name>&amp;amp;</Name>")]]).finish.toList =
    [⟨[("Name", .text "Tom & \"Jerry\" &lt;\n</sObject>"), ("sObjects", .text "")]⟩,
      ⟨[("_x1", .text "it's <Name>&amp;amp;</Name>")]⟩] :=
  records_read_back (by decide)

end Xml

end CrmEmulator
