import CrmEmulator.Proofs.Record
import CrmEmulator.Schema.Validation

/-!
# CrmEmulator.Proofs.Schema.Validation — what an accepted record has passed

1. Each rule, by the fields and values that pass it.
2. `violations_eq_nil`: a record is accepted exactly when no required field is missing, and every
   defined field that is written either clears an optional field or passes all rules.
3. A field that the schema does not define has no part in the violations.
-/

namespace CrmEmulator

namespace FieldDef

/-! ## Rules -/

/-- May the field be written? -/
def isWritable (mode : WriteMode) (d : FieldDef) : Bool :=
  match mode with
  | .create => d.createable
  | .update => d.updateable

/-- A value that the definition of its field allows. -/
structure Allows (d : FieldDef) (value : Value) : Prop where
  /-- A restricted picklist holds null or one of its values. -/
  picked : d.isRestrictedPicklist → value = .null ∨ ∃ s ∈ d.values, value = .text s
  /-- A text is no longer than the greatest length, if there is one. -/
  short : ∀ max s, d.maxLength = some max → 0 < max → value = .text s → s.toList.length ≤ max

theorem allows_null (d : FieldDef) : d.Allows .null where
  picked _ := .inl rfl
  short := nofun

end FieldDef

namespace Value

theorem isNull_eq_true {value : Value} : value.isNull ↔ value = .null := by
  cases value <;> simp [isNull]

theorem text?_eq_some {value : Value} {s : String} : value.text? = some s ↔ value = .text s := by
  cases value <;> simp [text?]

end Value

namespace FieldRule

variable {mode : WriteMode} {name : String} {d : FieldDef} {value : Value}

theorem checkAccess_eq_pass : checkAccess mode name d = .pass ↔ d.isWritable mode := by
  cases mode <;> simp [checkAccess, FieldDef.isWritable]

theorem checkPicklist_eq_pass : checkPicklist name d value = .pass ↔
    (d.isRestrictedPicklist → value = .null ∨ ∃ s ∈ d.values, value = .text s) := by
  by_cases hrestricted : d.isRestrictedPicklist <;> cases value <;>
    simp [checkPicklist, hrestricted, Value.isNull, Value.text?]

/-- The third rule passes exactly for texts within the limit. -/
theorem checkMaxLength_eq_pass : checkMaxLength name d value = .pass ↔
    ∀ max s, d.maxLength = some max → 0 < max → value = .text s → s.toList.length ≤ max := by
  unfold checkMaxLength
  split
  · next max s hmax hs =>
    rw [Value.text?_eq_some] at hs
    by_cases hfits : max = 0 ∨ s.toList.length ≤ max
    · simp only [hfits, if_true, true_iff]
      rintro _ _ hmax' hpos hs'
      obtain rfl : max = _ := Option.some.inj (hmax.symm.trans hmax')
      obtain rfl : s = _ := Value.text.inj (hs.symm.trans hs')
      omega
    · simp only [hfits, if_false, reduceCtorEq, false_iff]
      intro h
      exact hfits (.inr (h max s hmax (by omega) hs))
  · next hnone =>
    simp only [true_iff]
    intro max s hmax _ hs
    exact (hnone max s hmax (Value.text?_eq_some.mpr hs)).elim

end FieldRule

namespace Schema

/-! ## Accepted records -/

section

variable {mode : WriteMode} {name : String} {d : FieldDef} {value : Value}

/-- A field has no violations exactly if all rules pass. -/
theorem fieldViolations_eq_nil {rules : List FieldRule} :
    fieldViolations mode name d value rules = [] ↔
      ∀ rule ∈ rules, rule.check mode name d value = .pass := by
  induction rules with
  | nil => simp [fieldViolations]
  | cons rule rules ih =>
    cases h : rule.check mode name d value <;> simp [fieldViolations, h, ih]

/-- Under the standard rules: if it is writable and its definition allows the value. -/
theorem fieldViolations_standard_eq_nil :
    fieldViolations mode name d value FieldRule.standard = [] ↔
      d.isWritable mode ∧ d.Allows value := by
  rw [fieldViolations_eq_nil]
  simp only [FieldRule.standard, FieldRule.check, List.forall_mem_cons, List.not_mem_nil,
    false_imp_iff, implies_true, and_true, FieldRule.checkAccess_eq_pass,
    FieldRule.checkPicklist_eq_pass, FieldRule.checkMaxLength_eq_pass]
  exact and_congr_right fun _ => ⟨fun h => ⟨h.1, h.2⟩, fun h => ⟨h.picked, h.short⟩⟩

/-- A defined field that is written: an optional field is cleared, or all rules are passed. -/
theorem writtenFieldViolations_eq_nil {s : Schema} :
    s.writtenFieldViolations FieldRule.standard mode name value = [] ↔
      ∀ d, s.field? name = some d →
        (value = .null ∧ d.required = false) ∨ (d.isWritable mode ∧ d.Allows value) := by
  unfold writtenFieldViolations
  cases s.field? name with
  | none => simp
  | some d =>
    simp only [Option.some.injEq, forall_eq']
    split
    · next hskip => simpa [Value.isNull_eq_true] using Or.inl hskip
    · next hskip =>
      rw [fieldViolations_standard_eq_nil]
      refine (or_iff_right fun hnull => hskip ?_).symm
      simpa [Value.isNull_eq_true] using hnull

end

/-- A record is accepted exactly when no required field is missing and every field passes. -/
theorem violations_eq_nil {s : Schema} {mode : WriteMode} {r : Record} :
    s.violations mode r = [] ↔
      (mode = .create → s.missingFields r = []) ∧
        ∀ name value, (name, value) ∈ r.fields → ∀ d, s.field? name = some d →
          (value = .null ∧ d.required = false) ∨ (d.isWritable mode ∧ d.Allows value) := by
  simp only [violations, violationsBy, List.append_eq_nil_iff, List.flatMap_eq_nil_iff,
    writtenFieldViolations_eq_nil, Prod.forall]
  refine and_congr_left fun _ => ?_
  split <;> simp_all

/-- Whatever is written to a defined field is allowed there. -/
theorem allows_of_violations_eq_nil {s : Schema} {mode : WriteMode} {r : Record}
    (h : s.violations mode r = []) {name : String} {value : Value}
    (hfield : (name, value) ∈ r.fields) {d : FieldDef} (hd : s.field? name = some d) : d.Allows value := by
  rcases (violations_eq_nil.mp h).2 name value hfield d hd with ⟨rfl, -⟩ | ⟨-, hallows⟩
  · exact d.allows_null
  · exact hallows

/-! ## Fields that are not defined -/

theorem field?_eq_none {s : Schema} {name : String} (h : name ∉ s.fieldNames) :
    s.field? name = none := by
  simp only [fieldNames, List.mem_map, not_exists, not_and] at h
  simpa [field?] using fun key d hmem => h (key, d) hmem

/-- A field that is not defined has no violations. -/
theorem writtenFieldViolations_of_not_mem {s : Schema} {name : String} (h : name ∉ s.fieldNames)
    (rules : List FieldRule) (mode : WriteMode) (value : Value) :
    s.writtenFieldViolations rules mode name value = [] := by
  simp [writtenFieldViolations, field?_eq_none h]

/-- It makes no difference whether a field is sent that the schema does not define. -/
theorem violations_filter {s : Schema} {name : String} (h : name ∉ s.fieldNames) (mode : WriteMode)
    (r : Record) : s.violations mode ⟨r.fields.filter (·.1 != name)⟩ = s.violations mode r := by
  have hmissing : s.missingFields ⟨r.fields.filter (·.1 != name)⟩ = s.missingFields r := by
    unfold missingFields
    congr 1
    refine List.filter_congr fun field hfield => ?_
    -- only defined fields can be missing, and the one left out is not defined
    have hne : field.1 ≠ name := fun he => h (he ▸ List.mem_map_of_mem hfield)
    simp [Record.getOrNull, Record.get?, Record.lookup_filter, hne]
  have hwritten : (r.fields.filter (·.1 != name)).flatMap (fun field =>
      s.writtenFieldViolations FieldRule.standard mode field.1 field.2) =
        r.fields.flatMap fun field =>
          s.writtenFieldViolations FieldRule.standard mode field.1 field.2 := by
    induction r.fields with
    | nil => rfl
    | cons field fields ih =>
      rcases field with ⟨key, value⟩
      by_cases hkey : key = name
      · subst hkey
        simp [ih, writtenFieldViolations_of_not_mem h]
      · simp [hkey, ih]
  simp only [violations, violationsBy, hmissing]
  exact congrArg (_ ++ ·) hwritten

end Schema

end CrmEmulator
