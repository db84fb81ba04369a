import CrmEmulator.Proofs.Query.Equality
import CrmEmulator.Proofs.Value.Order

/-!
# CrmEmulator.Proofs.Query.Integers — comparisons of integers

Equality compares the texts of two integers, and the ordering operators compare the doubles that
they are rounded to.

1. What the operators ask of an integer.  Equality is exact; the ordering operators are exact for
   integers that do not round alike.
2. Two integers that do are neither smaller, nor equal, nor greater.
-/

namespace CrmEmulator

/-- Integers with one text are equal. -/
theorem Value.int64Text_inj {a n : Int64} : int64Text a = int64Text n ↔ a = n := by
  refine ⟨fun h => ?_, fun h => h ▸ rfl⟩
  have hread := Numeral.int64?_int64Text a
  rw [h, Numeral.int64?_int64Text] at hread
  exact (Option.some.inj hread).symm

/-! ## Operators -/

namespace Condition

variable {field : String} {r : Record} {a n : Int64}

theorem getOrNull_of_get? {v : Value} (h : r.get? field = some v) : r.getOrNull field = v := by
  rw [Record.getOrNull, h, Option.getD_some]

theorem holds_eq_integer (h : r.get? field = some (.integer a)) :
    (⟨field, .eq, .value (.integer n)⟩ : Condition).holds r ↔ a = n := by
  rw [holds_eq, getOrNull_of_get? h]
  exact Value.int64Text_inj

/-- An ordering operator is asked of the doubles that the integers are rounded to. -/
theorem holds_ordering {op : CompareOp} (hop : op ∈ [.lt, .le, .gt, .ge])
    (h : r.get? field = some (.integer a)) :
    (⟨field, op, .value (.integer n)⟩ : Condition).holds r =
      op.holdsOf (Double.ofInt a.toInt) (Double.ofInt n.toInt) := by
  rw [holds, getOrNull_of_get? h]
  simp only [List.mem_cons, List.not_mem_nil, or_false] at hop
  rcases hop with rfl | rfl | rfl | rfl <;> rfl

theorem holds_lt_integer (h : r.get? field = some (.integer a)) :
    (⟨field, .lt, .value (.integer n)⟩ : Condition).holds r ↔ a < n ∧ ¬Value.RoundAlike a n := by
  rw [holds_ordering (by simp) h, ← Value.place_integer_lt_iff]
  exact Double.lt_iff (Double.isNaN_ofInt _) (Double.isNaN_ofInt _)

theorem holds_gt_integer (h : r.get? field = some (.integer a)) :
    (⟨field, .gt, .value (.integer n)⟩ : Condition).holds r ↔ n < a ∧ ¬Value.RoundAlike a n := by
  rw [holds_ordering (by simp) h, Value.roundAlike_comm, ← Value.place_integer_lt_iff]
  exact Double.lt_iff (Double.isNaN_ofInt _) (Double.isNaN_ofInt _)

/-- At most is not greater. -/
theorem holds_le_integer (h : r.get? field = some (.integer a)) :
    (⟨field, .le, .value (.integer n)⟩ : Condition).holds r ↔
      ¬(⟨field, .gt, .value (.integer n)⟩ : Condition).holds r := by
  rw [holds_gt_integer h, Value.roundAlike_comm, ← Value.place_integer_lt_iff, Int.not_lt,
    holds_ordering (by simp) h]
  exact Double.le_iff (Double.isNaN_ofInt _) (Double.isNaN_ofInt _)

/-- At least is not less. -/
theorem holds_ge_integer (h : r.get? field = some (.integer a)) :
    (⟨field, .ge, .value (.integer n)⟩ : Condition).holds r ↔
      ¬(⟨field, .lt, .value (.integer n)⟩ : Condition).holds r := by
  rw [holds_lt_integer h, ← Value.place_integer_lt_iff, Int.not_lt, holds_ordering (by simp) h]
  exact Double.le_iff (Double.isNaN_ofInt _) (Double.isNaN_ofInt _)

/-! ## Literals -/

/-- An integer literal, whatever its sign and leading zeros, is compared with an integer field.
Equality and the two negations are exact, and so are the strict orders but for two integers that
round alike: of these, one is beyond `2 ^ 53`, and they are neither smaller, nor equal, nor
greater. -/
theorem integers_compare_but_for_rounding {field : String} (hfield : Token.isName field)
    {word : String} {n : Int64} (hword : Numeral.int64? word.toList = some n) :
    ∃ below equal above atMost atLeast : Condition,
      below.IsReadFrom [.word field, .op "<", .word word] ∧
      equal.IsReadFrom [.word field, .op "=", .word word] ∧
      above.IsReadFrom [.word field, .op ">", .word word] ∧
      atMost.IsReadFrom [.word field, .op "<=", .word word] ∧
      atLeast.IsReadFrom [.word field, .op ">=", .word word] ∧
      ∀ (r : Record) (a : Int64), r.get? field = some (.integer a) →
        (equal.holds r ↔ a = n) ∧
        (below.holds r ↔ a < n ∧ ¬Value.RoundAlike a n) ∧
        (above.holds r ↔ n < a ∧ ¬Value.RoundAlike a n) ∧
        (atMost.holds r ↔ ¬above.holds r) ∧ (atLeast.holds r ↔ ¬below.holds r) ∧
        (¬(below.holds r ∨ equal.holds r ∨ above.holds r) ↔ a ≠ n ∧ Value.RoundAlike a n) ∧
        (a ≠ n → Value.RoundAlike a n →
          Double.exactBound < a.toInt.natAbs ∨ Double.exactBound < n.toInt.natAbs) := by
  have hvalue : (Soql.Literal.bare word).value = .integer n := Token.literalOfWord_of_int64? hword
  have hread {symbol : String} {op : CompareOp} (hop : CompareOp.ofSymbol? symbol = some op) :
      (⟨field, op, .value (.integer n)⟩ : Condition).IsReadFrom
        [.word field, .op symbol, .word word] :=
    hvalue ▸ isReadFrom_literal hfield hop (.bare word)
  refine ⟨_, _, _, _, _, hread rfl, hread rfl, hread rfl, hread rfl, hread rfl, ?_⟩
  intro r a ha
  refine ⟨holds_eq_integer ha, holds_lt_integer ha, holds_gt_integer ha, holds_le_integer ha,
    holds_ge_integer ha, ?_, ?_⟩
  · rw [holds_lt_integer ha, holds_eq_integer ha, holds_gt_integer ha]
    constructor
    · -- a different integer is below or above, unless it is rounded to the same double
      intro hnone
      have hne : a ≠ n := fun heq => hnone (.inr (.inl heq))
      refine ⟨hne, Classical.byContradiction fun hapart => ?_⟩
      rcases Int64.lt_or_lt_of_ne hne with hlt | hgt
      · exact hnone (.inl ⟨hlt, hapart⟩)
      · exact hnone (.inr (.inr ⟨hgt, hapart⟩))
    · rintro ⟨hne, halike⟩ (⟨-, hapart⟩ | heq | ⟨-, hapart⟩)
      · exact hapart halike
      · exact hne heq
      · exact hapart halike
  · exact fun hne halike => halike.beyond hne

/-- Two integers beyond `2 ^ 53` that are rounded to different doubles. -/
theorem distant_sizes_compare_exactly :
    ∃ below equal above atMost atLeast : Condition,
      below.IsReadFrom [.word "Size", .op "<", .word "+09007199254740995"] ∧
      equal.IsReadFrom [.word "Size", .op "=", .word "+09007199254740995"] ∧
      above.IsReadFrom [.word "Size", .op ">", .word "+09007199254740995"] ∧
      atMost.IsReadFrom [.word "Size", .op "<=", .word "+09007199254740995"] ∧
      atLeast.IsReadFrom [.word "Size", .op ">=", .word "+09007199254740995"] ∧
      ∀ r : Record, r.get? "Size" = some (.integer 9007199254740993) →
        below.holds r ∧ ¬equal.holds r ∧ ¬above.holds r ∧ atMost.holds r ∧ ¬atLeast.holds r := by
  have hapart : ¬Value.RoundAlike 9007199254740993 9007199254740995 := by decide +kernel
  obtain ⟨below, equal, above, atMost, atLeast, hbelow, hequal, habove, hatMost, hatLeast, hlaw⟩ :=
    integers_compare_but_for_rounding (show Token.isName "Size" by decide)
      (show Numeral.int64? "+09007199254740995".toList = some 9007199254740995 by decide)
  refine ⟨below, equal, above, atMost, atLeast, hbelow, hequal, habove, hatMost, hatLeast, ?_⟩
  intro r hr
  obtain ⟨heq, hlt, hgt, hle, hge, -, -⟩ := hlaw r _ hr
  have hholds : below.holds r := hlt.mpr ⟨by decide, hapart⟩
  have hnot : ¬above.holds r := fun h => absurd (hgt.mp h).1 (by decide)
  exact ⟨hholds, mt heq.mp (by decide), hnot, hle.mpr hnot, fun h => hge.mp h hholds⟩

/-- A record with the last integer up to which all are doubles. -/
def sized : Record := ⟨[("Size", .integer 9007199254740992)]⟩

/-- The next integer is rounded to it: the size is neither smaller, nor equal, nor greater. -/
theorem next_size_is_not_told_apart :
    (9007199254740992 : Int64) < 9007199254740993 ∧
    (Soql.parse "SELECT Size FROM A WHERE Size < 9007199254740993").toOption.map
      (·.rows [sized]) = some [] ∧
    (Soql.parse "SELECT Size FROM A WHERE Size = 9007199254740993").toOption.map
      (·.rows [sized]) = some [] ∧
    (Soql.parse "SELECT Size FROM A WHERE Size > 9007199254740993").toOption.map
      (·.rows [sized]) = some [] := by
  decide +kernel

end Condition

end CrmEmulator
