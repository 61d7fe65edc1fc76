import StaticSemantics.Proofs.Constant.Whole
import StaticSemantics.Proofs.Numeric.Exact

/-!
Integer division of constants. Both operands must be whole numbers, whatever their kinds. What is
divided is the number within 64 bits nearest to each, so the quotient is the truncated one as long
as both operands lie within 64 bits; beyond, an operand is replaced where a coercion would fail.
-/

namespace StaticSemantics

/-- The number within 64 bits nearest to a whole number. -/
def withinWord (i : Int) : Int := max longMin (min longMax i)

theorem withinWord_of_holds {i : Int} (h : NumericKind.long.Holds i) : withinWord i = i := by
  obtain ⟨hlow, hhigh⟩ := h
  unfold withinWord
  omega

theorem withinWord_eq_zero_iff {i : Int} : withinWord i = 0 ↔ i = 0 := by
  unfold withinWord longMin longMax
  omega

namespace Constant

/-- The number that a constant stands for in arithmetic, in which characters take no part. -/
def rational? : Constant → Option ℚ
  | byte n => some n.toNat
  | integer n => some n.toInt
  | long n => some n.toInt
  | single x => x.rational?
  | double x | decimal x => x.rational?
  | _ => none

/-- The common kind of two constants in arithmetic. -/
def commonKind? (c d : Constant) : Option NumericKind :=
  c.kind?.bind fun k => d.kind?.bind k.promote

end Constant

theorem WholeConstant.rational?_constant (a : WholeConstant) :
    a.constant.rational? = some (a.int : ℚ) := by
  cases a with
  | byte n => exact congrArg some (Int.cast_natCast n.toNat).symm
  | integer | long => rfl

namespace Folding

variable {c d : Constant} {k l : NumericKind} {x : Double} {z : Int}

theorem divisionOperand?_float :
    divisionOperand? (.float x) = some z ↔ ∃ i : Int, x.rational? = some ↑i ∧ withinWord i = z := by
  unfold divisionOperand?
  rw [Option.map_eq_some_iff]
  refine exists_congr fun i => ?_
  rw [Binary.toInt?_eq_some_iff]
  refine and_congr_right fun hi => ?_
  rw [wordOf, Binary.clampToInt_of_rational? _ _ hi]
  rfl

/-- What an operand of an integer division counts as. -/
theorem divisionOperand?_of_kind? (hk : c.kind? = some k) (hchar : k ≠ .char) :
    ∃ n, c.number? = some n ∧ ∀ z, divisionOperand? n = some z ↔
      ∃ i : Int, c.rational? = some ↑i ∧ withinWord i = z := by
  have whole : ∀ a : WholeConstant, ∃ n, a.constant.number? = some n ∧ ∀ z,
      divisionOperand? n = some z ↔
        ∃ i : Int, a.constant.rational? = some ↑i ∧ withinWord i = z := by
    intro a
    refine ⟨.int a.int, a.number?_constant, fun z => ?_⟩
    have hword := withinWord_of_holds (a.holds.long a.isWhole_kind)
    simp [divisionOperand?, a.rational?_constant, hword]
  cases c with
  | byte n => exact whole (.byte n)
  | integer n => exact whole (.integer n)
  | long n => exact whole (.long n)
  | single x =>
      refine ⟨_, rfl, fun z => ?_⟩
      rw [divisionOperand?_float, Binary.rational?_convert Format.single_within_double]
      rfl
  | double x | decimal x => exact ⟨_, rfl, fun z => divisionOperand?_float⟩
  | char => cases hk; exact absurd rfl hchar
  | empty | nothing | null | string | boolean | enum => cases hk

theorem commonKind?_eq_some {m : NumericKind} (h : c.commonKind? d = some m) :
    ∃ k l, c.kind? = some k ∧ d.kind? = some l ∧ k ≠ .char ∧ l ≠ .char ∧ m ≠ .char := by
  obtain ⟨k, hk, h⟩ := Option.bind_eq_some_iff.mp h
  obtain ⟨l, hl, h⟩ := Option.bind_eq_some_iff.mp h
  unfold NumericKind.promote at h
  split at h
  · cases h
  · rename_i hchar
    rw [not_or] at hchar
    refine ⟨k, l, hk, hl, hchar.1, hchar.2, ?_⟩
    cases h
    unfold NumericKind.wider
    split
    · exact hchar.2
    · exact hchar.1

/-- The kind of a quotient, by the common kind of the operands. -/
def quotientKind (k : NumericKind) : NumericKind := if k.isIntegral then k else .long

theorem isWhole_quotientKind (hk : k ≠ .char) : (quotientKind k).isWhole := by
  cases k with
  | byte | integer | long | single | double | decimal => rfl
  | char => exact absurd rfl hk

theorem arithmetic?_integerDivide : arithmetic? .integerDivide c d =
    (c.commonKind? d).bind fun k => c.number?.bind fun a => d.number?.bind fun b =>
      (divisionOperand? a).bind fun i => (divisionOperand? b).bind fun j =>
        if j = 0 then none else integralResult? (i.tdiv j) (quotientKind k) := by
  unfold arithmetic? Constant.commonKind?
  cases c.kind? with
  | none => rfl
  | some k =>
      cases d.kind? with
      | none => rfl
      | some l => rfl

/-- There is a quotient exactly if both operands are whole and the divisor is not zero, and the
quotient of what they count as fits. -/
theorem integerDivide_eq_some_iff {v : Value} : arithmetic? .integerDivide c d = some v ↔
    ∃ m, c.commonKind? d = some m ∧ ∃ i j : Int, c.rational? = some ↑i ∧ d.rational? = some ↑j ∧
      j ≠ 0 ∧ v.IsWhole (quotientKind m) ((withinWord i).tdiv (withinWord j)) := by
  rw [arithmetic?_integerDivide, Option.bind_eq_some_iff]
  refine exists_congr fun m => and_congr_right fun hm => ?_
  obtain ⟨k, l, hk, hl, hkc, hlc, hmc⟩ := commonKind?_eq_some hm
  obtain ⟨a, ha, hleft⟩ := divisionOperand?_of_kind? hk hkc
  obtain ⟨b, hb, hright⟩ := divisionOperand?_of_kind? hl hlc
  simp only [ha, hb, Option.bind_some, Option.bind_eq_some_iff, hleft, hright]
  constructor
  · rintro ⟨_, ⟨i, hi, rfl⟩, _, ⟨j, hj, rfl⟩, hv⟩
    split at hv
    · cases hv
    · rename_i hzero
      rw [withinWord_eq_zero_iff] at hzero
      exact ⟨i, j, hi, hj, hzero, (integralResult?_eq_some_iff (isWhole_quotientKind hmc)).mp hv⟩
  · rintro ⟨i, j, hi, hj, hzero, hv⟩
    refine ⟨_, ⟨i, hi, rfl⟩, _, ⟨j, hj, rfl⟩, ?_⟩
    rw [if_neg (withinWord_eq_zero_iff.not.mpr hzero)]
    exact (integralResult?_eq_some_iff (isWhole_quotientKind hmc)).mpr hv

/-- A double is coerced to a long exactly if it is a whole number within 64 bits. -/
theorem toKind?_long_eq_some_iff {e : Constant} : (Number.float x).toKind? .long = some e ↔
    ∃ i : Int, x.rational? = some ↑i ∧ NumericKind.long.Holds i ∧ e = .long (.ofInt i) := by
  show x.toInt?.bind NumericKind.long.ofInt? = some e ↔ _
  rw [Option.bind_eq_some_iff]
  refine exists_congr fun i => ?_
  rw [Binary.toInt?_eq_some_iff]
  refine and_congr_right fun _ => ?_
  unfold NumericKind.ofInt?
  split <;> simp_all [eq_comm]

/-- An operand of a division and a coercion are the same number, unless the number is whole and
beyond 64 bits. -/
theorem divisionOperand?_agrees_iff :
    (divisionOperand? (.float x)).map (fun i => Constant.long (.ofInt i)) =
        (Number.float x).toKind? .long ↔
      ∀ i : Int, x.rational? = some ↑i → NumericKind.long.Holds i := by
  constructor
  · intro h i hi
    have hoperand := divisionOperand?_float.mpr ⟨i, hi, rfl⟩
    rw [hoperand, Option.map_some] at h
    obtain ⟨j, hj, hholds, -⟩ := toKind?_long_eq_some_iff.mp h.symm
    rw [hi, Option.some.injEq, Int.cast_inj] at hj
    rwa [hj]
  · intro h
    refine Option.ext fun e => ?_
    rw [toKind?_long_eq_some_iff, Option.map_eq_some_iff]
    simp only [divisionOperand?_float]
    constructor
    · rintro ⟨_, ⟨i, hi, rfl⟩, rfl⟩
      rw [withinWord_of_holds (h i hi)]
      exact ⟨i, hi, h i hi, rfl⟩
    · rintro ⟨i, hi, hholds, rfl⟩
      exact ⟨i, ⟨i, hi, withinWord_of_holds hholds⟩, rfl⟩

/-- An integer division of constants succeeds exactly if both are whole numbers, the divisor is not
zero and the quotient of the two, each taken to the nearest number within 64 bits, fits the kind of
the result. So the result is the truncated quotient if both lie within 64 bits. An operand is what a
coercion to a long would make of it exactly if it is no whole number beyond 64 bits. -/
theorem integerDivision_folded (w : SymbolTable) (c d : Constant) (t u : TypeId) :
    let quotient := binary? w .integerDivide (.constant c t) (.constant d u)
    (∀ v, quotient = some v ↔ ∃ k, c.commonKind? d = some k ∧ ∃ i j : Int,
      c.rational? = some ↑i ∧ d.rational? = some ↑j ∧ j ≠ 0 ∧
        v.IsWhole (quotientKind k) ((withinWord i).tdiv (withinWord j))) ∧
    (∀ v, quotient = some v → ∀ i j : Int, c.rational? = some ↑i → d.rational? = some ↑j →
      NumericKind.long.Holds i → NumericKind.long.Holds j → ∃ k, v.IsWhole k (i.tdiv j)) ∧
    ∀ x : Double, (divisionOperand? (.float x)).map (fun i => Constant.long (.ofInt i)) =
        (Constant.double x).coerce? .long ↔
      ∀ i : Int, x.rational? = some ↑i → NumericKind.long.Holds i := by
  intro quotient
  refine ⟨fun v => integerDivide_eq_some_iff, fun v hv i j hi hj hholds hholds' => ?_,
    fun x => divisionOperand?_agrees_iff⟩
  obtain ⟨k, -, i', j', hi', hj', -, hwhole⟩ := integerDivide_eq_some_iff.mp hv
  rw [hi, Option.some.injEq, Int.cast_inj] at hi'
  rw [hj, Option.some.injEq, Int.cast_inj] at hj'
  subst hi' hj'
  rw [withinWord_of_holds hholds, withinWord_of_holds hholds'] at hwhole
  exact ⟨_, hwhole⟩

/-- A double beyond 64 bits is divided as the greatest long, though no coercion takes it. -/
theorem integerDivision_folded_beyond :
    let beyond : Double := .ofInt (2 ^ 63)
    let seven : Single := .ofInt 7
    beyond.rational? = some ((2 ^ 63 : Int) : ℚ) ∧
      (Constant.double beyond).coerce? .long = none ∧
      binary? {} .integerDivide (.constant (.double beyond) .double)
        (.constant (.integer 1) .integer) = some (.constant (.long 9223372036854775807) .long) ∧
      binary? {} .integerDivide (.constant (.single seven) .single) (.constant (.byte 2) .byte) =
        some (.constant (.long 3) .long) ∧
      ∃ k, (Value.constant (.long 3) .long).IsWhole k (Int.tdiv 7 2) := by
  intro beyond seven
  have hdivides : binary? {} .integerDivide (.constant (.single seven) .single)
      (.constant (.byte 2) .byte) = some (.constant (.long 3) .long) := by decide +kernel
  refine ⟨by decide +kernel, by decide +kernel, by decide +kernel, hdivides, ?_⟩
  exact (integerDivision_folded {} (.single seven) (.byte 2) .single .byte).2.1 _ hdivides 7 2
    (by decide +kernel) (by decide +kernel) (by decide) (by decide)

end Folding
end StaticSemantics
