import StaticSemantics.Numeric.Binary

/-!
Readings of binary numbers. A number that is no NaN is known by its reading; so numerical equality
tells two numbers apart exactly if their bits differ, the two zeros and NaNs aside.
-/

namespace StaticSemantics

namespace Binary

variable {f : Format} {x y : Binary f}

/-! ## Bits from readings -/

theorem leading_pos (f : Format) : 0 < f.leading := Nat.pow_pos (by decide)

theorem bits_lt (x : Binary f) : x.bits.toNat < 2 * f.signWeight := by
  have hlt : x.bits.toNat < Nat.pow 2 f.width := x.bits.isLt
  have hwidth : Nat.pow 2 f.width = 2 * f.signWeight := by
    rw [Format.width, Nat.add_assoc]
    exact Nat.pow_add 2 1 _
  rwa [hwidth] at hlt

theorem eq_of_fields (hs : x.negative = y.negative) (he : x.exponentField = y.exponentField)
    (hf : x.fractionField = y.fractionField) : x = y := by
  have hm : x.magnitude = y.magnitude := by
    rw [← Nat.div_add_mod x.magnitude f.leading, ← Nat.div_add_mod y.magnitude f.leading]
    change f.leading * x.exponentField + x.fractionField =
      f.leading * y.exponentField + y.fractionField
    rw [he, hf]
  have hx := x.bits_lt
  have hy := y.bits_lt
  have hbits : x.bits.toNat = y.bits.toNat := by
    simp only [negative, decide_eq_decide] at hs
    simp only [magnitude] at hm
    by_cases hn : f.signWeight ≤ x.bits.toNat
    · rw [Nat.mod_eq_sub_mod hn, Nat.mod_eq_sub_mod (hs.mp hn), Nat.mod_eq_of_lt (by omega),
        Nat.mod_eq_of_lt (by omega)] at hm
      have := hs.mp hn
      omega
    · have hn' : ¬ f.signWeight ≤ y.bits.toNat := fun h => hn (hs.mpr h)
      rwa [Nat.mod_eq_of_lt (by omega), Nat.mod_eq_of_lt (by omega)] at hm
  obtain ⟨bx⟩ := x
  obtain ⟨b⟩ := y
  exact congrArg mk (BitVec.eq_of_toNat_eq hbits)

/-- The magnitude of a finite number, in units. -/
def units (x : Binary f) : Nat := x.significand * Nat.pow 2 x.lastPlace

theorem units_lt (x : Binary f) : x.units < f.leading * Nat.pow 2 x.exponentField := by
  have hf : x.fractionField < f.leading := Nat.mod_lt _ (leading_pos f)
  unfold units significand lastPlace
  split
  · rename_i he
    simpa [he] using hf
  · rename_i he
    obtain ⟨n, hn⟩ := Nat.exists_eq_succ_of_ne_zero he
    have hpow : Nat.pow 2 n.succ = 2 * Nat.pow 2 n := Nat.mul_comm (Nat.pow 2 n) 2
    rw [hn, hpow, ← Nat.mul_assoc]
    exact Nat.mul_lt_mul_of_pos_right (by omega) (Nat.pow_pos (by decide))

theorem le_units (he : 0 < x.exponentField) :
    f.leading * Nat.pow 2 (x.exponentField - 1) ≤ x.units := by
  unfold units significand lastPlace
  rw [if_neg (by omega)]
  exact Nat.mul_le_mul_right _ (Nat.le_add_right _ _)

/-- A larger exponent field makes a larger number, whatever the fractions are. -/
theorem units_lt_units (h : x.exponentField < y.exponentField) : x.units < y.units := by
  have hpow : Nat.pow 2 x.exponentField ≤ Nat.pow 2 (y.exponentField - 1) :=
    Nat.pow_le_pow_right (by decide) (by omega)
  calc x.units < f.leading * Nat.pow 2 x.exponentField := x.units_lt
    _ ≤ f.leading * Nat.pow 2 (y.exponentField - 1) := Nat.mul_le_mul_left _ hpow
    _ ≤ y.units := le_units (by omega)

theorem fields_of_units (h : x.units = y.units) :
    x.exponentField = y.exponentField ∧ x.fractionField = y.fractionField := by
  have he : x.exponentField = y.exponentField := by
    rcases Nat.lt_trichotomy x.exponentField y.exponentField with hlt | he | hlt
    · exact absurd h (Nat.ne_of_lt (units_lt_units hlt))
    · exact he
    · exact absurd h.symm (Nat.ne_of_lt (units_lt_units hlt))
  refine ⟨he, ?_⟩
  unfold units significand lastPlace at h
  rw [he] at h
  have hs := Nat.eq_of_mul_eq_mul_right (Nat.pow_pos (by decide)) h
  split at hs <;> omega

theorem read_eq_infinite_iff {s : Bool} : x.read = .infinite s ↔
    x.exponentField = f.topExponent ∧ x.fractionField = 0 ∧ x.negative = s := by
  unfold read
  split
  · split <;> simp_all
  · simp_all

theorem read_eq_finite_iff {s : Bool} {n : Nat} : x.read = .finite s n ↔
    x.exponentField ≠ f.topExponent ∧ x.negative = s ∧ x.units = n := by
  unfold read
  split
  · split <;> simp_all
  · simp_all [units]

/-- A number that is no NaN is known by its reading. -/
theorem eq_of_read (h : x.read = y.read) (hn : x.read ≠ .nan) : x = y := by
  cases hx : x.read with
  | nan => exact absurd hx hn
  | infinite s =>
      obtain ⟨he, hf, hs⟩ := read_eq_infinite_iff.mp hx
      obtain ⟨he', hf', hs'⟩ := read_eq_infinite_iff.mp (h ▸ hx)
      exact eq_of_fields (hs.trans hs'.symm) (he.trans he'.symm) (hf.trans hf'.symm)
  | finite s n =>
      obtain ⟨_, hs, hu⟩ := read_eq_finite_iff.mp hx
      obtain ⟨_, hs', hu'⟩ := read_eq_finite_iff.mp (h ▸ hx)
      obtain ⟨he, hf⟩ := fields_of_units (hu.trans hu'.symm)
      exact eq_of_fields (hs.trans hs'.symm) he hf

/-! ## Numerical equality -/

theorem signed_eq_signed_iff {s t : Bool} {m n : Nat} :
    signed s m = signed t n ↔ (s = t ∧ m = n) ∨ (m = 0 ∧ n = 0) := by
  unfold signed
  cases s <;> cases t <;> simp <;> omega

theorem isZero_iff : x.isZero = true ↔ ∃ s, x.read = .finite s 0 := by
  unfold isZero
  split <;> simp_all

/-- A number that is no NaN is equal to those with the same bits and, if it is zero, to both
zeros. -/
theorem equal_iff (hx : x.isNaN = false) :
    x.equal y = true ↔ x = y ∨ (x.isZero = true ∧ y.isZero = true) := by
  have hread : x = y ↔ x.read = y.read := by
    refine ⟨congrArg read, fun h => eq_of_read h fun hn => ?_⟩
    simp [isNaN, hn] at hx
  rw [hread, isZero_iff, isZero_iff]
  unfold equal compare?
  cases hrx : x.read with
  | nan => simp [isNaN, hrx] at hx
  | infinite s =>
      cases hry : y.read with
      | nan => simp
      | infinite t => cases s <;> cases t <;> simp
      | finite t n => cases s <;> simp
  | finite s m =>
      cases hry : y.read with
      | nan => simp
      | infinite t => cases t <;> simp
      | finite t n => simp [signed_eq_signed_iff]

/-- The number itself, or the positive zero for either zero. -/
def unsignZero (x : Binary f) : Binary f := if x.isZero then zero false else x

theorem unsignZero_eq_iff (hz : (zero false : Binary f).isZero = true) :
    x.unsignZero = y.unsignZero ↔ x = y ∨ (x.isZero = true ∧ y.isZero = true) := by
  unfold unsignZero
  split <;> split
  · simp_all
  · rename_i hx hy
    have hne : zero false ≠ y := fun h => hy (h ▸ hz)
    have hxy : x ≠ y := fun h => hy (h ▸ hx)
    simp [hne, hxy, hy]
  · rename_i hx hy
    have hne : x ≠ zero false := fun h => hx (h ▸ hz)
    have hxy : x ≠ y := fun h => hx (h ▸ hy)
    simp [hne, hxy, hx]
  · simp_all

theorem single_equal_iff {x y : Single} (hx : x.isNaN = false) :
    x.equal y = true ↔ x.unsignZero = y.unsignZero :=
  (equal_iff hx).trans (unsignZero_eq_iff (by decide +kernel)).symm

theorem double_equal_iff {x y : Double} (hx : x.isNaN = false) :
    x.equal y = true ↔ x.unsignZero = y.unsignZero :=
  (equal_iff hx).trans (unsignZero_eq_iff (by decide +kernel)).symm

end Binary

end StaticSemantics
