import Mathlib.Tactic.FieldSimp
import Mathlib.Tactic.Ring
import StaticSemantics.Proofs.Numeric.Reading

/-!
Exact values of binary numbers. A finite number stands for a rational one. Rounding does not change
what has few enough significant bits, so a number of one format keeps its value in a format with
more bits of both kinds; and the whole number taken out of a number is its value, if that is whole.
-/

namespace StaticSemantics

namespace Format

/-- All finite numbers of the format are numbers of the other. -/
structure Within (f g : Format) : Prop where
  normal : 2 ≤ g.topExponent
  fraction : f.fractionBits ≤ g.fractionBits
  unit : f.unitPower ≤ g.unitPower
  range : f.fractionBits + f.topExponent + (g.unitPower - f.unitPower) ≤
    g.fractionBits + g.topExponent

theorem single_within_double : Within single double :=
  ⟨by decide, by decide, by decide, by decide⟩

theorem one_pos (f : Format) : 0 < f.one := Nat.two_pow_pos _

theorem signWeight_eq (f : Format) : f.signWeight = f.infinity + f.leading := by
  have hsplit : f.signWeight = Nat.pow 2 f.exponentBits * f.leading := Nat.pow_add 2 _ _
  have htop : Nat.pow 2 f.exponentBits = f.topExponent + 1 :=
    (Nat.sub_add_cancel (Nat.two_pow_pos _)).symm
  rw [hsplit, htop, Nat.add_mul, Nat.one_mul]
  rfl

theorem infinity_lt_signWeight (f : Format) : f.infinity < f.signWeight := by
  rw [signWeight_eq]
  exact Nat.lt_add_of_pos_right (Binary.leading_pos f)

/-- The unit of a finer format divides that of a coarser one. -/
theorem Within.one_eq {f g : Format} (h : f.Within g) :
    g.one = 2 ^ (g.unitPower - f.unitPower) * f.one := by
  unfold one
  exact (congrArg (2 ^ ·) (Nat.sub_add_cancel h.unit).symm).trans (Nat.pow_add 2 _ _)

end Format

theorem roundHalfEven_mul (q : Nat) {d : Nat} (hd : 0 < d) : roundHalfEven (q * d) d = q := by
  unfold roundHalfEven
  dsimp only
  rw [Nat.mul_mod_left, Nat.mul_div_cancel q hd, if_pos (by omega)]

namespace Binary

variable {f g : Format} {s : Bool} {m n d : Nat}

/-! ## Numbers given by their magnitudes -/

theorem toNat_bits_ofMagnitude (hm : m < f.signWeight) :
    (ofMagnitude s m : Binary f).bits.toNat = if s then f.signWeight + m else m := by
  have hwidth : 2 ^ f.width = 2 * f.signWeight := by
    rw [Format.width, Nat.add_assoc]
    exact Nat.pow_add 2 1 _
  rw [ofMagnitude, BitVec.toNat_ofNat, hwidth]
  exact Nat.mod_eq_of_lt (by split <;> omega)

theorem magnitude_ofMagnitude (hm : m < f.signWeight) :
    (ofMagnitude s m : Binary f).magnitude = m := by
  rw [magnitude, toNat_bits_ofMagnitude hm]
  split
  · rw [Nat.add_mod_left, Nat.mod_eq_of_lt hm]
  · exact Nat.mod_eq_of_lt hm

theorem negative_ofMagnitude (hm : m < f.signWeight) :
    (ofMagnitude s m : Binary f).negative = s := by
  rw [negative, toNat_bits_ofMagnitude hm]
  cases s with
  | false => simpa using hm
  | true => simp

/-- What the bits say if the last bit of the significand stands at the given place. Only at the
lowest place the leading bit may be unset. -/
theorem read_ofMagnitude {place q : Nat} (hnormal : place = 0 ∨ f.leading ≤ q)
    (hq : q < 2 * f.leading) (hlt : place * f.leading + q < f.infinity) :
    (ofMagnitude s (place * f.leading + q) : Binary f).read = .finite s (q * 2 ^ place) := by
  have hm := hlt.trans f.infinity_lt_signWeight
  have hpos := leading_pos f
  have hfield : (ofMagnitude s (place * f.leading + q) : Binary f).exponentField =
      place + q / f.leading := by
    rw [exponentField, magnitude_ofMagnitude hm, Nat.add_comm, Nat.add_mul_div_right _ _ hpos,
      Nat.add_comm]
  have hfraction : (ofMagnitude s (place * f.leading + q) : Binary f).fractionField =
      q % f.leading := by
    rw [fractionField, magnitude_ofMagnitude hm, Nat.add_comm, Nat.add_mul_mod_self_right]
  refine read_eq_finite_iff.mpr ⟨?_, negative_ofMagnitude hm, ?_⟩
  · have htop : (place * f.leading + q) / f.leading < f.topExponent :=
      Nat.div_lt_of_lt_mul (by rw [Nat.mul_comm f.leading f.topExponent]; exact hlt)
    rw [exponentField, magnitude_ofMagnitude hm]
    exact Nat.ne_of_lt htop
  · unfold units significand lastPlace
    rw [hfield, hfraction]
    by_cases hlow : q < f.leading
    · have hplace : place = 0 := by omega
      subst hplace
      simp [Nat.div_eq_of_lt hlow, Nat.mod_eq_of_lt hlow]
    · have hdiv : q / f.leading = 1 := Nat.div_eq_of_lt_le (by omega) (by omega)
      have hmod : f.leading + q % f.leading = q := by
        have := Nat.div_add_mod q f.leading
        rw [hdiv] at this
        omega
      rw [hdiv, if_neg (by omega), hmod, Nat.add_sub_cancel]
      rfl

/-! ## Rounding -/

/-- Where the last bit of a rounded number stands. -/
theorem place_spec (f : Format) (n : Nat) :
    let place := if n = 0 then 0 else n.log2 - f.fractionBits
    n < 2 * f.leading * 2 ^ place ∧ (place = 0 ∨ f.leading * 2 ^ place ≤ n) := by
  have hpos := leading_pos f
  have hpow : ∀ k, f.leading * 2 ^ k = 2 ^ (f.fractionBits + k) := fun k => (Nat.pow_add 2 _ k).symm
  intro place
  by_cases hn : n = 0
  · simp [place, hn, hpos]
  · have hplace : place = n.log2 - f.fractionBits := if_neg hn
    constructor
    · calc n < 2 ^ (n.log2 + 1) := Nat.lt_log2_self
        _ ≤ 2 ^ (f.fractionBits + place + 1) := Nat.pow_le_pow_right (by decide) (by omega)
        _ = 2 * f.leading * 2 ^ place := by rw [Nat.mul_assoc, hpow, Nat.pow_succ, Nat.mul_comm]
    · by_cases hzero : place = 0
      · exact .inl hzero
      · right
        calc f.leading * 2 ^ place = 2 ^ n.log2 := by
              rw [hpow]
              congr 1
              omega
          _ ≤ n := Nat.log2_self_le hn

/-- A number with few enough significant bits is not changed by rounding. -/
theorem read_round {q p : Nat} (hf : 2 ≤ f.topExponent) (hd : 0 < d) (hq : q < 2 * f.leading)
    (hlt : q * 2 ^ p < f.leading * 2 ^ (f.topExponent - 1)) :
    (round s (q * 2 ^ p * d) d : Binary f).read = .finite s (q * 2 ^ p) := by
  have hpos := leading_pos f
  obtain ⟨hhigh, hlow⟩ := place_spec f (q * 2 ^ p)
  unfold round
  rw [Nat.mul_div_cancel _ hd]
  dsimp only at hhigh hlow ⊢
  generalize (if q * 2 ^ p = 0 then 0 else (q * 2 ^ p).log2 - f.fractionBits) = place
    at hhigh hlow ⊢
  -- the last bit kept stands no higher than the last significant one
  have hplace : place ≤ p := by
    rcases hlow with hzero | hlow
    · omega
    · have hprod : f.leading * 2 ^ place < f.leading * 2 ^ (p + 1) := by
        calc f.leading * 2 ^ place ≤ q * 2 ^ p := hlow
          _ < 2 * f.leading * 2 ^ p := Nat.mul_lt_mul_of_pos_right hq (Nat.two_pow_pos p)
          _ = f.leading * 2 ^ (p + 1) := by ring
      have := (Nat.pow_lt_pow_iff_right (by decide : 1 < 2)).mp (Nat.lt_of_mul_lt_mul_left hprod)
      omega
  have hsplit : q * 2 ^ p = q * 2 ^ (p - place) * 2 ^ place := by
    rw [Nat.mul_assoc, ← Nat.pow_add, Nat.sub_add_cancel hplace]
  have hround : roundHalfEven (q * 2 ^ p * d) (d * Nat.pow 2 place) = q * 2 ^ (p - place) := by
    have harg : q * 2 ^ p * d = q * 2 ^ (p - place) * (d * Nat.pow 2 place) := by
      rw [hsplit, Nat.mul_assoc, Nat.mul_comm (2 ^ place) d]
      rfl
    rw [harg]
    exact roundHalfEven_mul _ (Nat.mul_pos hd (Nat.two_pow_pos place))
  rw [hsplit] at hhigh hlow hlt
  rw [hround, hsplit]
  generalize q * 2 ^ (p - place) = r at hhigh hlow hlt ⊢
  have hr : r < 2 * f.leading := Nat.lt_of_mul_lt_mul_right hhigh
  have hnormal : place = 0 ∨ f.leading ≤ r :=
    hlow.imp id fun h => Nat.le_of_mul_le_mul_right h (Nat.two_pow_pos place)
  have htop : place + 2 ≤ f.topExponent := by
    rcases hlow with hzero | hlow
    · rw [hzero]
      exact hf
    · have := (Nat.pow_lt_pow_iff_right (by decide : 1 < 2)).mp
        (Nat.lt_of_mul_lt_mul_left (hlow.trans_lt hlt))
      omega
  have hinf : place * f.leading + r < f.infinity := by
    calc place * f.leading + r < (place + 2) * f.leading := by rw [Nat.add_mul]; omega
      _ ≤ f.infinity := Nat.mul_le_mul_right _ htop
  rw [if_neg (Nat.not_le.mpr hinf)]
  exact read_ofMagnitude hnormal hr hinf

/-! ## Exact values -/

/-- The number that the bits stand for, if it is finite. -/
def rational? (x : Binary f) : Option ℚ :=
  match x.read with
  | .finite s m => some (signed s m / f.one)
  | _ => none

theorem rational?_of_finite {x : Binary f} (h : x.read = .finite s m) :
    x.rational? = some ((signed s m : ℚ) / f.one) := by
  rw [rational?, h]

theorem signed_mul (s : Bool) (m n : Nat) : signed s (m * n) = signed s m * n := by
  cases s <;> simp [signed]

theorem natAbs_signed (s : Bool) (m : Nat) : (signed s m).natAbs = m := by
  cases s <;> simp [signed]

/-- The whole number taken out of a number is its value. -/
theorem toInt?_eq_some_iff {x : Binary f} {i : Int} :
    x.toInt? = some i ↔ x.rational? = some (i : ℚ) := by
  unfold toInt? rational?
  cases x.read with
  | nan | infinite s => simp
  | finite s m =>
      have hone : (f.one : ℚ) ≠ 0 := by exact_mod_cast f.one_pos.ne'
      have hval : (signed s m : ℚ) / f.one = i ↔ signed s m = i * f.one := by
        rw [div_eq_iff hone]
        exact_mod_cast Iff.rfl
      simp only [Option.some.injEq, hval]
      by_cases hm : m % f.one = 0
      · have hsplit : signed s m = signed s (m / f.one) * f.one := by
          rw [← signed_mul, Nat.div_mul_cancel (Nat.dvd_of_mod_eq_zero hm)]
        rw [if_pos hm, Option.some.injEq, hsplit]
        exact (mul_left_inj' (by exact_mod_cast f.one_pos.ne')).symm
      · rw [if_neg hm]
        refine ⟨nofun, fun h => absurd ?_ hm⟩
        have hdvd : (f.one : Int) ∣ signed s m := ⟨i, by rw [h, Int.mul_comm]⟩
        rw [← Int.natAbs_dvd_natAbs, natAbs_signed] at hdvd
        exact Nat.mod_eq_zero_of_dvd hdvd

theorem clampToInt_of_rational? {x : Binary f} {i : Int} (low high : Int)
    (h : x.rational? = some (i : ℚ)) : x.clampToInt low high = max low (min high i) := by
  have hi := toInt?_eq_some_iff.mpr h
  unfold toInt? at hi
  unfold clampToInt
  split at hi
  · split at hi
    · cases hi
      simp_all
    · cases hi
  · cases hi

/-! ## Formats -/

theorem exponentField_lt {x : Binary f} (h : x.exponentField ≠ f.topExponent) :
    x.exponentField < f.topExponent := by
  have hmag : x.magnitude < f.topExponent * f.leading + f.leading := by
    rw [← Format.infinity, ← Format.signWeight_eq]
    exact Nat.mod_lt _ (Nat.two_pow_pos _)
  have hle : x.exponentField < f.topExponent + 1 := by
    refine Nat.div_lt_of_lt_mul ?_
    rwa [Nat.mul_comm, Nat.add_mul, Nat.one_mul]
  omega

theorem significand_lt (x : Binary f) : x.significand < 2 * f.leading := by
  have hfraction : x.fractionField < f.leading := Nat.mod_lt _ (leading_pos f)
  unfold significand
  split <;> omega

/-- The magnitudes from that of infinity on are no finite numbers. -/
theorem rational?_ofMagnitude (hlow : f.infinity ≤ m) (hhigh : m < f.signWeight) :
    (ofMagnitude s m : Binary f).rational? = none := by
  have hfield : (ofMagnitude s m : Binary f).exponentField = f.topExponent := by
    rw [exponentField, magnitude_ofMagnitude hhigh]
    rw [Format.signWeight_eq] at hhigh
    refine Nat.div_eq_of_lt_le hlow ?_
    rwa [Nat.add_mul, Nat.one_mul]
  unfold rational? read
  rw [if_pos hfield]
  by_cases hfraction : (ofMagnitude s m : Binary f).fractionField = 0
  · rw [if_pos hfraction]
  · rw [if_neg hfraction]

theorem rational?_infinite : (infinite s : Binary f).rational? = none :=
  rational?_ofMagnitude (Nat.le_refl _) f.infinity_lt_signWeight

theorem rational?_nan : (nan : Binary f).rational? = none := by
  have hhalf : f.leading / 2 < f.leading := Nat.div_lt_self (leading_pos f) (by decide)
  refine rational?_ofMagnitude (Nat.le_add_right _ _) ?_
  rw [Format.signWeight_eq]
  omega

theorem read_convert_of_finite (hfg : f.Within g) {x : Binary f} (hx : x.read = .finite s m) :
    (x.convert g : Binary g).read = .finite s (m * 2 ^ (g.unitPower - f.unitPower)) := by
  obtain ⟨hfield, -, rfl⟩ := read_eq_finite_iff.mp hx
  have hleading : f.leading ≤ g.leading := Nat.pow_le_pow_right (by decide) hfg.fraction
  have hunits : x.units * 2 ^ (g.unitPower - f.unitPower) =
      x.significand * 2 ^ (x.lastPlace + (g.unitPower - f.unitPower)) := by
    rw [Nat.pow_add, ← Nat.mul_assoc]
    rfl
  have hlt : x.units * 2 ^ (g.unitPower - f.unitPower) < g.leading * 2 ^ (g.topExponent - 1) := by
    have hfieldLt := exponentField_lt hfield
    have hrange := hfg.range
    calc x.units * 2 ^ (g.unitPower - f.unitPower)
      _ < f.leading * 2 ^ x.exponentField * 2 ^ (g.unitPower - f.unitPower) :=
          Nat.mul_lt_mul_of_pos_right x.units_lt (Nat.two_pow_pos _)
      _ = 2 ^ (f.fractionBits + x.exponentField + (g.unitPower - f.unitPower)) := by
          rw [Nat.pow_add, Nat.pow_add]
          rfl
      _ ≤ 2 ^ (g.fractionBits + (g.topExponent - 1)) :=
          Nat.pow_le_pow_right (by decide) (by omega)
      _ = g.leading * 2 ^ (g.topExponent - 1) := Nat.pow_add 2 _ _
  unfold convert
  rw [hx]
  dsimp only
  rw [hfg.one_eq, ← Nat.mul_assoc, hunits]
  rw [hunits] at hlt
  exact read_round hfg.normal f.one_pos (x.significand_lt.trans_le (by omega)) hlt

/-- A number keeps its value in a format that has it. -/
theorem rational?_convert (hfg : f.Within g) (x : Binary f) :
    (x.convert g : Binary g).rational? = x.rational? := by
  cases hx : x.read with
  | nan =>
      have hconvert : (x.convert g : Binary g) = nan := by rw [convert, hx]
      rw [hconvert, rational?_nan, rational?, hx]
  | infinite s =>
      have hconvert : (x.convert g : Binary g) = infinite s := by rw [convert, hx]
      rw [hconvert, rational?_infinite, rational?, hx]
  | finite s m =>
      have hone : (f.one : ℚ) ≠ 0 := by exact_mod_cast f.one_pos.ne'
      rw [rational?_of_finite (read_convert_of_finite hfg hx), rational?_of_finite hx, signed_mul,
        hfg.one_eq]
      push_cast
      field_simp

end Binary
end StaticSemantics
