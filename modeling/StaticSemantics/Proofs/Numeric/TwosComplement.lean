import Mathlib.Data.Int.Bitwise
import Mathlib.Data.Nat.Bitwise

/-!
Whole numbers in two's complement. The bits of a word, its sign bit repeated without end, are those
of the number that it holds; so the bitwise operators on words are those on numbers. The numbers
within a range are those whose bits are all alike from some place on.
-/

namespace StaticSemantics
namespace TwosComplement

variable {w m : Nat} {i j : Int} {s t : Bool}

/-! ## Numbers and their bits -/

theorem testBit_of_le {a n : Nat} (h : a ≤ n) : a.testBit n = false :=
  Nat.testBit_lt_two_pow (Nat.lt_of_le_of_lt h n.lt_two_pow_self)

theorem eq_of_testBit (h : ∀ n, i.testBit n = j.testBit n) : i = j := by
  cases i with
  | ofNat a =>
      cases j with
      | ofNat b => exact congrArg Int.ofNat (Nat.eq_of_testBit_eq h)
      | negSucc b =>
          -- beyond all places of both, only the bits of the negative number are set
          have hbit : a.testBit (max a b) = !(b.testBit (max a b)) := h (max a b)
          rw [testBit_of_le (Nat.le_max_left a b), testBit_of_le (Nat.le_max_right a b)] at hbit
          cases hbit
  | negSucc a =>
      cases j with
      | ofNat b =>
          have hbit : (!(a.testBit (max a b))) = b.testBit (max a b) := h (max a b)
          rw [testBit_of_le (Nat.le_max_left a b), testBit_of_le (Nat.le_max_right a b)] at hbit
          cases hbit
      | negSucc b =>
          refine congrArg Int.negSucc (Nat.eq_of_testBit_eq fun n => ?_)
          simpa [Int.testBit] using h n

/-- From a place on, all bits are the same. -/
def SignFrom (m : Nat) (s : Bool) (i : Int) : Prop := ∀ n, m ≤ n → i.testBit n = s

theorem SignFrom.bitwise {f : Bool → Bool → Bool} (hi : SignFrom m s i) (hj : SignFrom m t j) :
    SignFrom m (f s t) (Int.bitwise f i j) := by
  intro n hn
  rw [Int.testBit_bitwise, hi n hn, hj n hn]

theorem signFrom_false_iff : SignFrom m false i ↔ 0 ≤ i ∧ i < 2 ^ m := by
  cases i with
  | ofNat a =>
      have hcast : Int.ofNat a < 2 ^ m ↔ a < 2 ^ m := by
        rw [Int.ofNat_eq_natCast]
        exact_mod_cast Iff.rfl
      rw [hcast]
      refine ⟨fun h => ⟨Int.natCast_nonneg a, Nat.lt_pow_two_of_testBit a h⟩, fun h n hn => ?_⟩
      exact Nat.testBit_lt_two_pow (Nat.lt_of_lt_of_le h.2 (Nat.pow_le_pow_right (by decide) hn))
  | negSucc a =>
      refine ⟨fun h => ?_, fun h => absurd h.1 (by simp)⟩
      have hbit : (!(a.testBit (max m a))) = false := h (max m a) (Nat.le_max_left m a)
      rw [testBit_of_le (Nat.le_max_right m a)] at hbit
      cases hbit

theorem lnot_eq (i : Int) : Int.lnot i = -i - 1 := by
  cases i with
  | ofNat a => simp only [Int.lnot, Int.ofNat_eq_natCast]; omega
  | negSucc a => simp only [Int.lnot]; omega

theorem signFrom_true_iff : SignFrom m true i ↔ -2 ^ m ≤ i ∧ i < 0 := by
  have hnot : SignFrom m true i ↔ SignFrom m false (Int.lnot i) := by simp [SignFrom]
  rw [hnot, signFrom_false_iff, lnot_eq]
  omega

theorem exists_signFrom_iff : (∃ s, SignFrom m s i) ↔ -2 ^ m ≤ i ∧ i < 2 ^ m := by
  have hpos : (0 : Int) < 2 ^ m := Int.pow_pos (by decide)
  rw [Bool.exists_bool, signFrom_false_iff, signFrom_true_iff]
  omega

/-! ## Words -/

/-- Beyond the word, its sign bit is repeated. -/
theorem testBit_toInt (x : BitVec w) (n : Nat) :
    x.toInt.testBit n = if n < w then x.getLsbD n else x.msb := by
  cases hx : x.msb with
  | false =>
      rw [BitVec.toInt_eq_toNat_of_msb hx]
      split
      · rfl
      · exact BitVec.getLsbD_of_ge x n (by omega)
  | true =>
      have hneg : x.toInt = Int.negSucc (~~~x).toNat := by
        rw [BitVec.toInt_eq_msb_cond, hx, if_pos rfl, BitVec.toNat_not, Int.negSucc_eq]
        have := x.isLt
        omega
      have hbit : x.toInt.testBit n = !((~~~x).getLsbD n) := by
        rw [hneg]
        rfl
      rw [hbit, BitVec.getLsbD_not]
      split <;> simp_all

theorem testBit_toInt_not (hw : 0 < w) (x : BitVec w) (n : Nat) :
    (~~~x).toInt.testBit n = !x.toInt.testBit n := by
  rw [testBit_toInt, testBit_toInt, BitVec.getLsbD_not, BitVec.msb_not]
  split <;> simp_all

/-- An operator that acts on words bit by bit acts on numbers in the same way. -/
theorem toInt_eq_bitwise {f : Bool → Bool → Bool} {x y z : BitVec w}
    (hbits : ∀ n < w, z.getLsbD n = f (x.getLsbD n) (y.getLsbD n)) (hmsb : z.msb = f x.msb y.msb) :
    z.toInt = Int.bitwise f x.toInt y.toInt := by
  refine eq_of_testBit fun n => ?_
  rw [Int.testBit_bitwise, testBit_toInt, testBit_toInt, testBit_toInt]
  split
  · rename_i hn
    exact hbits n hn
  · exact hmsb

end TwosComplement
end StaticSemantics
