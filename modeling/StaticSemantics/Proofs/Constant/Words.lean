import Mathlib.Data.Rat.Floor
import StaticSemantics.Proofs.Constant.Whole
import StaticSemantics.Proofs.Numeric.TwosComplement

/-!
Operators on the bits of whole constants. Bits are combined as those of the numbers in two's
complement, which never leaves the kind of the result. A shift to the right divides, rounding down.
A shift to the left multiplies as long as the product stays within 64 bits; what is moved out of
them is lost, and the rest of the word may fit the kind again.
-/

namespace StaticSemantics

open TwosComplement

/-! ## Ranges and bits -/

namespace NumericKind

variable {k : NumericKind} {i j : Int}

theorem holds_byte_iff : byte.Holds i ↔ SignFrom 8 false i := by
  rw [signFrom_false_iff]
  rfl

theorem holds_integer_iff : integer.Holds i ↔ ∃ s, SignFrom 31 s i := by
  rw [exists_signFrom_iff]
  rfl

theorem holds_long_iff : long.Holds i ↔ ∃ s, SignFrom 63 s i := by
  rw [exists_signFrom_iff]
  simp only [Holds, longMin, longMax]
  omega

/-- Combining bits leaves no kind, if unset bits give an unset bit. -/
theorem Holds.bitwise (hk : k.isWhole) {f : Bool → Bool → Bool} (hf : f false false = false)
    (hi : k.Holds i) (hj : k.Holds j) : k.Holds (Int.bitwise f i j) := by
  cases k with
  | byte =>
      have hsign := (holds_byte_iff.mp hi).bitwise (f := f) (holds_byte_iff.mp hj)
      rw [hf] at hsign
      exact holds_byte_iff.mpr hsign
  | integer =>
      obtain ⟨s, hs⟩ := holds_integer_iff.mp hi
      obtain ⟨t, ht⟩ := holds_integer_iff.mp hj
      exact holds_integer_iff.mpr ⟨f s t, hs.bitwise ht⟩
  | long =>
      obtain ⟨s, hs⟩ := holds_long_iff.mp hi
      obtain ⟨t, ht⟩ := holds_long_iff.mp hj
      exact holds_long_iff.mpr ⟨f s t, hs.bitwise ht⟩
  | single | double | decimal | char => cases hk

/-- The places that the complement of a constant of the kind sets or clears. -/
def hasBit (k : NumericKind) (n : Nat) : Bool := k ≠ byte || n < 8

end NumericKind

namespace WholeConstant

variable (a : WholeConstant) (n : Nat)

/-- The constant with every bit inverted. -/
def not : WholeConstant → WholeConstant
  | byte n => byte (~~~n)
  | integer n => integer (~~~n)
  | long n => long (~~~n)

@[simp] theorem kind_not : a.not.kind = a.kind := by
  cases a <;> rfl

theorem testBit_not : a.not.int.testBit n = (a.kind.hasBit n && !a.int.testBit n) := by
  cases a with
  | byte x =>
      have hbit : (~~~x.toBitVec).getLsbD n = (decide (n < 8) && !x.toBitVec.getLsbD n) :=
        BitVec.getLsbD_not
      exact hbit
  | integer x => exact testBit_toInt_not (by decide) x.toBitVec n
  | long x => exact testBit_toInt_not (by decide) x.toBitVec n

theorem hasBit_and_testBit : (a.kind.hasBit n && a.int.testBit n) = a.int.testBit n := by
  cases a with
  | byte x =>
      have hsign := NumericKind.holds_byte_iff.mp (byte x).holds
      by_cases hn : n < 8
      · simp [NumericKind.hasBit, hn]
      · rw [hsign n (by omega), Bool.and_false]
  | integer | long => rfl

theorem not_not : a.not.not = a := by
  refine eq_of_int (by simp) (eq_of_testBit fun n => ?_)
  rw [testBit_not, testBit_not, kind_not, ← hasBit_and_testBit]
  cases a.kind.hasBit n <;> simp

end WholeConstant

namespace Folding

variable (w : SymbolTable) (a b : WholeConstant) (t u : TypeId) {op dual : Operator} {i j : Int}

/-! ## Combining bits -/

/-- The operators that combine bits. -/
def combinesBits : Operator → Bool
  | .and | .or | .xor => true
  | _ => false

theorem booleanBitwise_false (op : Operator) : booleanBitwise op false false = false := by
  cases op <;> rfl

/-- Within 64 bits, words are combined as the numbers that they hold. -/
theorem bitwise_eq (hop : combinesBits op) (hi : NumericKind.long.Holds i)
    (hj : NumericKind.long.Holds j) : bitwise op i j = Int.bitwise (booleanBitwise op) i j := by
  have hx : (Int64.ofInt i).toBitVec.toInt = i :=
    Int64.toInt_ofInt_of_le hi.1 (Int.lt_add_one_of_le hi.2)
  have hy : (Int64.ofInt j).toBitVec.toInt = j :=
    Int64.toInt_ofInt_of_le hj.1 (Int.lt_add_one_of_le hj.2)
  have combined := @toInt_eq_bitwise 64 (booleanBitwise op) (Int64.ofInt i).toBitVec
    (Int64.ofInt j).toBitVec
  rw [hx, hy] at combined
  cases op with
  | and | or | xor =>
      refine combined (fun n hn => ?_) ?_
      · simp [booleanBitwise]
      · simp [booleanBitwise]
  | _ => cases hop

theorem binary?_of_combinesBits (hop : combinesBits op) :
    binary? w op (.constant a.constant t) (.constant b.constant u) =
      integralResult? (bitwise op a.int b.int) (a.kind.wider b.kind) := by
  cases op with
  | and | or | xor =>
      cases a <;> cases b <;> rfl
  | _ => cases hop

/-- Combining bits always succeeds, in the wider of the two kinds. -/
theorem exists_binary?_of_combinesBits (hop : combinesBits op) : ∃ c : WholeConstant,
    binary? w op (.constant a.constant t) (.constant b.constant u) = some c.value ∧
      c.kind = a.kind.wider b.kind ∧ c.int = Int.bitwise (booleanBitwise op) a.int b.int := by
  have hwhole := NumericKind.isWhole_wider a.isWhole_kind b.isWhole_kind
  have hholds := (a.holds.wider_left a.isWhole_kind b.isWhole_kind).bitwise hwhole
    (booleanBitwise_false op) (b.holds.wider_right a.isWhole_kind b.isWhole_kind)
  obtain ⟨_, hv, c, rfl, hc⟩ := integralResult?_of_holds hwhole hholds
  refine ⟨c, ?_, hc⟩
  rw [binary?_of_combinesBits w a b t u hop,
    bitwise_eq hop (a.holds.long a.isWhole_kind) (b.holds.long b.isWhole_kind)]
  exact hv

theorem unary?_not : unary? .not (.constant a.constant t) = some a.not.value := by
  cases a <;> rfl

theorem unary?_not_value : unary? .not a.value = some a.not.value := by
  rw [WholeConstant.value_eq, unary?_not]

/-- De Morgan's law, for a pair of operators of which it holds bit by bit. -/
theorem not_binary?_of_dual (hop : combinesBits op) (hdual : combinesBits dual)
    (hlaw : ∀ x y, (!booleanBitwise op x y) = booleanBitwise dual (!x) (!y))
    (hk : a.kind = b.kind) :
    ∃ r, (binary? w op (.constant a.constant t) (.constant b.constant u)).bind (unary? .not) =
        some r ∧
      ((unary? .not (.constant a.constant t)).bind fun x =>
        (unary? .not (.constant b.constant u)).bind fun y => binary? w dual x y) = some r := by
  obtain ⟨c, hc, hck, hci⟩ := exists_binary?_of_combinesBits w a b t u hop
  obtain ⟨d, hd, hdk, hdi⟩ := exists_binary?_of_combinesBits w a.not b.not a.not.kind.type
    b.not.kind.type hdual
  rw [← WholeConstant.value_eq, ← WholeConstant.value_eq] at hd
  have hkind : a.kind.wider b.kind = a.kind := by
    unfold NumericKind.wider
    rw [← hk, if_neg (Nat.lt_irrefl _)]
  rw [hkind] at hck
  rw [WholeConstant.kind_not, WholeConstant.kind_not, hkind] at hdk
  have heq : c.not = d := by
    refine WholeConstant.eq_of_int (by rw [WholeConstant.kind_not, hck, hdk]) ?_
    refine eq_of_testBit fun n => ?_
    rw [WholeConstant.testBit_not, hci, hdi, Int.testBit_bitwise, Int.testBit_bitwise,
      WholeConstant.testBit_not, WholeConstant.testBit_not, ← hk, hck]
    cases a.kind.hasBit n with
    | false => exact (booleanBitwise_false dual).symm
    | true => exact hlaw _ _
  refine ⟨d.value, ?_, ?_⟩
  · rw [hc, Option.bind_some, unary?_not_value, heq]
  · rw [unary?_not, unary?_not, Option.bind_some, Option.bind_some, hd]

/-- Any two bytes, integers or longs are combined bit by bit, as numbers in two's complement and in
their common kind. To invert the bits twice changes nothing, and operands of one kind obey De
Morgan's laws. -/
theorem bitwise_exact (w : SymbolTable) (a b : WholeConstant) (t u : TypeId) :
    let v := Value.constant a.constant t
    let v' := Value.constant b.constant u
    (∃ k, a.kind.promote b.kind = some k ∧
      (∃ r, binary? w .and v v' = some r ∧ r.IsWhole k (Int.land a.int b.int)) ∧
      (∃ r, binary? w .or v v' = some r ∧ r.IsWhole k (Int.lor a.int b.int)) ∧
      ∃ r, binary? w .xor v v' = some r ∧ r.IsWhole k (Int.xor a.int b.int)) ∧
    (unary? .not v).bind (unary? .not) = some a.value ∧
    (a.kind = b.kind →
      (∃ r, (binary? w .and v v').bind (unary? .not) = some r ∧
        ((unary? .not v).bind fun x => (unary? .not v').bind fun y => binary? w .or x y) =
          some r) ∧
      ∃ r, (binary? w .or v v').bind (unary? .not) = some r ∧
        ((unary? .not v).bind fun x => (unary? .not v').bind fun y => binary? w .and x y) =
          some r) := by
  intro v v'
  have combined : ∀ op, combinesBits op → ∃ r, binary? w op v v' = some r ∧
      r.IsWhole (a.kind.wider b.kind) (Int.bitwise (booleanBitwise op) a.int b.int) := by
    intro op hop
    obtain ⟨c, hc, hk, hi⟩ := exists_binary?_of_combinesBits w a b t u hop
    exact ⟨c.value, hc, c, rfl, hk, hi⟩
  refine ⟨⟨a.kind.wider b.kind, NumericKind.promote_of_isWhole a.isWhole_kind b.isWhole_kind,
    ?_, ?_, ?_⟩, ?_, fun hk => ⟨?_, ?_⟩⟩
  · rw [← Int.bitwise_and]
    exact combined .and rfl
  · rw [← Int.bitwise_or]
    exact combined .or rfl
  · rw [← Int.bitwise_xor]
    exact combined .xor rfl
  · rw [unary?_not, Option.bind_some, unary?_not_value, WholeConstant.not_not]
  · exact not_binary?_of_dual w a b t u rfl rfl (by decide) hk
  · exact not_binary?_of_dual w a b t u rfl rfl (by decide) hk

/-- A byte with a negative integer gives an integer, while a byte is inverted within its eight
bits. -/
theorem bitwise_exact_byte :
    let a := WholeConstant.byte 0xF0
    let b := WholeConstant.byte 0x3C
    a.kind = b.kind ∧
      binary? {} .xor (.constant a.constant .byte) (.constant (.integer (-1)) .integer) =
        some (.constant (.integer (-241)) .integer) ∧
      (binary? {} .and (.constant a.constant .byte) (.constant b.constant .any)).bind
        (unary? .not) = some (.constant (.byte 0xCF) .byte) ∧
      ∃ r, (binary? {} .and (.constant a.constant .byte) (.constant b.constant .any)).bind
          (unary? .not) = some r ∧
        ((unary? .not (.constant a.constant .byte)).bind fun x =>
          (unary? .not (.constant b.constant .any)).bind fun y => binary? {} .or x y) =
            some r := by
  intro a b
  exact ⟨rfl, by decide +kernel, by decide +kernel,
    ((bitwise_exact {} a b .byte .any).2.2 rfl).1⟩

/-! ## Shifts -/

section Shift

variable {p : Int}

theorem binary?_shift (hop : op = .leftShift ∨ op = .rightShift) :
    binary? w op (.constant a.constant t) (.constant b.constant u) =
      (shift? op a.int b.int).bind fun i => integralResult? i a.kind := by
  rcases hop with rfl | rfl
  · cases a <;> cases b <;> rfl
  · cases a <;> cases b <;> rfl

theorem shift?_of_outside (hp : p < 0 ∨ 64 ≤ p) : shift? op i p = none := by
  unfold shift?
  rw [if_neg (by omega)]

theorem shift?_left (hlow : 0 ≤ p) (hhigh : p < 64) :
    shift? .leftShift i p = some ((i * 2 ^ p.toNat).bmod (2 ^ 64)) := by
  unfold shift?
  rw [if_pos ⟨hlow, hhigh⟩]
  have hfactor : ((Nat.pow 2 p.toNat : Nat) : Int) = 2 ^ p.toNat := Int.natCast_pow 2 p.toNat
  dsimp only
  rw [hfactor]
  rfl

theorem shift?_right (hlow : 0 ≤ p) (hhigh : p < 64) :
    shift? .rightShift i p = some ⌊(i : ℚ) / 2 ^ p.toNat⌋ := by
  unfold shift?
  rw [if_pos ⟨hlow, hhigh⟩]
  have hfloor := Rat.floor_intCast_div_natCast i (Nat.pow 2 p.toNat)
  have hfactor : ((Nat.pow 2 p.toNat : Nat) : ℚ) = 2 ^ p.toNat := Nat.cast_pow 2 p.toNat
  rw [hfactor] at hfloor
  rw [hfloor]

/-- A quotient rounded down lies between the dividend and zero. -/
theorem holds_floor {k : NumericKind} (hk : k.isWhole) (hi : k.Holds i) (n : Nat) :
    k.Holds ⌊(i : ℚ) / 2 ^ n⌋ := by
  have hpos : (0 : ℚ) < 2 ^ n := by positivity
  have hone : (1 : ℚ) ≤ 2 ^ n := one_le_pow₀ (by norm_num)
  have hlow : min i 0 ≤ ⌊(i : ℚ) / 2 ^ n⌋ := by
    rw [Int.le_floor, le_div_iff₀ hpos, Int.cast_min, Int.cast_zero]
    rcases le_total (i : ℚ) 0 with h | h
    · rw [min_eq_left h]
      nlinarith
    · rw [min_eq_right h, zero_mul]
      exact h
  have hhigh : ⌊(i : ℚ) / 2 ^ n⌋ ≤ max i 0 := by
    rw [← Int.lt_add_one_iff, Int.floor_lt, div_lt_iff₀ hpos]
    push_cast
    rcases le_total (i : ℚ) 0 with h | h
    · rw [max_eq_right h]
      nlinarith
    · rw [max_eq_left h]
      nlinarith
  cases k with
  | byte | integer | long =>
      simp only [NumericKind.Holds, longMin, longMax] at hi ⊢
      omega
  | single | double | decimal | char => cases hk

theorem bmod_of_holds (h : NumericKind.long.Holds i) : i.bmod (2 ^ 64) = i := by
  simp only [NumericKind.Holds, longMin, longMax] at h
  exact Int.bmod_eq_of_le (by omega) (by omega)

theorem holds_bmod (i : Int) : NumericKind.long.Holds (i.bmod (2 ^ 64)) := by
  have hlow := Int.le_bmod (x := i) (m := 2 ^ 64) (by decide)
  have hhigh := Int.bmod_lt (x := i) (m := 2 ^ 64) (by decide)
  simp only [NumericKind.Holds, longMin, longMax]
  omega

/-- Only a shift by more than 32 places moves bits of an integer out of the word. -/
theorem le_places_of_not_holds {n : Nat} (hi : NumericKind.integer.Holds i)
    (hout : ¬ NumericKind.long.Holds (i * 2 ^ n)) : 33 ≤ n := by
  by_contra hn
  have hpow : (2 : Int) ^ n ≤ 2 ^ 32 := pow_le_pow_right₀ (by decide) (by omega)
  have hpos : (0 : Int) < 2 ^ n := Int.pow_pos (by decide)
  obtain ⟨hlow, hhigh⟩ := hi
  refine hout ⟨?_, ?_⟩
  · simp only [longMin]
    nlinarith
  · simp only [longMax]
    nlinarith

/-- What stays of a product that leaves 64 bits fits an integer or a byte only if nothing stays. -/
theorem holds_bmod_iff {k : NumericKind} (hk : k.isWhole) (hlong : k ≠ .long) (hi : k.Holds i)
    {n : Nat} (hout : ¬ NumericKind.long.Holds (i * 2 ^ n)) :
    k.Holds ((i * 2 ^ n).bmod (2 ^ 64)) ↔ (2 : Int) ^ 64 ∣ i * 2 ^ n := by
  have narrow : ∀ {j}, k.Holds j → NumericKind.integer.Holds j := fun hj => by
    refine hj.mono hk rfl ?_
    cases k with
    | byte | integer => decide
    | long => exact absurd rfl hlong
    | single | double | decimal | char => cases hk
  have hn := le_places_of_not_holds (narrow hi) hout
  constructor
  · intro hr
    obtain ⟨hlow, hhigh⟩ := narrow hr
    -- what stays is a multiple of `2 ^ 33`, and too small for any but zero
    have hword : (2 : Int) ^ 33 ∣ (i * 2 ^ n).bmod (2 ^ 64) - i * 2 ^ n :=
      (by decide : (2 : Int) ^ 33 ∣ ((2 ^ 64 : Nat) : Int)).trans Int.dvd_bmod_sub_self
    have hprod : (2 : Int) ^ 33 ∣ i * 2 ^ n := (pow_dvd_pow 2 hn).mul_left i
    have hdvd : (2 : Int) ^ 33 ∣ (i * 2 ^ n).bmod (2 ^ 64) := (dvd_sub_left hprod).mp hword
    exact_mod_cast Int.dvd_of_bmod_eq_zero (by omega : (i * 2 ^ n).bmod (2 ^ 64) = 0)
  · intro hdvd
    rw [Int.bmod_eq_zero_of_dvd (by exact_mod_cast hdvd)]
    cases k with
    | byte | integer => decide
    | long => exact absurd rfl hlong
    | single | double | decimal | char => cases hk

theorem binary?_shift_of_outside (hop : op = .leftShift ∨ op = .rightShift)
    (hp : b.int < 0 ∨ 64 ≤ b.int) :
    binary? w op (.constant a.constant t) (.constant b.constant u) = none := by
  rw [binary?_shift w a b t u hop, shift?_of_outside hp]
  rfl

theorem exists_binary?_rightShift (hlow : 0 ≤ b.int) (hhigh : b.int < 64) :
    ∃ v, binary? w .rightShift (.constant a.constant t) (.constant b.constant u) = some v ∧
      v.IsWhole a.kind ⌊(a.int : ℚ) / 2 ^ b.int.toNat⌋ := by
  rw [binary?_shift w a b t u (.inr rfl), shift?_right hlow hhigh]
  exact integralResult?_of_holds a.isWhole_kind (holds_floor a.isWhole_kind a.holds b.int.toNat)

theorem binary?_leftShift_eq_some_iff (hlow : 0 ≤ b.int) (hhigh : b.int < 64) {v : Value} :
    binary? w .leftShift (.constant a.constant t) (.constant b.constant u) = some v ↔
      v.IsWhole a.kind ((a.int * 2 ^ b.int.toNat).bmod (2 ^ 64)) := by
  rw [binary?_shift w a b t u (.inl rfl), shift?_left hlow hhigh]
  exact integralResult?_eq_some_iff a.isWhole_kind

end Shift

/-- Shifts of bytes, integers and longs by bytes, integers and longs fail unless they move less than
64 places. To the right, the result is the quotient rounded down. To the left it is the product, if
that stays within 64 bits and fits the kind. A product that leaves 64 bits is not refused: a long
takes its lowest 64 bits, and a byte or an integer becomes zero if these are all unset. -/
theorem shifts_folded (w : SymbolTable) (a b : WholeConstant) (t u : TypeId) :
    let left := binary? w .leftShift (.constant a.constant t) (.constant b.constant u)
    let right := binary? w .rightShift (.constant a.constant t) (.constant b.constant u)
    let product : Int := a.int * 2 ^ b.int.toNat
    (b.int < 0 ∨ 64 ≤ b.int → left = none ∧ right = none) ∧
    (0 ≤ b.int → b.int < 64 →
      (∃ v, right = some v ∧ v.IsWhole a.kind ⌊(a.int : ℚ) / 2 ^ b.int.toNat⌋) ∧
      (NumericKind.long.Holds product → ∀ v, left = some v ↔ v.IsWhole a.kind product) ∧
      (¬ NumericKind.long.Holds product → a.kind = .long →
        ∃ v, left = some v ∧ v.IsWhole .long (product.bmod (2 ^ 64))) ∧
      (¬ NumericKind.long.Holds product → a.kind ≠ .long →
        ∀ v, left = some v ↔ 2 ^ 64 ∣ product ∧ v.IsWhole a.kind 0)) := by
  intro left right product
  refine ⟨fun hout => ⟨?_, ?_⟩, fun hlow hhigh => ⟨?_, ?_⟩⟩
  · exact binary?_shift_of_outside w a b t u (.inl rfl) hout
  · exact binary?_shift_of_outside w a b t u (.inr rfl) hout
  · exact exists_binary?_rightShift w a b t u hlow hhigh
  · have hleft : ∀ v, left = some v ↔ v.IsWhole a.kind (product.bmod (2 ^ 64)) :=
      fun v => binary?_leftShift_eq_some_iff w a b t u hlow hhigh
    refine ⟨fun hin v => ?_, fun hout hk => ?_, fun hout hk v => ?_⟩
    · rw [hleft, bmod_of_holds hin]
    · simp only [hleft, hk]
      obtain ⟨v, -, hwhole⟩ := integralResult?_of_holds rfl (holds_bmod product)
      exact ⟨v, hwhole, hwhole⟩
    · rw [hleft]
      have hfits : a.kind.Holds (product.bmod (2 ^ 64)) ↔ 2 ^ 64 ∣ product :=
        holds_bmod_iff a.isWhole_kind hk a.holds hout
      have hzero : 2 ^ 64 ∣ product → product.bmod (2 ^ 64) = 0 := fun hdvd =>
        Int.bmod_eq_zero_of_dvd (by exact_mod_cast hdvd)
      constructor
      · intro hv
        have hdvd := hfits.mp hv.holds
        rw [hzero hdvd] at hv
        exact ⟨hdvd, hv⟩
      · rintro ⟨hdvd, hv⟩
        rwa [hzero hdvd]

/-- The integer 2, moved by 63 places, becomes zero, and the long 1 becomes negative. -/
theorem shifts_folded_lostBits :
    let places := WholeConstant.integer 63
    let two := WholeConstant.integer 2
    let one := WholeConstant.long 1
    0 ≤ places.int ∧ places.int < 64 ∧
      ¬ NumericKind.long.Holds (two.int * 2 ^ places.int.toNat) ∧
      binary? {} .leftShift (.constant two.constant .integer) (.constant places.constant .integer) =
        some (.constant (.integer 0) .integer) ∧
      ¬ NumericKind.long.Holds (one.int * 2 ^ places.int.toNat) ∧
      ∃ v, binary? {} .leftShift (.constant one.constant .long)
          (.constant places.constant .integer) = some v ∧ v.IsWhole .long (-2 ^ 63) := by
  intro places two one
  have hlow : 0 ≤ places.int := by decide
  have hhigh : places.int < 64 := by decide
  have htwo : ¬ NumericKind.long.Holds (two.int * 2 ^ places.int.toNat) := by decide
  have hone : ¬ NumericKind.long.Holds (one.int * 2 ^ places.int.toNat) := by decide
  obtain ⟨-, -, -, hzero⟩ := (shifts_folded {} two places .integer .integer).2 hlow hhigh
  obtain ⟨-, -, hwrap, -⟩ := (shifts_folded {} one places .long .integer).2 hlow hhigh
  obtain ⟨v, hv, hwhole⟩ := hwrap hone rfl
  have hvalue : (one.int * 2 ^ places.int.toNat).bmod (2 ^ 64) = -2 ^ 63 := by decide +kernel
  rw [hvalue] at hwhole
  exact ⟨hlow, hhigh, htwo, (hzero htwo (by decide) _).mpr ⟨by decide, .integer 0, rfl, rfl, rfl⟩,
    hone, v, hv, hwhole⟩

end Folding
end StaticSemantics
