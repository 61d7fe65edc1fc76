import StaticSemantics.Folding

/-!
Constants that are whole numbers: bytes, integers and longs. A result of folding is the constant of
its kind for a whole number, and there is one exactly if the kind holds the number.
-/

namespace StaticSemantics

/-- A byte, an integer or a long. -/
inductive WholeConstant where
  | byte (n : UInt8)
  | integer (n : Int32)
  | long (n : Int64)
  deriving DecidableEq

namespace NumericKind

/-- The kinds of whole numbers that take part in arithmetic. -/
def isWhole : NumericKind → Bool
  | byte | integer | long => true
  | single | double | decimal | char => false

variable {k l : NumericKind} {i : Int}

theorem isWhole_wider (hk : k.isWhole) (hl : l.isWhole) : (k.wider l).isWhole := by
  unfold wider
  split
  · exact hl
  · exact hk

theorem isIntegral_of_isWhole (hk : k.isWhole) : k.isIntegral := by
  cases k with
  | byte | integer | long => rfl
  | single | double | decimal | char => cases hk

theorem promote_of_isWhole (hk : k.isWhole) (hl : l.isWhole) : k.promote l = some (k.wider l) := by
  refine if_neg ?_
  rintro (rfl | rfl)
  · cases hk
  · cases hl

/-- A wider kind holds more. -/
theorem Holds.mono (hk : k.isWhole) (hl : l.isWhole) (hrank : k.rank ≤ l.rank) (h : k.Holds i) :
    l.Holds i := by
  cases k with
  | byte =>
      cases l with
      | byte => exact h
      | integer | long => simp only [Holds, longMin, longMax] at h ⊢; omega
      | single | double | decimal | char => cases hl
  | integer =>
      cases l with
      | byte => exact absurd hrank (by decide)
      | integer => exact h
      | long => simp only [Holds, longMin, longMax] at h ⊢; omega
      | single | double | decimal | char => cases hl
  | long =>
      cases l with
      | byte | integer => exact absurd hrank (by decide)
      | long => exact h
      | single | double | decimal | char => cases hl
  | single | double | decimal | char => cases hk

theorem Holds.wider_left (hk : k.isWhole) (hl : l.isWhole) (h : k.Holds i) :
    (k.wider l).Holds i := by
  refine h.mono hk (isWhole_wider hk hl) ?_
  unfold wider
  split <;> omega

theorem Holds.wider_right (hk : k.isWhole) (hl : l.isWhole) (h : l.Holds i) :
    (k.wider l).Holds i := by
  refine h.mono hl (isWhole_wider hk hl) ?_
  unfold wider
  split <;> omega

theorem Holds.long (hk : k.isWhole) (h : k.Holds i) : NumericKind.long.Holds i := by
  refine h.mono hk rfl ?_
  cases k with
  | byte | integer | long => decide
  | single | double | decimal | char => cases hk

end NumericKind

namespace WholeConstant

variable {c d : WholeConstant}

def constant : WholeConstant → Constant
  | byte n => .byte n
  | integer n => .integer n
  | long n => .long n

def kind : WholeConstant → NumericKind
  | byte _ => .byte
  | integer _ => .integer
  | long _ => .long

/-- The number that the constant is. -/
def int : WholeConstant → Int
  | byte n => n.toNat
  | integer n => n.toInt
  | long n => n.toInt

/-- The constant at the type of its kind. -/
def value (c : WholeConstant) : Value := .ofNumeric c.constant

@[simp] theorem kind?_constant (c : WholeConstant) : c.constant.kind? = some c.kind := by
  cases c <;> rfl

@[simp] theorem number?_constant (c : WholeConstant) : c.constant.number? = some (.int c.int) := by
  cases c <;> rfl

@[simp] theorem isWhole_kind (c : WholeConstant) : c.kind.isWhole := by
  cases c <;> rfl

theorem value_eq (c : WholeConstant) : c.value = .constant c.constant c.kind.type := by
  cases c <;> rfl

theorem holds (c : WholeConstant) : c.kind.Holds c.int := by
  cases c with
  | byte n =>
      have := n.toNat_lt
      exact ⟨by simp [int], by simp only [int]; omega⟩
  | integer n => exact ⟨n.le_toInt, n.toInt_lt⟩
  | long n => exact ⟨n.le_toInt, Int.le_of_lt_add_one n.toInt_lt⟩

/-- A constant is known by its kind and its number. -/
theorem eq_of_int (hk : c.kind = d.kind) (hi : c.int = d.int) : c = d := by
  cases c <;> cases d <;> cases hk
  · exact congrArg byte (UInt8.toNat_inj.mp (Int.ofNat_inj.mp hi))
  · exact congrArg integer (Int32.toInt_inj.mp hi)
  · exact congrArg long (Int64.toInt_inj.mp hi)

end WholeConstant

/-- The value is the constant of the kind for the number. -/
def Value.IsWhole (v : Value) (k : NumericKind) (i : Int) : Prop :=
  ∃ c : WholeConstant, v = c.value ∧ c.kind = k ∧ c.int = i

namespace Value.IsWhole

variable {v u : Value} {k : NumericKind} {i : Int}

theorem value (c : WholeConstant) : c.value.IsWhole c.kind c.int := ⟨c, rfl, rfl, rfl⟩

theorem holds (h : v.IsWhole k i) : k.Holds i := by
  obtain ⟨c, -, rfl, rfl⟩ := h
  exact c.holds

theorem unique (hv : v.IsWhole k i) (hu : u.IsWhole k i) : v = u := by
  obtain ⟨c, rfl, rfl, rfl⟩ := hv
  obtain ⟨d, rfl, hk, hi⟩ := hu
  rw [WholeConstant.eq_of_int hk hi]

end Value.IsWhole

namespace NumericKind

variable {k : NumericKind} {i : Int}

theorem ofInt?_of_holds (hk : k.isWhole) (h : k.Holds i) :
    ∃ c : WholeConstant, k.ofInt? i = some c.constant ∧ c.kind = k ∧ c.int = i := by
  unfold ofInt?
  rw [if_pos h]
  cases k with
  | byte =>
      refine ⟨.byte (.ofNat i.toNat), rfl, rfl, ?_⟩
      obtain ⟨hlow, hhigh⟩ := h
      have hlt : i.toNat < UInt8.size := by simp only [UInt8.size]; omega
      simp only [WholeConstant.int, UInt8.toNat_ofNat_of_lt' hlt]
      omega
  | integer => exact ⟨.integer (.ofInt i), rfl, rfl, Int32.toInt_ofInt_of_le h.1 h.2⟩
  | long =>
      refine ⟨.long (.ofInt i), rfl, rfl, ?_⟩
      exact Int64.toInt_ofInt_of_le h.1 (Int.lt_add_one_of_le h.2)
  | single | double | decimal | char => cases hk

end NumericKind

namespace Folding

variable {k : NumericKind} {i : Int} {v : Value}

theorem integralResult?_of_holds (hk : k.isWhole) (h : k.Holds i) :
    ∃ u, integralResult? i k = some u ∧ u.IsWhole k i := by
  obtain ⟨c, hc, rfl, rfl⟩ := NumericKind.ofInt?_of_holds hk h
  exact ⟨c.value, by rw [integralResult?, hc]; rfl, .value c⟩

theorem integralResult?_of_not_holds (h : ¬ k.Holds i) : integralResult? i k = none := by
  unfold integralResult? NumericKind.ofInt?
  rw [if_neg h]
  rfl

theorem integralResult?_eq_some_iff (hk : k.isWhole) :
    integralResult? i k = some v ↔ v.IsWhole k i := by
  constructor
  · intro hv
    by_cases h : k.Holds i
    · obtain ⟨u, hu, hwhole⟩ := integralResult?_of_holds hk h
      rwa [Option.some.inj (hv.symm.trans hu)]
    · rw [integralResult?_of_not_holds h] at hv
      cases hv
  · intro hv
    obtain ⟨u, hu, hwhole⟩ := integralResult?_of_holds hk hv.holds
    rw [hu, hwhole.unique hv]

end Folding
end StaticSemantics
