import StaticSemantics.Proofs.Constant.Coercion
import StaticSemantics.Proofs.Constant.Quotient
import StaticSemantics.Proofs.Constant.Words

/-!
Characters as operands. What is computed from two numbers is computed in their common kind, and a
character has none with any constant; so no such operator takes a character. Of the operators on one
number only the negative is not kept from characters as such. It is kept from them by its sign,
which the character with the code zero does not have.
-/

namespace StaticSemantics

/-- The value is a constant whose characters can be appended to others. -/
def Value.isText (v : Value) : Bool := (v.constant?.bind Folding.text?).isSome

namespace Folding

variable {w : SymbolTable} {op : Operator} {c d : Constant} {t u : TypeId} {x : Char}

/-- The operators that compute a number from two numbers and nothing else. -/
def isNumerical : Operator → Bool
  | .subtract | .multiply | .divide | .integerDivide | .modulo | .exponent | .leftShift
  | .rightShift | .unsignedRightShift | .and | .or | .xor => true
  | _ => false

/-! ## Two operands -/

theorem commonKind?_char_left (x : Char) (d : Constant) :
    (Constant.char x).commonKind? d = none := by
  unfold Constant.commonKind?
  cases d.kind? with
  | none => rfl
  | some l => simp [Constant.kind?, NumericKind.promote]

theorem commonKind?_char_right (c : Constant) (x : Char) :
    c.commonKind? (.char x) = none := by
  unfold Constant.commonKind?
  cases c.kind? with
  | none => rfl
  | some k => simp [Constant.kind?, NumericKind.promote]

/-- Whatever is to be computed in the common kind is not computed if there is none. -/
theorem bind_promote_of_commonKind? {α : Type} (h : c.commonKind? d = none)
    (compute : NumericKind → NumericKind → Option α) :
    (c.kind?.bind fun k => d.kind?.bind fun l => (k.promote l).bind (compute k)) = none := by
  cases hc : c.kind? with
  | none => rfl
  | some k =>
      cases hd : d.kind? with
      | none => rfl
      | some l =>
          have hnone : k.promote l = none := by simpa [Constant.commonKind?, hc, hd] using h
          simp [hnone]

theorem arithmetic?_of_commonKind? (h : c.commonKind? d = none) : arithmetic? op c d = none :=
  bind_promote_of_commonKind? h _

theorem bitwise?_of_commonKind? (h : c.commonKind? d = none)
    (hnumber : c.kind?.isSome ∨ d.kind?.isSome) :
    bitwise? w op (.constant c t) (.constant d u) = none := by
  simp only [bitwise?, Value.constant?, Option.bind_eq_bind, Option.bind_some]
  -- two booleans and two members of an enum are no numbers
  split
  · rcases hnumber with hk | hk <;> cases hk
  · rcases hnumber with hk | hk <;> cases hk
  · exact bind_promote_of_commonKind? h _

theorem binary?_of_isNumerical (hop : isNumerical op) :
    binary? w op (.constant c t) (.constant d u) =
      if combinesBits op then bitwise? w op (.constant c t) (.constant d u)
      else arithmetic? op c d := by
  cases op with
  | subtract | multiply | divide | integerDivide | modulo | exponent | leftShift | rightShift
  | unsignedRightShift | and | or | xor => rfl
  | _ => cases hop

/-- A number and a constant with which it has no common kind are no operands of such operators. -/
theorem binary?_of_commonKind? (hop : isNumerical op) (h : c.commonKind? d = none)
    (hnumber : c.kind?.isSome ∨ d.kind?.isSome) :
    binary? w op (.constant c t) (.constant d u) = none := by
  rw [binary?_of_isNumerical hop]
  split
  · exact bitwise?_of_commonKind? h hnumber
  · exact arithmetic?_of_commonKind? h

theorem binary?_add_of_commonKind? (h : c.commonKind? d = none)
    (htext : ¬((text? c).isSome ∧ (text? d).isSome)) :
    binary? w .add (.constant c t) (.constant d u) = none := by
  show (if (text? c).isSome ∧ (text? d).isSome then concat? c d else arithmetic? .add c d) = none
  rw [if_neg htext]
  exact arithmetic?_of_commonKind? h

theorem binary?_of_constant?_left {v v' : Value} (h : v.constant? = none) :
    binary? w op v v' = none := by
  rw [binary?, h]
  rfl

theorem binary?_of_constant?_right {v v' : Value} (h : v'.constant? = none) :
    binary? w op v v' = none := by
  rw [binary?, h]
  cases v.constant? <;> rfl

/-! ## One operand -/

theorem unary?_negate_char :
    unary? .negate (.constant (.char x) t) = integralResult? (-x.toNat) .char := rfl

/-- Only the character with the code zero has a negative, which is itself. -/
theorem unary?_negate_char_eq_some_iff {v : Value} :
    unary? .negate (.constant (.char x) t) = some v ↔ x.toNat = 0 ∧ v = .ofChar x := by
  rw [unary?_negate_char, integralResult?, Option.map_eq_some_iff]
  simp only [NumericKind.ofInt?_eq_some_iff (k := .char) rfl]
  constructor
  · rintro ⟨_, ⟨a, rfl, hkind, hint⟩, rfl⟩
    have hholds := a.holds
    rw [hkind, hint] at hholds
    have hzero : x.toNat = 0 := by
      have hlow := hholds.1
      omega
    have hx : a = .char x := by
      refine IntegralConstant.eq_of_int hkind ?_
      rw [hint, IntegralConstant.int, hzero]
      rfl
    exact ⟨hzero, by rw [hx]; rfl⟩
  · rintro ⟨hzero, rfl⟩
    exact ⟨.char x, ⟨.char x, rfl, rfl, by simp [IntegralConstant.int, hzero]⟩, rfl⟩

/-- No operator takes a character as a number, neither alone nor beside any other value, be it a
number or not; and the sum of a character and what is no text fails. The one exception is the
negative of the character with the code zero. -/
theorem characters_excluded (w : SymbolTable) (x : Char) (t : TypeId) (v : Value) :
    let char := Value.constant (.char x) t
    unary? .positive char = none ∧ unary? .not char = none ∧
    (∀ u, unary? .negate char = some u ↔ x.toNat = 0 ∧ u = .ofChar x) ∧
    (∀ op, isNumerical op → binary? w op char v = none ∧ binary? w op v char = none) ∧
    (v.isText = false → binary? w .add char v = none ∧ binary? w .add v char = none) := by
  intro char
  refine ⟨rfl, rfl, fun u => unary?_negate_char_eq_some_iff, fun op hop => ?_, fun htext => ?_⟩
  · cases v with
    | constant d u =>
        exact ⟨binary?_of_commonKind? hop (commonKind?_char_left x d) (.inl rfl),
          binary?_of_commonKind? hop (commonKind?_char_right d x) (.inr rfl)⟩
    | _ => exact ⟨binary?_of_constant?_right rfl, binary?_of_constant?_left rfl⟩
  · cases v with
    | constant d u =>
        have hd : ¬(text? d).isSome := by simpa [Value.isText, Value.constant?] using htext
        exact ⟨binary?_add_of_commonKind? (commonKind?_char_left x d) fun h => hd h.2,
          binary?_add_of_commonKind? (commonKind?_char_right d x) fun h => hd h.1⟩
    | _ => exact ⟨binary?_of_constant?_right rfl, binary?_of_constant?_left rfl⟩

/-- The character with the code zero has a negative, though it is no operand of a sum. -/
theorem characters_excluded_zero :
    let zero := Value.constant (.char (.ofNat 0)) .char
    let one := Value.constant (.integer 1) .integer
    isNumerical .subtract ∧ one.isText = false ∧ unary? .negate zero = some zero ∧
      unary? .positive zero = none ∧ binary? {} .subtract one zero = none ∧
      binary? {} .add zero one = none := by
  intro zero one
  obtain ⟨hpositive, -, hnegate, hnumerical, hsum⟩ := characters_excluded {} (.ofNat 0) .char one
  exact ⟨rfl, rfl, (hnegate zero).mpr ⟨rfl, rfl⟩, hpositive, (hnumerical .subtract rfl).2,
    (hsum rfl).1⟩

end Folding
end StaticSemantics
