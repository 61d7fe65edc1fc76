import StaticSemantics.Proofs.Numeric.Reading
import StaticSemantics.Scope

/-!
Targets of symbols. The symbols that reach the same declaration, or are the same but for the sign of
a zero, are those with one target. Where there is no NaN, to have the same target is an equivalence.
-/

namespace StaticSemantics

/-! ## Constants, values and symbols -/

namespace Constant

def isNaN : Constant → Bool
  | single x => x.isNaN
  | double x | decimal x | enum x => x.isNaN
  | _ => false

def unsignZero : Constant → Constant
  | single x => single x.unsignZero
  | double x => double x.unsignZero
  | decimal x => decimal x.unsignZero
  | enum x => enum x.unsignZero
  | c => c

theorem same_iff {c d : Constant} (hc : c.isNaN = false) :
    c.same d = true ↔ c.unsignZero = d.unsignZero := by
  cases c with
  | single x => cases d <;> simp_all [same, unsignZero, isNaN, Binary.single_equal_iff]
  | double x | decimal x | enum x =>
      cases d <;> simp_all [same, unsignZero, isNaN, Binary.double_equal_iff]
  | _ => cases d <;> simp [same, unsignZero]

end Constant

namespace Value

/-- A NaN is part of the value. -/
def hasNaN : Value → Bool
  | constant c _ => c.isNaN
  | memberReference v _ _ | dynamicReference v _ | indexReference v _ | tupleElement v _ _
  | conversion v _ _ _ _ => v.hasNaN
  | _ => false

/-- The value with all zeros in it positive. -/
def unsignZero : Value → Value
  | constant c t => constant c.unsignZero t
  | memberReference v s t => memberReference v.unsignZero s t
  | dynamicReference v t => dynamicReference v.unsignZero t
  | indexReference v t => indexReference v.unsignZero t
  | tupleElement v i t => tupleElement v.unsignZero i t
  | conversion v r byCast byTryCast t => conversion v.unsignZero r byCast byTryCast t
  | v => v

@[simp] theorem slot?_unsignZero (v : Value) : v.unsignZero.slot? = v.slot? := by
  cases v <;> rfl

theorem same_iff {v u : Value} (hv : v.hasNaN = false) :
    v.same u = true ↔ v.unsignZero = u.unsignZero := by
  induction v generalizing u with
  | constant c t =>
      cases u <;> simp_all [same, unsignZero, hasNaN, Constant.same_iff]
  | memberReference v _ _ ih | dynamicReference v _ ih | indexReference v _ ih
  | tupleElement v _ _ ih | conversion v _ _ _ _ ih =>
      cases u <;> simp_all [same, unsignZero, hasNaN, and_assoc]
  | _ => cases u <;> simp [same, unsignZero]

end Value

mutual

def Symbol.hasNaN : Symbol → Bool
  | .value v => v.hasNaN
  | .error e => e.hasNaN
  | _ => false

def SymbolError.hasNaN : SymbolError → Bool
  | .duplicate _ s => s.hasNaN
  | _ => false

end

mutual

/-- The symbol with all zeros in it positive. -/
def Symbol.unsignZero : Symbol → Symbol
  | .value v => .value v.unsignZero
  | .error e => .error e.unsignZero
  | s => s

def SymbolError.unsignZero : SymbolError → SymbolError
  | .duplicate name s => .duplicate name s.unsignZero
  | e => e

end

mutual

theorem Symbol.same_iff : ∀ {s s' : Symbol}, s.hasNaN = false →
    (s.same s' = true ↔ s.unsignZero = s'.unsignZero)
  | .value v, s', hs => by
      cases s' <;> simp_all [Symbol.same, Symbol.unsignZero, Symbol.hasNaN, Value.same_iff]
  | .error e, s', hs => by
      cases s' with
      | error e' =>
          simpa [Symbol.same, Symbol.unsignZero] using
            SymbolError.same_iff (by simpa [Symbol.hasNaN] using hs)
      | _ => simp [Symbol.same, Symbol.unsignZero]
  | .type _, s', _ | .module _, s', _ | .slot _, s', _ | .aliasDecl _, s', _ => by
      cases s' <;> simp [Symbol.same, Symbol.unsignZero]

theorem SymbolError.same_iff : ∀ {e e' : SymbolError}, e.hasNaN = false →
    (e.same e' = true ↔ e.unsignZero = e'.unsignZero)
  | .duplicate name s, e', he => by
      cases e' with
      | duplicate name' s' =>
          have ih : s.same s' = true ↔ s.unsignZero = s'.unsignZero :=
            Symbol.same_iff (by simpa [SymbolError.hasNaN] using he)
          simp [SymbolError.same, SymbolError.unsignZero, ih]
      | _ => simp [SymbolError.same, SymbolError.unsignZero]
  | .ambiguous .., e', _ | .wrongArgumentCount _, e', _ | .incompatibleOverride _, e', _
  | .nothingToOverride, e', _ | .notOverridable, e', _ | .overridesHidden, e', _
  | .overridesVisibility, e', _ | .cyclicAlias _, e', _ => by
      cases e' <;> simp [SymbolError.same, SymbolError.unsignZero]

end

/-! ## Targets -/

/-- What a symbol comes down to, whichever way it is reached. -/
inductive Target where
  | slot (s : SlotId)
  | symbol (s : Symbol)
  deriving DecidableEq

/-- The slot that a reference reaches; any other symbol is its own target, but that zeros have no
sign. -/
def Symbol.target (s : Symbol) : Target :=
  match s.value?.bind Value.slot? with
  | some i => .slot i
  | none => .symbol s.unsignZero

namespace SymbolTable

theorem sameTarget_value_iff {v u : Value} (hv : v.hasNaN = false) :
    sameTarget (.value v) (.value u) = true ↔
      (Symbol.value v).target = (Symbol.value u).target := by
  have hsame := Value.same_iff (u := u) hv
  have hslot : v.unsignZero = u.unsignZero → v.slot? = u.slot? := fun h => by
    simpa using congrArg Value.slot? h
  unfold sameTarget Symbol.target
  cases hvs : v.slot? <;> cases hus : u.slot? <;> simp_all [Symbol.value?, Symbol.unsignZero]

/-- Without NaNs, the test is whether both symbols have one target. -/
theorem sameTarget_iff {s s' : Symbol} (hs : s.hasNaN = false) :
    sameTarget s s' = true ↔ s.target = s'.target := by
  have hsame : s.same s' = true ↔ s.unsignZero = s'.unsignZero := Symbol.same_iff hs
  cases s with
  | value v =>
      cases s' with
      | value u =>
          simp only [Symbol.hasNaN] at hs
          exact sameTarget_value_iff hs
      | _ =>
          cases hv : v.slot? <;>
            simp_all [sameTarget, Symbol.target, Symbol.value?, Symbol.unsignZero]
  | _ =>
      cases s' with
      | value u =>
          cases hu : u.slot? <;>
            simp_all [sameTarget, Symbol.target, Symbol.value?, Symbol.unsignZero]
      | _ => simp_all [sameTarget, Symbol.target, Symbol.value?]

end SymbolTable

end StaticSemantics
