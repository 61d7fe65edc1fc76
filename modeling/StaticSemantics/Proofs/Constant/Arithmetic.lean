import StaticSemantics.Proofs.Constant.Whole
import StaticSemantics.Proofs.Resolution.Outcome

/-!
Arithmetic on whole numbers. The expressions of integer arithmetic have a value among all whole
numbers and a kind, the wider of their literals' kinds. Folding goes through the sub-expressions in
the order in which they are evaluated and stops at the first that is faulty: its value does not fit
its kind, or it divides by zero, or it is the one remainder whose quotient leaves 64 bits. If none
is faulty, the result is the value at the kind of the whole.
-/

namespace StaticSemantics

/-! ## Operators -/

/-- The operators of integer arithmetic. -/
inductive WholeOp where
  | add
  | subtract
  | multiply
  | quotient
  | remainder
  deriving DecidableEq

namespace WholeOp

def operator : WholeOp → Operator
  | add => .add
  | subtract => .subtract
  | multiply => .multiply
  | quotient => .integerDivide
  | remainder => .modulo

/-- The operator on whole numbers. Division truncates toward zero, and a remainder has the sign of
the dividend. -/
def apply : WholeOp → Int → Int → Int
  | add, i, j => i + j
  | subtract, i, j => i - j
  | multiply, i, j => i * j
  | quotient, i, j => i.tdiv j
  | remainder, i, j => i.tmod j

/-- The operands have no result, whatever its kind. -/
def Refuses : WholeOp → Int → Int → Prop
  | quotient, _, j => j = 0
  | remainder, i, j => j = 0 ∨ (i = longMin ∧ j = -1)
  | _, _, _ => False

instance : (op : WholeOp) → (i j : Int) → Decidable (op.Refuses i j)
  | quotient, _, j => inferInstanceAs (Decidable (j = 0))
  | remainder, i, j => inferInstanceAs (Decidable (j = 0 ∨ (i = longMin ∧ j = -1)))
  | add, _, _ | subtract, _, _ | multiply, _, _ => .isFalse id

end WholeOp

namespace Folding

theorem text?_whole (c : WholeConstant) : text? c.constant = none := by
  cases c <;> rfl

/-- The operator is applied exactly, in the wider of the two kinds. -/
theorem binary?_whole (w : SymbolTable) (op : WholeOp) (c d : WholeConstant) (t u : TypeId) :
    binary? w op.operator (.constant c.constant t) (.constant d.constant u) =
      if op.Refuses c.int d.int then none
      else integralResult? (op.apply c.int d.int) (c.kind.wider d.kind) := by
  have hpromote := NumericKind.promote_of_isWhole c.isWhole_kind d.isWhole_kind
  have hintegral := NumericKind.isIntegral_of_isWhole
    (NumericKind.isWhole_wider c.isWhole_kind d.isWhole_kind)
  have harithmetic : binary? w op.operator (.constant c.constant t) (.constant d.constant u) =
      arithmetic? op.operator c.constant d.constant := by
    cases op with
    | add => simp [binary?, WholeOp.operator, Value.constant?, text?_whole]
    | subtract | multiply | quotient | remainder => rfl
  rw [harithmetic]
  unfold arithmetic?
  cases op with
  | add | subtract | multiply =>
      simp [WholeOp.operator, WholeOp.apply, WholeOp.Refuses, integerArithmetic?, hpromote,
        hintegral]
  | quotient => cases c <;> cases d <;> rfl
  | remainder =>
      by_cases hrefuses : WholeOp.remainder.Refuses c.int d.int
      · have hnone : integerArithmetic? .modulo c.int d.int = none := if_pos hrefuses
        simp [WholeOp.operator, hnone, hpromote, hintegral, hrefuses]
      · have hsome : integerArithmetic? .modulo c.int d.int = some (c.int.tmod d.int) :=
          if_neg hrefuses
        simp [WholeOp.operator, WholeOp.apply, hsome, hpromote, hintegral, hrefuses]

/-- A negative is taken exactly, in the kind of the operand or in that of integers. -/
theorem unary?_negate (c : WholeConstant) (t : TypeId) :
    unary? .negate (.constant c.constant t) =
      integralResult? (-c.int) (c.kind.wider .integer) := by
  cases c <;> rfl

end Folding

/-! ## Expressions -/

/-- An expression of integer arithmetic. -/
inductive WholeExpr where
  | integer (node : Node) (n : Int64)
  | long (node : Node) (n : Int64)
  | parens (node : Node) (inner : WholeExpr)
  | positive (node : Node) (operand : WholeExpr)
  | negate (node : Node) (operand : WholeExpr)
  | binary (node : Node) (op : WholeOp) (left right : WholeExpr)

namespace WholeExpr

def expr : WholeExpr → Expr
  | integer node n => .literal node (.integer n)
  | long node n => .literal node (.long n)
  | parens node inner => .parens node inner.expr
  | positive node operand => .unary node .positive operand.expr
  | negate node operand => .unary node .negate operand.expr
  | binary node op left right => .binary node op.operator left.expr right.expr

/-- The value among all whole numbers. -/
def value : WholeExpr → Int
  | integer _ n | long _ n => n.toInt
  | parens _ inner => inner.value
  | positive _ operand => operand.value
  | negate _ operand => -operand.value
  | binary _ op left right => op.apply left.value right.value

/-- The widest kind among the literals. A literal without a suffix is an integer if it fits. -/
def kind : WholeExpr → NumericKind
  | integer _ n => if NumericKind.integer.Holds n.toInt then .integer else .long
  | long _ _ => .long
  | parens _ inner => inner.kind
  | positive _ operand | negate _ operand => operand.kind
  | binary _ _ left right => left.kind.wider right.kind

/-- The sub-expressions in the order of their evaluation, the expression itself last. -/
def steps : WholeExpr → List WholeExpr
  | integer node n => [integer node n]
  | long node n => [long node n]
  | parens node inner => inner.steps ++ [parens node inner]
  | positive node operand => operand.steps ++ [positive node operand]
  | negate node operand => operand.steps ++ [negate node operand]
  | binary node op left right => left.steps ++ right.steps ++ [binary node op left right]

/-- The operator at the top, if there is one, refuses the values of its operands. -/
def Refused : WholeExpr → Prop
  | binary _ op left right => op.Refuses left.value right.value
  | _ => False

instance : (e : WholeExpr) → Decidable e.Refused
  | binary _ op left right => inferInstanceAs (Decidable (op.Refuses left.value right.value))
  | integer .. | long .. | parens .. | positive .. | negate .. => .isFalse id

/-- The expression has no value of its kind, though its operands may have. -/
def Faulty (e : WholeExpr) : Prop := e.Refused ∨ ¬ e.kind.Holds e.value

instance (e : WholeExpr) : Decidable e.Faulty := inferInstanceAs (Decidable (_ ∨ _))

/-- The first faulty sub-expression. -/
def firstFault? (e : WholeExpr) : Option WholeExpr := e.steps.find? fun e => e.Faulty

/-- The sub-expression is faulty, and none that is evaluated before it is. -/
def FaultsFirst (e e' : WholeExpr) : Prop :=
  ∃ before after, e.steps = before ++ e' :: after ∧ (∀ x ∈ before, ¬ x.Faulty) ∧ e'.Faulty

theorem firstFault?_eq_some_iff {e e' : WholeExpr} :
    e.firstFault? = some e' ↔ e.FaultsFirst e' := by
  unfold firstFault? FaultsFirst
  rw [List.find?_eq_some_iff_append]
  constructor
  · rintro ⟨hfaulty, before, after, hsteps, hbefore⟩
    exact ⟨before, after, hsteps, by simpa using hbefore, by simpa using hfaulty⟩
  · rintro ⟨before, after, hsteps, hbefore, hfaulty⟩
    exact ⟨by simpa using hfaulty, before, after, hsteps, by simpa using hbefore⟩

/-- The expression itself, if it is faulty. -/
def ownFault? (e : WholeExpr) : Option WholeExpr := if e.Faulty then some e else none

/-- An expression comes after its operands. -/
theorem firstFault?_of_steps {e : WholeExpr} {operands : List WholeExpr}
    (h : e.steps = operands ++ [e]) :
    e.firstFault? = (operands.find? fun e => e.Faulty).or e.ownFault? := by
  unfold firstFault? ownFault?
  rw [h, List.find?_append, List.find?_singleton]
  simp

theorem firstFault?_binary (node : Node) (op : WholeOp) (left right : WholeExpr) :
    (binary node op left right).firstFault? =
      left.firstFault?.or (right.firstFault?.or (binary node op left right).ownFault?) := by
  rw [firstFault?_of_steps rfl, List.find?_append, Option.or_assoc]
  rfl

/-- Bytes have no literals. -/
theorem kind_cases (e : WholeExpr) : e.kind = .integer ∨ e.kind = .long := by
  induction e with
  | integer node n =>
      unfold kind
      split
      · exact .inl rfl
      · exact .inr rfl
  | long => exact .inr rfl
  | parens _ _ ih | positive _ _ ih | negate _ _ ih => exact ih
  | binary _ _ left right ihl ihr =>
      unfold kind NumericKind.wider
      split
      · exact ihr
      · exact ihl

theorem isWhole_kind (e : WholeExpr) : e.kind.isWhole := by
  rcases e.kind_cases with hk | hk
  · rw [hk]; rfl
  · rw [hk]; rfl

theorem kind_wider_integer (e : WholeExpr) : e.kind.wider .integer = e.kind := by
  rcases e.kind_cases with hk | hk
  · rw [hk]; rfl
  · rw [hk]; rfl

/-- A literal without a suffix is a constant of the narrowest kind that holds it. -/
theorem isWhole_integer (n : Int64) : (Literal.integer n).value.IsWhole
    (if NumericKind.integer.Holds n.toInt then .integer else .long) n.toInt := by
  by_cases hholds : NumericKind.integer.Holds n.toInt
  · simp only [Literal.value, if_pos hholds]
    exact ⟨.integer (.ofInt n.toInt), rfl, rfl, Int32.toInt_ofInt_of_le hholds.1 hholds.2⟩
  · simp only [Literal.value, if_neg hholds]
    exact ⟨.long n, rfl, rfl, rfl⟩

end WholeExpr

namespace Workspace

variable {ws : Workspace}

/-- The outcome of folding an expression of integer arithmetic. -/
inductive FoldsWhole (ws : Workspace) (e : WholeExpr) : Outcome Value → Prop where
  | folded {v : Value} (hnone : e.firstFault? = none) (hv : v.IsWhole e.kind e.value) :
      ws.FoldsWhole e (ws.answer v)
  | stopped {e' : WholeExpr} (hsome : e.firstFault? = some e') :
      ws.FoldsWhole e (ws.failAsConstant e'.expr)

/-- A value of the right kind leaves nothing to object to but the operator. -/
theorem FoldsWhole.of_isWhole {e : WholeExpr} {v : Value} (hoperands : e.firstFault? = e.ownFault?)
    (hrefused : ¬ e.Refused) (hv : v.IsWhole e.kind e.value) : ws.FoldsWhole e (ws.answer v) := by
  refine .folded (hoperands.trans (if_neg ?_)) hv
  rintro (h | h)
  · exact hrefused h
  · exact h hv.holds

theorem answerConstant_foldsWhole (ws : Workspace) {e : WholeExpr}
    (hoperands : e.firstFault? = e.ownFault?) :
    ws.FoldsWhole e (ws.answerConstant e.expr
      (if e.Refused then none else Folding.integralResult? e.value e.kind)) := by
  by_cases hrefused : e.Refused
  · rw [if_pos hrefused]
    exact .stopped (hoperands.trans (if_pos (.inl hrefused)))
  · rw [if_neg hrefused]
    by_cases hholds : e.kind.Holds e.value
    · obtain ⟨v, hv, hwhole⟩ := Folding.integralResult?_of_holds e.isWhole_kind hholds
      rw [hv]
      exact .of_isWhole hoperands hrefused hwhole
    · rw [Folding.integralResult?_of_not_holds hholds]
      exact .stopped (hoperands.trans (if_pos (.inr hholds)))

/-- The first faulty sub-expression is the first one of the operand; if there is none, it is that
of the rest. -/
theorem FoldsWhole.andThen {operand e : WholeExpr} {o : Outcome Value}
    {next : Value → Workspace → Outcome Value} {rest : Option WholeExpr}
    (h : ws.FoldsWhole operand o) (hfirst : e.firstFault? = operand.firstFault?.or rest)
    (hnext : ∀ v, v.IsWhole operand.kind operand.value → e.firstFault? = rest →
      ws.FoldsWhole e (next v ws)) : ws.FoldsWhole e (o.andThen next) := by
  cases h with
  | @folded v hnone hv =>
      rw [hnone, Option.none_or] at hfirst
      exact hnext v hv hfirst
  | @stopped e' hsome =>
      rw [hsome, Option.some_or] at hfirst
      exact .stopped hfirst

theorem resolveConstant_foldsWhole (ws : Workspace) (e : WholeExpr) :
    ws.FoldsWhole e (ws.resolveConstant e.expr) := by
  induction e with
  | integer node n =>
      exact .of_isWhole (@WholeExpr.firstFault?_of_steps _ [] rfl) id (WholeExpr.isWhole_integer n)
  | long node n =>
      exact .of_isWhole (@WholeExpr.firstFault?_of_steps _ [] rfl) id ⟨.long n, rfl, rfl, rfl⟩
  | parens node inner ih =>
      rw [WholeExpr.expr, resolveConstant]
      generalize ws.resolveConstant inner.expr = o at ih ⊢
      have hfirst : (WholeExpr.parens node inner).firstFault? = inner.firstFault?.or _ :=
        WholeExpr.firstFault?_of_steps rfl
      cases ih with
      | @folded v hnone hv =>
          rw [hnone, Option.none_or] at hfirst
          exact .of_isWhole hfirst id hv
      | @stopped e' hsome =>
          rw [hsome, Option.some_or] at hfirst
          exact .stopped hfirst
  | positive node operand ih =>
      refine ih.andThen (WholeExpr.firstFault?_of_steps rfl) fun v hv hrest => ?_
      have hfold : Folding.unary? .positive v =
          Folding.integralResult? operand.value operand.kind := by
        rw [(Folding.integralResult?_eq_some_iff operand.isWhole_kind).mpr hv]
        obtain ⟨c, rfl, -, -⟩ := hv
        cases c <;> rfl
      rw [hfold]
      exact ws.answerConstant_foldsWhole hrest
  | negate node operand ih =>
      refine ih.andThen (WholeExpr.firstFault?_of_steps rfl) fun v hv hrest => ?_
      have hfold : Folding.unary? .negate v =
          Folding.integralResult? (-operand.value) operand.kind := by
        obtain ⟨c, rfl, hk, hi⟩ := hv
        rw [WholeConstant.value_eq, Folding.unary?_negate, hk, hi, operand.kind_wider_integer]
      rw [hfold]
      exact ws.answerConstant_foldsWhole hrest
  | binary node op left right ihl ihr =>
      refine ihl.andThen (WholeExpr.firstFault?_binary node op left right) fun v hv hrest => ?_
      refine ihr.andThen hrest fun u hu hrest => ?_
      have hfold : Folding.binary? ws.table op.operator v u =
          if op.Refuses left.value right.value then none
          else Folding.integralResult? (op.apply left.value right.value)
            (left.kind.wider right.kind) := by
        obtain ⟨c, rfl, hk, hi⟩ := hv
        obtain ⟨d, rfl, hl, hj⟩ := hu
        rw [WholeConstant.value_eq, WholeConstant.value_eq, Folding.binary?_whole, hk, hi, hl, hj]
      rw [hfold]
      exact ws.answerConstant_foldsWhole hrest

end Workspace

namespace Session

/-- Folding an expression of integer arithmetic is exact: a result is the value of the expression
among all whole numbers, at the widest kind of its literals. There is no result exactly if some
sub-expression is faulty, and then folding stops at the one that is evaluated first. -/
theorem wholeArithmetic_exact (s : Session) (ctx : Context) (e : WholeExpr) :
    (∀ v, (s.resolveConstant ctx e.expr).1 = some v → v.IsWhole e.kind e.value) ∧
    ((s.resolveConstant ctx e.expr).1 = none ↔ ∃ e', e.FaultsFirst e') ∧
    ∀ e', e.FaultsFirst e' → s.resolveConstant ctx e.expr = s.failAsConstant ctx e'.expr := by
  have hfolds := s.workspace.resolveConstant_foldsWhole e
  simp only [← WholeExpr.firstFault?_eq_some_iff, resolveConstant_eq_accept]
  generalize s.workspace.resolveConstant e.expr = o at hfolds ⊢
  cases hfolds with
  | folded hnone hv =>
      rw [hnone]
      refine ⟨?_, ⟨nofun, nofun⟩, nofun⟩
      rintro _ ⟨⟩
      exact hv
  | @stopped e' hsome =>
      rw [hsome]
      refine ⟨nofun, ⟨fun _ => ⟨e', rfl⟩, fun _ => rfl⟩, ?_⟩
      rintro _ ⟨⟩
      exact s.accept_fail ctx e'.expr _

/-- The quotient of the integer `-(7)` by the long `2` is the long `-3`. The sum of integers
`-(7) + 2147483647 * 2` stops at its product, which fits no integer. -/
theorem wholeArithmetic_exact_samples :
    let seven : WholeExpr := .negate { id := 3 } (.parens { id := 2 } (.integer { id := 1 } 7))
    let half : WholeExpr := .binary { id := 5 } .quotient seven (.long { id := 4 } 2)
    let product : WholeExpr :=
      .binary { id := 6 } .multiply (.integer { id := 4 } 2147483647) (.integer { id := 5 } 2)
    let sum : WholeExpr := .binary { id := 7 } .add seven product
    let s : Session := {}
    (s.resolveConstant {} half.expr).1 = some (.constant (.long (-3)) .long) ∧
      (Value.constant (.long (-3)) .long).IsWhole half.kind half.value ∧
      sum.FaultsFirst product ∧ (s.resolveConstant {} sum.expr).1 = none ∧
      s.resolveConstant {} sum.expr = s.failAsConstant {} product.expr := by
  intro seven half product sum s
  have hhalf : (s.resolveConstant {} half.expr).1 = some (.constant (.long (-3)) .long) := by
    decide +kernel
  have hfaults : sum.FaultsFirst product :=
    ⟨[.integer { id := 1 } 7, .parens { id := 2 } (.integer { id := 1 } 7), seven,
      .integer { id := 4 } 2147483647, .integer { id := 5 } 2], [sum], rfl, by decide, by decide⟩
  have hsum := wholeArithmetic_exact s {} sum
  exact ⟨hhalf, (wholeArithmetic_exact s {} half).1 _ hhalf, hfaults, hsum.2.1.mpr ⟨_, hfaults⟩,
    hsum.2.2 _ hfaults⟩

end Session
end StaticSemantics
