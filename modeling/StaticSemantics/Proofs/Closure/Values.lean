import Mathlib.Tactic.SplitIfs
import StaticSemantics.Proofs.Closure.Lookup
import StaticSemantics.Proofs.Resolution.Outcome

/-!
What computed values mention. Folding yields constants of the types that they have by themselves, or
members of the enum that an operand is a member of; a conversion adds the type that it converts to.
-/

namespace StaticSemantics

/-- What holds of all that the second step yields holds of what both yield together. -/
theorem forall_mem_bind {α β : Type} {o : Option α} {f : α → Option β} {P : β → Prop}
    (h : ∀ a ∈ o, ∀ b ∈ f a, P b) : ∀ b ∈ o.bind f, P b := by
  intro b hb
  obtain ⟨a, ha, hb⟩ := Option.bind_eq_some_iff.mp hb
  exact h a ha b hb

/-! ## Kinds of numbers -/

theorem NumericKind.kind?_ofInt? {k : NumericKind} {i : Int} {c : Constant}
    (hc : k.ofInt? i = some c) : c.kind? = some k := by
  unfold ofInt? at hc
  split at hc
  · cases k <;> cases hc <;> rfl
  · cases hc

theorem Number.kind?_toKind? {n : Number} {k : NumericKind} {c : Constant}
    (hc : n.toKind? k = some c) : c.kind? = some k := by
  cases k with
  | single =>
      simp only [toKind?] at hc
      split at hc
      · cases hc
      · cases hc
        rfl
  | double | decimal =>
      cases hc
      rfl
  | byte | integer | long | char =>
      obtain ⟨i, _, hc⟩ := Option.bind_eq_some_iff.mp hc
      exact NumericKind.kind?_ofInt? hc

theorem Constant.ownType?_of_kind? {c : Constant} {k : NumericKind} (hk : c.kind? = some k) :
    c.ownType? = some k.type := by
  cases c <;> cases hk <;> rfl

/-- Constants have types of their own that exist from the start. -/
theorem Constant.index_lt_of_ownType? {c : Constant} {t : TypeId} (ht : c.ownType? = some t) :
    t.index < 20 := by
  cases c <;> cases ht <;> decide

/-! ## Folding -/

/-- A constant of the type that it has by itself. -/
def Value.SelfTyped (v : Value) : Prop := ∃ c t, v = .constant c t ∧ c.ownType? = some t

namespace Value.SelfTyped

theorem ofNumeric {c : Constant} {k : NumericKind} (hk : c.kind? = some k) :
    (Value.ofNumeric c).SelfTyped := by
  refine ⟨c, k.type, ?_, c.ownType?_of_kind? hk⟩
  rw [Value.ofNumeric, hk]
  rfl

theorem ofBool (b : Bool) : (Value.ofBool b).SelfTyped := ⟨_, _, rfl, rfl⟩

theorem literal (l : Literal) : l.value.SelfTyped := by
  cases l with
  | integer n =>
      simp only [Literal.value]
      split
      · exact ⟨_, _, rfl, rfl⟩
      · exact ⟨_, _, rfl, rfl⟩
  | _ => exact ⟨_, _, rfl, rfl⟩

end Value.SelfTyped

namespace Folding

theorem integralResult?_selfTyped (i : Int) (k : NumericKind) :
    ∀ u ∈ integralResult? i k, u.SelfTyped := by
  intro u hu
  obtain ⟨c, hc, rfl⟩ := Option.map_eq_some_iff.mp hu
  exact .ofNumeric (NumericKind.kind?_ofInt? hc)

theorem floatResult?_selfTyped (x : Double) (k : NumericKind) :
    ∀ u ∈ floatResult? x k, u.SelfTyped := by
  intro u hu
  unfold floatResult? at hu
  split at hu
  · obtain ⟨c, hc, rfl⟩ := Option.map_eq_some_iff.mp hu
    exact .ofNumeric (Number.kind?_toKind? hc)
  · cases hu

theorem complement?_selfTyped (c : Constant) : ∀ u ∈ complement? c, u.SelfTyped := by
  intro u hu
  cases c with
  | boolean b => cases hu; exact .ofBool _
  | byte _ | integer _ | long _ => cases hu; exact .ofNumeric rfl
  | _ => cases hu

theorem negate?_selfTyped (c : Constant) : ∀ u ∈ negate? c, u.SelfTyped := by
  refine forall_mem_bind fun k _ => forall_mem_bind fun n _ => ?_
  cases n with
  | int i => exact integralResult?_selfTyped _ _
  | float x => exact floatResult?_selfTyped _ _

theorem concat?_selfTyped (c d : Constant) : ∀ u ∈ concat? c d, u.SelfTyped := by
  refine forall_mem_bind fun s _ => forall_mem_bind fun t _ => ?_
  rintro _ ⟨⟩
  exact ⟨_, _, rfl, rfl⟩

theorem arithmetic?_selfTyped (op : Operator) (c d : Constant) :
    ∀ u ∈ arithmetic? op c d, u.SelfTyped := by
  refine forall_mem_bind fun kc _ => forall_mem_bind fun kd _ => forall_mem_bind fun k _ =>
    forall_mem_bind fun a _ => forall_mem_bind fun b _ => ?_
  split
  · split
    · simp
    · exact floatResult?_selfTyped _ _
  · exact floatResult?_selfTyped _ _
  · refine forall_mem_bind fun i _ => forall_mem_bind fun j _ => ?_
    split
    · simp
    · exact integralResult?_selfTyped _ _
  iterate 3
    · split
      · exact forall_mem_bind fun i _ => integralResult?_selfTyped _ _
      · simp
  · split
    · split
      · exact forall_mem_bind fun i _ => integralResult?_selfTyped _ _
      · simp
    · exact forall_mem_bind fun x _ => floatResult?_selfTyped _ _

/-- Where bits are combined, the result has a type of its own, or is a member of the flags enum that
the first operand is a member of. -/
theorem bitwise?_selfTyped (w : SymbolTable) (op : Operator) (v u : Value) :
    ∀ r ∈ bitwise? w op v u, r.SelfTyped ∨
      ∃ x, r = .ofEnum x v.type ∧ (w.type v.type).isFlagsEnum := by
  refine forall_mem_bind fun c _ => forall_mem_bind fun d _ => ?_
  split
  · rintro _ ⟨⟩
    exact .inl (.ofBool _)
  · split
    · rename_i hflags
      rintro _ ⟨⟩
      exact .inr ⟨_, rfl, hflags.2⟩
    · simp
  · refine forall_mem_bind fun kc _ => forall_mem_bind fun kd _ => forall_mem_bind fun k _ =>
      forall_mem_bind fun a _ => forall_mem_bind fun b _ => ?_
    split
    · split
      · exact fun r hr => .inl (integralResult?_selfTyped _ _ r hr)
      · simp
    · simp

theorem unary?_selfTyped (op : Operator) (v : Value) :
    ∀ r ∈ unary? op v, r.SelfTyped ∨ r = v := by
  refine forall_mem_bind fun c _ => ?_
  split
  · exact fun r hr => .inl (complement?_selfTyped c r hr)
  · intro r hr
    obtain ⟨_, _, rfl⟩ := Option.map_eq_some_iff.mp hr
    exact .inr rfl
  · exact fun r hr => .inl (negate?_selfTyped c r hr)
  · simp

theorem binary?_selfTyped (w : SymbolTable) (op : Operator) (v u : Value) :
    ∀ r ∈ binary? w op v u, r.SelfTyped ∨
      ∃ x, r = .ofEnum x v.type ∧ (w.type v.type).isFlagsEnum := by
  refine forall_mem_bind fun c _ => forall_mem_bind fun d _ => ?_
  have arith : ∀ r ∈ arithmetic? op c d, r.SelfTyped ∨
      ∃ x, r = .ofEnum x v.type ∧ (w.type v.type).isFlagsEnum :=
    fun r hr => .inl (arithmetic?_selfTyped op c d r hr)
  have concat : ∀ r ∈ concat? c d, r.SelfTyped ∨
      ∃ x, r = .ofEnum x v.type ∧ (w.type v.type).isFlagsEnum :=
    fun r hr => .inl (concat?_selfTyped c d r hr)
  have compared : ∀ r ∈ (compare? c d).bind fun o => (holds? op o).map Value.ofBool,
      r.SelfTyped ∨ ∃ x, r = .ofEnum x v.type ∧ (w.type v.type).isFlagsEnum := by
    refine forall_mem_bind fun o _ r hr => ?_
    obtain ⟨b, _, rfl⟩ := Option.map_eq_some_iff.mp hr
    exact .inl (.ofBool b)
  cases op with
  | concat => exact concat
  | and | or | xor => exact bitwise?_selfTyped w _ v u
  | equals | notEquals | less | greater | lessOrEqual | greaterOrEqual => exact compared
  | add =>
      dsimp only
      split
      · exact concat
      · exact arith
  | _ => exact arith

end Folding

namespace SymbolTable.Closed

variable {w : SymbolTable} {v u : Value} {t u' : TypeId}

theorem covers_selfTyped (h : w.Closed) (hv : v.SelfTyped) : w.Covers v.ids := by
  obtain ⟨c, t, rfl, ht⟩ := hv
  simpa [Value.ids] using h.has_supplied (c.index_lt_of_ownType? ht)

theorem type_has (h : w.Covers v.ids) : w.types.Has v.type := by
  cases v <;> simp_all [Value.ids, Value.type]

theorem covers_constant (ht : w.types.Has t) (c : Constant) :
    w.Covers (Value.constant c t).ids := by
  simpa [Value.ids] using ht

theorem covers_unary? (h : w.Closed) {op : Operator} (hv : w.Covers v.ids)
    (hu : Folding.unary? op v = some u) : w.Covers u.ids := by
  rcases Folding.unary?_selfTyped op v u hu with hs | rfl
  · exact h.covers_selfTyped hs
  · exact hv

theorem covers_binary? (h : w.Closed) {op : Operator} {r : Value} (hv : w.Covers v.ids)
    (hr : Folding.binary? w op v u = some r) : w.Covers r.ids := by
  rcases Folding.binary?_selfTyped w op v u r hr with hs | ⟨x, rfl, _⟩
  · exact h.covers_selfTyped hs
  · exact covers_constant (type_has hv) _

/-- The constant that a symbol stands for is the symbol, or stored in the table. -/
theorem covers_constantOf? (h : w.Closed) {s : Symbol} (hs : w.Covers s.ids)
    (hv : w.constantOf? s = some v) : w.Covers v.ids := by
  unfold constantOf? at hv
  split at hv
  · cases hv
    exact hs
  · obtain ⟨slot, _, hv⟩ := Option.bind_eq_some_iff.mp hv
    obtain ⟨info, hinfo, hv⟩ := Option.bind_eq_some_iff.mp hv
    split at hv
    · have hstored := h.covers_detail slot
      have hinit := (Option.filter_eq_some_iff.mp hv).1
      rw [Slot.variableInfo?_eq_some.mp hinfo] at hstored
      simp only [SlotDetail.ids, covers_append, covers_flatMap] at hstored
      exact hstored.2 v (by simpa using hinit)
    · cases hv
  · cases hv

theorem covers_enumConstant? {name : String} (ht : w.types.Has t)
    (hv : w.enumConstant? t name = some v) : w.Covers v.ids := by
  obtain ⟨x, _, rfl⟩ := Option.map_eq_some_iff.mp hv
  exact covers_constant ht _

theorem covers_convertConstant? (hv : w.Covers v.ids) (ht : w.types.Has t)
    (hu : w.convertConstant? v t = some u) : w.Covers u.ids := by
  unfold convertConstant? at hu
  split at hu
  · cases hu
    exact hv
  · obtain ⟨c, _, hu⟩ := Option.bind_eq_some_iff.mp hu
    dsimp only at hu
    split at hu
    all_goals
      obtain ⟨c', _, hu⟩ := Option.bind_eq_some_iff.mp hu
      cases hu
      exact covers_constant ht c'

/-! ## Conversions -/

theorem covers_convertedBy (hv : w.Covers v.ids) (ht : w.types.Has t) (r : Relationship) :
    w.Covers (v.convertedBy r t).ids := by
  simpa [Value.convertedBy, Value.ids] using ⟨hv, ht⟩

theorem wraps?_has (h : w.Closed) (hw : (w.type t).wraps? = some u') : w.types.Has u' := by
  have ht := h.covers_kind t
  rw [TypeDecl.wraps?_eq_some.mp hw] at ht
  simpa [TypeKind.ids] using ht

theorem covers_widen? (hv : w.Covers v.ids) (ht : w.types.Has t)
    (hu : w.widen? v t = some u) : w.Covers u.ids := by
  have converted := covers_convertedBy hv ht
  unfold widen? at hu
  dsimp only at hu
  split_ifs at hu
  all_goals cases hu
  · exact converted _
  · exact converted _
  · exact converted _
  · exact covers_constant ht _
  · exact converted _
  · exact converted _

theorem covers_throughNull? (h : w.Closed) {convert : Value → TypeId → Option Value}
    (hc : ∀ v t u, w.Covers v.ids → w.types.Has t → convert v t = some u → w.Covers u.ids)
    (hv : w.Covers v.ids) (ht : w.types.Has t) (hu : w.throughNull? convert v t = some u) :
    w.Covers u.ids := by
  unfold throughNull? at hu
  split at hu
  · rename_i inner hi
    obtain ⟨u', hu', rfl⟩ := Option.map_eq_some_iff.mp hu
    exact covers_convertedBy (hc v inner u' hv (h.wraps?_has hi) hu') ht _
  · split at hu
    · cases hu
      exact covers_convertedBy hv ht _
    · cases hu
  · cases hu

theorem covers_settleFor? (hv : w.Covers v.ids) (ht : w.types.Has t)
    (hu : w.settleFor? v t = some u) : w.Covers u.ids := by
  unfold settleFor? at hu
  split_ifs at hu
  · cases hu
    exact covers_convertedBy hv ht _
  · cases hu
    exact covers_convertedBy hv ht _
  · exact covers_convertConstant? hv ht hu

theorem covers_convertImplicitAt? (h : w.Closed) (n : Nat) (v : Value) (t : TypeId) (u : Value)
    (hv : w.Covers v.ids) (ht : w.types.Has t) (hu : w.convertImplicitAt? n v t = some u) :
    w.Covers u.ids := by
  induction n generalizing v t u with
  | zero => cases hu
  | succ n ih =>
      rw [convertImplicitAt?] at hu
      split at hu
      · cases hu
        exact hv
      · rcases (Option.orElse_eq_some _ _ _).mp hu with hu | ⟨_, hu⟩
        · exact covers_widen? hv ht hu
        · rcases (Option.orElse_eq_some _ _ _).mp hu with hu | ⟨_, hu⟩
          · exact h.covers_throughNull? ih hv ht hu
          · exact covers_settleFor? hv ht hu

theorem covers_narrow? (hv : w.Covers v.ids) (ht : w.types.Has t)
    (hu : w.narrow? v t = some u) : w.Covers u.ids := by
  have converted := covers_convertedBy hv ht
  unfold narrow? at hu
  dsimp only at hu
  split_ifs at hu
  all_goals
    cases hu
    exact converted _

theorem covers_convertExplicitAt? (h : w.Closed) (n : Nat) (v : Value) (t : TypeId) (u : Value)
    (hv : w.Covers v.ids) (ht : w.types.Has t) (hu : w.convertExplicitAt? n v t = some u) :
    w.Covers u.ids := by
  induction n generalizing v t u with
  | zero => cases hu
  | succ n ih =>
      rw [convertExplicitAt?] at hu
      split at hu
      · cases hu
        exact hv
      · rcases (Option.orElse_eq_some _ _ _).mp hu with hu | ⟨_, hu⟩
        · exact h.covers_convertImplicitAt? 3 v t u hv ht hu
        · rcases (Option.orElse_eq_some _ _ _).mp hu with hu | ⟨_, hu⟩
          · exact covers_narrow? hv ht hu
          · rcases (Option.orElse_eq_some _ _ _).mp hu with hu | ⟨_, hu⟩
            · exact h.covers_throughNull? ih hv ht hu
            · split at hu
              · cases hu
                exact covers_convertedBy hv ht _
              · cases hu

theorem covers_markCast (hv : w.Covers v.ids) : w.Covers (markCast v).ids := by
  cases v <;> exact hv

theorem covers_markTryCast (hv : w.Covers v.ids) : w.Covers (markTryCast v).ids := by
  cases v <;> exact hv

end SymbolTable.Closed
end StaticSemantics
