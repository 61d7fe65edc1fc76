import StaticSemantics.Proofs.Conversion.Tiers
import StaticSemantics.Proofs.Hierarchy.Subtyping

/-!
Casts. A value that has the type already is left alone by every conversion, except that a cast marks
it if it is a conversion. Between classes and interfaces a value that is no constant is converted
implicitly to the types above its own and explicitly also to those below, and the tag of the result
tells the kinds of the two types.
-/

namespace StaticSemantics

/-! ## The type that a value has -/

namespace Casting

/-- The mark that is left on a value, if it is a conversion. -/
def mark : Casting → Value → Value
  | cast => SymbolTable.markCast
  | tryCast => SymbolTable.markTryCast
  | implicit | explicit | constant => id

/-- The value is a conversion without the mark. -/
inductive Unmarked : Casting → Value → Prop where
  | cast (base : Value) (r : Relationship) (byTryCast : Bool) (t : TypeId) :
      Unmarked .cast (.conversion base r false byTryCast t)
  | tryCast (base : Value) (r : Relationship) (byCast : Bool) (t : TypeId) :
      Unmarked .tryCast (.conversion base r byCast false t)

theorem mark_mark (how : Casting) (v : Value) : how.mark (how.mark v) = how.mark v := by
  cases how <;> cases v <;> rfl

theorem mark_eq_self_iff {how : Casting} {v : Value} : how.mark v = v ↔ ¬ how.Unmarked v := by
  constructor
  · intro hm hu
    cases hu <;> simp [mark, SymbolTable.markCast, SymbolTable.markTryCast] at hm
  · intro hu
    cases how with
    | implicit | explicit | constant => rfl
    | cast =>
        cases v with
        | conversion base r byCast byTryCast t =>
            cases byCast with
            | false => exact absurd (.cast base r byTryCast t) hu
            | true => rfl
        | _ => rfl
    | tryCast =>
        cases v with
        | conversion base r byCast byTryCast t =>
            cases byTryCast with
            | false => exact absurd (.tryCast base r byCast t) hu
            | true => rfl
        | _ => rfl

end Casting

namespace SymbolTable

variable {w w' : SymbolTable} {v u : Value} {t a b : TypeId}

theorem convertExplicit?_self (w : SymbolTable) (v : Value) :
    w.convertExplicit? v v.type = some v := by
  rw [convertExplicit?, convertExplicitAt?, if_pos rfl]

theorem convert?_self (w : SymbolTable) (how : Casting) (v : Value) :
    w.convert? how v v.type = some (how.mark v) := by
  cases how with
  | implicit => exact if_pos rfl
  | constant => exact if_pos rfl
  | explicit => exact w.convertExplicit?_self v
  | cast => exact congrArg (Option.map markCast) (w.convertExplicit?_self v)
  | tryCast => exact congrArg (Option.map markTryCast) (w.convertExplicit?_self v)

theorem mark_of_convert? {how : Casting} (hu : w.convert? how v t = some u) :
    how.mark u = u := by
  cases how with
  | implicit | explicit | constant => rfl
  | cast =>
      obtain ⟨u', _, rfl⟩ := Option.map_eq_some_iff.mp hu
      exact Casting.mark_mark .cast u'
  | tryCast =>
      obtain ⟨u', _, rfl⟩ := Option.map_eq_some_iff.mp hu
      exact Casting.mark_mark .tryCast u'

/-- A conversion to the type that a value has returns it unchanged, unless a cast finds a conversion
that it has yet to mark. A conversion that is made a second time changes nothing. -/
theorem convert?_ownType (w : SymbolTable) (how : Casting) (v : Value) :
    w.convert? how v v.type = some (how.mark v) ∧
      (w.convert? how v v.type = some v ↔ ¬ how.Unmarked v) ∧
      ∀ dest, (w.convert? how v dest).bind (fun u => w.convert? how u dest) =
        w.convert? how v dest := by
  refine ⟨w.convert?_self how v, ?_, fun dest => ?_⟩
  · rw [w.convert?_self, Option.some.injEq, Casting.mark_eq_self_iff]
  · cases hu : w.convert? how v dest with
    | none => rfl
    | some u =>
        have htype : u.type = dest := type_of_convert? hu
        rw [Option.bind_some, ← htype, w.convert?_self, mark_of_convert? hu]

/-- A number used at another numeric type and then cast to that type. -/
example (w : SymbolTable) :
    let v := (Value.plain .integer).convertedBy .numeric .double
    w.convert? .explicit v .double = some v ∧ w.convert? .cast v .double ≠ some v :=
  ⟨rfl, by simp [convert?, convertByCast?, convertExplicit?, convertExplicitAt?, Value.convertedBy,
    Value.type, markCast]⟩

/-! ## Classes and interfaces -/

/-- The type is a class or an interface. -/
def isReference (w : SymbolTable) (t : TypeId) : Bool :=
  (w.type t).isClass || (w.type t).isInterface

theorem isReference_outline (w : SymbolTable) (t : TypeId) :
    w.isReference t = ((w.outline t).isClass || (w.outline t).isInterface) := by
  simp [isReference, outline]

theorem kind_of_isReference (h : w.isReference t) :
    (∃ info, (w.type t).kind = .cls info) ∨ ∃ info, (w.type t).kind = .interface info :=
  ((Bool.or_eq_true _ _).mp h).imp exists_of_isClass exists_of_isInterface

theorem wraps?_of_isReference (h : w.isReference t) : (w.type t).wraps? = none := by
  rcases kind_of_isReference h with ⟨info, hk⟩ | ⟨info, hk⟩ <;> simp [TypeDecl.wraps?, hk]

theorem isAny_of_isReference (h : w.isReference t) : (w.type t).isAny = false := by
  rcases kind_of_isReference h with ⟨info, hk⟩ | ⟨info, hk⟩ <;> simp [TypeDecl.isAny, hk]

theorem has_of_isReference (h : w.isReference t) : w.types.Has t :=
  ((Bool.or_eq_true _ _).mp h).elim has_of_isClass has_of_isInterface

/-- No step of the hierarchy makes a type a class or an interface, or takes that from it. -/
theorem HierarchyStep.isReference_eq (h : HierarchyStep w w') (ht : w.types.Has t) :
    w'.isReference t = w.isReference t := by
  have keep : ∀ (c : TypeId) (x : Outline), Outlines.Layered.SameKind x (w.outline c) →
      w'.outline = w.outline.set c x → w'.isReference t = w.isReference t := by
    intro c x hx ho
    obtain ⟨_, hcls, hint, _⟩ := hx.set t
    rw [isReference_outline, isReference_outline, ho, hcls, hint]
  cases h with
  | same ho => rw [isReference_outline, isReference_outline, ho]
  | added x _ _ _ _ _ ho =>
      have hne : t ≠ w.types.next := by
        rintro rfl
        exact w.types.not_has_next ht
      rw [isReference_outline, isReference_outline, ho, Outlines.set_of_ne hne]
  | extended cls base l hc _ _ ho =>
      exact keep cls _ (.inl ⟨rfl, by simp [Outline.isClass, hc]⟩) ho
  | implemented cls interface l hc _ ho =>
      exact keep cls _ (.inl ⟨rfl, by simp [Outline.isClass, hc]⟩) ho
  | linked interface base l l' hi _ _ _ ho =>
      exact keep interface _ (.inr ⟨rfl, by simp [Outline.isInterface, hi]⟩) ho

theorem isReference_eq_of_edited (hc : w.Closed)
    (he : Edited (fun e => !e.setsSuperType) w w') (ht : w.types.Has t) :
    w'.isReference t = w.isReference t := by
  induction he with
  | refl => rfl
  | step e he hcov ha ih =>
      have hw := (hc.edited he).2 .type
      exact ((HierarchyStep.apply hcov ha).isReference_eq (Nat.lt_of_lt_of_le ht hw)).trans ih

private theorem initial_numeric (i : Interner) (k : NumericKind) :
    (initial i).isReference k.type = false := by
  refine initial_induction (P := fun w => w.isReference k.type = false) (fun _ _ _ h => h) ?_ i
  have h : ∀ n < 14, 7 ≤ n → (initial .counting).isReference ⟨n⟩ = false := by decide +kernel
  cases k
  all_goals exact h _ (by decide) (by decide)

/-- An interface lies below no class. -/
theorem Layered.isSubtype_class_eq_false (h : w.Layered) (ha : (w.type a).isInterface)
    (hb : (w.type b).isClass) : w.isSubtype a b = false := by
  rw [Bool.eq_false_iff]
  intro hab
  obtain ⟨_, hany, hint⟩ := Outline.of_isClass (x := w.outline b) (by simpa [outline] using hb)
  rcases h.isSubtype_iff_reach.mp hab with hab | hab
  · simp [outline, hab] at hany
  · rw [directSuper_eq_above] at hab
    rcases h.isInterface_of_reach (by simpa [outline] using ha) hab with hk | hk
    · rw [hany] at hk
      cases hk
    · rw [hint] at hk
      cases hk

/-! ## Casts up and down -/

/-- Why a value of type `a` may be used at the type `b` above it. -/
def upwardTag (w : SymbolTable) (a b : TypeId) : Relationship :=
  if (w.type b).isClass then .toSuperClass
  else if (w.type a).isClass then .toImplementedInterface
  else .toSuperInterface

/-- Why a value of type `a` may be cast to the type `b` below it. -/
def downwardTag (w : SymbolTable) (a b : TypeId) : Relationship :=
  if (w.type a).isClass then .toSubclass
  else if (w.type b).isClass then .toImplementor
  else .toSubInterface

/-- What an implicit conversion between two classes or interfaces gives. -/
def castUp? (w : SymbolTable) (v : Value) (b : TypeId) : Option Value :=
  if w.isSubtype v.type b then some (v.convertedBy (w.upwardTag v.type b) b) else none

/-- What an explicit conversion between two classes or interfaces gives. -/
def castUpOrDown? (w : SymbolTable) (v : Value) (b : TypeId) : Option Value :=
  if w.isSubtype v.type b then some (v.convertedBy (w.upwardTag v.type b) b)
  else if w.isSubtype b v.type then some (v.convertedBy (w.downwardTag v.type b) b)
  else if b = .string then some (v.convertedBy .toString b)
  else none

section References

variable (h : w.Layered) (ha : w.isReference v.type) (hb : w.isReference b)
include h ha hb

theorem widen?_of_reference (hn : NumericKind.ofType? v.type = none) :
    w.widen? v b = w.castUp? v b := by
  have hany : b ≠ .any := by
    rintro rfl
    have htop : (w.type .any).isAny = true := by simpa [outline] using h.any_isAny
    rw [isAny_of_isReference hb] at htop
    cases htop
  unfold widen? castUp? upwardTag
  rcases kind_of_isReference ha with ⟨info, hka⟩ | ⟨info, hka⟩
  · rcases kind_of_isReference hb with ⟨info', hkb⟩ | ⟨info', hkb⟩ <;>
      simp [hany, hn, TypeDecl.isClass, TypeDecl.isInterface, hka, hkb]
  · rcases kind_of_isReference hb with ⟨info', hkb⟩ | ⟨info', hkb⟩
    · have hno : w.isSubtype v.type b = false :=
        h.isSubtype_class_eq_false (by simp [TypeDecl.isInterface, hka])
          (by simp [TypeDecl.isClass, hkb])
      simp [hany, hn, TypeDecl.isClass, TypeDecl.isInterface, hka, hkb, hno]
    · simp [hany, hn, TypeDecl.isClass, TypeDecl.isInterface, hka, hkb]

theorem narrow?_of_reference : w.narrow? v b =
    if w.isSubtype b v.type then some (v.convertedBy (w.downwardTag v.type b) b) else none := by
  unfold narrow? downwardTag
  rcases kind_of_isReference ha with ⟨info, hka⟩ | ⟨info, hka⟩
  · rcases kind_of_isReference hb with ⟨info', hkb⟩ | ⟨info', hkb⟩
    · simp [TypeDecl.isClass, TypeDecl.isInterface, hka, hkb]
    · have hno : w.isSubtype b v.type = false :=
        h.isSubtype_class_eq_false (by simp [TypeDecl.isInterface, hkb])
          (by simp [TypeDecl.isClass, hka])
      simp [TypeDecl.isClass, TypeDecl.isInterface, hka, hkb, hno]
  · rcases kind_of_isReference hb with ⟨info', hkb⟩ | ⟨info', hkb⟩ <;>
      simp [TypeDecl.isClass, TypeDecl.isInterface, hka, hkb]

variable (hn : NumericKind.ofType? v.type = none) (hc : v.constant? = none) (hne : v.type ≠ b)
include hn hc hne

omit h hb in
/-- None of the conversions that are tried last applies. -/
theorem settleFor?_of_reference : w.settleFor? v b = none := by
  have hchar : v.type ≠ .char := by
    intro hv
    rw [hv] at hn
    cases hn
  simp [settleFor?, convertConstant?, isAny_of_isReference ha, hchar, hc, hne]

theorem convertImplicit?_of_reference : w.convertImplicit? v b = w.castUp? v b := by
  rw [convertImplicit?, convertImplicitAt?, if_neg hne, widen?_of_reference h ha hb hn,
    throughNull?_of_bare (wraps?_of_isReference ha) (wraps?_of_isReference hb),
    settleFor?_of_reference ha hn hc hne]
  cases w.castUp? v b <;> rfl

theorem convertExplicit?_of_reference : w.convertExplicit? v b = w.castUpOrDown? v b := by
  rw [convertExplicit?, convertExplicitAt?, if_neg hne,
    convertImplicit?_of_reference h ha hb hn hc hne, narrow?_of_reference h ha hb,
    throughNull?_of_bare (wraps?_of_isReference ha) (wraps?_of_isReference hb), castUp?,
    castUpOrDown?]
  split
  · rfl
  · split <;> rfl

omit hne in
theorem isSome_convertImplicit?_of_reference :
    (w.convertImplicit? v b).isSome ↔ w.isSubtype v.type b := by
  by_cases hv : v.type = b
  · subst hv
    have hself := w.convert?_self .implicit v
    rw [convert?] at hself
    simp [hself, h.isSubtype_refl]
  · rw [convertImplicit?_of_reference h ha hb hn hc hv, castUp?]
    simp

end References

@[simp] theorem type_convertedBy (v : Value) (r : Relationship) (t : TypeId) :
    (v.convertedBy r t).type = t := rfl

theorem castUp?_eq_some (hu : w.castUp? v b = some u) :
    w.isSubtype v.type b ∧ u = v.convertedBy (w.upwardTag v.type b) b := by
  unfold castUp? at hu
  split at hu
  · cases hu
    exact ⟨‹_›, rfl⟩
  · cases hu

/-- The conversions of a value between two classes or interfaces. -/
structure ReferenceCasts (w : SymbolTable) (v : Value) (b : TypeId) : Prop where
  implicit : w.convertImplicit? v b = w.castUp? v b
  explicit : w.convertExplicit? v b = w.castUpOrDown? v b
  /-- What can be converted further could have been converted at once. -/
  compose : ∀ u c, w.isReference c → w.convertImplicit? v b = some u →
    (w.convertImplicit? u c).isSome → (w.convertImplicit? v c).isSome
  /-- The way back is a cast down. -/
  inverse : ∀ u, w.convertImplicit? v b = some u →
    w.convertExplicit? u v.type = some (u.convertedBy (w.downwardTag b v.type) v.type)

theorem Layered.referenceCasts (h : w.Layered)
    (hn : ∀ t, w.isReference t → NumericKind.ofType? t = none) (hc : v.constant? = none)
    (ha : w.isReference v.type) (hb : w.isReference b) (hne : v.type ≠ b) :
    w.ReferenceCasts v b := by
  have implicit := convertImplicit?_of_reference h ha hb (hn _ ha) hc hne
  refine ⟨implicit, convertExplicit?_of_reference h ha hb (hn _ ha) hc hne, ?_, ?_⟩
  · intro u c hr hu huc
    rw [implicit] at hu
    obtain ⟨hab, rfl⟩ := castUp?_eq_some hu
    have hbc := (isSome_convertImplicit?_of_reference (v := v.convertedBy _ b) h hb hr (hn _ hb)
      rfl).mp huc
    rw [isSome_convertImplicit?_of_reference h ha hr (hn _ ha) hc]
    exact h.isSubtype_trans hab hbc
  · intro u hu
    rw [implicit] at hu
    obtain ⟨hab, rfl⟩ := castUp?_eq_some hu
    have hba : w.isSubtype b v.type = false := by
      rw [Bool.eq_false_iff]
      intro hba
      exact hne (h.isSubtype_antisymm (has_of_isReference ha) (has_of_isReference hb) hab hba)
    rw [convertExplicit?_of_reference (v := v.convertedBy _ b) h hb ha (hn _ hb) rfl hne.symm,
      castUpOrDown?]
    simp [hab, hba]

end SymbolTable

namespace Session

variable {s : Session}

theorem Reachable.ofType?_of_isReference (h : Reachable (fun op => !op.setsSuperType) s)
    {t : TypeId} (ht : s.table.isReference t) : NumericKind.ofType? t = none := by
  cases hk : NumericKind.ofType? t with
  | none => rfl
  | some k =>
      have htype : k.type = t := by simpa using List.find?_some hk
      obtain ⟨i, he⟩ := h.unforced
      have closed := SymbolTable.initial_closed i
      have hsupplied := closed.has_supplied (SymbolTable.index_lt_of_ofType? hk)
      rw [SymbolTable.isReference_eq_of_edited closed he hsupplied, ← htype,
        SymbolTable.initial_numeric] at ht
      cases ht

/-- Between two classes or interfaces a value that is no constant is converted as their order says;
such conversions compose, and each can be undone by a cast. -/
theorem referenceCasts_of_reachable (h : Reachable (fun op => !op.setsSuperType) s) {v : Value}
    {b : TypeId} (hc : v.constant? = none) (ha : s.table.isReference v.type)
    (hb : s.table.isReference b) (hne : v.type ≠ b) : s.table.ReferenceCasts v b :=
  h.layered.referenceCasts (fun _ => h.ofType?_of_isReference) hc ha hb hne

/-- A value of the lower class is used at the upper interface, and cast back. -/
theorem referenceCasts_sampleHierarchy :
    let w := (performAll {} sampleHierarchy).table
    Session.Admits (fun op => !op.setsSuperType) {} sampleHierarchy ∧
      w.isReference ⟨23⟩ ∧ w.isReference ⟨20⟩ ∧ w.ReferenceCasts (.plain ⟨23⟩) ⟨20⟩ ∧
      w.convertImplicit? (.plain ⟨23⟩) ⟨20⟩ =
        some ((Value.plain ⟨23⟩).convertedBy .toImplementedInterface ⟨20⟩) ∧
      w.convertExplicit? (.plain ⟨20⟩) ⟨23⟩ =
        some ((Value.plain ⟨20⟩).convertedBy .toImplementor ⟨23⟩) := by
  have facts : let w := (performAll {} sampleHierarchy).table
      Session.Admits (fun op => !op.setsSuperType) {} sampleHierarchy ∧
        w.isReference ⟨23⟩ ∧ w.isReference ⟨20⟩ ∧
        w.castUp? (.plain ⟨23⟩) ⟨20⟩ =
          some ((Value.plain ⟨23⟩).convertedBy .toImplementedInterface ⟨20⟩) ∧
        w.castUpOrDown? (.plain ⟨20⟩) ⟨23⟩ =
          some ((Value.plain ⟨20⟩).convertedBy .toImplementor ⟨23⟩) := by
    decide +kernel
  obtain ⟨h, hclass, hinterface, hup, hdown⟩ := facts
  have hr := Reachable.new.performAll h
  have casts := referenceCasts_of_reachable hr (v := .plain ⟨23⟩) rfl hclass hinterface (by decide)
  have back := referenceCasts_of_reachable hr (v := .plain ⟨20⟩) rfl hinterface hclass (by decide)
  exact ⟨h, hclass, hinterface, casts, casts.implicit.trans hup, back.explicit.trans hdown⟩

end Session
end StaticSemantics
