import StaticSemantics.Proofs.Hierarchy.Reach
import StaticSemantics.Proofs.Interning
import StaticSemantics.Proofs.Overriding.Methods

/-!
Null in conversions and in overriding. A nullable type has the super type of the type that it wraps,
so that it counts as a subtype of all that lies above that super type, although null may stand for
its values. It is stated exactly when a value of a nullable type is taken for an interface with no
test for null, and when a method can be overridden by one whose result may be null.
-/

namespace StaticSemantics

namespace SymbolTable

variable {w : SymbolTable} {t u inner dest : TypeId}

/-! ## Subtypes that accept null -/

/-- `u` lies above the super type that `t` has without null. -/
def belowSuper (w : SymbolTable) (t u : TypeId) : Bool :=
  (w.superType? (w.withoutNull t)).any (w.isSubtype · u)

theorem Canonical.wraps?_inner (h : w.Canonical) (ht : (w.type t).wraps? = some inner) :
    (w.type inner).wraps? = none :=
  TypeDecl.wraps?_of_acceptsNull_eq_false (h.oneLayer _ _ ht)

theorem Canonical.superType?_withoutNull (h : w.Canonical) (t : TypeId) :
    w.superType? (w.withoutNull t) = w.superType? t := by
  have hbare : w.withoutNull (w.withoutNull t) = w.withoutNull t := by
    cases ht : (w.type t).wraps? with
    | none => rw [withoutNull_of_bare ht, withoutNull_of_bare ht]
    | some inner => rw [withoutNull_of_wraps? ht, withoutNull_of_bare (h.wraps?_inner ht)]
  rw [superType?, hbare, superType?]

theorem directSupers_of_acceptsNull (h : w.acceptsNull t) :
    w.directSupers t u = (w.superType? t).toList := by
  unfold directSupers
  cases hk : (w.type t).kind <;> simp [acceptsNull, TypeDecl.acceptsNull, hk] at h ⊢

/-- A type that accepts null lies below one that does not exactly if its super type does. -/
theorem isSubtype_of_acceptsNull (hc : w.Closed) (hw : w.Canonical) (ht : w.acceptsNull t)
    (hu : w.acceptsNull u = false) (ha : (w.type u).isAny = false) :
    w.isSubtype t u = w.belowSuper t u := by
  have hne : t ≠ u := by
    rintro rfl
    rw [ht] at hu
    cases hu
  rw [belowSuper, hw.superType?_withoutNull, Bool.eq_iff_iff, hc.isSubtype_iff,
    directSupers_of_acceptsNull ht, Option.any_eq_true]
  simp [hne, ha]

/-! ## Conversions from a nullable type -/

/-- The types that exist from the start are as they were, and nullable types are canonical. -/
structure Supplied (w : SymbolTable) : Prop where
  closed : w.Closed
  canonical : w.Canonical
  any : (w.type .any).isAny
  bare : ∀ t : TypeId, t.index < 20 → (w.type t).wraps? = none

theorem index_lt_of_ofType? {k : NumericKind} (h : NumericKind.ofType? t = some k) :
    t.index < 20 := by
  have hk : k.type = t := by simpa using List.find?_some h
  rw [← hk]
  cases k <;> decide

/-- The conversion of a bare value takes no way through null. -/
theorem throughNull?_of_bare {convert : Value → TypeId → Option Value} {v : Value}
    (hv : (w.type v.type).wraps? = none) (hd : (w.type dest).wraps? = none) :
    w.throughNull? convert v dest = none := by
  rw [throughNull?, hd, hv]

theorem convertImplicitAt?_of_bare {v : Value} (hv : (w.type v.type).wraps? = none)
    (hd : (w.type dest).wraps? = none) (n m : Nat) :
    w.convertImplicitAt? (n + 1) v dest = w.convertImplicitAt? (m + 1) v dest := by
  simp only [convertImplicitAt?, throughNull?_of_bare hv hd]

theorem convertExplicitAt?_of_bare {v : Value} (hv : (w.type v.type).wraps? = none)
    (hd : (w.type dest).wraps? = none) (n m : Nat) :
    w.convertExplicitAt? (n + 1) v dest = w.convertExplicitAt? (m + 1) v dest := by
  simp only [convertExplicitAt?, throughNull?_of_bare hv hd]

theorem isSome_convertExplicit?_string (w : SymbolTable) (v : Value) (n : Nat) :
    (w.convertExplicitAt? (n + 1) v .string).isSome := by
  rw [convertExplicitAt?]
  split
  · rfl
  · simp

theorem isSome_convertExplicitAt?_of_implicit {v : Value} (n : Nat)
    (h : (w.convertImplicit? v dest).isSome) : (w.convertExplicitAt? (n + 1) v dest).isSome := by
  rw [convertExplicitAt?]
  split
  · rfl
  · simp [h]

/-- How a value of a nullable type is converted to a type that does not accept null, given how a
value of the wrapped type is. -/
def outOfNull? (w : SymbolTable) (t dest : TypeId) (converted : Option Value) : Option Value :=
  if (w.type dest).isInterface && w.belowSuper t dest then
    some ((Value.plain t).convertedBy .toImplementedInterface dest)
  else converted.map fun _ => (Value.plain t).convertedBy .fromNullable dest

section Nullable

variable (ht : (w.type t).wraps? = some inner) (hn : w.acceptsNull dest = false)

include ht hn

theorem ne_of_wraps? : (Value.plain t).type ≠ dest := by
  rintro rfl
  have hnull : w.acceptsNull t := TypeDecl.acceptsNull_of_wraps? ht
  rw [Value.type, hnull] at hn
  cases hn

theorem throughNull?_of_nullable (convert : Value → TypeId → Option Value) :
    w.throughNull? convert (.plain t) dest = (convert (.plain inner) dest).map fun _ =>
      (Value.plain t).convertedBy .fromNullable dest := by
  have hd : (w.type dest).wraps? = none := TypeDecl.wraps?_of_acceptsNull_eq_false hn
  simp only [throughNull?, hd, Value.type, ht, hn, Bool.not_false, Bool.true_and]
  cases convert (.plain inner) dest <;> rfl

omit hn in
theorem narrow?_of_nullable : w.narrow? (.plain t) dest = none := by
  have hkind : (w.type t).kind = .nullable inner := TypeDecl.wraps?_eq_some.mp ht
  simp [narrow?, Value.type, TypeDecl.isClass, TypeDecl.isInterface, hkind]

variable (h : w.Supplied)

include h

omit hn in
theorem not_supplied_of_wraps? : ¬ t.index < 20 := by
  intro hi
  rw [h.bare t hi] at ht
  cases ht

theorem settleFor?_of_nullable : w.settleFor? (.plain t) dest = none := by
  have hchar : t ≠ .char := by
    rintro rfl
    exact not_supplied_of_wraps? ht h (by decide)
  have hkind : (w.type t).kind = .nullable inner := TypeDecl.wraps?_eq_some.mp ht
  have hne : t ≠ dest := ne_of_wraps? ht hn
  simp [settleFor?, convertConstant?, Value.type, Value.constant?, TypeDecl.isAny, hkind, hchar,
    hne]

variable (ha : (w.type dest).isAny = false)

include ha

/-- Of the conversions that do not consider null, only the one to an interface applies. -/
theorem widen?_of_nullable : w.widen? (.plain t) dest =
    if (w.type dest).isInterface && w.belowSuper t dest then
      some ((Value.plain t).convertedBy .toImplementedInterface dest)
    else none := by
  have hany : dest ≠ .any := by
    rintro rfl
    rw [h.any] at ha
    cases ha
  have hnum : NumericKind.ofType? t = none := by
    cases hk : NumericKind.ofType? t with
    | none => rfl
    | some k => exact absurd (index_lt_of_ofType? hk) (not_supplied_of_wraps? ht h)
  have hkind : (w.type t).kind = .nullable inner := TypeDecl.wraps?_eq_some.mp ht
  have hsub := isSubtype_of_acceptsNull h.closed h.canonical
    (TypeDecl.acceptsNull_of_wraps? ht) hn ha
  simp [widen?, Value.type, hany, hnum, TypeDecl.isClass, TypeDecl.isInterface, hkind, hsub]

theorem convertImplicit?_of_nullable : w.convertImplicit? (.plain t) dest =
    w.outOfNull? t dest (w.convertImplicit? (.plain inner) dest) := by
  have hd : (w.type dest).wraps? = none := TypeDecl.wraps?_of_acceptsNull_eq_false hn
  rw [convertImplicit?, convertImplicitAt?, if_neg (ne_of_wraps? ht hn),
    widen?_of_nullable ht hn h ha, throughNull?_of_nullable ht hn, settleFor?_of_nullable ht hn h,
    convertImplicitAt?_of_bare (h.canonical.wraps?_inner ht) hd 1 2, outOfNull?, convertImplicit?]
  split <;> simp

theorem convertExplicit?_of_nullable : w.convertExplicit? (.plain t) dest =
    w.outOfNull? t dest (w.convertExplicit? (.plain inner) dest) := by
  have hd : (w.type dest).wraps? = none := TypeDecl.wraps?_of_acceptsNull_eq_false hn
  rw [convertExplicit?, convertExplicitAt?, if_neg (ne_of_wraps? ht hn),
    convertImplicit?_of_nullable ht hn h ha, narrow?_of_nullable ht, throughNull?_of_nullable ht hn,
    convertExplicitAt?_of_bare (h.canonical.wraps?_inner ht) hd 1 2, outOfNull?, outOfNull?,
    convertExplicit?]
  by_cases hi : (w.type dest).isInterface && w.belowSuper t dest
  · simp [hi]
  · simp only [hi]
    cases hc : w.convertImplicit? (.plain inner) dest with
    | some v =>
        -- what is converted implicitly is converted explicitly
        have hsome := isSome_convertExplicitAt?_of_implicit 2 (Option.isSome_of_eq_some hc)
        obtain ⟨v', hv'⟩ := Option.isSome_iff_exists.mp hsome
        simp [hv']
    | none =>
        cases he : w.convertExplicitAt? (2 + 1) (.plain inner) dest with
        | some v => simp
        | none =>
            have hstring : dest ≠ .string := by
              rintro rfl
              have hsome := w.isSome_convertExplicit?_string (.plain inner) 2
              rw [he] at hsome
              cases hsome
            simp [hstring]

end Nullable

/-! ## Overriding by a method whose result may be null -/

/-- A call that fits the parameters of `b` fits those of `c`. -/
def keepsParameters (b c : Signature) : Bool :=
  b.paramTypes = c.paramTypes && b.optParamTypes.isPrefixOf c.optParamTypes &&
    !(b.optParams.length < c.optParams.length && b.rest.isSome) &&
    !(b.rest.isSome && c.rest.isNone)

theorem canOverride_eq (w : SymbolTable) (base candidate : SignatureId) :
    w.canOverride base candidate =
      (keepsParameters (w.signature base) (w.signature candidate) &&
        ((w.signature candidate).returns = (w.signature base).returns ||
          w.isSubtype (w.signature candidate).returns (w.signature base).returns)) := rfl

/-- The result of the signature is never null: its type is neither `Any` nor accepts null. -/
def neverNull (w : SymbolTable) (g : SignatureId) : Bool :=
  !(w.type (w.signature g).returns).isAny && !w.acceptsNull (w.signature g).returns

theorem canOverride_of_acceptsNull (hc : w.Closed) (hw : w.Canonical)
    {base candidate : SignatureId} (hb : w.neverNull base)
    (hn : w.acceptsNull (w.signature candidate).returns) :
    w.canOverride base candidate =
      (keepsParameters (w.signature base) (w.signature candidate) &&
        w.belowSuper (w.signature candidate).returns (w.signature base).returns) := by
  obtain ⟨ha, hb⟩ : (w.type (w.signature base).returns).isAny = false ∧
      w.acceptsNull (w.signature base).returns = false := by simpa [neverNull] using hb
  have hne : (w.signature candidate).returns ≠ (w.signature base).returns := by
    intro heq
    rw [heq, hb] at hn
    cases hn
  rw [canOverride_eq, isSubtype_of_acceptsNull hc hw hn hb ha]
  simp [hne]

/-- A method that is no accessor overrides one whose signature it can override. -/
theorem canOverride_of_overridden {candidate target : SlotId} {d : MemberTableId}
    (hp : ∀ m, w.methodInfo? candidate = some m → m.ofProperty = none)
    (h : w.overridden candidate d = .ok target) :
    w.canOverride (w.slotSignature target) (w.slotSignature candidate) := by
  obtain ⟨m, inherited, hm, _, _, _, hreplaces, _⟩ := overridden_eq_ok_iff.mp h
  rw [slotSignature_eq hm]
  cases hreplaces with
  | method _ hn hs => rwa [slotSignature_eq hn]
  | getter hproperty | setter hproperty =>
      rw [hp m hm] at hproperty
      cases hproperty

theorem overridden_of_override {candidate : SlotId} {d : MemberTableId} {w' : SymbolTable}
    (h : w.override candidate d = (.ok (), w')) :
    ∃ target, w.overridden candidate d = .ok target := by
  obtain ⟨target, htarget, _⟩ := override_eq_ok_iff.mp h
  exact ⟨target, htarget⟩

end SymbolTable

namespace Session

variable {s : Session}

private theorem initial_any : ((SymbolTable.initial .counting).type .any).isAny := by
  decide +kernel

theorem Reachable.supplied {allowed : Operation → Bool} (h : Reachable allowed s) :
    s.table.Supplied := by
  refine ⟨h.closed.table, h.canonical, ?_, fun t ht => ?_⟩
  · obtain ⟨_, _, _, hany⟩ := TypeDecl.eq_of_makeup (h.makeup_supplied (t := .any) (by decide))
    exact hany.trans initial_any
  · obtain ⟨hwraps, _⟩ := TypeDecl.eq_of_makeup (h.makeup_supplied ht)
    exact hwraps.trans (SymbolTable.initial_makeup .counting t).1

/-- A value of a nullable type is converted to a type without null by way of the wrapped type, and
tagged so, except to an interface above the super type of the wrapped type. -/
theorem convertNullable_of_reachable (h : Reachable (fun _ => true) s) {t inner dest : TypeId}
    (ht : (s.table.type t).kind = .nullable inner) (ha : (s.table.type dest).isAny = false)
    (hn : s.table.acceptsNull dest = false) :
    s.table.convertImplicit? (.plain t) dest =
      s.table.outOfNull? t dest (s.table.convertImplicit? (.plain inner) dest) ∧
    s.table.convertExplicit? (.plain t) dest =
      s.table.outOfNull? t dest (s.table.convertExplicit? (.plain inner) dest) := by
  have hw := TypeDecl.wraps?_eq_some.mpr ht
  exact ⟨SymbolTable.convertImplicit?_of_nullable hw hn h.supplied ha,
    SymbolTable.convertExplicit?_of_nullable hw hn h.supplied ha⟩

/-- A class below another one, which implements an interface, with the nullable type over the lower
class. Each class has a method of one name; that of the lower class may return null. -/
def sampleNull : List Operation :=
  [.edit (.addInterface "Shape"), .edit (.addClass "Body" false), .edit (.addClass "Cube" false),
    .edit (.implement ⟨21⟩ ⟨20⟩), .edit (.extendClass ⟨22⟩ ⟨21⟩), .edit (.addNullable ⟨22⟩),
    .edit (.addSignature { returns := ⟨21⟩ }), .edit (.addSignature { returns := ⟨23⟩ }),
    .edit (.addMethod "Copy" ⟨0⟩), .edit (.addMethod "Copy" ⟨1⟩),
    .edit (.define (.members ⟨17⟩) "Copy" (.slot ⟨0⟩)),
    .edit (.define (.members ⟨18⟩) "Copy" (.slot ⟨1⟩))]

/-- The nullable type is taken for the interface with no test for null, and for the class above with
one. -/
theorem convertNullable_sampleNull :
    let w := (performAll {} sampleNull).table
    Session.Admits (fun _ => true) {} sampleNull ∧
      w.convertImplicit? (.plain ⟨23⟩) ⟨20⟩ =
        some ((Value.plain ⟨23⟩).convertedBy .toImplementedInterface ⟨20⟩) ∧
      w.convertExplicit? (.plain ⟨23⟩) ⟨20⟩ =
        some ((Value.plain ⟨23⟩).convertedBy .toImplementedInterface ⟨20⟩) ∧
      w.convertImplicit? (.plain ⟨23⟩) ⟨21⟩ =
        some ((Value.plain ⟨23⟩).convertedBy .fromNullable ⟨21⟩) := by
  have facts : let w := (performAll {} sampleNull).table
      Session.Admits (fun _ => true) {} sampleNull ∧ (w.type ⟨23⟩).wraps? = some ⟨22⟩ ∧
        (w.type ⟨20⟩).isAny = false ∧ w.acceptsNull ⟨20⟩ = false ∧
        (w.type ⟨21⟩).isAny = false ∧ w.acceptsNull ⟨21⟩ = false ∧
        ((w.type ⟨20⟩).isInterface && w.belowSuper ⟨23⟩ ⟨20⟩) ∧
        w.outOfNull? ⟨23⟩ ⟨21⟩ (w.convertImplicit? (.plain ⟨22⟩) ⟨21⟩) =
          some ((Value.plain ⟨23⟩).convertedBy .fromNullable ⟨21⟩) := by
    decide +kernel
  obtain ⟨h, hwraps, hany, hnull, hany', hnull', habove, htested⟩ := facts
  have hr := Reachable.new.performAll h
  have ht := TypeDecl.wraps?_eq_some.mp hwraps
  obtain ⟨himplicit, hexplicit⟩ := convertNullable_of_reachable hr ht hany hnull
  exact ⟨h, himplicit.trans (if_pos habove), hexplicit.trans (if_pos habove),
    (convertNullable_of_reachable hr ht hany' hnull').1.trans htested⟩

/-- A result that may be null can take the place of one that never is exactly if the super type of
its type without null can, and so it is with every method that has been overridden. -/
theorem overridingNull_of_reachable (h : Reachable (fun _ => true) s) :
    (∀ base candidate, s.table.neverNull base →
      s.table.acceptsNull (s.table.signature candidate).returns →
      s.table.canOverride base candidate =
        (SymbolTable.keepsParameters (s.table.signature base) (s.table.signature candidate) &&
          s.table.belowSuper (s.table.signature candidate).returns
            (s.table.signature base).returns)) ∧
    ∀ candidate d w', s.table.override candidate d = (.ok (), w') →
      (∀ m, s.table.methodInfo? candidate = some m → m.ofProperty = none) →
      ∃ target, s.table.overridden candidate d = .ok target ∧
        s.table.canOverride (s.table.slotSignature target) (s.table.slotSignature candidate) ∧
        (s.table.neverNull (s.table.slotSignature target) →
          s.table.acceptsNull (s.table.signature (s.table.slotSignature candidate)).returns →
          s.table.belowSuper (s.table.signature (s.table.slotSignature candidate)).returns
            (s.table.signature (s.table.slotSignature target)).returns) := by
  have hc : s.table.Closed := h.closed.table
  refine ⟨fun base candidate => SymbolTable.canOverride_of_acceptsNull hc h.canonical,
    fun candidate d w' hw hp => ?_⟩
  obtain ⟨target, htarget⟩ := SymbolTable.overridden_of_override hw
  have hover := SymbolTable.canOverride_of_overridden hp htarget
  refine ⟨target, htarget, hover, fun hb hn => ?_⟩
  rw [SymbolTable.canOverride_of_acceptsNull hc h.canonical hb hn, Bool.and_eq_true] at hover
  exact hover.2

theorem overridingNull_sampleNull :
    let w := (performAll {} sampleNull).table
    Session.Admits (fun _ => true) {} sampleNull ∧ w.neverNull ⟨0⟩ ∧
      w.acceptsNull (w.signature ⟨1⟩).returns ∧ w.canOverride ⟨0⟩ ⟨1⟩ ∧
      w.overridden ⟨1⟩ ⟨18⟩ = .ok ⟨0⟩ ∧
      w.belowSuper (w.signature ⟨1⟩).returns (w.signature ⟨0⟩).returns := by
  have facts : let w := (performAll {} sampleNull).table
      Session.Admits (fun _ => true) {} sampleNull ∧ w.neverNull ⟨0⟩ ∧
        w.acceptsNull (w.signature ⟨1⟩).returns ∧ w.canOverride ⟨0⟩ ⟨1⟩ ∧
        w.overridden ⟨1⟩ ⟨18⟩ = .ok ⟨0⟩ := by
    decide +kernel
  obtain ⟨h, hb, hn, hover, htarget⟩ := facts
  obtain ⟨hcan, _⟩ := overridingNull_of_reachable (Reachable.new.performAll h)
  have hfits := hover
  rw [hcan ⟨0⟩ ⟨1⟩ hb hn, Bool.and_eq_true] at hfits
  exact ⟨h, hb, hn, hover, htarget, hfits.2⟩

end Session
end StaticSemantics
