import StaticSemantics.Proofs.Constant.Typing
import StaticSemantics.Proofs.Conversion.Tiers

/-!
Constants that implicit conversions make. An implicit conversion that gives a constant gives the one
that the conversion of constants gives, but for values of the type `Empty` at flags: the implicit
conversion makes the empty set of flags of them, also at the nullable type over the flags, where a
constant keeps what it stands for and only takes the type.

The rules name types that exist from the start, and ask whether a type is an enum or the type
`Empty`. That no two of these are one type in any table is shown first.
-/

namespace StaticSemantics

namespace TypeDecl

variable {d : TypeDecl}

def isEmpty (d : TypeDecl) : Bool := d.kind matches .empty

theorem isEmpty_eq_true : d.isEmpty ↔ d.kind = .empty := by
  cases hk : d.kind <;> simp [isEmpty, hk]

/-- Whether the type is an enum, and whether it is that of `Empty`. -/
def stamp (d : TypeDecl) : Bool × Bool := (d.isEnum, d.isEmpty)

theorem stamp_modifyClass (change : ClassInfo → ClassInfo) :
    (d.modifyClass change).stamp = d.stamp := by
  unfold modifyClass
  split
  · rename_i info hk
    simp [stamp, isEnum, isEmpty, hk]
  · rfl

theorem stamp_modifyEnum (change : EnumInfo → EnumInfo) :
    (d.modifyEnum change).stamp = d.stamp := by
  unfold modifyEnum
  split
  · rename_i info hk
    simp [stamp, isEnum, isEmpty, hk]
  · rfl

theorem stamp_modifyInterface (change : InterfaceInfo → InterfaceInfo) :
    (d.modifyInterface change).stamp = d.stamp := by
  unfold modifyInterface
  split
  · rename_i info hk
    simp [stamp, isEnum, isEmpty, hk]
  · rfl

end TypeDecl

def stampView : View (Bool × Bool) Unit where
  type := TypeDecl.stamp
  members _ := ()
  type_statics _ _ := rfl
  type_definedIn _ _ := rfl
  type_visibility _ _ := rfl
  type_modifyEnum _ := TypeDecl.stamp_modifyEnum
  members_names _ _ := rfl
  members_setOperator _ _ _ := rfl

theorem stampView_blind : stampView.BlindToRelations :=
  ⟨fun _ _ => rfl, fun _ => TypeDecl.stamp_modifyClass, fun _ => TypeDecl.stamp_modifyInterface,
    fun _ _ => rfl⟩

namespace SymbolTable

variable {w w' : SymbolTable} {t dest : TypeId} {v u : Value}

/-! ## Enums and the type of `Empty` -/

/-- There is one type of `Empty`, and no enum among the types that exist from the start. -/
structure Stamped (w : SymbolTable) : Prop where
  isEmpty_iff : ∀ t, (w.type t).isEmpty ↔ t = .empty
  supplied : ∀ t : TypeId, t.index < 20 → (w.type t).isEnum = false

namespace Stamped

theorem of_types (h : w.Stamped) (ht : w'.types = w.types) : w'.Stamped := by
  have same : w'.type = w.type := by
    funext t
    rw [type, ht]
    rfl
  exact ⟨fun t => by rw [same, h.isEmpty_iff], fun t hi => by rw [same, h.supplied t hi]⟩

/-- What exists from the start comes before a type that is added, which is no type of `Empty`. -/
theorem addType (h : w.Stamped) (hn : 20 ≤ w.types.size) {d : TypeDecl}
    (hd : d.kind.isDeclarable) : (w.addType d).2.Stamped := by
  have declared : d.isEmpty = false := by
    cases hk : d.kind <;> simp_all [TypeDecl.isEmpty, TypeKind.isDeclarable]
  refine ⟨fun t => ?_, fun t ht => ?_⟩
  · rw [← h.isEmpty_iff, type, SymbolTable.addType]
    exact iff_of_eq
      (congrArg (· = true) (w.types.congr_get_push (f := TypeDecl.isEmpty) declared t))
  · rw [type, SymbolTable.addType, Arena.get_push_of_has (Nat.lt_of_lt_of_le ht hn)]
    exact h.supplied t ht

theorem change (h : w.Stamped) (hn : 20 ≤ w.types.size) (c : Change) :
    (w.change c).Stamped ∧ 20 ≤ (w.change c).types.size := by
  cases hc : c.addsType with
  | false =>
      have same : stampView.Same w (w.change c) := stampView_blind.change hc
      have stamp t : ((w.change c).type t).isEnum = (w.type t).isEnum ∧
          ((w.change c).type t).isEmpty = (w.type t).isEmpty := Prod.mk.inj (same.type t)
      refine ⟨⟨fun t => by rw [(stamp t).2, h.isEmpty_iff], fun t ht => ?_⟩, same.typeCount ▸ hn⟩
      rw [(stamp t).1, h.supplied t ht]
  | true =>
      cases c with
      | newType d declarable =>
          refine ⟨h.addType hn declarable, Nat.le_trans hn ?_⟩
          simp [SymbolTable.change, SymbolTable.addType]
      | newMemberTable | nullable | room | tuple => exact ⟨h.of_types rfl, hn⟩
      | _ => cases hc

theorem apply (h : w.Stamped) (hn : 20 ≤ w.types.size) (e : Edit) : (w.apply e).Stamped :=
  (apply_induction (P := fun w => w.Stamped ∧ 20 ≤ w.types.size)
    (fun _ c _ hw => hw.1.change hw.2 c) ⟨h, hn⟩).1

theorem edited (h : w.Stamped) (hc : w.Closed) {allowed : Edit → Bool}
    (he : Edited allowed w w') : w'.Stamped := by
  induction he with
  | refl => exact h
  | step e he _ _ ih => exact ih.apply (hc.edited he).1.suppliedTypes e

end Stamped

private theorem initial_stamps (i : Interner) : 1 < (initial i).types.size ∧
    ∀ j < (initial i).types.size, ((initial i).type ⟨j⟩).stamp = (false, decide (j = 1)) :=
  initial_induction (P := fun w => 1 < w.types.size ∧
    ∀ j < w.types.size, (w.type ⟨j⟩).stamp = (false, decide (j = 1)))
    (fun _ _ _ h => h) (by decide +kernel) i

theorem initial_stamped (i : Interner) : (initial i).Stamped := by
  obtain ⟨hsize, stamps⟩ := initial_stamps i
  have stamp t : ((initial i).type t).stamp = (false, decide (t.index = 1)) := by
    by_cases ht : (initial i).types.Has t
    · exact stamps t.index ht
    · have hne : t.index ≠ 1 := fun h => ht (by rw [Arena.Has, h]; exact hsize)
      rw [type, Arena.get_of_not_has ht, decide_eq_false hne]
      rfl
  refine ⟨fun t => ?_, fun t _ => (Prod.mk.inj (stamp t)).1⟩
  rw [(Prod.mk.inj (stamp t)).2, decide_eq_true_eq]
  exact ⟨fun h => by cases t; cases h; rfl, fun h => h ▸ rfl⟩

/-! ## Implicit conversions that give a constant -/

/-- An implicit conversion gives a constant because the conversion of constants does, or because the
value is of the type of `Empty` and stands for no flags. -/
theorem convertConstant?_of_implicit {n : Nat} (hu : w.convertImplicitAt? (n + 1) v dest = some u)
    (hc : u.constant?.isSome) : w.convertConstant? v dest = some u ∨
      (w.type v.type).isEmpty ∧ (w.type (w.withoutNull dest)).isFlagsEnum := by
  rw [convertImplicitAt?] at hu
  split at hu
  · rename_i hv
    rw [convertConstant?, if_pos hv]
    exact .inl hu
  · rcases (Option.orElse_eq_some _ _ _).mp hu with hu | ⟨_, hu⟩
    · right
      unfold widen? at hu
      dsimp only at hu
      split_ifs at hu with _ _ _ hflags
      all_goals cases hu
      · cases hc
      · cases hc
      · cases hc
      · exact Bool.and_eq_true_iff.mp hflags
      · cases hc
      · cases hc
    rcases (Option.orElse_eq_some _ _ _).mp hu with hu | ⟨_, hu⟩
    · rcases throughNull?_eq_some hu with ⟨_, _, _, _, rfl⟩ | rfl <;> cases hc
    · unfold settleFor? at hu
      split_ifs at hu
      · cases hu
        cases hc
      · cases hu
        cases hc
      · exact .inl hu

/-- A value of the type `Empty` stands for the empty set of flags at the type. -/
def clearsFlags (w : SymbolTable) (t dest : TypeId) : Bool :=
  t = .empty && (w.type (w.withoutNull dest)).isFlagsEnum

section ClearsFlags

variable (hs : w.Supplied) (hw : w.Stamped) (h : w.clearsFlags t dest)

include hs hw h

theorem not_supplied_of_clearsFlags :
    ¬ (w.withoutNull dest).index < 20 ∧ ¬ dest.index < 20 := by
  have hflags : (w.type (w.withoutNull dest)).isFlagsEnum := (Bool.and_eq_true_iff.mp h).2
  have hbare : ¬ (w.withoutNull dest).index < 20 := fun hi => by
    have henum := isEnum_of_isFlagsEnum hflags
    rw [hw.supplied _ hi] at henum
    cases henum
  exact ⟨hbare, fun hi => hbare (by rwa [withoutNull_of_bare (hs.bare dest hi)])⟩

theorem convertImplicit?_of_clearsFlags (hv : v.type = t) :
    w.convertImplicit? v dest = some (.ofEnum (.zero false) dest) := by
  obtain ⟨ht, hflags⟩ : t = .empty ∧ (w.type (w.withoutNull dest)).isFlagsEnum := by
    simpa [clearsFlags] using h
  obtain ⟨_, hdest⟩ := not_supplied_of_clearsFlags hs hw h
  have hne : EntityId.empty ≠ dest := by
    rintro rfl
    exact hdest (by decide)
  have hany : dest ≠ .any := by
    rintro rfl
    exact hdest (by decide)
  have hkind : (w.type .empty).kind = .empty :=
    TypeDecl.isEmpty_eq_true.mp ((hw.isEmpty_iff .empty).mpr rfl)
  have hnum : NumericKind.ofType? .empty = none := by decide
  have hwiden : w.widen? v dest = some (.ofEnum (.zero false) dest) := by
    simp [widen?, hv, ht, hany, hnum, TypeDecl.isClass, hkind, hflags]
  rw [convertImplicit?, convertImplicitAt?, hv, ht, if_neg hne, hwiden]
  rfl

/-- The conversion of constants makes flags of the constant `Empty` alone, and not where null is
among the values of the type. -/
theorem convertConstant?_of_clearsFlags (c : Constant) :
    w.convertConstant? (.constant c t) dest = some (.ofEnum (.zero false) dest) ↔
      c = .empty ∧ w.acceptsNull dest = false := by
  obtain ⟨ht, hflags⟩ : t = .empty ∧ (w.type (w.withoutNull dest)).isFlagsEnum := by
    simpa [clearsFlags] using h
  obtain ⟨hbare, hdest⟩ := not_supplied_of_clearsFlags hs hw h
  have bare_ne : ∀ t : TypeId, t.index < 20 → w.withoutNull dest ≠ t := fun t hi he =>
    hbare (he ▸ hi)
  have dest_ne : ∀ t : TypeId, t.index < 20 → dest ≠ t := fun t hi he => hdest (he ▸ hi)
  have hnum : NumericKind.ofType? (w.withoutNull dest) = none := by
    cases hk : NumericKind.ofType? (w.withoutNull dest) with
    | none => rfl
    | some k => exact absurd (index_lt_of_ofType? hk) hbare
  have hempty : w.withoutNull .empty = .empty := withoutNull_of_bare (hs.bare .empty (by decide))
  have hadapt : w.convertConstant? (.constant c t) dest =
      (w.adaptConstant? c .empty dest).map (.constant · dest) := by
    rw [convertConstant?, Value.type, ht, if_neg (dest_ne .empty (by decide)).symm,
      Option.map_eq_bind]
    simp [Value.constant?, hnum]
  rw [hadapt]
  cases c with
  | byte _ | integer _ | long _ | single _ | double _ | decimal _ =>
      simp [adaptConstant?, dest_ne .any (by decide), bare_ne .object (by decide)]
  | char _ =>
      simp [adaptConstant?, dest_ne .any (by decide), bare_ne .object (by decide),
        bare_ne .string (by decide)]
  | string _ | boolean _ | enum _ =>
      simp [adaptConstant?, dest_ne .any (by decide), bare_ne .object (by decide),
        bare_ne .char (by decide), bare_ne .empty (by decide), hempty]
  | empty =>
      simp [adaptConstant?, adaptNullish?, hflags, Value.ofEnum]
  | nothing | null =>
      simp [adaptConstant?, adaptNullish?, Value.ofEnum]

end ClearsFlags

end SymbolTable

namespace Session

variable {s : Session}

theorem Reachable.stamped {allowed : Operation → Bool} (h : Reachable allowed s) :
    s.table.Stamped := by
  obtain ⟨i, he⟩ := h.edited_initial
  exact (SymbolTable.initial_stamped i).edited (SymbolTable.initial_closed i) he

/-- An implicit conversion that makes a constant of a constant is a conversion of constants, unless
it makes flags of a constant of the type `Empty`. It then gives the empty set of flags, whatever the
constant; the conversion of constants does so exactly for `Empty` itself at a type without null. -/
theorem implicitConstants_of_reachable (h : Reachable (fun _ => true) s) (c : Constant)
    (t dest : TypeId) :
    (s.table.clearsFlags t dest = false → ∀ u, u.constant?.isSome →
      s.table.convertImplicit? (.constant c t) dest = some u →
      s.table.convertConstant? (.constant c t) dest = some u) ∧
    (s.table.clearsFlags t dest →
      s.table.convertImplicit? (.constant c t) dest = some (.ofEnum (.zero false) dest) ∧
      (s.table.convertConstant? (.constant c t) dest = some (.ofEnum (.zero false) dest) ↔
        c = .empty ∧ s.table.acceptsNull dest = false)) := by
  have hs := h.supplied
  have hw := h.stamped
  refine ⟨fun hf u hc hu => ?_, fun hf =>
    ⟨SymbolTable.convertImplicit?_of_clearsFlags hs hw hf rfl,
      SymbolTable.convertConstant?_of_clearsFlags hs hw hf c⟩⟩
  rcases SymbolTable.convertConstant?_of_implicit hu hc with hu | ⟨hempty, hflags⟩
  · exact hu
  · have ht : t = .empty := (hw.isEmpty_iff t).mp hempty
    rw [SymbolTable.clearsFlags, ht, hflags] at hf
    cases hf

/-- An enum of flags with the nullable type over it. -/
def sampleFlags : List Operation :=
  [.edit (.addEnum "Style" true), .edit (.addNullable ⟨20⟩)]

/-- Null is taken to the nullable type by either conversion, and `Empty` to the flags. -/
theorem implicitConstants_sampleFlags :
    let w := (performAll {} sampleFlags).table
    Session.Admits (fun _ => true) {} sampleFlags ∧
      w.clearsFlags .null ⟨21⟩ = false ∧
      w.convertImplicit? (.ofNull .null) ⟨21⟩ = some (.ofNull ⟨21⟩) ∧
      w.convertConstant? (.ofNull .null) ⟨21⟩ = some (.ofNull ⟨21⟩) ∧
      w.clearsFlags .empty ⟨20⟩ ∧
      w.convertImplicit? .ofEmpty ⟨20⟩ = some (.ofEnum (.zero false) ⟨20⟩) ∧
      w.convertConstant? .ofEmpty ⟨20⟩ = some (.ofEnum (.zero false) ⟨20⟩) := by
  have facts : let w := (performAll {} sampleFlags).table
      Session.Admits (fun _ => true) {} sampleFlags ∧ w.clearsFlags .null ⟨21⟩ = false ∧
        w.convertImplicit? (.ofNull .null) ⟨21⟩ = some (.ofNull ⟨21⟩) ∧
        w.clearsFlags .empty ⟨20⟩ ∧ w.acceptsNull ⟨20⟩ = false := by
    decide +kernel
  obtain ⟨h, hnull, himplicit, hflags, haccepts⟩ := facts
  have hr := Reachable.new.performAll h
  obtain ⟨agree, _⟩ := implicitConstants_of_reachable hr .null .null ⟨21⟩
  obtain ⟨_, clears⟩ := implicitConstants_of_reachable hr .empty .empty ⟨20⟩
  exact ⟨h, hnull, himplicit, agree hnull _ rfl himplicit, hflags, (clears hflags).1,
    (clears hflags).2.mpr ⟨rfl, haccepts⟩⟩

/-- At the nullable type over flags, `Empty` becomes the empty set of flags if it is converted
implicitly, and stays `Empty` if it is converted as a constant. -/
theorem emptyAtNullable_sampleFlags :
    let w := (performAll {} sampleFlags).table
    Session.Admits (fun _ => true) {} sampleFlags ∧
      w.convertImplicit? .ofEmpty ⟨21⟩ = some (.ofEnum (.zero false) ⟨21⟩) ∧
      w.convertConstant? .ofEmpty ⟨21⟩ = some (.constant .empty ⟨21⟩) ∧
      w.convertConstant? .ofEmpty ⟨21⟩ ≠ w.convertImplicit? .ofEmpty ⟨21⟩ := by
  decide +kernel

end Session
end StaticSemantics
