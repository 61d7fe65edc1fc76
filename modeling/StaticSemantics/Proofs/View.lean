import StaticSemantics.Proofs.Change

/-!
Views of a table that are blind to the names in it. Most edits bind names or change slots, frames
and modules; whatever such a view shows of the types and member tables is the same after them, and
so are the nullable and tuple types that can be found by what they are made of. A view that does not
show how types are related either is the same after every edit that adds no type.
-/

namespace StaticSemantics

/-- What is looked at of types and member tables. A view does not show names, operators or the data
of an enum, nor where a type is defined and who sees it. -/
structure View (α β : Type) where
  type : TypeDecl → α
  members : MemberTable → β
  type_statics : ∀ d b, type { d with statics := b } = type d
  type_definedIn : ∀ d o, type { d with definedIn := o } = type d
  type_visibility : ∀ d v, type { d with visibility := v } = type d
  type_modifyEnum : ∀ d change, type (d.modifyEnum change) = type d
  members_names : ∀ m b, members { m with names := b } = members m
  members_setOperator : ∀ m op s, members (m.setOperator op s) = members m

/-- The edit may add a type or change what stands above one. -/
def Edit.relatesTypes : Edit → Bool
  | addClass .. | addStruct _ | addEnum .. | addInterface _ | addNullable _ | addTuple _
  | setSuperType .. | extendClass .. | implement .. | extendInterface .. => true
  | _ => false

/-- The edit adds a type unless there is one like it. -/
def Edit.addsType : Edit → Bool
  | addClass .. | addStruct _ | addEnum .. | addInterface _ | addNullable _ | addTuple _ => true
  | _ => false

namespace Change

/-- The change belongs to the addition of a type. -/
def addsType : Change → Bool
  | newType .. | newMemberTable .. | nullable .. | room _ | tuple .. => true
  | _ => false

/-- The change belongs to the addition of a type, or alters what stands above one. -/
def relatesTypes : Change → Bool
  | newType .. | newMemberTable .. | nullable .. | room _ | tuple .. | superType .. | inherits ..
  | classInfo .. | interfaceInfo .. | takeOver .. => true
  | _ => false

variable {c : Change} {e : Edit}

theorem addsType_eq_false (h : e.makes c) (he : e.addsType = false) : c.addsType = false := by
  cases c <;> first | rfl | (cases e <;> first | (cases he; done) | cases h)

theorem relatesTypes_eq_false (h : e.makes c) (he : e.relatesTypes = false) :
    c.relatesTypes = false := by
  cases c <;> first | rfl | (cases e <;> first | (cases he; done) | cases h)

end Change

namespace View

variable {α β : Type} {v : View α β} {w w' w'' : SymbolTable}

/-- The view shows the same of both tables, in which the same types are interned. -/
structure Same (v : View α β) (w w' : SymbolTable) : Prop where
  type : ∀ t, v.type (w'.type t) = v.type (w.type t)
  members : ∀ d, v.members (w'.memberTable d) = v.members (w.memberTable d)
  typeCount : w'.types.size = w.types.size
  memberTableCount : w'.memberTables.size = w.memberTables.size
  nullables : w'.nullables = w.nullables
  tuples : w'.tuples = w.tuples

namespace Same

theorem of_eq (ht : w'.types = w.types) (hm : w'.memberTables = w.memberTables)
    (hn : w'.nullables = w.nullables) (hu : w'.tuples = w.tuples) : v.Same w w' :=
  ⟨fun t => by rw [SymbolTable.type, ht]; rfl, fun d => by rw [SymbolTable.memberTable, hm]; rfl,
    by rw [ht], by rw [hm], hn, hu⟩

theorem refl (w : SymbolTable) : v.Same w w := .of_eq rfl rfl rfl rfl

theorem trans (h : v.Same w w') (h' : v.Same w' w'') : v.Same w w'' :=
  ⟨fun t => (h'.type t).trans (h.type t), fun d => (h'.members d).trans (h.members d),
    h'.typeCount.trans h.typeCount, h'.memberTableCount.trans h.memberTableCount,
    h'.nullables.trans h.nullables, h'.tuples.trans h.tuples⟩

theorem modifyType (t : TypeId) {change : TypeDecl → TypeDecl}
    (hc : ∀ d, v.type (change d) = v.type d) : v.Same w (w.modifyType t change) := by
  refine ⟨fun u => ?_, fun _ => rfl, by simp [SymbolTable.modifyType], rfl, rfl, rfl⟩
  simp only [SymbolTable.type, SymbolTable.modifyType, Arena.get_modify]
  split
  · exact hc _
  · rfl

theorem modifyMemberTable (d : MemberTableId) {change : MemberTable → MemberTable}
    (hc : ∀ m, v.members (change m) = v.members m) :
    v.Same w (w.modifyMemberTable d change) := by
  refine ⟨fun _ => rfl, fun e => ?_, rfl, by simp [SymbolTable.modifyMemberTable], rfl, rfl⟩
  simp only [SymbolTable.memberTable, SymbolTable.modifyMemberTable, Arena.get_modify]
  split
  · exact hc _
  · rfl

theorem modifyBindings (o : Owner) (change : Bindings → Bindings) :
    v.Same w (w.modifyBindings o change) := by
  cases o with
  | type t => exact .modifyType t fun d => v.type_statics d _
  | members d => exact .modifyMemberTable d fun m => v.members_names m _
  | module _ | frame _ => exact .of_eq rfl rfl rfl rfl

theorem setDefinedIn (s : Symbol) (o : Owner) : v.Same w (w.setDefinedIn s o) := by
  cases s with
  | type t => exact .modifyType t fun d => v.type_definedIn d _
  | module _ | slot _ | aliasDecl _ | value _ | error _ => exact .of_eq rfl rfl rfl rfl

theorem change {c : Change} (hc : c.relatesTypes = false) : v.Same w (w.change c) := by
  cases c with
  | newType | newMemberTable | nullable | room | tuple | superType | inherits | classInfo
  | interfaceInfo | takeOver => cases hc
  | typeVisibility t visibility => exact .modifyType t fun d => v.type_visibility d _
  | enumInfo t change => exact .modifyType t fun d => v.type_modifyEnum d _
  | operator d op method => exact .modifyMemberTable d fun m => v.members_setOperator m op method
  | definedIn s o => exact .setDefinedIn s o
  | name o name s =>
      have interned : v.Same w (w.intern name).2 := .of_eq rfl rfl rfl rfl
      exact interned.trans (.modifyBindings o (·.insert (w.intern name).1 s))
  | newModule | newAlias | newVariable | newProperty | newMethod | newSignature | newFrame
  | aliasTarget | initialValue | slotVisibility | flags | overrider | ofProperty | accessors
  | intern | importModule | capture | parent | root => exact .of_eq rfl rfl rfl rfl

/-- An edit that relates no types leaves all that a view shows as it is. -/
theorem apply {e : Edit} (he : e.relatesTypes = false) : v.Same w (w.apply e) :=
  SymbolTable.apply_induction
    (fun _ _ hm h => h.trans (.change (Change.relatesTypes_eq_false hm he))) (.refl w)

end Same

/-- The view does not show how types are related. -/
structure BlindToRelations (v : View α β) : Prop where
  type_superType : ∀ d s, v.type { d with superType := s } = v.type d
  type_modifyClass : ∀ d change, v.type (d.modifyClass change) = v.type d
  type_modifyInterface : ∀ d change, v.type (d.modifyInterface change) = v.type d
  members : ∀ m m', v.members m = v.members m'

namespace BlindToRelations

theorem change (hv : v.BlindToRelations) {c : Change} (hc : c.addsType = false) :
    v.Same w (w.change c) := by
  cases hr : c.relatesTypes with
  | false => exact .change hr
  | true =>
      cases c with
      | superType t s => exact .modifyType t fun d => hv.type_superType d _
      | classInfo t change => exact .modifyType t fun d => hv.type_modifyClass d change
      | interfaceInfo t change => exact .modifyType t fun d => hv.type_modifyInterface d change
      | inherits d above => exact .modifyMemberTable d fun m => hv.members _ m
      | takeOver source d => exact .modifyMemberTable d fun m => hv.members _ m
      | _ => first | (cases hc; done) | cases hr

/-- An edit that adds no type leaves all that such a view shows as it is. -/
theorem apply (hv : v.BlindToRelations) {e : Edit} (he : e.addsType = false) :
    v.Same w (w.apply e) :=
  SymbolTable.apply_induction
    (fun _ _ hm h => h.trans (hv.change (Change.addsType_eq_false hm he))) (.refl w)

end BlindToRelations
end View
end StaticSemantics
