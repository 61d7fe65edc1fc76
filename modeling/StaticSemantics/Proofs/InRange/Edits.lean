import StaticSemantics.Proofs.InRange.Members

/-!
Edits in range. An admitted edit of a closed table leads to the same table in every memory and hands
back the same, and the table that every program starts from is the same one.
-/

namespace StaticSemantics.SymbolTable

variable {w : SymbolTable} {r : OutOfRange} {t : TypeId} {d : MemberTableId} {s : SlotId}
  {f : FrameId}

/-! ## Single writes -/

theorem modifyType_inRange (ht : w.types.Has t) (change : TypeDecl → TypeDecl) :
    @modifyType ⟨r⟩ w t change = w.modifyType t change := by
  simp only [modifyType, Arena.modify_inRange ht]

theorem modifyMemberTable_inRange (hd : w.memberTables.Has d)
    (change : MemberTable → MemberTable) :
    @modifyMemberTable ⟨r⟩ w d change = w.modifyMemberTable d change := by
  simp only [modifyMemberTable, Arena.modify_inRange hd]

theorem modifyModule_inRange {m : ModuleId} (hm : w.modules.Has m)
    (change : ModuleDecl → ModuleDecl) :
    @modifyModule ⟨r⟩ w m change = w.modifyModule m change := by
  simp only [modifyModule, Arena.modify_inRange hm]

theorem modifySlot_inRange (hs : w.slots.Has s) (change : Slot → Slot) :
    @modifySlot ⟨r⟩ w s change = w.modifySlot s change := by
  simp only [modifySlot, Arena.modify_inRange hs]

theorem modifyFrame_inRange (hf : w.frames.Has f) (change : Frame → Frame) :
    @modifyFrame ⟨r⟩ w f change = w.modifyFrame f change := by
  simp only [modifyFrame, Arena.modify_inRange hf]

theorem modifyAlias_inRange {a : AliasId} (ha : w.aliases.Has a)
    (change : AliasDecl → AliasDecl) : @modifyAlias ⟨r⟩ w a change = w.modifyAlias a change := by
  simp only [modifyAlias, Arena.modify_inRange ha]

/-! ## Names -/

theorem modifyBindings_inRange {o : Owner} (ho : w.Covers o.ids) (change : Bindings → Bindings) :
    @modifyBindings ⟨r⟩ w o change = w.modifyBindings o change := by
  cases o with
  | module m => exact modifyModule_inRange (ho _ List.mem_cons_self) _
  | type t => exact modifyType_inRange (ho _ List.mem_cons_self) _
  | members d => exact modifyMemberTable_inRange (ho _ List.mem_cons_self) _
  | frame f => exact modifyFrame_inRange (ho _ List.mem_cons_self) _

theorem setDefinedIn_inRange {x : Symbol} (hx : w.Covers x.ids) (o : Owner) :
    @setDefinedIn ⟨r⟩ w x o = w.setDefinedIn x o := by
  cases x with
  | type t => exact modifyType_inRange (hx _ List.mem_cons_self) _
  | module m => exact modifyModule_inRange (hx _ List.mem_cons_self) _
  | slot s => exact modifySlot_inRange (hx _ List.mem_cons_self) _
  | aliasDecl a => exact modifyAlias_inRange (hx _ List.mem_cons_self) _
  | _ => rfl

theorem bind_inRange {o : Owner} (ho : w.Covers o.ids) (name : String) (x : Symbol) :
    @bind ⟨r⟩ w o name x = w.bind o name x := by
  have ho' : (w.intern name).2.Covers o.ids := (covers_congr (count_intern name)).mpr ho
  simp only [bind, modifyBindings_inRange ho']

theorem define_inRange {o : Owner} (ho : w.Covers o.ids) (name : String) {x : Symbol}
    (hx : w.Covers x.ids) : @define ⟨r⟩ w o name x = w.define o name x := by
  have ho' : (w.intern name).2.Covers o.ids := (covers_congr (count_intern name)).mpr ho
  have hx' : (w.intern name).2.Covers x.ids := (covers_congr (count_intern name)).mpr hx
  have hd : ((w.intern name).2.setDefinedIn x o).Covers o.ids :=
    (covers_congr (count_setDefinedIn x o)).mpr ho'
  simp only [define, bindings_inRange ho', setDefinedIn_inRange hx', modifyBindings_inRange hd]

/-! ## Types -/

theorem addTypeWithMembers_inRange (kind : TypeKind) (name : Option String)
    {superType : Option TypeId} (hs : ∀ s ∈ superType, w.types.Has s) :
    @addTypeWithMembers ⟨r⟩ w kind name superType = w.addTypeWithMembers kind name superType := by
  simp only [addTypeWithMembers]
  rw [Option.bind_congr fun s hs' => by rw [type_inRange (hs s hs')]]

/-- Most types are added below `Object`. -/
theorem addBelowObject_inRange (hobject : w.types.Has .object) (kind : TypeKind)
    (name : Option String) : @addTypeWithMembers ⟨r⟩ w kind name (some .object) =
      w.addTypeWithMembers kind name (some .object) :=
  addTypeWithMembers_inRange kind name (by simpa using hobject)

theorem addNullable_inRange (ht : w.types.Has t) :
    @addNullable ⟨r⟩ w t = w.addNullable t := by
  simp only [addNullable, acceptsNull_inRange ht]

theorem addTuple_inRange (hobject : w.types.Has .object) (elements : List TypeId) :
    @addTuple ⟨r⟩ w elements = w.addTuple elements := by
  have hobject' : (w.makeRoom elements.length).types.Has .object := hobject
  simp only [addTuple, declareTuple, addBelowObject_inRange hobject']

namespace Closed

theorem object_has (h : w.Closed) : w.types.Has .object := h.has_supplied (by decide)

theorem setSuperType_inRange (h : w.Closed) {u : TypeId} (ht : w.types.Has t)
    (hu : w.types.Has u) : @SymbolTable.setSuperType ⟨r⟩ w t u = w.setSuperType t u := by
  simp only [SymbolTable.setSuperType, type_inRange ht, type_inRange hu, modifyType_inRange ht]
  cases hd : (w.type t).members with
  | none => rfl
  | some d =>
      have has (change : TypeDecl → TypeDecl) : (w.modifyType t change).memberTables.Has d :=
        h.members_has hd
      simp only [modifyMemberTable_inRange (has _)]

theorem detachSubclass_inRange (h : w.Closed) (ht : w.types.Has t) :
    @SymbolTable.detachSubclass ⟨r⟩ w t = w.detachSubclass t := by
  simp only [SymbolTable.detachSubclass, type_inRange ht]
  cases hu : (w.type t).superType with
  | none => rfl
  | some u => exact modifyType_inRange (h.superType_has hu) _

theorem extendClass_inRange (h : w.Closed) {base : TypeId} (ht : w.types.Has t)
    (hb : w.types.Has base) : @SymbolTable.extendClass ⟨r⟩ w t base = w.extendClass t base := by
  have has {u : TypeId} (hu : w.types.Has u) : (w.detachSubclass t).types.Has u :=
    (has_congr (count_detachSubclass t) u.tagged).mpr hu
  have has' {u : TypeId} (hu : w.types.Has u) :
      ((w.detachSubclass t).setSuperType t base).types.Has u :=
    (has_congr (count_setSuperType t base) u.tagged).mpr (has hu)
  simp only [SymbolTable.extendClass, type_inRange ht, type_inRange hb, h.typeText_inRange ht,
    h.typeText_inRange hb, h.isSubtype_inRange hb ht, h.detachSubclass_inRange ht,
    (h.detachSubclass t).setSuperType_inRange (has ht) (has hb), modifyType_inRange (has' hb)]

theorem implement_inRange (h : w.Closed) {interface : TypeId} (ht : w.types.Has t)
    (hi : w.types.Has interface) :
    @SymbolTable.implement ⟨r⟩ w t interface = w.implement t interface := by
  have has (change : TypeDecl → TypeDecl) : (w.modifyType t change).types.Has interface :=
    (has_congr (count_modifyType t change) interface.tagged).mpr hi
  simp only [SymbolTable.implement, type_inRange ht, type_inRange hi, h.typeText_inRange ht,
    h.typeText_inRange hi, modifyType_inRange ht, modifyType_inRange (has _)]

theorem linkInterfaces_inRange {interface base : TypeId} (hi : w.types.Has interface)
    (hb : w.types.Has base) :
    @SymbolTable.linkInterfaces ⟨r⟩ w interface base = w.linkInterfaces interface base := by
  have has (change : TypeDecl → TypeDecl) : (w.modifyType interface change).types.Has base :=
    (has_congr (count_modifyType interface change) base.tagged).mpr hb
  simp only [SymbolTable.linkInterfaces, type_inRange hb, modifyType_inRange hi,
    modifyType_inRange (has _)]

theorem conflicts_inRange {source : Bindings} (hs : w.Covers source.ids) (target : Bindings) :
    @conflicts ⟨r⟩ w source target = w.conflicts source target := by
  refine List.filterMap_congr fun e he => ?_
  have hc := covers_flatMap.mp hs e he
  have hname : @memberName ⟨r⟩ w e.1 e.2 = w.memberName e.1 e.2 := by
    cases hx : e.2 with
    | slot s =>
        rw [hx] at hc
        have hs : w.slots.Has s := hc _ List.mem_cons_self
        simp only [memberName, slot_inRange hs]
    | _ => rfl
  simp only [hname]

theorem extendInterface_inRange (h : w.Closed) {interface base : TypeId}
    (hi : w.types.Has interface) (hb : w.types.Has base) :
    @SymbolTable.extendInterface ⟨r⟩ w interface base = w.extendInterface interface base := by
  have both : ∀ t ∈ [interface, base], w.types.Has t := by simp [hi, hb]
  have refused : ([interface, base].find? fun t => !(@type ⟨r⟩ w t).isInterface) =
      [interface, base].find? fun t => !(w.type t).isInterface :=
    List.find?_congr fun t ht => by rw [type_inRange (both t ht)]
  simp only [SymbolTable.extendInterface, refused]
  cases hf : [interface, base].find? fun t => !(w.type t).isInterface with
  | some t => simp only [h.typeText_inRange (both t (List.mem_of_find?_eq_some hf))]
  | none =>
      simp only [h.isSubtype_inRange hb hi, h.isSubtype_inRange hi hb, type_inRange hb,
        type_inRange hi, linkInterfaces_inRange hi hb]
      cases hd : (w.type base).members with
      | none => rfl
      | some d =>
          cases he : (w.type interface).members with
          | none => rfl
          | some e =>
              have hd := h.members_has hd
              have he := h.members_has he
              have he' : (w.linkInterfaces interface base).memberTables.Has e := he
              have hc : w.Covers (w.memberTable d).names.ids := h.covers_bindings (.members d)
              simp only [memberTable_inRange hd, memberTable_inRange he, conflicts_inRange hc,
                modifyMemberTable_inRange he']

theorem addOperator_inRange (h : w.Closed) (ht : w.types.Has t) (op : Operator)
    (hs : w.slots.Has s) : @SymbolTable.addOperator ⟨r⟩ w t op s = w.addOperator t op s := by
  have fits : ((w.methodInfo? s).all fun m =>
        (@signature ⟨r⟩ w m.signature).accepts op.operands) =
      (w.methodInfo? s).all fun m => (w.signature m.signature).accepts op.operands := by
    cases hm : w.methodInfo? s with
    | none => rfl
    | some m => simp only [Option.all_some, signature_inRange (h.signature_has hm)]
  simp only [SymbolTable.addOperator, methodInfo?_inRange hs, fits, type_inRange ht]
  cases hd : (w.type t).members with
  | none => rfl
  | some d => simp only [modifyMemberTable_inRange (h.members_has hd)]

/-! ## Members -/

theorem declareNative_inRange (hd : w.memberTables.Has d) (name : String) (g : Signature) :
    @SymbolTable.declareNative ⟨r⟩ w d name g = w.declareNative d name g := by
  have hslot : ((w.addSignature g).2.addMethod name (w.addSignature g).1).2.slots.Has
      ((w.addSignature g).2.addMethod name (w.addSignature g).1).1 :=
    Arena.has_push.mpr (.inl rfl)
  have hd' : ((w.addSignature g).2.addMethod name (w.addSignature g).1).2.memberTables.Has d := hd
  unfold SymbolTable.declareNative
  dsimp only
  generalize (w.addSignature g).2.addMethod name (w.addSignature g).1 = added at hslot hd'
  have hflags : @SymbolTable.setMethodFlags ⟨r⟩ added.2 added.1 { native := true } =
      added.2.setMethodFlags added.1 { native := true } := modifySlot_inRange hslot _
  have ho : (added.2.setMethodFlags added.1 { native := true }).Covers (Owner.members d).ids :=
    (covers_congr (count_modifySlot _ _)).mpr (covers_cons.mpr ⟨hd', covers_nil _⟩)
  have hx : (added.2.setMethodFlags added.1 { native := true }).Covers (Symbol.slot added.1).ids :=
    (covers_congr (count_modifySlot _ _)).mpr (covers_cons.mpr ⟨hslot, covers_nil _⟩)
  rw [hflags, define_inRange ho name hx]

theorem declareNatives_inRange (h : w.Closed) (hd : w.memberTables.Has d)
    {l : List (String × Signature)} (hl : ∀ e ∈ l, w.Covers e.2.ids) :
    @SymbolTable.declareNatives ⟨r⟩ w d l = w.declareNatives d l := by
  induction l generalizing w with
  | nil => rfl
  | cons e l ih =>
      have hn := h.declareNative e.1 hd (hl e List.mem_cons_self)
      simp only [SymbolTable.declareNatives, declareNative_inRange hd]
      generalize w.declareNative d e.1 e.2 = result at hn
      obtain ⟨_ | slot, w'⟩ := result
      · rfl
      · have hrest := ih hn.1 ((has_memberTable.mpr hd).mono hn.2) fun x hx =>
          (hl x (List.mem_cons_of_mem e hx)).mono hn.2
        simp only [hrest]

theorem declareEnumHelpers_inRange (h : w.Closed) (ht : w.types.Has t) :
    @SymbolTable.declareEnumHelpers ⟨r⟩ w t = w.declareEnumHelpers t := by
  simp only [SymbolTable.declareEnumHelpers, type_inRange ht]
  cases hi : (w.type t).enum? with
  | none => rfl
  | some info =>
      cases hd : (w.type t).members with
      | none => rfl
      | some d =>
          have hl := h.covers_helperSignatures ht info.isFlags
          have hn := h.declareNatives (h.members_has hd) hl
          simp only [h.declareNatives_inRange (h.members_has hd) hl]
          generalize w.declareNatives d (helperSignatures t info.isFlags) = result at hn
          obtain ⟨_ | slots, w'⟩ := result
          · rfl
          · have ht' : w'.types.Has t := (has_type.mpr ht).mono hn.2.1
            simp only [modifyType_inRange ht']

theorem linkAccessor_inRange (property : SlotId) {accessor : Option SlotId}
    (ha : ∀ s ∈ accessor, w.slots.Has s) :
    @SymbolTable.linkAccessor ⟨r⟩ w property accessor = w.linkAccessor property accessor := by
  cases accessor with
  | none => rfl
  | some a => exact modifySlot_inRange (ha a rfl) _

theorem setAccessors_inRange {property : SlotId} {getter setter : Option SlotId}
    (hp : w.slots.Has property) (hg : ∀ s ∈ getter, w.slots.Has s)
    (hs : ∀ s ∈ setter, w.slots.Has s) :
    @SymbolTable.setAccessors ⟨r⟩ w property getter setter =
      w.setAccessors property getter setter := by
  have has {s : SlotId} (hs : w.slots.Has s) : (w.linkAccessor property getter).slots.Has s :=
    (has_congr (count_linkAccessor property getter) s.tagged).mpr hs
  have has' {s : SlotId} (hs : w.slots.Has s) :
      ((w.linkAccessor property getter).linkAccessor property setter).slots.Has s :=
    (has_congr (count_linkAccessor property setter) s.tagged).mpr (has hs)
  simp only [SymbolTable.setAccessors, linkAccessor_inRange property hg,
    linkAccessor_inRange property fun s h => has (hs s h), modifySlot_inRange (has' hp)]

theorem override_inRange (h : w.Closed) (hs : w.slots.Has s) (hd : w.memberTables.Has d) :
    @SymbolTable.override ⟨r⟩ w s d = w.override s d := by
  simp only [SymbolTable.override, h.overridden_inRange hs hd, memberTable_inRange hd]
  cases ho : w.overridden s d with
  | error e => rfl
  | ok target =>
      have has (change : Slot → Slot) : (w.modifySlot target change).slots.Has s :=
        (has_congr (count_modifySlot target change) s.tagged).mpr hs
      simp only [modifySlot_inRange (h.overridden_has ho), modifySlot_inRange (has _)]

/-! ## Frames -/

theorem attachFrame_inRange (h : w.Closed) {top : FrameId} (hf : w.frames.Has f)
    (ht : w.frames.Has top) :
    @SymbolTable.attachFrame ⟨r⟩ w f top = w.attachFrame f top := by
  simp only [SymbolTable.attachFrame, frame_inRange hf, h.frameChain_inRange ht,
    modifyFrame_inRange hf]

/-! ## All edits -/

/-- An admitted edit comes to the same in every memory. -/
theorem apply_inRange (h : w.Closed) {e : Edit} (he : w.Covers e.ids) :
    @SymbolTable.apply ⟨r⟩ w e = w.apply e ∧ @result ⟨r⟩ w e = w.result e := by
  have both {α : Type} {x y : α × SymbolTable} (hxy : x = y) : x.2 = y.2 ∧ x.1 = y.1 :=
    ⟨congrArg Prod.snd hxy, congrArg Prod.fst hxy⟩
  have hobject := h.object_has
  cases e with
  | addClass | addStruct | addEnum => exact both (addBelowObject_inRange hobject _ _)
  | addInterface => exact both (addTypeWithMembers_inRange _ _ (by simp))
  | addNullable t => exact both (addNullable_inRange (he _ List.mem_cons_self))
  | addTuple elements => exact both (addTuple_inRange hobject elements)
  | setTypeVisibility | setEnumMember =>
      exact ⟨modifyType_inRange (he _ List.mem_cons_self) _, rfl⟩
  | setSuperType t u =>
      simp only [Edit.ids, covers_cons] at he
      exact ⟨h.setSuperType_inRange he.1 he.2.1, rfl⟩
  | extendClass cls base =>
      simp only [Edit.ids, covers_cons] at he
      exact both (h.extendClass_inRange he.1 he.2.1)
  | implement cls interface =>
      simp only [Edit.ids, covers_cons] at he
      exact both (h.implement_inRange he.1 he.2.1)
  | extendInterface interface base =>
      simp only [Edit.ids, covers_cons] at he
      exact both (h.extendInterface_inRange he.1 he.2.1)
  | declareEnumHelpers t => exact both (h.declareEnumHelpers_inRange (he _ List.mem_cons_self))
  | addOperator t op method =>
      simp only [Edit.ids, covers_cons] at he
      exact both (h.addOperator_inRange he.1 op he.2.1)
  | setAliasTarget => exact ⟨modifyAlias_inRange (he _ List.mem_cons_self) _, rfl⟩
  | setInitial | setSlotVisibility | setMethodFlags =>
      exact ⟨modifySlot_inRange (he _ List.mem_cons_self) _, rfl⟩
  | setAccessors property getter setter =>
      simp only [Edit.ids, List.cons_append, covers_cons, covers_append, covers_map,
        Option.mem_toList] at he
      exact ⟨setAccessors_inRange he.1 he.2.1 he.2.2, rfl⟩
  | override candidate d =>
      simp only [Edit.ids, covers_cons] at he
      exact both (h.override_inRange he.1 he.2.1)
  | define o name x =>
      have hc := covers_append.mp he
      exact both (define_inRange hc.1 name hc.2)
  | bind o name x =>
      have ho := (covers_append.mp he).1
      exact ⟨bind_inRange ho name x, bound?_inRange ho name⟩
  | importModule | capture => exact ⟨modifyFrame_inRange (he _ List.mem_cons_self) _, rfl⟩
  | attachFrame f top =>
      simp only [Edit.ids, covers_cons] at he
      exact ⟨h.attachFrame_inRange he.1 he.2.1, rfl⟩
  | addModule | setRoot | addAlias | addVariable | addProperty | addMethod | addSignature | intern
  | addFrame | addWithFrame => exact ⟨rfl, rfl⟩

end Closed
end StaticSemantics.SymbolTable
