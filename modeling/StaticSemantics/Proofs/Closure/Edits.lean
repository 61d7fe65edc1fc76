import StaticSemantics.Proofs.Closure.Basic
import StaticSemantics.Proofs.Hierarchy.Inversion
import StaticSemantics.Proofs.Initial
import StaticSemantics.Proofs.Operation

/-!
Every edit whose arguments are covered keeps the table closed and gives no id back, and the table
that every program starts from is closed.
-/

namespace StaticSemantics.SymbolTable

variable {w : SymbolTable}

namespace Closed

/-! ## Types -/

theorem modifyKind (h : w.Closed) (t : TypeId) {change : TypeDecl → TypeDecl}
    (hk : ∀ x : TypeDecl, w.Covers x.kind.ids → w.Covers (change x).kind.ids)
    (hc : ∀ x : TypeDecl, { change x with kind := x.kind } = x) :
    (w.modifyType t change).Closed := by
  refine h.modifyType t fun x hx => ?_
  have hf := hc x
  simp only [TypeDecl.ids, covers_append] at hx ⊢
  rw [← hf] at hx
  exact ⟨⟨⟨⟨hk x (by simpa using hx.1.1.1.1), hx.1.1.1.2⟩, hx.1.1.2⟩, hx.1.2⟩, hx.2⟩

theorem modifyClass (h : w.Closed) (t : TypeId) {change : ClassInfo → ClassInfo}
    (hc : ∀ x : ClassInfo, w.Covers (TypeKind.cls x).ids → w.Covers (TypeKind.cls (change x)).ids) :
    (w.modifyType t (TypeDecl.modifyClass change)).Closed := by
  refine h.modifyKind t (fun x hx => ?_) (fun x => ?_)
  · obtain ⟨kind, _, _, _, _, _, _⟩ := x
    cases kind with
    | cls info => exact hc info hx
    | _ => exact hx
  · obtain ⟨kind, _, _, _, _, _, _⟩ := x
    cases kind <;> rfl

theorem modifyEnum (h : w.Closed) (t : TypeId) {change : EnumInfo → EnumInfo}
    (hc : ∀ x : EnumInfo, w.Covers (TypeKind.enum x).ids →
      w.Covers (TypeKind.enum (change x)).ids) :
    (w.modifyType t (TypeDecl.modifyEnum change)).Closed := by
  refine h.modifyKind t (fun x hx => ?_) (fun x => ?_)
  · obtain ⟨kind, _, _, _, _, _, _⟩ := x
    cases kind with
    | enum info => exact hc info hx
    | _ => exact hx
  · obtain ⟨kind, _, _, _, _, _, _⟩ := x
    cases kind <;> rfl

theorem modifyInterface (h : w.Closed) (t : TypeId) {change : InterfaceInfo → InterfaceInfo}
    (hc : ∀ x : InterfaceInfo, w.Covers (TypeKind.interface x).ids →
      w.Covers (TypeKind.interface (change x)).ids) :
    (w.modifyType t (TypeDecl.modifyInterface change)).Closed := by
  refine h.modifyKind t (fun x hx => ?_) (fun x => ?_)
  · obtain ⟨kind, _, _, _, _, _, _⟩ := x
    cases kind with
    | interface info => exact hc info hx
    | _ => exact hx
  · obtain ⟨kind, _, _, _, _, _, _⟩ := x
    cases kind <;> rfl

theorem setSuperType (h : w.Closed) (t : TypeId) {s : TypeId} (hs : w.types.Has s) :
    (w.setSuperType t s).Closed := by
  have hm := h.members_of_superType (some s)
  have h' : (w.modifyType t ({ · with superType := some s })).Closed := by
    refine h.modifyType t fun x hx => ?_
    simp only [TypeDecl.ids, covers_append] at hx ⊢
    exact ⟨⟨hx.1.1, by simpa using hs⟩, hx.2⟩
  unfold SymbolTable.setSuperType
  split
  · refine h'.modifyMemberTable _ fun x hx => ?_
    simp only [MemberTable.ids, List.cons_append, covers_cons, covers_append] at hx ⊢
    refine ⟨hx.1, ⟨hx.2.1.1, ?_⟩, hx.2.2⟩
    simp only [covers_map, Option.mem_toList, has_memberTable]
    exact fun d hd => hm d (by simpa using hd)
  · exact h'

theorem detachSubclass (h : w.Closed) (cls : TypeId) : (w.detachSubclass cls).Closed := by
  unfold SymbolTable.detachSubclass
  split
  · refine h.modifyClass _ fun x hx => ?_
    simp only [TypeKind.ids, covers_map, List.mem_append, List.mem_filter] at hx ⊢
    exact fun i hi => hx i (hi.imp_right And.left)
  · exact h

end Closed

@[simp] theorem count_setSuperType (t s : TypeId) : (w.setSuperType t s).count = w.count := by
  unfold setSuperType
  split <;> simp

@[simp] theorem count_detachSubclass (cls : TypeId) : (w.detachSubclass cls).count = w.count := by
  unfold detachSubclass
  split <;> simp

theorem covers_mergeNames {source target : Bindings} (hs : w.Covers source.ids)
    (ht : w.Covers target.ids) : w.Covers (mergeNames source target).ids := by
  unfold mergeNames
  simp only [Bindings.ids, covers_flatMap] at hs
  generalize source.entries = l at hs
  induction l generalizing target with
  | nil => exact ht
  | cons e l ih =>
      have he := hs e (by simp)
      refine ih ?_ fun x hx => hs x (by simp [hx])
      dsimp only
      split
      · exact ht
      · exact covers_insert ht he

theorem covers_setOperator {m : MemberTable} (op : Operator) {s : SlotId} (hm : w.Covers m.ids)
    (hs : w.slots.Has s) : w.Covers (m.setOperator op s).ids := by
  have put : ∀ l : List (Operator × SlotId), (∀ e ∈ l, w.slots.Has e.2) →
      ∀ e ∈ MemberTable.setOperator.put op s l, w.slots.Has e.2 := by
    intro l
    induction l with
    | nil => intro _; simpa [MemberTable.setOperator.put] using hs
    | cons a l ih =>
        intro hl
        have ha := hl a (by simp)
        have hr : ∀ e ∈ l, w.slots.Has e.2 := fun e he => hl e (by simp [he])
        simp only [MemberTable.setOperator.put]
        split
        · simpa using ⟨hs, fun x y h => hr (x, y) h⟩
        · split
          · simpa using ⟨hs, ha, fun x y h => hr (x, y) h⟩
          · simpa using ⟨ha, fun x y h => ih hr (x, y) h⟩
  simp only [MemberTable.ids, List.cons_append, covers_cons, covers_append, covers_map,
    has_slot] at hm ⊢
  exact ⟨hm.1, hm.2.1, put m.operators hm.2.2⟩

theorem covers_mergeOperators {source target : MemberTable} (hs : w.Covers source.ids)
    (ht : w.Covers target.ids) : w.Covers (mergeOperators source target).ids := by
  unfold mergeOperators
  simp only [MemberTable.ids, List.cons_append, covers_cons, covers_append, covers_map] at hs
  replace hs := hs.2.2
  generalize source.operators = l at hs
  induction l generalizing target with
  | nil => exact ht
  | cons e l ih =>
      have he := hs e (by simp)
      refine ih ?_ fun x hx => hs x (by simp [hx])
      dsimp only
      split
      · exact ht
      · exact covers_setOperator e.1 ht he

@[simp] theorem count_linkInterfaces (interface base : TypeId) :
    (w.linkInterfaces interface base).count = w.count := by
  simp [linkInterfaces]

namespace Closed

theorem extendClass (h : w.Closed) {cls base : TypeId} (hc : w.types.Has cls)
    (hb : w.types.Has base) :
    (w.extendClass cls base).2.Closed ∧ (w.extendClass cls base).2.count = w.count := by
  refine settled_induction (P := fun w' => w'.Closed ∧ w'.count = w.count)
    (fun _ => extendClass_refused) ⟨h, rfl⟩ fun _ w' hw => ?_
  obtain ⟨_, _, _, rfl⟩ := extendClass_eq_ok hw
  have hd := count_detachSubclass (w := w) cls
  have hs := (count_setSuperType (w := w.detachSubclass cls) cls base).trans hd
  have hb' : (w.detachSubclass cls).types.Has base := (has_congr hd base.tagged).mpr hb
  refine ⟨?_, (count_modifyType _ _).trans hs⟩
  refine ((h.detachSubclass cls).setSuperType cls hb').modifyClass base fun x hx => ?_
  simp only [covers_congr hs, TypeKind.ids, covers_map, List.mem_append, List.mem_singleton,
    has_type] at hx ⊢
  rintro i (hi | hi | rfl)
  · exact hx i (.inl hi)
  · exact hx i (.inr hi)
  · exact hc

theorem implement (h : w.Closed) {cls interface : TypeId} (hc : w.types.Has cls)
    (hi : w.types.Has interface) :
    (w.implement cls interface).2.Closed ∧ (w.implement cls interface).2.count = w.count := by
  refine settled_induction (P := fun w' => w'.Closed ∧ w'.count = w.count)
    (fun _ => implement_refused) ⟨h, rfl⟩ fun _ w' hw => ?_
  obtain ⟨_, info, _, ⟨_, rfl⟩ | ⟨_, rfl⟩⟩ := implement_eq_ok hw
  · exact ⟨h, rfl⟩
  · have hm := fun change => count_modifyType (w := w) cls change
    refine ⟨?_, (count_modifyType _ _).trans (hm _)⟩
    have h' : (w.modifyType cls (TypeDecl.modifyClass fun info =>
        { info with implements := info.implements ++ [interface] })).Closed := by
      refine h.modifyClass cls fun x hx => ?_
      simp only [TypeKind.ids, covers_map, List.mem_append, List.mem_singleton, has_type] at hx ⊢
      rintro i ((hx' | rfl) | hx')
      · exact hx i (.inl hx')
      · exact hi
      · exact hx i (.inr hx')
    refine h'.modifyInterface interface fun x hx => ?_
    simp only [covers_congr (hm _), TypeKind.ids, covers_map, List.mem_append, mem_addLast,
      has_type] at hx ⊢
    rintro i (hx' | hx' | rfl)
    · exact hx i (.inl hx')
    · exact hx i (.inr hx')
    · exact hc

theorem linkInterfaces (h : w.Closed) {interface base : TypeId} (hi : w.types.Has interface)
    (hb : w.types.Has base) : (w.linkInterfaces interface base).Closed := by
  have above : ∀ i ∈ base :: ((w.type base).interface?.map InterfaceInfo.supers).getD [],
      w.types.Has i := by
    have ht := h.types base
    simp only [List.mem_cons]
    rintro i (rfl | hi)
    · exact hb
    · simp only [TypeDecl.ids, covers_append] at ht
      cases hk : (w.type base).kind <;> simp only [TypeDecl.interface?, hk] at hi <;>
        simp only [Option.map_some, Option.map_none, Option.getD_some, Option.getD_none,
          List.not_mem_nil] at hi
      have hk' := ht.1.1.1.1
      simp only [hk, TypeKind.ids, covers_map, List.mem_append] at hk'
      exact hk' i (.inl (.inl hi))
  unfold SymbolTable.linkInterfaces
  have hm := fun change => count_modifyType (w := w) interface change
  have h' : (w.modifyType interface (TypeDecl.modifyInterface fun info =>
      { info with supers := (base :: ((w.type base).interface?.map
        InterfaceInfo.supers).getD []).foldl addLast info.supers })).Closed := by
    refine h.modifyInterface interface fun x hx => ?_
    simp only [TypeKind.ids, covers_map, List.mem_append, mem_foldl_addLast, has_type] at hx ⊢
    rintro i (((hx' | hx') | hx') | hx')
    · exact hx i (.inl (.inl hx'))
    · exact above i hx'
    · exact hx i (.inl (.inr hx'))
    · exact hx i (.inr hx')
  refine h'.modifyInterface base fun x hx => ?_
  simp only [covers_congr (hm _), TypeKind.ids, covers_map, List.mem_append, mem_addLast,
    has_type] at hx ⊢
  rintro i ((hx' | hx' | rfl) | hx')
  · exact hx i (.inl (.inl hx'))
  · exact hx i (.inl (.inr hx'))
  · exact hi
  · exact hx i (.inr hx')

theorem extendInterface (h : w.Closed) {interface base : TypeId} (hi : w.types.Has interface)
    (hb : w.types.Has base) : (w.extendInterface interface base).2.Closed ∧
      (w.extendInterface interface base).2.count = w.count := by
  refine settled_induction (P := fun w' => w'.Closed ∧ w'.count = w.count)
    (fun _ => extendInterface_refused) ⟨h, rfl⟩ fun _ w' hw => ?_
  have hl := h.linkInterfaces hi hb
  have hc := count_linkInterfaces (w := w) interface base
  obtain ⟨_, _, ⟨_, _, rfl⟩ | ⟨_, rfl | ⟨d, e, _, _, rfl⟩⟩⟩ := extendInterface_eq_ok hw
  · exact ⟨h, rfl⟩
  · exact ⟨hl, hc⟩
  · refine ⟨hl.modifyMemberTable e fun x hx => ?_, (count_modifyMemberTable _ _).trans hc⟩
    rw [covers_congr hc] at hx ⊢
    have hd := h.memberTables d
    refine covers_mergeOperators hd ?_
    simp only [MemberTable.ids, List.cons_append, covers_cons, covers_append] at hx hd ⊢
    exact ⟨hx.1, ⟨covers_mergeNames hd.2.1.1 hx.2.1.1, hx.2.1.2⟩, hx.2.2⟩

/-! ## Nullable and tuple types -/

theorem addNullable (h : w.Closed) {t : TypeId} (ht : w.types.Has t) :
    (w.addNullable t).2.Closed := by
  rcases w.addNullable_cases t with ⟨_, hw⟩ | ⟨u, _, _, hw⟩ | ⟨_, _, hw⟩
  · rw [hw]
    exact h
  · rw [hw]
    exact h
  · rw [hw]
    have hd : w.Covers (TypeDecl.ids { kind := .nullable t }) := by
      simpa [TypeDecl.ids, TypeKind.ids, Bindings.ids] using ht
    exact (h.addType hd).internNullable t (Arena.has_push.mpr (.inl rfl))

theorem addTuple (h : w.Closed) {elements : List TypeId} (he : ∀ t ∈ elements, w.types.Has t) :
    (w.addTuple elements).2.Closed := by
  rcases w.addTuple_cases elements with ⟨u, _, hw⟩ | ⟨_, hw⟩
  · rw [hw]
    exact h
  · rw [hw]
    have hr := h.makeRoom elements.length
    have hk : (w.makeRoom elements.length).Covers (TypeKind.tuple elements).ids := by
      simp only [TypeKind.ids, covers_map, has_type]
      exact he
    have object : ∀ s ∈ some EntityId.object, (w.makeRoom elements.length).types.Has s := by
      rintro _ ⟨⟩
      exact hr.has_supplied (by decide)
    exact (hr.addTypeWithMembers none hk object).internTuple
      (w.lt_length_makeRoom elements.length) (Arena.has_push.mpr (.inl rfl))

/-! ## Slots -/

theorem modifyVariable (h : w.Closed) (s : SlotId) {change : VariableInfo → VariableInfo}
    (hc : ∀ x : VariableInfo, w.Covers (SlotDetail.variable x).ids →
      w.Covers (SlotDetail.variable (change x)).ids) :
    (w.modifySlot s (Slot.modifyVariable change)).Closed := by
  refine h.modifySlot s fun x hx => ?_
  obtain ⟨_, info | _ | _, _, _⟩ := x
  · simp only [Slot.modifyVariable, Slot.ids, covers_append] at hx ⊢
    exact ⟨hc info hx.1, hx.2⟩
  · exact hx
  · exact hx

theorem modifyProperty (h : w.Closed) (s : SlotId) {change : PropertyInfo → PropertyInfo}
    (hc : ∀ x : PropertyInfo, w.Covers (SlotDetail.property x).ids →
      w.Covers (SlotDetail.property (change x)).ids) :
    (w.modifySlot s (Slot.modifyProperty change)).Closed := by
  refine h.modifySlot s fun x hx => ?_
  obtain ⟨_, detail, _, _⟩ := x
  cases detail with
  | property info =>
      simp only [Slot.modifyProperty, Slot.ids, covers_append] at hx ⊢
      exact ⟨hc info hx.1, hx.2⟩
  | _ => exact hx

theorem modifyMethod (h : w.Closed) (s : SlotId) {change : MethodInfo → MethodInfo}
    (hc : ∀ x : MethodInfo, w.Covers (SlotDetail.method x).ids →
      w.Covers (SlotDetail.method (change x)).ids) :
    (w.modifySlot s (Slot.modifyMethod change)).Closed := by
  refine h.modifySlot s fun x hx => ?_
  obtain ⟨_, detail, _, _⟩ := x
  cases detail with
  | method info =>
      simp only [Slot.modifyMethod, Slot.ids, covers_append] at hx ⊢
      exact ⟨hc info hx.1, hx.2⟩
  | _ => exact hx

theorem setInitial (h : w.Closed) (s : SlotId) {v : Value} (hv : w.Covers v.ids) :
    (w.setInitial s v).Closed := by
  refine h.modifyVariable s fun x hx => ?_
  simp only [SlotDetail.ids, covers_append] at hx ⊢
  exact ⟨hx.1, by simpa using hv⟩

theorem setMethodFlags (h : w.Closed) (s : SlotId) (flags : MethodFlags) :
    (w.setMethodFlags s flags).Closed :=
  h.modifyMethod s fun _ hx => hx

theorem linkAccessor (h : w.Closed) {property : SlotId} (hp : w.slots.Has property)
    (accessor : Option SlotId) : (w.linkAccessor property accessor).Closed := by
  cases accessor with
  | none => exact h
  | some a =>
      refine h.modifyMethod a fun x hx => ?_
      simp only [SlotDetail.ids, List.cons_append, covers_cons, covers_append] at hx ⊢
      exact ⟨hx.1, by simpa using hp, hx.2.2⟩

end Closed

@[simp] theorem count_linkAccessor (property : SlotId) (accessor : Option SlotId) :
    (w.linkAccessor property accessor).count = w.count := by
  cases accessor <;> simp [linkAccessor]

@[simp] theorem count_setAccessors (property : SlotId) (getter setter : Option SlotId) :
    (w.setAccessors property getter setter).count = w.count := by
  simp [setAccessors]

namespace Closed

theorem setAccessors (h : w.Closed) {property : SlotId} {getter setter : Option SlotId}
    (hp : w.slots.Has property) (hg : ∀ s ∈ getter, w.slots.Has s)
    (hs : ∀ s ∈ setter, w.slots.Has s) : (w.setAccessors property getter setter).Closed := by
  have hc := count_linkAccessor (w := w) property getter
  have hp' : (w.linkAccessor property getter).slots.Has property :=
    (has_congr hc property.tagged).mpr hp
  have hc' := (count_linkAccessor (w := w.linkAccessor property getter) property setter).trans hc
  refine ((h.linkAccessor hp getter).linkAccessor hp' setter).modifyProperty property fun x hx => ?_
  rw [covers_congr hc'] at hx ⊢
  simp only [SlotDetail.ids, covers_append, covers_map, Option.mem_toList, has_slot] at hx ⊢
  exact ⟨⟨hx.1.1, hg⟩, hs⟩

theorem override (h : w.Closed) {candidate : SlotId} (d : MemberTableId)
    (hc : w.slots.Has candidate) :
    (w.override candidate d).2.Closed ∧ (w.override candidate d).2.count = w.count := by
  unfold SymbolTable.override
  split
  · exact ⟨h, rfl⟩
  · rename_i target _
    refine ⟨Closed.modifyMethod ?_ candidate fun _ hx => hx, by simp⟩
    refine h.modifyMethod target fun x hx => ?_
    have ht := h.definedIn_has d
    have put : ∀ l : List (TypeId × SlotId),
        (∀ e ∈ l, w.types.Has e.1 ∧ w.slots.Has e.2) →
        ∀ e ∈ MethodInfo.setOverrider.put (w.memberTable d).definedIn candidate l,
          w.types.Has e.1 ∧ w.slots.Has e.2 := by
      intro l
      induction l with
      | nil => intro _; simpa [MethodInfo.setOverrider.put] using ⟨ht, hc⟩
      | cons a l ih =>
          intro hl
          have ha := hl a (by simp)
          have hr : ∀ e ∈ l, w.types.Has e.1 ∧ w.slots.Has e.2 := fun e he => hl e (by simp [he])
          simp only [MethodInfo.setOverrider.put]
          split
          · simpa using ⟨⟨ht, hc⟩, fun x y h => hr (x, y) h⟩
          · simpa using ⟨ha, fun x y h => ih hr (x, y) h⟩
    simp only [SlotDetail.ids, List.cons_append, covers_cons, covers_append, covers_flatMap,
      has_type, has_slot, covers_nil, and_true] at hx ⊢
    exact ⟨hx.1, hx.2.1, put x.overriders hx.2.2⟩

theorem addOperator (h : w.Closed) (t : TypeId) (op : Operator) {method : SlotId}
    (hm : w.slots.Has method) :
    (w.addOperator t op method).2.Closed ∧ (w.addOperator t op method).2.count = w.count := by
  unfold SymbolTable.addOperator
  dsimp only
  split
  · split
    · exact ⟨h.modifyMemberTable _ fun x hx => covers_setOperator op hx hm, by simp⟩
    · exact ⟨h, rfl⟩
  · exact ⟨h, rfl⟩

end Closed

theorem within_addNullable (t : TypeId) : w.Within (w.addNullable t).2 := by
  rcases w.addNullable_cases t with ⟨_, hw⟩ | ⟨u, _, _, hw⟩ | ⟨_, _, hw⟩
  · rw [hw]
    exact .refl w
  · rw [hw]
    exact .refl w
  · rw [hw]
    exact within_addType { kind := .nullable t }

theorem within_addTuple (elements : List TypeId) : w.Within (w.addTuple elements).2 := by
  rcases w.addTuple_cases elements with ⟨u, _, hw⟩ | ⟨_, hw⟩
  · rw [hw]
    exact .refl w
  · rw [hw]
    exact within_addTypeWithMembers (.tuple elements) none (some .object)

theorem has_addNullable (h : w.Closed) {t : TypeId} (ht : w.types.Has t) :
    (w.addNullable t).2.types.Has (w.addNullable t).1 := by
  rcases w.addNullable_cases t with ⟨_, hw⟩ | ⟨u, _, hu, hw⟩ | ⟨_, _, hw⟩
  · rw [hw]
    exact ht
  · rw [hw]
    exact h.nullableOf?_has hu
  · rw [hw]
    exact Arena.has_push.mpr (.inl rfl)

theorem has_addTuple (h : w.Closed) (elements : List TypeId) :
    (w.addTuple elements).2.types.Has (w.addTuple elements).1 := by
  rcases w.addTuple_cases elements with ⟨u, hu, hw⟩ | ⟨_, hw⟩
  · rw [hw]
    exact h.tuple_has (mem_of_tupleOf? hu)
  · rw [hw]
    exact Arena.has_push.mpr (.inl rfl)

theorem count_attachFrame (f top : FrameId) : (w.attachFrame f top).count = w.count := by
  unfold attachFrame
  split
  · exact count_modifyFrame _ _
  · rfl

/-! ## Enums -/

theorem declareNative_slot (d : MemberTableId) (name : String) (s : Signature) (slot : SlotId)
    (hw : (w.declareNative d name s).1 = .ok slot) :
    (w.declareNative d name s).2.slots.Has slot := by
  unfold declareNative at hw ⊢
  dsimp only at hw ⊢
  split at hw
  · rename_i w' hd
    cases hw
    refine (has_congr (congrArg Prod.snd hd ▸ count_define _ _ _) (EntityId.tagged _)).mpr ?_
    simp [setMethodFlags, modifySlot, addMethod, addSlot, Arena.next, Arena.Has]
  · cases hw

namespace Closed

theorem declareNative (h : w.Closed) {d : MemberTableId} (name : String) {s : Signature}
    (hd : w.memberTables.Has d) (hs : w.Covers s.ids) :
    (w.declareNative d name s).2.Closed ∧ w.Within (w.declareNative d name s).2 := by
  have h1 := h.addSignature hs
  have w1 := within_addSignature (w := w) s
  have h2 : ((w.addSignature s).2.addMethod name (w.addSignature s).1).2.Closed := by
    refine h1.addSlot name ?_
    simp [SlotDetail.ids, SymbolTable.addSignature, Arena.next, Arena.Has]
  have w2 := w1.trans (within_addSlot (w := (w.addSignature s).2) name
    (.method { signature := (w.addSignature s).1 }))
  have h3 := h2.setMethodFlags ((w.addSignature s).2.addMethod name (w.addSignature s).1).1
    { native := true }
  have w3 := w2.trans (.of_count_eq (count_modifySlot
    ((w.addSignature s).2.addMethod name (w.addSignature s).1).1
    (Slot.modifyMethod ({ · with flags := { native := true } }))))
  have defined := h3.define (o := .members d) name (s := .slot (w.addSignature s).2.slots.next)
    (covers_cons.mpr ⟨(has_memberTable.mpr hd).mono w3, covers_nil _⟩)
    (by simp [Symbol.ids, SymbolTable.setMethodFlags, SymbolTable.modifySlot, addMethod,
        SymbolTable.addSlot, Arena.next, Arena.Has])
  have w4 := w3.trans (.of_count_eq (count_define (.members d) name
    (.slot (w.addSignature s).2.slots.next)))
  unfold SymbolTable.declareNative
  dsimp only
  split <;> rename_i hw <;> exact congrArg Prod.snd hw ▸ ⟨defined, w4⟩

theorem declareNatives (h : w.Closed) {d : MemberTableId} {l : List (String × Signature)}
    (hd : w.memberTables.Has d) (hl : ∀ e ∈ l, w.Covers e.2.ids) :
    (w.declareNatives d l).2.Closed ∧ w.Within (w.declareNatives d l).2 ∧
      ∀ slots, (w.declareNatives d l).1 = .ok slots →
        ∀ s ∈ slots, (w.declareNatives d l).2.slots.Has s := by
  induction l generalizing w with
  | nil =>
      refine ⟨h, .refl w, fun slots hs => ?_⟩
      cases hs
      simp
  | cons e l ih =>
      have hn := h.declareNative e.1 hd (hl e (by simp))
      have hslot := declareNative_slot (w := w) d e.1 e.2
      simp only [SymbolTable.declareNatives]
      generalize w.declareNative d e.1 e.2 = r at hn hslot
      obtain ⟨_ | slot, w1⟩ := r
      · exact ⟨hn.1, hn.2, fun slots hs => by cases hs⟩
      · have hr := ih hn.1 ((has_memberTable.mpr hd).mono hn.2)
          fun x hx => (hl x (by simp [hx])).mono hn.2
        dsimp only
        generalize w1.declareNatives d l = r at hr
        obtain ⟨_ | slots, w2⟩ := r
        · exact ⟨hr.1, hn.2.trans hr.2.1, fun slots hs => by cases hs⟩
        · refine ⟨hr.1, hn.2.trans hr.2.1, fun slots' hs => ?_⟩
          cases hs
          intro s hs
          rcases List.mem_cons.mp hs with rfl | hs
          · exact (has_slot.mpr (hslot _ rfl)).mono hr.2.1
          · exact hr.2.2 slots rfl s hs

theorem covers_helperSignatures (h : w.Closed) {t : TypeId} (ht : w.types.Has t) (isFlags : Bool) :
    ∀ e ∈ helperSignatures t isFlags, w.Covers e.2.ids := by
  have hb : w.types.Has .boolean := h.has_supplied (by decide)
  have hd : w.types.Has .double := h.has_supplied (by decide)
  have hs : w.types.Has .string := h.has_supplied (by decide)
  intro e he
  cases isFlags <;> simp [helperSignatures] at he
  · rcases he with rfl | rfl <;> simp [Signature.ids, Signature.paramTypes,
      Signature.optParamTypes, hd, hs]
  · rcases he with rfl | rfl | rfl | rfl | rfl | rfl | rfl <;> simp [Signature.ids,
      Signature.paramTypes, Signature.optParamTypes, hb, hd, hs, ht]

theorem declareEnumHelpers (h : w.Closed) {t : TypeId} (ht : w.types.Has t) :
    (w.declareEnumHelpers t).2.Closed ∧ w.Within (w.declareEnumHelpers t).2 := by
  unfold SymbolTable.declareEnumHelpers
  split
  · rename_i info d hi hm
    have hd : w.memberTables.Has d := h.members_of_superType (some t) d (by simpa using hm)
    have hr := h.declareNatives hd (h.covers_helperSignatures ht info.isFlags)
    generalize w.declareNatives d (helperSignatures t info.isFlags) = r at hr
    obtain ⟨_ | slots, w'⟩ := r
    · exact ⟨hr.1, hr.2.1⟩
    · refine ⟨hr.1.modifyEnum t fun x hx => ?_, hr.2.1.trans (.of_count_eq (count_modifyType ..))⟩
      have hs := hr.2.2 slots rfl
      simp only [TypeKind.ids, covers_map, has_slot]
      intro s hx
      refine hs s ?_
      simp only [EnumHelpers.toList, EnumHelpers.ofList, List.mem_filterMap, List.mem_cons,
        List.not_mem_nil, or_false, id_eq, exists_eq_right] at hx
      rcases hx with hx | hx | hx | hx | hx | hx | hx <;> exact List.mem_of_getElem? hx.symm
  · exact ⟨h, .refl w⟩

theorem setEnumMember (h : w.Closed) (t : TypeId) (name : String) (value : Double) :
    (w.setEnumMember t name value).Closed :=
  h.modifyEnum t fun _ hx => hx

/-! ## Modules and frames -/

theorem setRoot (h : w.Closed) (name : String) {m : ModuleId} (hm : w.modules.Has m) :
    (w.setRoot name m).Closed := by
  have put : ∀ l : List (String × ModuleId), (∀ e ∈ l, w.modules.Has e.2) →
      ∀ e ∈ SymbolTable.setRoot.put m (Text.lowerCase name) l, w.modules.Has e.2 := by
    intro l
    induction l with
    | nil => intro _; simpa [SymbolTable.setRoot.put] using hm
    | cons a l ih =>
        intro hl
        have ha := hl a (by simp)
        have hr : ∀ e ∈ l, w.modules.Has e.2 := fun e he => hl e (by simp [he])
        simp only [SymbolTable.setRoot.put]
        split
        · simpa using ⟨hm, fun x y h => hr (x, y) h⟩
        · split
          · simpa using ⟨hm, ha, fun x y h => hr (x, y) h⟩
          · simpa using ⟨ha, fun x y h => ih hr (x, y) h⟩
  exact h.of_within (.of_count_eq rfl) (fun i => .inl rfl)
    (fun e he => .inr (put w.roots h.roots e he)) fun t ht => .inl ht

theorem importModule (h : w.Closed) (f : FrameId) {m : ModuleId} (hm : w.modules.Has m) :
    (w.importModule f m).Closed := by
  refine h.modifyFrame f fun x hx => ?_
  unfold Frame.importModule
  split
  · exact hx
  · simp only [Frame.ids, covers_append] at hx ⊢
    exact ⟨⟨hx.1.1, by simpa using ⟨by simpa using hx.1.2, hm⟩⟩, hx.2⟩

theorem capture (h : w.Closed) (f : FrameId) {s : SlotId} (hs : w.slots.Has s) :
    (w.capture f s).Closed := by
  have insert : ∀ l : List SlotId, (∀ x ∈ l, w.slots.Has x) →
      ∀ x ∈ Frame.insertSlot s l, w.slots.Has x := by
    intro l
    induction l with
    | nil => intro _; simpa [Frame.insertSlot] using hs
    | cons a l ih =>
        intro hl
        have ha := hl a (by simp)
        have hr : ∀ x ∈ l, w.slots.Has x := fun x hx => hl x (by simp [hx])
        simp only [Frame.insertSlot]
        split
        · exact hl
        · split
          · simpa using ⟨hs, ha, hr⟩
          · simpa using ⟨ha, ih hr⟩
  refine h.modifyFrame f fun x hx => ?_
  obtain ⟨_ | _ | ⟨me, slots⟩ | _, _, _, _⟩ := x
  case activation =>
    simp only [Frame.capture, Frame.ids, FrameKind.ids, covers_append, covers_map, has_slot] at hx ⊢
    exact ⟨⟨⟨⟨hx.1.1.1.1, insert slots hx.1.1.1.2⟩, hx.1.1.2⟩, hx.1.2⟩, hx.2⟩
  all_goals exact hx

theorem attachFrame (h : w.Closed) (f : FrameId) {top : FrameId} (ht : w.frames.Has top) :
    (w.attachFrame f top).Closed := by
  unfold SymbolTable.attachFrame
  split
  · refine h.modifyFrame f fun x hx => ?_
    simp only [Frame.ids, covers_append] at hx ⊢
    exact ⟨hx.1, by simpa using ht⟩
  · exact h

end Closed

/-! ## All edits -/

/-- An admitted edit keeps a table closed and takes no id back. -/
theorem Closed.apply (h : w.Closed) {e : Edit} (he : w.Covers e.ids) :
    (w.apply e).Closed ∧ w.Within (w.apply e) := by
  have kept {w' : SymbolTable} (hw : w'.Closed ∧ w'.count = w.count) :
      w'.Closed ∧ w.Within w' := ⟨hw.1, .of_count_eq hw.2⟩
  have object : ∀ s ∈ some EntityId.object, w.types.Has s := by
    rintro _ ⟨⟩
    exact h.has_supplied (by decide)
  cases e with
  | addClass name isSealed =>
      exact ⟨h.addTypeWithMembers _ (by simp [TypeKind.ids]) object,
        within_addTypeWithMembers _ _ _⟩
  | addStruct name =>
      exact ⟨h.addTypeWithMembers _ (by simp [TypeKind.ids]) object,
        within_addTypeWithMembers _ _ _⟩
  | addEnum name isFlags =>
      exact ⟨h.addTypeWithMembers _ (by simp [TypeKind.ids, EnumHelpers.toList]) object,
        within_addTypeWithMembers _ _ _⟩
  | addInterface name =>
      exact ⟨h.addTypeWithMembers _ (by simp [TypeKind.ids]) (by simp),
        within_addTypeWithMembers _ _ _⟩
  | addNullable t =>
      simp only [Edit.ids, covers_cons, has_type] at he
      exact ⟨h.addNullable he.1, within_addNullable t⟩
  | addTuple elements =>
      simp only [Edit.ids, covers_map, has_type] at he
      exact ⟨h.addTuple he, within_addTuple elements⟩
  | setTypeVisibility t visibility =>
      exact kept ⟨h.modifyType t fun _ hx => hx, count_modifyType _ _⟩
  | setSuperType t s =>
      simp only [Edit.ids, covers_cons, has_type] at he
      exact kept ⟨h.setSuperType t he.2.1, count_setSuperType t s⟩
  | extendClass cls base =>
      simp only [Edit.ids, covers_cons, has_type] at he
      exact kept (h.extendClass he.1 he.2.1)
  | implement cls interface =>
      simp only [Edit.ids, covers_cons, has_type] at he
      exact kept (h.implement he.1 he.2.1)
  | extendInterface interface base =>
      simp only [Edit.ids, covers_cons, has_type] at he
      exact kept (h.extendInterface he.1 he.2.1)
  | setEnumMember t name value =>
      exact kept ⟨h.setEnumMember t name value, count_modifyType _ _⟩
  | declareEnumHelpers t =>
      simp only [Edit.ids, covers_cons, has_type] at he
      exact h.declareEnumHelpers he.1
  | addOperator t op method =>
      simp only [Edit.ids, covers_cons, has_slot] at he
      exact kept (h.addOperator t op he.2.1)
  | addModule name => exact ⟨h.addModule name, within_addModule name⟩
  | setRoot name m =>
      simp only [Edit.ids, covers_cons, has_module] at he
      exact kept ⟨h.setRoot name he.1, rfl⟩
  | addAlias name target => exact ⟨h.addAlias name he, within_addAlias name target⟩
  | setAliasTarget a target =>
      simp only [Edit.ids, covers_cons] at he
      refine kept ⟨h.modifyAlias a fun x hx => ?_, count_modifyAlias _ _⟩
      simp only [AliasDecl.ids, covers_append] at hx ⊢
      exact ⟨he.2, hx.2⟩
  | addVariable name readOnly type =>
      exact ⟨h.addSlot name (by simpa [SlotDetail.ids, Edit.ids] using he), within_addSlot _ _⟩
  | setInitial s v =>
      simp only [Edit.ids, covers_cons] at he
      exact kept ⟨h.setInitial s he.2, count_modifySlot _ _⟩
  | addProperty name type =>
      exact ⟨h.addSlot name (by simpa [SlotDetail.ids, Edit.ids] using he), within_addSlot _ _⟩
  | addMethod name signature =>
      exact ⟨h.addSlot name (by simpa [SlotDetail.ids, Edit.ids] using he), within_addSlot _ _⟩
  | addSignature s => exact ⟨h.addSignature he, within_addSignature s⟩
  | setAccessors property getter setter =>
      simp only [Edit.ids, List.cons_append, covers_cons, covers_append, covers_map,
        Option.mem_toList, has_slot] at he
      exact kept ⟨h.setAccessors he.1 he.2.1 he.2.2, count_setAccessors property getter setter⟩
  | setSlotVisibility s visibility =>
      exact kept ⟨h.modifySlot s fun _ hx => hx, count_modifySlot _ _⟩
  | setMethodFlags s flags => exact kept ⟨h.setMethodFlags s flags, count_modifySlot _ _⟩
  | override candidate d =>
      simp only [Edit.ids, covers_cons, has_slot] at he
      exact kept (h.override d he.1)
  | define o name s =>
      simp only [Edit.ids, covers_append] at he
      exact kept ⟨h.define name he.1 he.2, count_define o name s⟩
  | bind o name s =>
      simp only [Edit.ids, covers_append] at he
      exact kept ⟨h.bind o name he.2, count_bind o name s⟩
  | intern name => exact kept ⟨h.intern name, count_intern name⟩
  | addFrame kind => exact ⟨h.addFrame he, within_addFrame kind⟩
  | addWithFrame t =>
      simp only [Edit.ids, covers_cons, has_type] at he
      exact ⟨h.addWithFrame he.1, within_addWithFrame t⟩
  | importModule f m =>
      simp only [Edit.ids, covers_cons, has_module] at he
      exact kept ⟨h.importModule f he.2.1, count_modifyFrame _ _⟩
  | capture f s =>
      simp only [Edit.ids, covers_cons, has_slot] at he
      exact kept ⟨h.capture f he.2.1, count_modifyFrame _ _⟩
  | attachFrame f top =>
      simp only [Edit.ids, covers_cons, has_frame] at he
      exact kept ⟨h.attachFrame f he.2.1, count_attachFrame f top⟩

theorem Closed.edited {allowed : Edit → Bool} {w' : SymbolTable} (h : w.Closed)
    (he : Edited allowed w w') : w'.Closed ∧ w.Within w' := by
  induction he with
  | refl => exact ⟨h, .refl w⟩
  | step e _ hc _ ih =>
      have ha := ih.1.apply hc
      exact ⟨ha.1, ih.2.trans ha.2⟩

/-! ## The start -/

/-- What an id that has not been given out reads as mentions supplied types and modules only. -/
theorem covers_idsOf_of_not_has (ht : 20 ≤ w.types.size) (hm : 3 ≤ w.modules.size) {i : AnyId}
    (hi : ¬ w.Has i) : w.Covers (w.idsOf i) := by
  have t0 : w.Covers [EntityId.tagged (e := .type) ⟨0⟩] :=
    covers_cons.mpr ⟨Nat.lt_of_lt_of_le (by decide) ht, covers_nil w⟩
  have m0 : w.Covers [EntityId.tagged (e := .module) ⟨0⟩] :=
    covers_cons.mpr ⟨Nat.lt_of_lt_of_le (by decide) hm, covers_nil w⟩
  obtain ⟨e, i⟩ := i
  cases e with
  | type =>
      simp only [idsOf, type, Arena.get_of_not_has (a := w.types) hi]
      exact covers_nil w
  | memberTable =>
      simp only [idsOf, memberTable, Arena.get_of_not_has (a := w.memberTables) hi]
      exact t0
  | module =>
      simp only [idsOf, module, Arena.get_of_not_has (a := w.modules) hi]
      exact covers_nil w
  | slot =>
      simp only [idsOf, slot, Arena.get_of_not_has (a := w.slots) hi]
      exact covers_nil w
  | signature =>
      simp only [idsOf, signature, Arena.get_of_not_has (a := w.signatures) hi]
      exact t0
  | frame =>
      simp only [idsOf, frame, Arena.get_of_not_has (a := w.frames) hi]
      exact m0
  | aliasDecl =>
      simp only [idsOf, aliasDecl, Arena.get_of_not_has (a := w.aliases) hi]
      exact t0

private theorem initial_covers (w : SymbolTable) (hw : w = initial .counting) :
    ∀ e ∈ [Entity.type, .memberTable, .module, .slot, .signature, .frame, .aliasDecl],
      ∀ n < w.count e, w.Covers (w.idsOf ⟨e, ⟨n⟩⟩) := by
  subst hw
  decide +kernel

/-- A table that is like a closed one mentions the same ids. -/
theorem Closed.of_alike (h : w.Closed) {w' : SymbolTable} (ha : Alike w w') : w'.Closed := by
  obtain ⟨modules, nameTable, rfl, hr⟩ := ha
  have hcount : { w with modules, nameTable }.count = w.count := by
    funext e
    cases e <;> first | rfl | exact hr.size
  refine h.of_within (.of_count_eq hcount) ?_ (fun e he => .inl he) (fun t ht => .inl ht)
  rintro ⟨e, i⟩
  cases e with
  | module =>
      refine .inl ?_
      have hdefined : (modules.get i).definedIn = (w.modules.get i).definedIn := by rw [hr.decl i]
      have hnames : (modules.get i).names.ids = (w.modules.get i).names.ids := by
        have hs := congrArg (·.flatMap Symbol.ids) (hr.symbols i)
        simpa only [Bindings.ids, List.flatMap_map] using hs
      simp only [idsOf, module, ModuleDecl.ids, hdefined, hnames]
  | _ => exact .inl rfl

theorem initial_closed (i : Interner) : (initial i).Closed := by
  refine Closed.of_alike ?_ (initial_alike i)
  have ht : 20 ≤ (initial .counting).types.size := by decide +kernel
  have hm : 3 ≤ (initial .counting).modules.size := by decide +kernel
  refine ⟨ht, hm, ?_, by decide +kernel, by decide +kernel⟩
  rintro ⟨e, i⟩
  by_cases hi : (initial .counting).Has ⟨e, i⟩
  · exact initial_covers _ rfl e (by cases e <;> simp) i.index hi
  · exact covers_idsOf_of_not_has ht hm hi

end StaticSemantics.SymbolTable
