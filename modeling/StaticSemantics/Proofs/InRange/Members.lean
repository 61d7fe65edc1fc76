import StaticSemantics.Proofs.InRange.Lookup

/-!
Members in range. Which method another one overrides, and what keeps a class from implementing its
interfaces, come to the same in every memory. The signature that stands in for that of a slot which
is no method is read only if it is compared with that of a method, and then it is there.
-/

namespace StaticSemantics.SymbolTable

variable {w : SymbolTable} {r : OutOfRange} {t : TypeId} {d : MemberTableId} {s : SlotId}

/-! ## Signatures -/

theorem slotSignature_inRange (hs : w.slots.Has s) :
    @slotSignature ⟨r⟩ w s = w.slotSignature s := by
  simp only [slotSignature, methodInfo?_inRange hs]

theorem sameShape_inRange {g g' : SignatureId}
    (hg : g = g' ∨ (w.signatures.Has g ∧ w.signatures.Has g')) :
    @sameShape ⟨r⟩ w g g' = w.sameShape g g' := by
  rcases hg with rfl | ⟨hg, hg'⟩
  · simp [sameShape]
  · simp only [sameShape, signature_inRange hg, signature_inRange hg']

theorem isRequired_inRange (hs : w.slots.Has s) : @isRequired ⟨r⟩ w s = w.isRequired s := by
  simp only [isRequired, methodInfo?_inRange hs]

namespace Closed

theorem canOverride_inRange (h : w.Closed) {base candidate : SignatureId}
    (hb : w.signatures.Has base) (hc : w.signatures.Has candidate) :
    @canOverride ⟨r⟩ w base candidate = w.canOverride base candidate := by
  simp only [canOverride, signature_inRange hb, signature_inRange hc,
    h.isSubtype_inRange (h.returns_has candidate) (h.returns_has base)]

theorem resultType?_inRange (h : w.Closed) (hs : w.slots.Has s) :
    @resultType? ⟨r⟩ w s = w.resultType? s := by
  simp only [resultType?, methodInfo?_inRange hs]
  exact Option.map_congr fun m hm => by rw [signature_inRange (h.signature_has hm)]

/-! ## Overriding -/

theorem slotNamed?_inRange (h : w.Closed) {chain : List MemberTableId}
    (hc : ∀ d ∈ chain, w.memberTables.Has d) (name : String) :
    @slotNamed? ⟨r⟩ w chain name = w.slotNamed? chain name := by
  refine Option.bind_congr fun k _ => ?_
  have hnames : (chain.findSome? fun d => (@memberTable ⟨r⟩ w d).names.get? k) =
      chain.findSome? fun d => (w.memberTable d).names.get? k :=
    findSome?_congr fun d hd => by rw [memberTable_inRange (hc d hd)]
  rw [hnames]
  refine Option.bind_congr fun s hs => ?_
  obtain ⟨d, _, hs⟩ := List.exists_of_findSome?_eq_some hs
  rw [h.unwind_inRange (Bindings.covers_get? (h.covers_bindings (.members d)) hs)]

theorem inheritedSlot?_inRange (h : w.Closed) (hd : w.memberTables.Has d) (name : String) :
    @inheritedSlot? ⟨r⟩ w d name = w.inheritedSlot? d name := by
  simp only [inheritedSlot?, memberTable_inRange hd]
  cases hi : (w.memberTable d).inherits with
  | none => exact h.slotNamed?_inRange (List.forall_mem_nil _) name
  | some e =>
      have he := h.inherits_has hi
      simp only [Option.elim, h.memberChain_inRange he]
      exact h.slotNamed?_inRange (h.memberChain_has he) name

theorem overriddenAccessor_inRange (h : w.Closed) {candidate property inherited : SlotId}
    {info : PropertyInfo} {m : MethodInfo} (hc : w.slots.Has candidate)
    (hm : w.methodInfo? candidate = some m) (hp : w.slots.Has property)
    (hi : (w.slot inherited).detail = .property info) :
    @overriddenAccessor ⟨r⟩ w candidate property info =
      w.overriddenAccessor candidate property info := by
  unfold overriddenAccessor
  rw [slot_inRange hp, slotSignature_inRange hc]
  dsimp only
  split
  · rfl
  · rename_i accessor ha
    have hs : w.slots.Has accessor := by
      split at ha
      · exact h.getter_has hi ha
      · exact h.setter_has hi ha
    rw [methodInfo?_inRange hs]
    cases hm' : w.methodInfo? accessor with
    | none => rfl
    | some m' =>
        have hg := h.slotSignature_has_of_method hm
        simp only [sameShape_inRange (.inr ⟨h.signature_has hm', hg⟩)]

theorem overriddenMethod_inRange (h : w.Closed) {candidate inherited : SlotId}
    {m : MethodInfo} (hc : w.slots.Has candidate) (hm : w.methodInfo? candidate = some m)
    (hi : w.slots.Has inherited) :
    @overriddenMethod ⟨r⟩ w candidate m.ofProperty inherited =
      w.overriddenMethod candidate m.ofProperty inherited := by
  have hg := h.slotSignature_has_of_method hm
  simp only [overriddenMethod, slot_inRange hi, slotSignature_inRange hc]
  cases hp : m.ofProperty with
  | none =>
      cases hd : (w.slot inherited).detail with
      | method info =>
          have hb := h.signature_has (Slot.methodInfo?_eq_some.mpr hd)
          simp only [h.canOverride_inRange hb hg]
      | _ => rfl
  | some property =>
      have hs := h.covers_method hm
      simp only [SlotDetail.ids, List.cons_append, covers_cons, covers_append, hp] at hs
      cases hd : (w.slot inherited).detail with
      | property info =>
          exact h.overriddenAccessor_inRange hc hm (by simpa using hs.2.1) hd
      | _ => rfl

theorem ofProperty_has (h : w.Closed) {m : MethodInfo} (hs : w.slots.Has s)
    (hm : w.methodInfo? s = some m) : w.slots.Has (m.ofProperty.getD s) := by
  have hd := h.covers_method hm
  simp only [SlotDetail.ids, List.cons_append, covers_cons, covers_append] at hd
  cases hp : m.ofProperty with
  | none => exact hs
  | some property => simpa [hp] using hd.2.1

theorem overridden_inRange (h : w.Closed) {candidate : SlotId} (hc : w.slots.Has candidate)
    (hd : w.memberTables.Has d) :
    @overridden ⟨r⟩ w candidate d = w.overridden candidate d := by
  simp only [overridden, methodInfo?_inRange hc]
  cases hm : w.methodInfo? candidate with
  | none => rfl
  | some m =>
      simp only [slot_inRange (h.ofProperty_has hc hm), h.inheritedSlot?_inRange hd]
      cases hi : w.inheritedSlot? d (w.slot (m.ofProperty.getD candidate)).name with
      | none => rfl
      | some inherited =>
          have hs := h.slotNamed?_has hi
          simp only [slot_inRange hs, h.overriddenMethod_inRange hc hm hs]
          cases ho : w.overriddenMethod candidate m.ofProperty inherited with
          | error e => rfl
          | ok target => simp only [methodInfo?_inRange (h.overriddenMethod_has hs ho)]

/-! ## Conformance -/

theorem classChain_inRange (h : w.Closed) (ht : w.types.Has t) :
    @classChain ⟨r⟩ w t = w.classChain t := by
  simp only [classChain, type_inRange ht]
  cases hd : (w.type t).members with
  | none => rfl
  | some d => exact h.memberChain_inRange (h.members_has hd)

theorem classChain_has (h : w.Closed) (t : TypeId) :
    ∀ d ∈ w.classChain t, w.memberTables.Has d := by
  unfold classChain
  cases hd : (w.type t).members with
  | none => exact nofun
  | some d => exact h.memberChain_has (h.members_has hd)

theorem operatorIssue?_inRange (h : w.Closed) (ht : w.types.Has t) (op : Operator)
    (hs : w.slots.Has s) : @operatorIssue? ⟨r⟩ w t op s = w.operatorIssue? t op s := by
  simp only [operatorIssue?, type_inRange ht, isRequired_inRange hs, h.resultType?_inRange hs]
  rw [Option.bind_congr fun d hd => h.findOperator?_inRange (h.members_has hd) op]
  cases hi : (w.type t).members.bind fun d => w.findOperator? d op with
  | none => rfl
  | some implemented =>
      obtain ⟨d, _, hi⟩ := Option.bind_eq_some_iff.mp hi
      simp only [h.resultType?_inRange (h.findOperator?_has hi)]

theorem accessorIssue?_inRange (h : w.Closed) (part : MemberPart) (name : String)
    {asked present : Option SlotId} (ha : ∀ s ∈ asked, w.slots.Has s)
    (hp : ∀ s ∈ present, w.slots.Has s) :
    @accessorIssue? ⟨r⟩ w part name asked present = w.accessorIssue? part name asked present := by
  refine Option.bind_congr fun a hasked => ?_
  have hs := ha a hasked
  simp only [slotSignature_inRange hs, isRequired_inRange hs]
  cases present with
  | none => rfl
  | some b =>
      simp only [slotSignature_inRange (hp b rfl), sameShape_inRange (h.slotSignature_cases a b)]

theorem propertyIssues_inRange (h : w.Closed) (name : String) {asked : PropertyInfo}
    (hs : (w.slot s).detail = .property asked) {implemented : Option SlotId}
    (hi : ∀ i ∈ implemented, w.slots.Has i) :
    @propertyIssues ⟨r⟩ w name asked implemented = w.propertyIssues name asked implemented := by
  have hget : ∀ a ∈ asked.getter, w.slots.Has a := fun a ha => h.getter_has hs ha
  have hset : ∀ a ∈ asked.setter, w.slots.Has a := fun a ha => h.setter_has hs ha
  cases implemented with
  | none =>
      simp only [propertyIssues, Option.map_none, h.accessorIssue?_inRange _ name hget hi,
        h.accessorIssue?_inRange _ name hset hi]
  | some i =>
      simp only [propertyIssues, Option.map_some, slot_inRange (hi i rfl)]
      cases hd : (w.slot i).detail with
      | property present =>
          have hget' : ∀ a ∈ present.getter, w.slots.Has a := fun a ha => h.getter_has hd ha
          have hset' : ∀ a ∈ present.setter, w.slots.Has a := fun a ha => h.setter_has hd ha
          simp only [h.accessorIssue?_inRange _ name hget hget',
            h.accessorIssue?_inRange _ name hset hset']
      | _ => rfl

theorem methodIssues_inRange (h : w.Closed) (name : String) {asked : MethodInfo}
    (hs : (w.slot s).detail = .method asked) {implemented : Option SlotId}
    (hi : ∀ i ∈ implemented, w.slots.Has i) :
    @methodIssues ⟨r⟩ w name asked implemented = w.methodIssues name asked implemented := by
  have hg := h.signature_has (Slot.methodInfo?_eq_some.mpr hs)
  cases implemented with
  | none => rfl
  | some i =>
      simp only [methodIssues, Option.map_some, slot_inRange (hi i rfl)]
      cases hd : (w.slot i).detail with
      | method present =>
          have hg' := h.signature_has (Slot.methodInfo?_eq_some.mpr hd)
          simp only [sameShape_inRange (.inr ⟨hg, hg'⟩)]
      | _ => rfl

theorem implementation?_has (h : w.Closed) {name : String}
    (hs : w.implementation? t name = some s) : w.slots.Has s :=
  h.slotNamed?_has (Option.filter_eq_some_iff.mp hs).1

theorem implementation?_inRange (h : w.Closed) (ht : w.types.Has t) (name : String) :
    @implementation? ⟨r⟩ w t name = w.implementation? t name := by
  simp only [implementation?, h.classChain_inRange ht,
    h.slotNamed?_inRange (h.classChain_has t) name]
  cases hs : w.slotNamed? (w.classChain t) name with
  | none => rfl
  | some s => simp only [Option.filter_some, slot_inRange (h.slotNamed?_has hs)]

theorem memberIssues_inRange (h : w.Closed) (ht : w.types.Has t) (hs : w.slots.Has s) :
    @memberIssues ⟨r⟩ w t s = w.memberIssues t s := by
  have hi (name : String) : ∀ i ∈ w.implementation? t name, w.slots.Has i :=
    fun i hi => h.implementation?_has hi
  simp only [memberIssues, slot_inRange hs, h.implementation?_inRange ht]
  cases hd : (w.slot s).detail with
  | property info => exact h.propertyIssues_inRange _ hd (hi _)
  | method info => exact h.methodIssues_inRange _ hd (hi _)
  | _ => rfl

theorem interfaceIssues_inRange (h : w.Closed) (ht : w.types.Has t) {interface : TypeId}
    (hi : w.types.Has interface) :
    @interfaceIssues ⟨r⟩ w t interface = w.interfaceIssues t interface := by
  simp only [interfaceIssues, type_inRange hi]
  cases hm : (w.type interface).members with
  | none => rfl
  | some d =>
      have hd := h.memberTables d
      simp only [MemberTable.ids, List.cons_append, covers_cons, covers_append, covers_map] at hd
      have hoperators : ∀ e ∈ (w.memberTable d).operators, w.slots.Has e.2 := hd.2.2
      have hslots : ∀ s ∈ (w.memberTable d).names.entries.filterMap fun e => e.2.slot?,
          w.slots.Has s := by
        intro s hs
        obtain ⟨⟨k, x⟩, hx, hs⟩ := List.mem_filterMap.mp hs
        have hc := covers_flatMap.mp hd.2.1.1 _ hx
        cases x with
        | slot s' =>
            cases hs
            exact hc _ List.mem_cons_self
        | _ => cases hs
      simp only [memberTable_inRange (h.members_has hm)]
      rw [List.filterMap_congr fun e he => h.operatorIssue?_inRange ht e.1 (hoperators e he),
        List.flatMap_congr fun s hs => h.memberIssues_inRange ht (hslots s hs)]

theorem conformanceIssues_inRange (h : w.Closed) (ht : w.types.Has t) :
    @conformanceIssues ⟨r⟩ w t = w.conformanceIssues t := by
  simp only [conformanceIssues, type_inRange ht]
  cases hc : (w.type t).class? with
  | none => rfl
  | some info =>
      have hk := h.covers_class hc
      simp only [TypeKind.ids, List.map_append, covers_append, covers_map] at hk
      exact List.flatMap_congr fun i hi => h.interfaceIssues_inRange ht (hk.1 i hi)

end Closed
end StaticSemantics.SymbolTable
