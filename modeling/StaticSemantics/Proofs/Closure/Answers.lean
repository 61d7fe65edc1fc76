import StaticSemantics.Conformance
import StaticSemantics.Proofs.Closure.Session
import StaticSemantics.Rendering.SignatureText

/-!
Answers in a closed workspace. A question reads the declarations and leaves them as they are; if the
ids that it is asked about are covered, so are those that it is answered with.
-/

namespace StaticSemantics

/-- The ids that a complaint about a class mentions. -/
def ConformanceIssue.ids : ConformanceIssue → List AnyId
  | .undefined _ _ expected => [expected.tagged]
  | .operator _ expected => expected.toList.map EntityId.tagged
  | .wrong .. => []

namespace SymbolTable.Closed

variable {w : SymbolTable} {t u : TypeId} {d : MemberTableId} {v r : Value}

/-! ## Types -/

theorem withoutNull_has (h : w.Closed) (ht : w.types.Has t) : w.types.Has (w.withoutNull t) := by
  unfold withoutNull
  cases hw : (w.type t).wraps? with
  | none => exact ht
  | some u => exact h.wraps?_has hw

theorem elements_has (h : w.Closed) {l : List TypeId} (hl : (w.type t).elements? = some l) :
    ∀ u ∈ l, w.types.Has u := by
  have hk := h.covers_kind t
  rw [TypeDecl.elements?_eq_some.mp hl] at hk
  simpa [TypeKind.ids] using hk

theorem covers_class (h : w.Closed) {info : ClassInfo} (hc : (w.type t).class? = some info) :
    w.Covers (TypeKind.cls info).ids :=
  TypeDecl.class?_eq_some.mp hc ▸ h.covers_kind t

theorem covers_interface (h : w.Closed) {info : InterfaceInfo}
    (hi : (w.type t).interface? = some info) : w.Covers (TypeKind.interface info).ids :=
  TypeDecl.interface?_eq_some.mp hi ▸ h.covers_kind t

theorem subclasses_has (h : w.Closed) (t : TypeId) : ∀ u ∈ w.subclasses t, w.types.Has u := by
  unfold subclasses
  cases hc : (w.type t).class? with
  | none => simp
  | some info =>
      have hk := h.covers_class hc
      simp only [TypeKind.ids, List.map_append, covers_append, covers_map] at hk
      exact hk.2

theorem implementors_has (h : w.Closed) (t : TypeId) : ∀ u ∈ w.implementors t, w.types.Has u := by
  unfold implementors
  cases hi : (w.type t).interface? with
  | none => simp
  | some info =>
      have hk := h.covers_interface hi
      simp only [TypeKind.ids, List.map_append, covers_append, covers_map] at hk
      exact hk.2

theorem subInterfaces_has (h : w.Closed) (t : TypeId) :
    ∀ u ∈ w.subInterfaces t, w.types.Has u := by
  unfold subInterfaces
  cases hi : (w.type t).interface? with
  | none => simp
  | some info =>
      have hk := h.covers_interface hi
      simp only [TypeKind.ids, List.map_append, covers_append, covers_map] at hk
      exact hk.1.2

theorem numericType_has (h : w.Closed) (k : NumericKind) : w.types.Has k.type := by
  apply h.has_supplied
  cases k <;> decide

theorem covers_defaultValue? (h : w.Closed) (ht : w.types.Has t)
    (hv : w.defaultValue? t = some v) : w.Covers v.ids := by
  unfold defaultValue? at hv
  split_ifs at hv
  · cases hv
    exact covers_constant ht _
  · cases hv
    exact h.covers_selfTyped (.ofBool false)
  · split at hv
    · cases hv
    · cases hv
    · obtain ⟨c, _, rfl⟩ := Option.map_eq_some_iff.mp hv
      exact covers_constant ht c

/-! ## Methods -/

theorem covers_method (h : w.Closed) {s : SlotId} {m : MethodInfo}
    (hm : w.methodInfo? s = some m) : w.Covers (SlotDetail.method m).ids := by
  have hd := h.covers_detail s
  rwa [Slot.methodInfo?_eq_some.mp hm] at hd

theorem signature_has (h : w.Closed) {s : SlotId} {m : MethodInfo}
    (hm : w.methodInfo? s = some m) : w.signatures.Has m.signature := by
  have hd := h.covers_method hm
  simp only [SlotDetail.ids, List.cons_append, covers_cons] at hd
  exact hd.1

theorem slotSignature_has_of_method (h : w.Closed) {s : SlotId} {m : MethodInfo}
    (hm : w.methodInfo? s = some m) : w.signatures.Has (w.slotSignature s) := by
  simp only [slotSignature, hm]
  exact h.signature_has hm

/-- The first signature, which stands in for that of a slot that is no method, is there as soon as
it is compared with another one. -/
theorem slotSignature_has (h : w.Closed) {a b : SlotId}
    (hab : w.slotSignature a ≠ w.slotSignature b) : w.signatures.Has (w.slotSignature a) := by
  unfold slotSignature at hab ⊢
  cases ha : w.methodInfo? a with
  | some m => exact h.signature_has ha
  | none =>
      cases hb : w.methodInfo? b with
      | none => simp [ha, hb] at hab
      | some m => exact Nat.lt_of_le_of_lt (Nat.zero_le _) (h.signature_has hb)

/-- The signatures that are compared are the same, or both are there. -/
theorem slotSignature_cases (h : w.Closed) (a b : SlotId) :
    w.slotSignature a = w.slotSignature b ∨
      (w.signatures.Has (w.slotSignature a) ∧ w.signatures.Has (w.slotSignature b)) := by
  by_cases hab : w.slotSignature a = w.slotSignature b
  · exact .inl hab
  · exact .inr ⟨h.slotSignature_has hab, h.slotSignature_has (Ne.symm hab)⟩

theorem overriderIn?_has (h : w.Closed) {s o : SlotId} {m : MethodInfo}
    (hm : w.methodInfo? s = some m) (ho : m.overriderIn? t = some o) : w.slots.Has o := by
  obtain ⟨e, he, rfl⟩ := Option.map_eq_some_iff.mp ho
  have hd := h.covers_method hm
  simp only [SlotDetail.ids, List.cons_append, covers_cons, covers_append, covers_flatMap] at hd
  exact (hd.2.2 e (List.mem_of_find?_eq_some he)).2.1

theorem findOperator?_has (h : w.Closed) {op : Operator} {s : SlotId}
    (hs : w.findOperator? d op = some s) : w.slots.Has s := by
  obtain ⟨e, _, hs⟩ := List.exists_of_findSome?_eq_some hs
  obtain ⟨x, hx, rfl⟩ := Option.map_eq_some_iff.mp hs
  have hd := h.memberTables e
  simp only [MemberTable.ids, List.cons_append, covers_cons, covers_append, covers_map] at hd
  exact hd.2.2 x (List.mem_of_find?_eq_some hx)

theorem returns_has (h : w.Closed) (g : SignatureId) : w.types.Has (w.signature g).returns := by
  have hg := h.signatures g
  simp only [Signature.ids, List.cons_append, covers_cons] at hg
  exact hg.1

theorem param_has (h : w.Closed) (g : SignatureId) :
    ∀ p ∈ (w.signature g).params, w.types.Has p.type := by
  intro p hp
  have hg := h.signatures g
  simp only [Signature.ids, List.cons_append, covers_cons, covers_append, covers_map] at hg
  exact hg.2.1.1 p.type (List.mem_map_of_mem hp)

/-! ## References -/

theorem indexedType?_has (h : w.Closed) (hu : w.indexedType? t = some u) : w.types.Has u := by
  unfold indexedType? at hu
  split at hu
  · obtain ⟨m, _, rfl⟩ := Option.map_eq_some_iff.mp hu
    exact h.returns_has _
  · obtain ⟨set, _, hu⟩ := Option.bind_eq_some_iff.mp hu
    obtain ⟨m, _, hu⟩ := Option.bind_eq_some_iff.mp hu
    obtain ⟨p, hp, rfl⟩ := Option.map_eq_some_iff.mp hu
    exact h.param_has _ p (List.mem_of_getLast? hp)

theorem covers_indexReference? (h : w.Closed) (hv : w.Covers v.ids)
    (hr : w.indexReference? v = some r) : w.Covers r.ids := by
  obtain ⟨u, hu, rfl⟩ := Option.map_eq_some_iff.mp hr
  simpa [Value.ids] using ⟨hv, h.indexedType?_has hu⟩

theorem covers_tupleElement? (h : w.Closed) {i : Nat} (hv : w.Covers v.ids)
    (hr : w.tupleElement? v i = some r) : w.Covers r.ids := by
  obtain ⟨l, hl, hr⟩ := Option.bind_eq_some_iff.mp hr
  obtain ⟨u, hu, hr⟩ := Option.bind_eq_some_iff.mp hr
  cases hr
  simpa [Value.ids] using ⟨hv, h.elements_has hl u (List.mem_of_getElem? hu)⟩

theorem covers_withType (hv : w.Covers v.ids) (ht : w.types.Has t) :
    w.Covers (v.withType t).ids := by
  cases v <;> simp_all [Value.withType, Value.ids]

/-! ## Enclosing modules -/

theorem covers_definedIn (h : w.Closed) (t : TypeId) :
    ∀ o ∈ (w.type t).definedIn, w.Covers o.ids := by
  have ht := h.types t
  simp only [TypeDecl.ids, covers_append, covers_flatMap] at ht
  exact fun o ho => ht.1.1.1.2 o (by simpa using ho)

theorem enclosingModuleAt?_has (h : w.Closed) {n : Nat} {o : Option Owner} {m : ModuleId}
    (ho : ∀ x ∈ o, w.Covers x.ids) (hm : w.enclosingModuleAt? n o = some m) : w.modules.Has m := by
  induction n generalizing o with
  | zero =>
      rcases o with _ | _ | _ | _ | _
      all_goals try cases hm
      simpa [Owner.ids] using ho _ rfl
  | succ n ih =>
      rcases o with _ | _ | t | d | _
      · cases hm
      · cases hm
        simpa [Owner.ids] using ho _ rfl
      · exact ih (h.covers_definedIn t) hm
      · exact ih (h.covers_definedIn _) hm
      · cases hm

/-! ## Overriding -/

theorem slotNamed?_has (h : w.Closed) {chain : List MemberTableId} {name : String} {s : SlotId}
    (hs : w.slotNamed? chain name = some s) : w.slots.Has s := by
  obtain ⟨k, -, hs⟩ := Option.bind_eq_some_iff.mp hs
  obtain ⟨x, hx, hs⟩ := Option.bind_eq_some_iff.mp hs
  obtain ⟨d, -, hx⟩ := List.exists_of_findSome?_eq_some hx
  have hc := Bindings.covers_get? (h.covers_bindings (.members d)) hx
  split at hs
  · rename_i y hu
    have hy := h.covers_unwind hc hu
    cases y with
    | slot s' =>
        cases hs
        simpa [Symbol.ids] using hy
    | _ => cases hs
  · cases hs

theorem getter_has (h : w.Closed) {s a : SlotId} {info : PropertyInfo}
    (hi : (w.slot s).detail = .property info) (ha : info.getter = some a) : w.slots.Has a := by
  have hd := h.covers_detail s
  simp only [hi, SlotDetail.ids, covers_append, covers_map, ha] at hd
  simpa using hd.1.2

theorem setter_has (h : w.Closed) {s a : SlotId} {info : PropertyInfo}
    (hi : (w.slot s).detail = .property info) (ha : info.setter = some a) : w.slots.Has a := by
  have hd := h.covers_detail s
  simp only [hi, SlotDetail.ids, covers_append, covers_map, ha] at hd
  simpa using hd.2

theorem overriddenAccessor_has (h : w.Closed) {candidate property inherited target : SlotId}
    {info : PropertyInfo} (hi : (w.slot inherited).detail = .property info)
    (ht : w.overriddenAccessor candidate property info = .ok target) : w.slots.Has target := by
  unfold overriddenAccessor at ht
  dsimp only at ht
  split at ht
  · cases ht
  · rename_i accessor ha
    split at ht
    · cases ht
    · split_ifs at ht
      cases ht
      split_ifs at ha
      · exact h.getter_has hi ha
      · exact h.setter_has hi ha

theorem overriddenMethod_has (h : w.Closed) {candidate inherited target : SlotId}
    {property : Option SlotId} (hi : w.slots.Has inherited)
    (ht : w.overriddenMethod candidate property inherited = .ok target) : w.slots.Has target := by
  unfold overriddenMethod at ht
  split at ht
  · rename_i hd
    exact h.overriddenAccessor_has hd ht
  · split_ifs at ht
    cases ht
    exact hi
  · cases ht

/-- The method that is overridden comes with the inherited slot, and may be one of its accessors. -/
theorem overridden_has (h : w.Closed) {candidate target : SlotId} {d : MemberTableId}
    (ht : w.overridden candidate d = .ok target) : w.slots.Has target := by
  unfold overridden at ht
  split at ht
  · cases ht
  · dsimp only at ht
    split at ht
    · cases ht
    · rename_i inherited hi
      split_ifs at ht
      split at ht
      · cases ht
      · rename_i hm
        split_ifs at ht
        cases ht
        exact h.overriddenMethod_has (h.slotNamed?_has hi) hm

theorem covers_overriddenAccessor_error (h : w.Closed) {candidate property : SlotId}
    {info : PropertyInfo} {e : SymbolError}
    (he : w.overriddenAccessor candidate property info = .error e) : w.Covers e.ids := by
  unfold overriddenAccessor at he
  dsimp only at he
  split at he
  · cases he
    simp [SymbolError.ids]
  · split at he
    · cases he
      simp [SymbolError.ids]
    · rename_i m hm
      split_ifs at he
      cases he
      simpa [SymbolError.ids] using h.signature_has hm

theorem covers_overriddenMethod_error (h : w.Closed) {candidate inherited : SlotId}
    {property : Option SlotId} {e : SymbolError}
    (he : w.overriddenMethod candidate property inherited = .error e) : w.Covers e.ids := by
  unfold overriddenMethod at he
  split at he
  · exact h.covers_overriddenAccessor_error he
  · rename_i info hd
    split_ifs at he
    cases he
    simpa [SymbolError.ids] using h.signature_has (Slot.methodInfo?_eq_some.mpr hd)
  · cases he
    simp [SymbolError.ids]

theorem covers_overridden_error (h : w.Closed) {candidate : SlotId} {d : MemberTableId}
    {e : SymbolError} (he : w.overridden candidate d = .error e) : w.Covers e.ids := by
  unfold overridden at he
  split at he
  · cases he
    simp [SymbolError.ids]
  · dsimp only at he
    split at he
    · cases he
      simp [SymbolError.ids]
    · split_ifs at he
      · cases he
        simp [SymbolError.ids]
      · cases he
        simp [SymbolError.ids]
      · split at he
        · rename_i hm
          cases he
          exact h.covers_overriddenMethod_error hm
        · split_ifs at he
          cases he
          simp [SymbolError.ids]

/-! ## Conformance -/

theorem resultType?_has (h : w.Closed) {s : SlotId} (hu : w.resultType? s = some u) :
    w.types.Has u := by
  obtain ⟨m, _, rfl⟩ := Option.map_eq_some_iff.mp hu
  exact h.returns_has _

theorem covers_operatorIssue? (h : w.Closed) {op : Operator} {s : SlotId} {i : ConformanceIssue}
    (hi : w.operatorIssue? t op s = some i) : w.Covers i.ids := by
  unfold operatorIssue? at hi
  split at hi
  · split_ifs at hi
    cases hi
    simp [ConformanceIssue.ids]
  · dsimp only at hi
    split_ifs at hi
    cases hi
    simp only [ConformanceIssue.ids, covers_map, Option.mem_toList]
    exact fun u hu => h.resultType?_has hu

theorem covers_accessorIssue? (h : w.Closed) {part : MemberPart} {name : String}
    {asked present : Option SlotId} {i : ConformanceIssue}
    (hi : w.accessorIssue? part name asked present = some i) : w.Covers i.ids := by
  obtain ⟨a, _, hi⟩ := Option.bind_eq_some_iff.mp hi
  dsimp only at hi
  split_ifs at hi with hf
  cases hi
  simp only [ConformanceIssue.ids, covers_cons, covers_nil, and_true, has_signature]
  cases present with
  | none =>
      -- Only a method is required, and a method has a signature of its own.
      cases hm : w.methodInfo? a with
      | none => simp [isRequired, hm] at hf
      | some m => exact h.slotSignature_has_of_method hm
  | some s =>
      refine h.slotSignature_has (b := s) fun he => hf ?_
      simp [sameShape, he]

theorem covers_propertyIssues (h : w.Closed) {name : String} {asked : PropertyInfo}
    {implemented : Option SlotId} :
    ∀ i ∈ w.propertyIssues name asked implemented, w.Covers i.ids := by
  have accessors : ∀ p q : PropertyInfo,
      ∀ i ∈ [w.accessorIssue? .getter name p.getter q.getter,
        w.accessorIssue? .setter name p.setter q.setter].filterMap fun i => i,
      w.Covers i.ids := by
    intro p q i hi
    simp only [List.mem_filterMap, List.mem_cons, List.not_mem_nil, or_false] at hi
    rcases hi with ⟨_, rfl | rfl, hi⟩
    · exact h.covers_accessorIssue? hi
    · exact h.covers_accessorIssue? hi
  unfold propertyIssues
  split
  · exact accessors asked {}
  · exact accessors asked _
  · simp [ConformanceIssue.ids]

theorem covers_methodIssues (h : w.Closed) {name : String} {s : SlotId} {asked : MethodInfo}
    (hs : w.methodInfo? s = some asked) {implemented : Option SlotId} :
    ∀ i ∈ w.methodIssues name asked implemented, w.Covers i.ids := by
  have hg := h.signature_has hs
  unfold methodIssues
  split
  · split
    · simpa [ConformanceIssue.ids] using hg
    · simp
  · split
    · simp
    · simpa [ConformanceIssue.ids] using hg
  · simp [ConformanceIssue.ids]

theorem covers_memberIssues (h : w.Closed) {s : SlotId} :
    ∀ i ∈ w.memberIssues t s, w.Covers i.ids := by
  unfold memberIssues
  dsimp only
  split
  · exact h.covers_propertyIssues
  · rename_i info hd
    exact h.covers_methodIssues (Slot.methodInfo?_eq_some.mpr hd)
  · simp

theorem covers_conformanceIssues (h : w.Closed) (cls : TypeId) :
    ∀ i ∈ w.conformanceIssues cls, w.Covers i.ids := by
  intro i hi
  unfold conformanceIssues at hi
  split at hi
  · cases hi
  · obtain ⟨interface, _, hi⟩ := List.mem_flatMap.mp hi
    unfold interfaceIssues at hi
    split at hi
    · cases hi
    · rcases List.mem_append.mp hi with hi | hi
      · obtain ⟨e, _, hi⟩ := List.mem_filterMap.mp hi
        exact h.covers_operatorIssue? hi
      · obtain ⟨s, _, hi⟩ := List.mem_flatMap.mp hi
        exact h.covers_memberIssues i hi

end SymbolTable.Closed

/-! ## Questions -/

/-- The ways to ask for a conversion. -/
inductive Casting where
  | implicit
  | explicit
  | cast
  | tryCast
  | constant

/-- Where a name can be looked up. -/
inductive Place where
  | owner (o : Owner)
  | type (t : TypeId)
  | members (d : MemberTableId)
  | value (v : Value)
  | symbol (s : Symbol)
  | frame (f : FrameId)
  | scope

def Place.ids : Place → List AnyId
  | owner o => o.ids
  | type t => [t.tagged]
  | members d => [d.tagged]
  | value v => v.ids
  | symbol s => s.ids
  | frame f => [f.tagged]
  | scope => []

def SymbolTable.convert? [Memory] (w : SymbolTable) : Casting → Value → TypeId → Option Value
  | .implicit => w.convertImplicit?
  | .explicit => w.convertExplicit?
  | .cast => w.convertByCast?
  | .tryCast => w.convertByTryCast?
  | .constant => w.convertConstant?

def Workspace.lookup? [Memory] (ws : Workspace) : Place → String → Wanted → Option Symbol
  | .owner o => ws.table.resolveIn? o
  | .type t => ws.table.resolveInType? t
  | .members d => ws.table.resolveInMembers? d
  | .value v => ws.table.resolveInValue? v
  | .symbol s => ws.table.resolveInSymbol? s
  | .frame f => ws.table.resolveInFrame? f
  | .scope => ws.resolveInScope?

/-- What is declared under an id. -/
def Entity.Declaration : Entity → Type
  | .type => TypeDecl
  | .memberTable => MemberTable
  | .module => ModuleDecl
  | .slot => Slot
  | .signature => Signature
  | .frame => Frame
  | .aliasDecl => AliasDecl

def SymbolTable.declaration [Memory] (w : SymbolTable) : (i : AnyId) → i.1.Declaration
  | ⟨.type, t⟩ => w.type t
  | ⟨.memberTable, d⟩ => w.memberTable d
  | ⟨.module, m⟩ => w.module m
  | ⟨.slot, s⟩ => w.slot s
  | ⟨.signature, g⟩ => w.signature g
  | ⟨.frame, f⟩ => w.frame f
  | ⟨.aliasDecl, a⟩ => w.aliasDecl a

/-- The ids that a declaration mentions. -/
def Entity.mentioned : (e : Entity) → e.Declaration → List AnyId
  | .type => TypeDecl.ids
  | .memberTable => MemberTable.ids
  | .module => ModuleDecl.ids
  | .slot => Slot.ids
  | .signature => Signature.ids
  | .frame => Frame.ids
  | .aliasDecl => AliasDecl.ids

theorem SymbolTable.mentioned_declaration (w : SymbolTable) (i : AnyId) :
    i.1.mentioned (w.declaration i) = w.idsOf i := by
  obtain ⟨e, i⟩ := i
  cases e <;> rfl

/-- A question about a workspace. -/
inductive Question where
  | declaration (i : AnyId)
  | superType (t : TypeId)
  | superChain (t : TypeId)
  | superClasses (t : TypeId)
  | isSubtype (t u : TypeId)
  | acceptsNull (t : TypeId)
  | withoutNull (t : TypeId)
  | wrapped (t : TypeId)
  | elements (t : TypeId)
  | nullable (t : TypeId)
  | tuple (types : List TypeId)
  | tupleTypes
  | subclasses (t : TypeId)
  | implementors (t : TypeId)
  | subInterfaces (t : TypeId)
  | enumConstant (t : TypeId) (name : String)
  | defaultValue (t : TypeId)
  | numericType (k : NumericKind)
  | typeText (t : TypeId)
  | memberChain (d : MemberTableId)
  | operator (d : MemberTableId) (op : Operator)
  | overrider (s : SlotId) (t : TypeId)
  | overridden (candidate : SlotId) (d : MemberTableId)
  | sameShape (g g' : SignatureId)
  | canOverride (base candidate : SignatureId)
  | signatureText (g : SignatureId)
  | issues (cls : TypeId)
  | root (name : String)
  | roots
  | enclosingModule (o : Option Owner)
  | current
  | frameChain (f : FrameId)
  | frameLabel (f : FrameId)
  | activation (f : FrameId)
  | withFrame (f : FrameId)
  | withTarget
  | isAccessible (s : Symbol) (f : FrameId)
  | mayUse (s : Symbol)
  | answered (node : Nat) (wanted : Wanted)
  | unwound (s : Symbol)
  | bound (o : Owner) (name : String) (wanted : Wanted)
  | lookup (place : Place) (name : String) (wanted : Wanted)
  | constant (s : Symbol)
  | reference (o : Owner) (s : Symbol)
  | memberReference (v : Value) (s : Symbol)
  | indexReference (v : Value)
  | tupleElement (v : Value) (index : Nat)
  | staticMe (cls : TypeId)
  | dynamic (v : Value)
  | method (s : SlotId)
  | withType (v : Value) (t : TypeId)
  | convert (how : Casting) (v : Value) (t : TypeId)
  | isReadOnly (v : Value)
  | isWriteOnly (v : Value)
  | valueText (v : Value)

namespace Question

/-- The ids that the question is about. -/
def ids : Question → List AnyId
  | declaration i => [i]
  | superType t | superChain t | superClasses t | acceptsNull t | withoutNull t | wrapped t
  | elements t | nullable t | subclasses t | implementors t | subInterfaces t | enumConstant t _
  | defaultValue t | typeText t | issues t | staticMe t => [t.tagged]
  | isSubtype t u => [t.tagged, u.tagged]
  | tuple types => types.map EntityId.tagged
  | memberChain d | operator d _ => [d.tagged]
  | overrider s t => [s.tagged, t.tagged]
  | overridden candidate d => [candidate.tagged, d.tagged]
  | method s => [s.tagged]
  | sameShape g g' | canOverride g g' => [g.tagged, g'.tagged]
  | signatureText g => [g.tagged]
  | frameChain f | frameLabel f | activation f | withFrame f => [f.tagged]
  | isAccessible s f => s.ids ++ [f.tagged]
  | enclosingModule o => o.toList.flatMap Owner.ids
  | unwound s | constant s | mayUse s => s.ids
  | bound o _ _ => o.ids
  | lookup place _ _ => place.ids
  | reference o s => o.ids ++ s.ids
  | memberReference v s => v.ids ++ s.ids
  | indexReference v | tupleElement v _ | dynamic v | isReadOnly v | isWriteOnly v
  | valueText v => v.ids
  | withType v t | convert _ v t => v.ids ++ [t.tagged]
  | tupleTypes | numericType _ | root _ | roots | current | withTarget | answered .. => []

/-- What the question is answered with. -/
def Answer : Question → Type
  | declaration i => i.1.Declaration
  | withoutNull _ | numericType _ => TypeId
  | superType _ | wrapped _ | nullable _ | tuple _ => Option TypeId
  | superChain _ | superClasses _ | tupleTypes | subclasses _ | implementors _
  | subInterfaces _ => List TypeId
  | elements _ => Option (List TypeId)
  | memberChain _ => List MemberTableId
  | operator .. | overrider .. => Option SlotId
  | overridden .. => Except SymbolError SlotId
  | issues _ => List ConformanceIssue
  | root _ | enclosingModule _ => Option ModuleId
  | roots => List (String × ModuleId)
  | current | activation _ | withFrame _ => Option FrameId
  | frameChain _ => List FrameId
  | answered .. | bound .. | lookup .. => Option Symbol
  | unwound _ => Except SymbolError Symbol
  | reference .. | memberReference .. => Symbol
  | staticMe _ | dynamic _ | method _ | withType .. => Value
  | enumConstant .. | defaultValue _ | withTarget | constant _ | indexReference _
  | tupleElement .. | convert .. => Option Value
  | isSubtype .. | acceptsNull _ | sameShape .. | canOverride .. | isAccessible .. | mayUse _
  | isReadOnly _ | isWriteOnly _ => Bool
  | typeText _ | signatureText _ | frameLabel _ | valueText _ => String

def ask [Memory] (ws : Workspace) : (q : Question) → q.Answer
  | declaration i => ws.table.declaration i
  | superType t => ws.table.superType? t
  | superChain t => ws.table.superChain t
  | superClasses t => ws.table.superClasses t
  | isSubtype t u => ws.table.isSubtype t u
  | acceptsNull t => ws.table.acceptsNull t
  | withoutNull t => ws.table.withoutNull t
  | wrapped t => (ws.table.type t).wraps?
  | elements t => ws.table.tupleElements? t
  | nullable t => ws.table.nullableOf? t
  | tuple types => ws.table.tupleOf? types
  | tupleTypes => ws.table.tupleTypes
  | subclasses t => ws.table.subclasses t
  | implementors t => ws.table.implementors t
  | subInterfaces t => ws.table.subInterfaces t
  | enumConstant t name => ws.table.enumConstant? t name
  | defaultValue t => ws.table.defaultValue? t
  | numericType k => k.type
  | typeText t => ws.table.typeText t
  | memberChain d => ws.table.memberChain d
  | operator d op => ws.table.findOperator? d op
  | overrider s t => (ws.table.methodInfo? s).bind (·.overriderIn? t)
  | overridden candidate d => ws.table.overridden candidate d
  | sameShape g g' => ws.table.sameShape g g'
  | canOverride base candidate => ws.table.canOverride base candidate
  | signatureText g => ws.table.signatureText g
  | issues cls => ws.table.conformanceIssues cls
  | root name => ws.table.root? name
  | roots => ws.table.roots
  | enclosingModule o => ws.table.enclosingModule? o
  | current => ws.current?
  | frameChain f => ws.table.frameChain f
  | frameLabel f => ws.table.frameLabel f
  | activation f => ws.table.activationOf? f
  | withFrame f => ws.table.withFrameOf? f
  | withTarget => ws.withTarget?
  | isAccessible s f => ws.table.isAccessible s f
  | mayUse s => ws.mayUse s
  | answered node wanted => ws.answer? node wanted
  | unwound s => ws.table.unwind s
  | bound o name wanted => ws.table.find? o name wanted
  | lookup place name wanted => ws.lookup? place name wanted
  | constant s => ws.table.constantOf? s
  | reference o s => ws.table.reference o s
  | memberReference v s => ws.table.memberReference v s
  | indexReference v => ws.table.indexReference? v
  | tupleElement v index => ws.table.tupleElement? v index
  | staticMe cls => Value.ofStaticMe cls
  | dynamic v => Value.ofDynamic v
  | method s => Value.ofMethod s
  | withType v t => v.withType t
  | convert how v t => ws.table.convert? how v t
  | isReadOnly v => ws.table.isReadOnly v
  | isWriteOnly v => ws.table.isWriteOnly v
  | valueText v => ws.table.valueText v

/-- The ids that an answer mentions. -/
def mentioned : (q : Question) → q.Answer → List AnyId
  | declaration i => i.1.mentioned
  | withoutNull _ | numericType _ => fun t : TypeId => [t.tagged]
  | superType _ | wrapped _ | nullable _ | tuple _ => fun t : Option TypeId =>
    t.toList.map EntityId.tagged
  | superChain _ | superClasses _ | tupleTypes | subclasses _ | implementors _
  | subInterfaces _ => List.map EntityId.tagged
  | elements _ => fun l : Option (List TypeId) => l.toList.flatMap (·.map EntityId.tagged)
  | memberChain _ => List.map EntityId.tagged
  | operator .. | overrider .. => fun s : Option SlotId => s.toList.map EntityId.tagged
  | overridden .. => fun r : Except SymbolError SlotId =>
    match r with
    | .ok s => [s.tagged]
    | .error e => e.ids
  | issues _ => List.flatMap ConformanceIssue.ids
  | root _ | enclosingModule _ => fun m : Option ModuleId => m.toList.map EntityId.tagged
  | roots => List.map fun e => e.2.tagged
  | current | activation _ | withFrame _ => fun f : Option FrameId =>
    f.toList.map EntityId.tagged
  | frameChain _ => List.map EntityId.tagged
  | answered .. | bound .. | lookup .. => fun s : Option Symbol => s.toList.flatMap Symbol.ids
  | unwound _ => fun r : Except SymbolError Symbol =>
    match r with
    | .ok s => s.ids
    | .error e => e.ids
  | reference .. | memberReference .. => Symbol.ids
  | staticMe _ | dynamic _ | method _ | withType .. => Value.ids
  | enumConstant .. | defaultValue _ | withTarget | constant _ | indexReference _
  | tupleElement .. | convert .. => fun v : Option Value => v.toList.flatMap Value.ids
  | isSubtype .. | acceptsNull _ | sameShape .. | canOverride .. | isAccessible .. | mayUse _
  | isReadOnly _ | isWriteOnly _ | typeText _ | signatureText _ | frameLabel _
  | valueText _ => fun _ => []

end Question

theorem SymbolTable.Closed.covers_convert? {w : SymbolTable} (h : w.Closed) {how : Casting}
    {v u : Value} {t : TypeId} (hv : w.Covers v.ids) (ht : w.types.Has t)
    (hu : w.convert? how v t = some u) : w.Covers u.ids := by
  have explicit : ∀ r, w.convertExplicit? v t = some r → w.Covers r.ids :=
    fun r hr => h.covers_convertExplicitAt? 3 v t r hv ht hr
  cases how with
  | implicit => exact h.covers_convertImplicitAt? 3 v t u hv ht hu
  | explicit => exact explicit u hu
  | cast =>
      obtain ⟨r, hr, rfl⟩ := Option.map_eq_some_iff.mp hu
      exact covers_markCast (explicit r hr)
  | tryCast =>
      obtain ⟨r, hr, rfl⟩ := Option.map_eq_some_iff.mp hu
      exact covers_markTryCast (explicit r hr)
  | constant => exact covers_convertConstant? hv ht hu

namespace Workspace.Closed

variable {ws : Workspace}

theorem covers_lookup? (h : ws.Closed) {place : Place} {name : String} {wanted : Wanted}
    {s : Symbol} (hp : ws.table.Covers place.ids) (hs : ws.lookup? place name wanted = some s) :
    ws.table.Covers s.ids := by
  cases place with
  | owner o => exact h.table.covers_resolveIn? hp hs
  | type t => exact h.table.covers_resolveInType? (by simpa [Place.ids] using hp) hs
  | members d => exact h.table.covers_resolveInMembers? (by simpa [Place.ids] using hp) hs
  | value v => exact h.table.covers_resolveInValue? hp hs
  | symbol s => exact h.table.covers_resolveInSymbol? hp hs
  | frame f => exact h.table.covers_resolveInFrame? (by simpa [Place.ids] using hp) hs
  | scope =>
      obtain ⟨f, hf, hs⟩ := Option.bind_eq_some_iff.mp hs
      exact h.table.covers_resolveInFrame? (h.current?_has hf) hs

open SymbolTable (covers_map covers_flatMap covers_append covers_cons)
open SymbolTable.Closed (covers_enumConstant? covers_withType)

/-- A question about covered ids has an answer that mentions covered ids. -/
theorem covers_answer (h : ws.Closed) (q : Question) (hq : ws.table.Covers q.ids) :
    ws.table.Covers (q.mentioned (q.ask ws)) := by
  have hw := h.table
  -- What is found is a list of at most one, so that one shape of goal serves all questions.
  cases q <;> simp only [Question.mentioned, Question.ask, Question.ids, covers_map, covers_flatMap,
    covers_append, covers_cons, Option.mem_toList] at hq ⊢
  case declaration i =>
      rw [ws.table.mentioned_declaration]
      exact hw.entities i
  case superType t => exact fun u hu => hw.superType?_has hu
  case superChain t => exact hw.superChain_has hq.1
  case superClasses t =>
      intro u hu
      exact hw.superChain_has hq.1 u (List.mem_of_mem_tail ((List.takeWhile_sublist _).subset hu))
  case withoutNull t => exact ⟨hw.withoutNull_has hq.1, by simp⟩
  case wrapped t => exact fun u hu => hw.wraps?_has hu
  case elements t => exact fun l hl => hw.elements_has hl
  case nullable t => exact fun u hu => hw.nullableOf?_has hu
  case tuple types => exact fun u hu => hw.tuple_has (SymbolTable.mem_of_tupleOf? hu)
  case tupleTypes =>
      exact fun u hu => hw.interned u (List.mem_append_right _ (List.mem_mergeSort.mp hu))
  case subclasses t => exact hw.subclasses_has t
  case implementors t => exact hw.implementors_has t
  case subInterfaces t => exact hw.subInterfaces_has t
  case enumConstant t name => exact fun v hv => covers_enumConstant? hq.1 hv
  case defaultValue t => exact fun v hv => hw.covers_defaultValue? hq.1 hv
  case numericType k => exact ⟨hw.numericType_has k, by simp⟩
  case memberChain d => exact hw.memberChain_has hq.1
  case operator d op => exact fun s hs => hw.findOperator?_has hs
  case overrider s t =>
      intro o ho
      obtain ⟨m, hm, ho⟩ := Option.bind_eq_some_iff.mp ho
      exact hw.overriderIn?_has hm ho
  case overridden candidate d =>
      split
      · rename_i s hs
        simpa using hw.overridden_has hs
      · rename_i e he
        exact hw.covers_overridden_error he
  case issues cls => exact hw.covers_conformanceIssues cls
  case root name => exact fun m hm => hw.root?_has hm
  case roots => exact hw.roots
  case enclosingModule o => exact fun m hm => hw.enclosingModuleAt?_has hq hm
  case current => exact fun f hf => h.current?_has hf
  case frameChain f => exact hw.frameChain_has hq.1
  case activation f => exact fun g hg => hw.activationOf?_has hq.1 hg
  case withFrame f => exact fun g hg => hw.frameChain_has hq.1 g (List.mem_of_find?_eq_some hg)
  case withTarget => exact fun v hv => h.covers_withTarget? hv
  case answered node wanted => exact fun s hs => h.covers_answer? hs
  case unwound s =>
      split
      · rename_i s' hs'
        exact hw.covers_unwind hq hs'
      · rename_i e he
        exact SymbolTable.covers_of_unwind_eq_error he
  case bound o name wanted => exact fun s hs => hw.covers_find? hs
  case lookup place name wanted => exact fun s hs => h.covers_lookup? hq hs
  case constant s => exact fun v hv => hw.covers_constantOf? hq hv
  case reference o s => exact hw.covers_reference hq.1 hq.2
  case memberReference v s => exact hw.covers_memberReference hq.1 hq.2
  case indexReference v => exact fun r hr => hw.covers_indexReference? hq hr
  case tupleElement v i => exact fun r hr => hw.covers_tupleElement? hq hr
  case staticMe cls =>
      simpa [Value.ofStaticMe, Value.ids] using ⟨hq.1, hw.has_supplied (by decide)⟩
  case dynamic v => simpa [Value.ofDynamic, Value.ids] using ⟨hq, hw.has_supplied (by decide)⟩
  case method s => simpa [Value.ofMethod, Value.ids] using ⟨hq.1, hw.has_supplied (by decide)⟩
  case withType v t => exact covers_withType hq.1 hq.2.1
  case convert how v t => exact fun u hu => hw.covers_convert? hq.1 hq.2.1 hu
  -- Texts and yes or no mention no ids.
  all_goals exact SymbolTable.covers_nil _

end Workspace.Closed
end StaticSemantics
