import StaticSemantics.Proofs.Hierarchy.Inversion
import StaticSemantics.Proofs.Naming
import StaticSemantics.Proofs.Operation

/-!
The changes that edits are made of. A change adds one entry to a table or alters one part of one
entry, and every edit is a sequence of changes of a few sorts. So to know what an edit leaves alone
it is enough to look at each sort of change once.
-/

namespace StaticSemantics

/-- A program can declare types of this kind; the others exist from the start. -/
def TypeKind.isDeclarable : TypeKind → Bool
  | any | empty | nothing | null => false
  | cls _ | struct | enum _ | interface _ | nullable _ | tuple _ => true

inductive Change where
  | newType (d : TypeDecl) (declarable : d.kind.isDeclarable) (unnamed : d.statics = .empty)
  | newMemberTable (definedIn : TypeId) (inherits : Option MemberTableId)
  | newModule (name : String)
  | newAlias (name : String) (target : Symbol)
  | newVariable (name : String) (info : VariableInfo) (definedIn : Option Owner)
  | newProperty (name : String) (type : Option TypeId)
  | newMethod (name : String) (signature : SignatureId)
  | newSignature (g : Signature)
  | newFrame (kind : FrameKind)
  | typeVisibility (t : TypeId) (visibility : Visibility)
  | superType (t s : TypeId)
  | classInfo (t : TypeId) (change : ClassInfo → ClassInfo)
  | interfaceInfo (t : TypeId) (change : InterfaceInfo → InterfaceInfo)
  | enumInfo (t : TypeId) (change : EnumInfo → EnumInfo)
  | inherits (d : MemberTableId) (above : Option MemberTableId)
  | operator (d : MemberTableId) (op : Operator) (method : SlotId)
  /-- A member table takes over what another one has and it has not. -/
  | takeOver (source d : MemberTableId)
  | definedIn (s : Symbol) (o : Owner)
  | intern (name : String)
  | name (o : Owner) (name : String) (s : Symbol)
  | aliasTarget (a : AliasId) (target : Symbol)
  | initialValue (s : SlotId) (v : Value)
  | slotVisibility (s : SlotId) (visibility : Visibility)
  | flags (s : SlotId) (change : MethodFlags → MethodFlags)
  | overrider (s : SlotId) (t : TypeId) (method : SlotId)
  | ofProperty (s property : SlotId)
  | accessors (s : SlotId) (getter setter : Option SlotId)
  | importModule (f : FrameId) (m : ModuleId)
  | capture (f : FrameId) (s : SlotId)
  | parent (f top : FrameId)
  | root (name : String) (m : ModuleId)
  | nullable (t u : TypeId)
  | room (arity : Nat)
  | tuple (elements : List TypeId) (u : TypeId)

/-- The sorts of change that an edit is made of. -/
def Edit.makes (e : Edit) : Change → Bool
  | .newType .. =>
    (e matches .addClass .. | .addStruct _ | .addEnum .. | .addInterface _ | .addNullable _
      | .addTuple _)
  | .newMemberTable .. =>
    (e matches .addClass .. | .addStruct _ | .addEnum .. | .addInterface _ | .addTuple _)
  | .newModule .. => (e matches .addModule _)
  | .newAlias .. => (e matches .addAlias ..)
  | .newVariable .. => (e matches .addVariable .. | .addWithFrame _)
  | .newProperty .. => (e matches .addProperty ..)
  | .newMethod .. => (e matches .addMethod .. | .declareEnumHelpers _)
  | .newSignature .. => (e matches .addSignature _ | .declareEnumHelpers _)
  | .newFrame .. => (e matches .addFrame _ | .addWithFrame _)
  | .typeVisibility .. => (e matches .setTypeVisibility ..)
  | .superType .. | .inherits .. => (e matches .setSuperType .. | .extendClass ..)
  | .classInfo .. => (e matches .extendClass .. | .implement ..)
  | .interfaceInfo .. => (e matches .implement .. | .extendInterface ..)
  | .enumInfo .. => (e matches .setEnumMember .. | .declareEnumHelpers _)
  | .operator .. => (e matches .addOperator ..)
  | .takeOver .. => (e matches .extendInterface ..)
  | .definedIn .. => (e matches .define .. | .declareEnumHelpers _)
  | .intern .. => (e matches .define .. | .bind .. | .intern _ | .declareEnumHelpers _)
  | .name .. => (e matches .define .. | .bind .. | .declareEnumHelpers _)
  | .aliasTarget .. => (e matches .setAliasTarget ..)
  | .initialValue .. => (e matches .setInitial ..)
  | .slotVisibility .. => (e matches .setSlotVisibility ..)
  | .flags .. => (e matches .setMethodFlags .. | .override .. | .declareEnumHelpers _)
  | .overrider .. => (e matches .override ..)
  | .ofProperty .. | .accessors .. => (e matches .setAccessors ..)
  | .importModule .. => (e matches .importModule ..)
  | .capture .. => (e matches .capture ..)
  | .parent .. => (e matches .attachFrame ..)
  | .root .. => (e matches .setRoot ..)
  | .nullable .. => (e matches .addNullable _)
  | .room .. | .tuple .. => (e matches .addTuple _)

namespace SymbolTable

/-- The table after a change. -/
def change (w : SymbolTable) : Change → SymbolTable
  | .newType d _ _ => (w.addType d).2
  | .newMemberTable definedIn inherits =>
    { w with memberTables := w.memberTables.push { definedIn, inherits } }
  | .newModule name => (w.addModule name).2
  | .newAlias name target => (w.addAlias name target).2
  | .newVariable name info definedIn =>
    { w with slots := w.slots.push { name, detail := .variable info, definedIn } }
  | .newProperty name type => (w.addProperty name type).2
  | .newMethod name signature => (w.addMethod name signature).2
  | .newSignature g => (w.addSignature g).2
  | .newFrame kind => (w.addFrame kind).2
  | .typeVisibility t visibility => w.setTypeVisibility t visibility
  | .superType t s => w.modifyType t ({ · with superType := some s })
  | .classInfo t change => w.modifyType t (TypeDecl.modifyClass change)
  | .interfaceInfo t change => w.modifyType t (TypeDecl.modifyInterface change)
  | .enumInfo t change => w.modifyType t (TypeDecl.modifyEnum change)
  | .inherits d above => w.modifyMemberTable d ({ · with inherits := above })
  | .operator d op method => w.modifyMemberTable d (·.setOperator op method)
  | .takeOver source d =>
    w.modifyMemberTable d fun m => mergeOperators (w.memberTable source)
      { m with names := mergeNames (w.memberTable source).names m.names }
  | .definedIn s o => w.setDefinedIn s o
  | .intern name => (w.intern name).2
  | .name o name s => w.bind o name s
  | .aliasTarget a target => w.setAliasTarget a target
  | .initialValue s v => w.setInitial s v
  | .slotVisibility s visibility => w.setSlotVisibility s visibility
  | .flags s change =>
      w.modifySlot s (Slot.modifyMethod fun m => { m with flags := change m.flags })
  | .overrider s t method => w.modifySlot s (Slot.modifyMethod (·.setOverrider t method))
  | .ofProperty s property => w.linkAccessor property (some s)
  | .accessors s getter setter =>
    w.modifySlot s (Slot.modifyProperty ({ · with getter, setter }))
  | .importModule f m => w.importModule f m
  | .capture f s => w.capture f s
  | .parent f top => w.modifyFrame f ({ · with parent := some top })
  | .root name m => w.setRoot name m
  | .nullable t u => w.internNullable t u
  | .room arity => w.makeRoom arity
  | .tuple elements u => w.internTuple elements u

variable {w : SymbolTable}

/-! ## Refusals -/

theorem override_refused {candidate : SlotId} {d : MemberTableId} {e : SymbolError}
    (h : (w.override candidate d).1 = .error e) : (w.override candidate d).2 = w := by
  revert h
  unfold override
  split
  · exact fun _ => rfl
  · exact nofun

/-! ## Edits are made of changes -/

/-- What each declaration of a native method keeps, all of them keep, also if one is refused. -/
theorem declareNatives_induction {P : SymbolTable → Prop} {d : MemberTableId}
    (hP : ∀ w name g, P w → P (w.declareNative d name g).2) (l : List (String × Signature))
    (h : P w) : P (w.declareNatives d l).2 := by
  induction l generalizing w with
  | nil => exact h
  | cons e l ih =>
      have hn := hP w e.1 e.2 h
      simp only [declareNatives]
      generalize w.declareNative d e.1 e.2 = r at hn
      obtain ⟨_ | slot, w1⟩ := r
      · exact hn
      · have hr := ih hn
        dsimp only
        generalize w1.declareNatives d l = r at hr
        obtain ⟨_ | slots, w2⟩ := r
        · exact hr
        · exact hr

theorem declareEnumHelpers_induction {P : SymbolTable → Prop} {t : TypeId}
    (hP : ∀ w d name g, P w → P (w.declareNative d name g).2)
    (hm : ∀ w change, P w → P (w.modifyType t (TypeDecl.modifyEnum change))) (h : P w) :
    P (w.declareEnumHelpers t).2 := by
  unfold declareEnumHelpers
  split
  · rename_i info d _ _
    have hn := declareNatives_induction (fun w => hP w d) (helperSignatures t info.isFlags) h
    generalize w.declareNatives d (helperSignatures t info.isFlags) = r at hn
    obtain ⟨_ | slots, w1⟩ := r
    · exact hn
    · exact hm w1 _ hn
  · exact h

/-- What is kept by the changes that an edit is made of. -/
def KeptBy (e : Edit) (P : SymbolTable → Prop) : Prop := ∀ w c, e.makes c → P w → P (w.change c)

namespace KeptBy

variable {e : Edit} {P : SymbolTable → Prop}

theorem addTypeWithMembers (hP : KeptBy e P) {kind : TypeKind} (hk : kind.isDeclarable)
    (name : Option String) (superType : Option TypeId)
    (ht : ∀ d h h', e.makes (.newType d h h')) (hm : ∀ t d, e.makes (.newMemberTable t d))
    (h : P w) : P (w.addTypeWithMembers kind name superType).2 :=
  hP _ (.newMemberTable _ _) (hm _ _) (hP w (.newType _ hk rfl) (ht _ _ _) h)

theorem setSuperType (hP : KeptBy e P) (t s : TypeId) (ht : ∀ t s, e.makes (.superType t s))
    (hd : ∀ d above, e.makes (.inherits d above)) (h : P w) : P (w.setSuperType t s) := by
  have hs := hP w (.superType t s) (ht t s) h
  unfold SymbolTable.setSuperType
  cases (w.type t).members with
  | none => exact hs
  | some d => exact hP _ (.inherits d _) (hd d _) hs

theorem define (hP : KeptBy e P) (o : Owner) (name : String) (s : Symbol)
    (hd : ∀ s o, e.makes (.definedIn s o)) (hi : ∀ name, e.makes (.intern name))
    (hn : ∀ o name s, e.makes (.name o name s)) (h : P w) : P (w.define o name s).2 := by
  have interned := hP w (.intern name) (hi name) h
  have bound := hP _ (.name o name s) (hn o name s) (hP w (.definedIn s o) (hd s o) h)
  unfold SymbolTable.define
  dsimp only
  rw [insert_setDefinedIn_intern]
  split
  · split <;> exact interned
  · exact bound

theorem linkAccessor (hP : KeptBy e P) (property : SlotId) (accessor : Option SlotId)
    (hl : ∀ s property, e.makes (.ofProperty s property)) (h : P w) :
    P (w.linkAccessor property accessor) := by
  cases accessor with
  | none => exact h
  | some s => exact hP w (.ofProperty s property) (hl s property) h

end KeptBy

theorem apply_induction {e : Edit} {P : SymbolTable → Prop} (hP : KeptBy e P) (h : P w) :
    P (w.apply e) := by
  cases e with
  | addClass name isSealed =>
      exact hP.addTypeWithMembers rfl _ _ (fun _ _ _ => rfl) (fun _ _ => rfl) h
  | addStruct name => exact hP.addTypeWithMembers rfl _ _ (fun _ _ _ => rfl) (fun _ _ => rfl) h
  | addEnum name isFlags =>
      exact hP.addTypeWithMembers rfl _ _ (fun _ _ _ => rfl) (fun _ _ => rfl) h
  | addInterface name => exact hP.addTypeWithMembers rfl _ _ (fun _ _ _ => rfl) (fun _ _ => rfl) h
  | addNullable t =>
      simp only [apply]
      rcases w.addNullable_cases t with ⟨_, hw⟩ | ⟨u, _, _, hw⟩ | ⟨_, _, hw⟩ <;> rw [hw]
      · exact h
      · exact h
      · exact hP _ (.nullable t _) rfl (hP w (.newType { kind := .nullable t } rfl rfl) rfl h)
  | addTuple elements =>
      simp only [apply]
      rcases w.addTuple_cases elements with ⟨u, _, hw⟩ | ⟨_, hw⟩ <;> rw [hw]
      · exact h
      · exact hP _ (.tuple elements _) rfl (hP.addTypeWithMembers rfl none _ (fun _ _ _ => rfl)
          (fun _ _ => rfl) (hP w (.room elements.length) rfl h))
  | setTypeVisibility t visibility => exact hP w (.typeVisibility t visibility) rfl h
  | setSuperType t s => exact hP.setSuperType t s (fun _ _ => rfl) (fun _ _ => rfl) h
  | extendClass cls base =>
      refine settled_induction (fun _ => extendClass_refused) h fun _ w' hw => ?_
      obtain ⟨_, _, _, rfl⟩ := extendClass_eq_ok hw
      have detached : P (w.detachSubclass cls) := by
        unfold detachSubclass
        split
        · exact hP w (.classInfo _ _) rfl h
        · exact h
      exact hP _ (.classInfo base _) rfl
        (hP.setSuperType cls base (fun _ _ => rfl) (fun _ _ => rfl) detached)
  | implement cls interface =>
      refine settled_induction (fun _ => implement_refused) h fun _ w' hw => ?_
      obtain ⟨_, _, _, ⟨_, rfl⟩ | ⟨_, rfl⟩⟩ := implement_eq_ok hw
      · exact h
      · exact hP _ (.interfaceInfo interface _) rfl (hP w (.classInfo cls _) rfl h)
  | extendInterface interface base =>
      refine settled_induction (fun _ => extendInterface_refused) h fun _ w' hw => ?_
      have linked : P (w.linkInterfaces interface base) :=
        hP _ (.interfaceInfo base _) rfl (hP w (.interfaceInfo interface _) rfl h)
      obtain ⟨_, _, ⟨_, _, rfl⟩ | ⟨_, rfl | ⟨d, e, _, _, rfl⟩⟩⟩ := extendInterface_eq_ok hw
      · exact h
      · exact linked
      · exact hP _ (.takeOver d e) rfl linked
  | setEnumMember t name value => exact hP w (.enumInfo t _) rfl h
  | declareEnumHelpers t =>
      refine declareEnumHelpers_induction (fun w d name g h => ?_)
        (fun w change h => hP w (.enumInfo t change) rfl h) h
      have added := hP _ (.newMethod name w.signatures.next) rfl (hP w (.newSignature g) rfl h)
      have flagged := hP _ (.flags w.slots.next fun _ => { native := true }) rfl added
      have defined := hP.define (.members d) name (.slot w.slots.next) (fun _ _ => rfl)
        (fun _ => rfl) (fun _ _ _ => rfl) flagged
      unfold declareNative
      dsimp only
      split <;> rename_i hw <;> exact (congrArg Prod.snd hw) ▸ defined
  | addOperator t op method =>
      simp only [apply, addOperator]
      split
      · split
        · exact hP w (.operator _ op method) rfl h
        · exact h
      · exact h
  | addModule name => exact hP w (.newModule name) rfl h
  | setRoot name m => exact hP w (.root name m) rfl h
  | addAlias name target => exact hP w (.newAlias name target) rfl h
  | setAliasTarget a target => exact hP w (.aliasTarget a target) rfl h
  | addVariable name readOnly type =>
      exact hP w (.newVariable name { readOnly, type } none) rfl h
  | setInitial s v => exact hP w (.initialValue s v) rfl h
  | addProperty name type => exact hP w (.newProperty name type) rfl h
  | addMethod name signature => exact hP w (.newMethod name signature) rfl h
  | addSignature g => exact hP w (.newSignature g) rfl h
  | setAccessors property getter setter =>
      exact hP _ (.accessors property getter setter) rfl
        (hP.linkAccessor property setter (fun _ _ => rfl)
          (hP.linkAccessor property getter (fun _ _ => rfl) h))
  | setSlotVisibility s visibility => exact hP w (.slotVisibility s visibility) rfl h
  | setMethodFlags s flags => exact hP w (.flags s fun _ => flags) rfl h
  | override candidate d =>
      simp only [apply, override]
      split
      · exact h
      · exact hP _ (.flags candidate ({ · with overriding := true })) rfl
          (hP w (.overrider _ _ candidate) rfl h)
  | define o name s =>
      exact hP.define o name s (fun _ _ => rfl) (fun _ => rfl) (fun _ _ _ => rfl) h
  | bind o name s => exact hP w (.name o name s) rfl h
  | intern name => exact hP w (.intern name) rfl h
  | addFrame kind => exact hP w (.newFrame kind) rfl h
  | addWithFrame t =>
      exact hP _ (.newFrame _) rfl
        (hP w (.newVariable "" { readOnly := true, type := some t } _) rfl h)
  | importModule f m => exact hP w (.importModule f m) rfl h
  | capture f s => exact hP w (.capture f s) rfl h
  | attachFrame f top =>
      simp only [apply, attachFrame]
      split
      · exact hP w (.parent f top) rfl h
      · exact h

end SymbolTable
end StaticSemantics
