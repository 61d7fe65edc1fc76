import StaticSemantics.Proofs.Hierarchy.Edits
import StaticSemantics.Proofs.Hierarchy.Links
import StaticSemantics.Proofs.Members.Flattening
import StaticSemantics.Proofs.Members.Inheritance

/-!
Relations between types that are stored on both sides. A class stands in the list of subclasses of
the base that it was last put below, and in no other; a class that implements an interface is listed
by it, and an interface lists those that it is extended by. No list has an entry twice, also when a
class is moved away and back.
-/

namespace StaticSemantics

/-! ## What declarations store -/

namespace TypeDecl

def classLinks (d : TypeDecl) : ClassLinks where
  superType := d.superType
  subclasses := (d.class?.map ClassInfo.subclasses).getD []

def interfaceLinks (d : TypeDecl) : InterfaceLinks where
  implements := (d.class?.map ClassInfo.implements).getD []
  implementors := (d.interface?.map InterfaceInfo.implementors).getD []
  supers := (d.interface?.map InterfaceInfo.supers).getD []
  subs := (d.interface?.map InterfaceInfo.subs).getD []

variable (d : TypeDecl)

theorem class?_modifyClass (change : ClassInfo → ClassInfo) :
    (d.modifyClass change).class? = d.class?.map change := by
  cases hk : d.kind <;> simp [modifyClass, class?, hk]

theorem interface?_modifyClass (change : ClassInfo → ClassInfo) :
    (d.modifyClass change).interface? = d.interface? := by
  cases hk : d.kind <;> simp [modifyClass, interface?, hk]

theorem class?_modifyInterface (change : InterfaceInfo → InterfaceInfo) :
    (d.modifyInterface change).class? = d.class? := by
  cases hk : d.kind <;> simp [modifyInterface, class?, hk]

theorem class?_modifyEnum (change : EnumInfo → EnumInfo) :
    (d.modifyEnum change).class? = d.class? := by
  cases hk : d.kind <;> simp [modifyEnum, class?, hk]

theorem interface?_modifyEnum (change : EnumInfo → EnumInfo) :
    (d.modifyEnum change).interface? = d.interface? := by
  cases hk : d.kind <;> simp [modifyEnum, interface?, hk]

theorem superType_modifyClass (change : ClassInfo → ClassInfo) :
    (d.modifyClass change).superType = d.superType := by
  unfold modifyClass
  split <;> rfl

theorem superType_modifyInterface (change : InterfaceInfo → InterfaceInfo) :
    (d.modifyInterface change).superType = d.superType := by
  unfold modifyInterface
  split <;> rfl

theorem superType_modifyEnum (change : EnumInfo → EnumInfo) :
    (d.modifyEnum change).superType = d.superType := by
  unfold modifyEnum
  split <;> rfl

theorem classLinks_modifyClass_of {change : ClassInfo → ClassInfo}
    (hc : ∀ info, (change info).subclasses = info.subclasses) :
    (d.modifyClass change).classLinks = d.classLinks := by
  unfold classLinks
  rw [class?_modifyClass, superType_modifyClass, Option.map_map]
  simp only [Function.comp_def, hc]

theorem classLinks_modifyInterface (change : InterfaceInfo → InterfaceInfo) :
    (d.modifyInterface change).classLinks = d.classLinks := by
  unfold classLinks
  rw [class?_modifyInterface, superType_modifyInterface]

theorem classLinks_modifyEnum (change : EnumInfo → EnumInfo) :
    (d.modifyEnum change).classLinks = d.classLinks := by
  unfold classLinks
  rw [class?_modifyEnum, superType_modifyEnum]

theorem interfaceLinks_modifyClass_of {change : ClassInfo → ClassInfo}
    (hc : ∀ info, (change info).implements = info.implements) :
    (d.modifyClass change).interfaceLinks = d.interfaceLinks := by
  unfold interfaceLinks
  rw [class?_modifyClass, interface?_modifyClass, Option.map_map]
  simp only [Function.comp_def, hc]

theorem interfaceLinks_modifyEnum (change : EnumInfo → EnumInfo) :
    (d.modifyEnum change).interfaceLinks = d.interfaceLinks := by
  unfold interfaceLinks
  rw [class?_modifyEnum, interface?_modifyEnum]

end TypeDecl

/-- The edit may put a type that there is already below another one. -/
def Edit.movesType : Edit → Bool
  | setSuperType .. | extendClass .. => true
  | _ => false

namespace SymbolTable

variable {w w' : SymbolTable} {cls base interface : TypeId}

def classLinks (w : SymbolTable) (t : TypeId) : ClassLinks := (w.type t).classLinks

def interfaceLinks (w : SymbolTable) (t : TypeId) : InterfaceLinks := (w.type t).interfaceLinks

/-- What types store about each other. -/
def relationView : View (ClassLinks × InterfaceLinks) Unit where
  type d := (d.classLinks, d.interfaceLinks)
  members _ := ()
  type_statics _ _ := rfl
  type_definedIn _ _ := rfl
  type_visibility _ _ := rfl
  type_modifyEnum d change := by rw [d.classLinks_modifyEnum, d.interfaceLinks_modifyEnum]
  members_names _ _ := rfl
  members_setOperator _ _ _ := rfl

/-- What is read of a type after a change to one, if the change leaves alone what is read of an id
that has not been given out. -/
theorem read_modifyType {α : Type} (read : TypeDecl → α) (w : SymbolTable) (t u : TypeId)
    {change : TypeDecl → TypeDecl} (hc : read (change default) = read default) :
    read ((w.modifyType t change).type u) =
      if u = t then read (change (w.type u)) else read (w.type u) := by
  rw [type, modifyType, Arena.get_modify, type]
  by_cases hu : u = t
  · subst hu
    by_cases ht : w.types.Has u
    · rw [if_pos ⟨rfl, ht⟩, if_pos rfl]
    · rw [if_neg fun h => ht h.2, if_pos rfl, Arena.get_of_not_has ht, hc]
  · rw [if_neg fun h => hu h.1.symm, if_neg hu]

theorem class?_of_modifyClass (w : SymbolTable) (t u : TypeId)
    (change : ClassInfo → ClassInfo) :
    ((w.modifyType t (TypeDecl.modifyClass change)).type u).class? =
      if u = t then (w.type u).class?.map change else (w.type u).class? := by
  rw [read_modifyType TypeDecl.class? w t u rfl, TypeDecl.class?_modifyClass]

theorem interface?_of_modifyClass (w : SymbolTable) (t u : TypeId)
    (change : ClassInfo → ClassInfo) :
    ((w.modifyType t (TypeDecl.modifyClass change)).type u).interface? =
      (w.type u).interface? := by
  rw [read_modifyType TypeDecl.interface? w t u rfl, TypeDecl.interface?_modifyClass, ite_id]

theorem class?_of_modifyInterface (w : SymbolTable) (t u : TypeId)
    (change : InterfaceInfo → InterfaceInfo) :
    ((w.modifyType t (TypeDecl.modifyInterface change)).type u).class? = (w.type u).class? := by
  rw [read_modifyType TypeDecl.class? w t u rfl, TypeDecl.class?_modifyInterface, ite_id]

theorem interface?_of_modifyInterface (w : SymbolTable) (t u : TypeId)
    (change : InterfaceInfo → InterfaceInfo) :
    ((w.modifyType t (TypeDecl.modifyInterface change)).type u).interface? =
      if u = t then (w.type u).interface?.map change else (w.type u).interface? := by
  rw [read_modifyType TypeDecl.interface? w t u rfl, interface?_modifyInterface]

/-! ## Moving a class -/

theorem classLinks_detachSubclass (w : SymbolTable) (cls t : TypeId) :
    (w.detachSubclass cls).classLinks t =
      { w.classLinks t with subclasses := ClassLinks.kept w.classLinks cls t } := by
  unfold detachSubclass ClassLinks.kept
  cases hs : (w.type cls).superType with
  | none => simp [classLinks, TypeDecl.classLinks, hs]
  | some old =>
      rw [classLinks, read_modifyType TypeDecl.classLinks w old t rfl]
      by_cases ht : t = old
      · subst ht
        simp only [classLinks, TypeDecl.classLinks, hs, if_true, TypeDecl.class?_modifyClass,
          TypeDecl.superType_modifyClass]
        cases (w.type t).class? <;> rfl
      · simp [classLinks, TypeDecl.classLinks, hs, ht, Ne.symm ht]

theorem classLinks_setSuperType (ht : w.types.Has cls) (base t : TypeId) :
    (w.setSuperType cls base).classLinks t =
      { w.classLinks t with
        superType := if t = cls then some base else (w.classLinks t).superType } := by
  rw [classLinks, type_setSuperType]
  by_cases htc : t = cls
  · subst htc
    rw [if_pos ⟨rfl, ht⟩, if_pos rfl]
    rfl
  · rw [if_neg fun h => htc h.1.symm, if_neg htc]
    rfl

theorem classLinks_addSubclass (hb : (w.type base).isClass) (cls t : TypeId) :
    (w.modifyType base (TypeDecl.modifyClass fun info =>
      { info with subclasses := info.subclasses ++ [cls] })).classLinks t =
      { w.classLinks t with
        subclasses := if t = base then (w.classLinks t).subclasses ++ [cls]
          else (w.classLinks t).subclasses } := by
  rw [classLinks, read_modifyType TypeDecl.classLinks w base t rfl]
  by_cases ht : t = base
  · subst ht
    obtain ⟨info, hk⟩ := exists_of_isClass hb
    simp [classLinks, TypeDecl.classLinks, TypeDecl.class?_modifyClass,
      TypeDecl.superType_modifyClass, TypeDecl.class?_eq_some.mpr hk]
  · rw [if_neg ht, if_neg ht]
    rfl

/-- A class that is extended is moved below the base. -/
theorem classLinks_extendClass (hw : w.extendClass cls base = (.ok (), w')) :
    w'.classLinks = ClassLinks.move w.classLinks cls base := by
  obtain ⟨hc, ⟨info, hb, _⟩, _, rfl⟩ := extendClass_eq_ok hw
  obtain ⟨houtline, hsize⟩ := SameOutlines.detachSubclass (w := w) cls
  have hcls : (w.detachSubclass cls).types.Has cls := by
    unfold Arena.Has
    rw [hsize]
    exact has_of_isClass hc
  have hbase : ((w.detachSubclass cls).type base).isClass := by
    have hb : (w.type base).isClass := by simp [TypeDecl.isClass, TypeDecl.class?_eq_some.mp hb]
    rw [← TypeDecl.isClass_outline] at hb ⊢
    exact (congrArg Outline.isClass (congrFun houtline base)).trans hb
  have hbase' : (((w.detachSubclass cls).setSuperType cls base).type base).isClass := by
    rw [type_setSuperType]
    split <;> exact hbase
  funext t
  rw [classLinks_addSubclass hbase', classLinks_setSuperType hcls, classLinks_detachSubclass]
  rfl

theorem interfaceLinks_setSuperType (w : SymbolTable) (t s : TypeId) :
    (w.setSuperType t s).interfaceLinks = w.interfaceLinks := by
  funext u
  rw [interfaceLinks, type_setSuperType]
  split <;> rfl

theorem interfaceLinks_modifyClass_of (w : SymbolTable) (t : TypeId)
    {change : ClassInfo → ClassInfo} (hc : ∀ info, (change info).implements = info.implements) :
    (w.modifyType t (TypeDecl.modifyClass change)).interfaceLinks = w.interfaceLinks := by
  funext u
  rw [interfaceLinks, read_modifyType TypeDecl.interfaceLinks w t u rfl,
    TypeDecl.interfaceLinks_modifyClass_of _ hc, ite_id]
  rfl

theorem interfaceLinks_extendClass (hw : w.extendClass cls base = (.ok (), w')) :
    w'.interfaceLinks = w.interfaceLinks := by
  obtain ⟨_, _, _, rfl⟩ := extendClass_eq_ok hw
  refine Eq.trans (interfaceLinks_modifyClass_of _ base fun _ => rfl) ?_
  rw [interfaceLinks_setSuperType]
  unfold detachSubclass
  split
  · exact interfaceLinks_modifyClass_of w _ fun _ => rfl
  · rfl

/-! ## Relating interfaces -/

theorem classLinks_modifyClass_of (w : SymbolTable) (t : TypeId)
    {change : ClassInfo → ClassInfo} (hc : ∀ info, (change info).subclasses = info.subclasses) :
    (w.modifyType t (TypeDecl.modifyClass change)).classLinks = w.classLinks := by
  funext u
  rw [classLinks, read_modifyType TypeDecl.classLinks w t u rfl,
    TypeDecl.classLinks_modifyClass_of _ hc, ite_id]
  rfl

theorem classLinks_modifyInterface (w : SymbolTable) (t : TypeId)
    (change : InterfaceInfo → InterfaceInfo) :
    (w.modifyType t (TypeDecl.modifyInterface change)).classLinks = w.classLinks := by
  funext u
  rw [classLinks, read_modifyType TypeDecl.classLinks w t u rfl,
    TypeDecl.classLinks_modifyInterface, ite_id]
  rfl

theorem interfaceLinks_implement (hw : w.implement cls interface = (.ok (), w')) :
    w'.interfaceLinks = w.interfaceLinks ∨
      (interface ∉ (w.interfaceLinks cls).implements ∧
        w'.interfaceLinks = InterfaceLinks.implement w.interfaceLinks cls interface) := by
  obtain ⟨hi, info, hc, ⟨_, rfl⟩ | ⟨hnew, rfl⟩⟩ := implement_eq_ok hw
  · exact .inl rfl
  · obtain ⟨iinfo, hk⟩ := exists_of_isInterface hi
    have hi := TypeDecl.interface?_eq_some.mpr hk
    refine .inr ⟨by simpa [interfaceLinks, TypeDecl.interfaceLinks, hc] using hnew, ?_⟩
    funext t
    unfold interfaceLinks TypeDecl.interfaceLinks InterfaceLinks.implement
    rw [class?_of_modifyInterface, class?_of_modifyClass, interface?_of_modifyInterface,
      interface?_of_modifyClass]
    by_cases hti : t = interface
    · have htc : t ≠ cls := by
        intro h
        rw [hti] at h
        rw [h, TypeDecl.class?_eq_some.mp hc] at hk
        cases hk
      subst hti
      simp [htc, hi]
    · by_cases htc : t = cls
      · subst htc
        simp [hti, hc]
      · simp [hti, htc]

theorem interfaceLinks_linkInterfaces (hi : (w.type interface).isInterface)
    (hb : (w.type base).isInterface) :
    (w.linkInterfaces interface base).interfaceLinks =
      InterfaceLinks.link w.interfaceLinks interface base := by
  obtain ⟨info, hk⟩ := exists_of_isInterface hi
  obtain ⟨binfo, hbk⟩ := exists_of_isInterface hb
  have hi := TypeDecl.interface?_eq_some.mpr hk
  have hb := TypeDecl.interface?_eq_some.mpr hbk
  funext t
  unfold interfaceLinks TypeDecl.interfaceLinks InterfaceLinks.link linkInterfaces
  simp only [class?_of_modifyInterface, interface?_of_modifyInterface]
  by_cases hti : t = interface
  · subst hti
    by_cases htb : t = base
    · subst htb
      simp [hi]
    · simp [htb, hi, hb]
  · by_cases htb : t = base
    · subst htb
      simp [hti, hb]
    · simp [hti, htb]

/-! ## Edits -/

/-- What an edit that moves no type does to the relations that are stored. -/
inductive LinkStep (w w' : SymbolTable) : Prop where
  | same (hc : w'.classLinks = w.classLinks) (hi : w'.interfaceLinks = w.interfaceLinks)
  | added (n : TypeId) (hn : (w.classLinks n).superType = none)
      (hold : ∀ t, t ≠ n → (w'.classLinks t).superType = (w.classLinks t).superType)
      (hsub : ∀ t, (w'.classLinks t).subclasses = (w.classLinks t).subclasses)
      (hi : w'.interfaceLinks = w.interfaceLinks)
  | implemented (cls i : TypeId) (hnew : i ∉ (w.interfaceLinks cls).implements)
      (hc : w'.classLinks = w.classLinks)
      (hi : w'.interfaceLinks = InterfaceLinks.implement w.interfaceLinks cls i)
  | linked (j i : TypeId) (hc : w'.classLinks = w.classLinks)
      (hi : w'.interfaceLinks = InterfaceLinks.link w.interfaceLinks j i)

namespace LinkStep

theorem of_same (h : relationView.Same w w') : LinkStep w w' :=
  .same (funext fun t => congrArg Prod.fst (h.type t))
    (funext fun t => congrArg Prod.snd (h.type t))

/-- A new type stores nothing but its super type, as an id does that has not been given out. -/
theorem push {d : TypeDecl} (hw : w'.types = w.types.push d)
    (hc : d.classLinks.subclasses = []) (hi : d.interfaceLinks = {}) : LinkStep w w' := by
  have hnext : w.type w.types.next = default := Arena.get_of_not_has w.types.not_has_next
  have htype : ∀ t, w'.type t = if t = w.types.next then d else w.type t := by
    intro t
    rw [type, hw, Arena.get_push]
    rfl
  refine .added w.types.next (by rw [classLinks, hnext]; rfl) (fun t ht => ?_) (fun t => ?_) ?_
  · rw [classLinks, htype, if_neg ht]
    rfl
  · rw [classLinks, classLinks, htype]
    split
    · rename_i ht
      rw [hc, ht, hnext]
      rfl
    · rfl
  · funext t
    rw [interfaceLinks, interfaceLinks, htype]
    split
    · rename_i ht
      rw [hi, ht, hnext]
      rfl
    · rfl

theorem addNullable (t : TypeId) : LinkStep w (w.addNullable t).2 := by
  rcases w.addNullable_cases t with ⟨_, hw⟩ | ⟨u, _, _, hw⟩ | ⟨_, _, hw⟩
  · exact hw ▸ .same rfl rfl
  · exact hw ▸ .same rfl rfl
  · exact hw ▸ .push rfl rfl rfl

theorem addTuple (elements : List TypeId) : LinkStep w (w.addTuple elements).2 := by
  rcases w.addTuple_cases elements with ⟨u, _, hw⟩ | ⟨_, hw⟩
  · exact hw ▸ .same rfl rfl
  · exact hw ▸ .push rfl rfl rfl

theorem implement (hw : w.implement cls interface = (.ok (), w')) : LinkStep w w' := by
  have hc : w'.classLinks = w.classLinks := by
    obtain ⟨_, _, _, ⟨_, rfl⟩ | ⟨_, rfl⟩⟩ := implement_eq_ok hw
    · rfl
    · rw [classLinks_modifyInterface]
      exact classLinks_modifyClass_of w cls fun _ => rfl
  rcases interfaceLinks_implement hw with hi | ⟨hnew, hi⟩
  · exact .same hc hi
  · exact .implemented cls interface hnew hc hi

theorem extendInterface {problems : List SymbolError}
    (hw : w.extendInterface interface base = (.ok problems, w')) : LinkStep w w' := by
  obtain ⟨hi, hb, ⟨_, _, rfl⟩ | ⟨_, hr⟩⟩ := extendInterface_eq_ok hw
  · exact .same rfl rfl
  · -- copying members does not touch the types
    have htypes : w'.types = (w.linkInterfaces interface base).types := by
      rcases hr with hr | ⟨d, e, _, _, hr⟩
      · rw [hr]
      · rw [hr]
        rfl
    have htype : w'.type = (w.linkInterfaces interface base).type := by
      funext t
      rw [type, htypes]
      rfl
    have hclass : w'.classLinks = (w.linkInterfaces interface base).classLinks := by
      funext t
      rw [classLinks, htype]
      rfl
    have hinterface : w'.interfaceLinks = (w.linkInterfaces interface base).interfaceLinks := by
      funext t
      rw [interfaceLinks, htype]
      rfl
    refine .linked interface base ?_ (hinterface.trans (interfaceLinks_linkInterfaces hi hb))
    rw [hclass, linkInterfaces, classLinks_modifyInterface, classLinks_modifyInterface]

theorem apply {e : Edit} (he : e.movesType = false) : LinkStep w (w.apply e) := by
  have self : LinkStep w w := .same rfl rfl
  cases e with
  | setSuperType t s | extendClass cls base => cases he
  | addClass name isSealed | addStruct name | addEnum name isFlags | addInterface name =>
      exact .push rfl rfl rfl
  | addNullable t => exact .addNullable t
  | addTuple elements => exact .addTuple elements
  | implement cls interface =>
      exact settled_induction (fun _ => implement_refused) self fun _ w' hw => .implement hw
  | extendInterface interface base =>
      exact settled_induction (fun _ => extendInterface_refused) self
        fun _ w' hw => .extendInterface hw
  | setTypeVisibility _ _ | setEnumMember _ _ _ | declareEnumHelpers _ | addOperator _ _ _
  | addModule _ | setRoot _ _ | addAlias _ _ | setAliasTarget _ _ | addVariable _ _ _
  | setInitial _ _ | addProperty _ _ | addMethod _ _ | addSignature _ | setAccessors _ _ _
  | setSlotVisibility _ _ | setMethodFlags _ _ | override _ _ | define _ _ _ | bind _ _ _
  | intern _ | addFrame _ | addWithFrame _ | importModule _ _ | capture _ _ | attachFrame _ _ =>
      exact .of_same (.apply rfl)

theorem follow (h : LinkStep w w') {last : TypeId → Option TypeId}
    (hl : ClassLinks.Follow w.classLinks last) : ClassLinks.Follow w'.classLinks last := by
  cases h with
  | same hc hi | implemented cls i hnew hc hi | linked j i hc hi =>
      rw [hc]
      exact hl
  | added n hn hold hsub hi => exact hl.add hn hold hsub

theorem agree (h : LinkStep w w') (ha : InterfaceLinks.Agree w.interfaceLinks) :
    InterfaceLinks.Agree w'.interfaceLinks := by
  cases h with
  | same hc hi | added n hn hold hsub hi =>
      rw [hi]
      exact ha
  | implemented cls i hnew hc hi =>
      rw [hi]
      exact ha.implement hnew
  | linked j i hc hi =>
      rw [hi]
      exact ha.link j i

end LinkStep

/-- No edit makes the two sides of a relation between interfaces differ. -/
theorem agree_apply (h : InterfaceLinks.Agree w.interfaceLinks) (e : Edit) :
    InterfaceLinks.Agree (w.apply e).interfaceLinks := by
  cases he : e.movesType with
  | false => exact (LinkStep.apply he).agree h
  | true =>
      cases e with
      | setSuperType t s =>
          rw [apply, interfaceLinks_setSuperType]
          exact h
      | extendClass cls base =>
          refine settled_induction (P := fun w => InterfaceLinks.Agree w.interfaceLinks)
            (fun _ => extendClass_refused) h fun _ w' hw => ?_
          rw [interfaceLinks_extendClass hw]
          exact h
      | _ => cases he

/-- Edits that move no type leave the classes where they were last put. -/
theorem follow_edited {allowed : Edit → Bool} (ha : ∀ e, allowed e → e.movesType = false)
    (he : Edited allowed w w') {last : TypeId → Option TypeId}
    (h : ClassLinks.Follow w.classLinks last) : ClassLinks.Follow w'.classLinks last := by
  induction he with
  | refl => exact h
  | step e _ _ hal ih => exact (LinkStep.apply (ha e hal)).follow ih

theorem agree_edited {allowed : Edit → Bool} (he : Edited allowed w w')
    (h : InterfaceLinks.Agree w.interfaceLinks) : InterfaceLinks.Agree w'.interfaceLinks := by
  induction he with
  | refl => exact h
  | step e _ _ _ ih => exact agree_apply ih e

/-- At first no type has relatives other than its super type. -/
private theorem initial_links (i : Interner) (t : TypeId) :
    ((initial i).classLinks t).subclasses = [] ∧ (initial i).interfaceLinks t = {} := by
  by_cases ht : t.index < (initial i).types.size
  · have h := initial_induction (P := fun w => ∀ j < w.types.size,
      (w.classLinks ⟨j⟩).subclasses = [] ∧ w.interfaceLinks ⟨j⟩ = {}) (fun _ _ _ h => h)
      (by decide +kernel) i
    exact h t.index ht
  · rw [classLinks, interfaceLinks, type, Arena.get_of_not_has ht]
    exact ⟨rfl, rfl⟩

theorem initial_follow (i : Interner) :
    ClassLinks.Follow (initial i).classLinks fun _ => none := by
  refine ⟨fun b => ?_, fun b c => ?_, fun b c h => ?_⟩
  · rw [(initial_links i b).1]
    exact List.nodup_nil
  · rw [(initial_links i b).1]
    exact iff_of_false List.not_mem_nil nofun
  · cases h

theorem initial_agree (i : Interner) : InterfaceLinks.Agree (initial i).interfaceLinks := by
  refine ⟨fun c k => ?_, fun k j h => ?_, fun t => ?_⟩
  · rw [(initial_links i k).2, (initial_links i c).2]
    exact iff_of_false List.not_mem_nil List.not_mem_nil
  · rw [(initial_links i k).2] at h
    cases h
  · rw [(initial_links i t).2]
    exact ⟨List.nodup_nil, List.nodup_nil, List.nodup_nil, List.nodup_nil⟩

/-- The interfaces that a class implements. -/
def implemented (w : SymbolTable) (t : TypeId) : List TypeId :=
  ((w.type t).class?.map ClassInfo.implements).getD []

/-- Classes and interfaces list each other. -/
structure InterfacesLinked (w : SymbolTable) : Prop where
  implementors : ∀ c i, c ∈ w.implementors i ↔ i ∈ w.implemented c
  superInterfaces : ∀ i j, j ∈ w.subInterfaces i → i ∈ w.superInterfaces j
  nodup : ∀ t, (w.implemented t).Nodup ∧ (w.implementors t).Nodup ∧
    (w.superInterfaces t).Nodup ∧ (w.subInterfaces t).Nodup

theorem superType?_of_given (hc : (w.type cls).isClass) (hs : (w.type cls).superType = some base) :
    w.superType? cls = some base := by
  obtain ⟨info, hk⟩ := exists_of_isClass hc
  simp [superType?, withoutNull_of_isClass hc, TypeDecl.isAny, hk, hs]

end SymbolTable

/-! ## Sessions -/

namespace Session

open SymbolTable (InterfacesLinked)

/-- The base that an operation puts a class below. -/
def newBase? (s : Session) (c : TypeId) : Operation → Option TypeId
  | .edit (.extendClass cls base) =>
    if c = cls ∧ (s.table.extendClass cls base).1.isOk then some base else none
  | _ => none

/-- The base of the last successful extension of a class among the operations. -/
def lastBase? (c : TypeId) : Session → List Operation → Option TypeId
  | _, [] => none
  | s, op :: ops => (lastBase? c (s.perform op) ops).or (s.newBase? c op)

variable {s : Session}

theorem extendClass_follow {last : TypeId → Option TypeId}
    (hl : ClassLinks.Follow s.table.classLinks last) (cls base : TypeId) :
    ClassLinks.Follow (s.perform (.edit (.extendClass cls base))).table.classLinks
      fun c => (s.newBase? c (.edit (.extendClass cls base))).or (last c) := by
  have htable : (s.perform (.edit (.extendClass cls base))).table =
      (s.table.extendClass cls base).2 := rfl
  simp only [htable, newBase?]
  rcases hx : s.table.extendClass cls base with ⟨e | ⟨⟩, w'⟩
  · have hnone : ∀ c, ¬ (c = cls ∧ (Except.error e : Except _ Unit).isOk) := nofun
    have hsame : w' = s.table := by
      simpa [hx] using SymbolTable.extendClass_refused (w := s.table) (congrArg Prod.fst hx)
    simp only [hnone, if_false, Option.none_or, hsame]
    exact hl
  · have hlast : (fun c => (if c = cls ∧ (Except.ok () : Except HierarchyError _).isOk then
        some base else none).or (last c)) = fun c => if c = cls then some base else last c := by
      funext c
      by_cases hc : c = cls <;> simp [hc, Except.isOk, Except.toBool]
    rw [hlast, SymbolTable.classLinks_extendClass hx]
    exact hl.move cls base

theorem perform_follow (h : s.workspace.Closed) {op : Operation} (hc : s.table.Covers op.ids)
    (hop : op.setsSuperType = false) {last : TypeId → Option TypeId}
    (hl : ClassLinks.Follow s.table.classLinks last) :
    ClassLinks.Follow (s.perform op).table.classLinks
      fun c => (s.newBase? c op).or (last c) := by
  cases op with
  | edit e =>
      cases he : e.movesType with
      | false =>
          have hnone : ∀ c, s.newBase? c (.edit e) = none := by
            intro c
            cases e <;> first | rfl | cases he
          simp only [hnone, Option.none_or]
          exact (SymbolTable.LinkStep.apply he).follow hl
      | true =>
          cases e with
          | setSuperType t u => cases hop
          | extendClass cls base =>
              exact extendClass_follow hl cls base
          | _ => cases he
  | enter | leave | query | takeProblems =>
      refine SymbolTable.follow_edited (fun e he => ?_) (perform_inPassing h hc nofun) hl
      cases e <;> first | rfl | cases he

theorem performAll_follow (h : s.workspace.Closed) {ops : List Operation}
    (ha : s.Admits (fun _ => true) ops) (hops : ∀ op ∈ ops, op.setsSuperType = false)
    {last : TypeId → Option TypeId} (hl : ClassLinks.Follow s.table.classLinks last) :
    ClassLinks.Follow (s.performAll ops).table.classLinks
      fun c => (lastBase? c s ops).or (last c) := by
  induction ops generalizing s last with
  | nil => exact hl
  | cons op ops ih =>
      obtain ⟨hc, _, ha⟩ := ha
      have hstep := perform_follow h hc (hops op List.mem_cons_self) hl
      have hrest : ∀ o ∈ ops, o.setsSuperType = false := fun o ho =>
        hops o (List.mem_cons_of_mem op ho)
      have hrun := ih (perform_closed h hc) ha hrest hstep
      simp only [lastBase?, Option.or_assoc]
      exact hrun

theorem start_follow (reporting verbose : Bool) (interner : Interner) :
    ClassLinks.Follow (start (.initial interner) reporting verbose).table.classLinks
      fun _ => none := by
  rw [table_start]
  exact SymbolTable.initial_follow interner

theorem Reachable.interfacesLinked {allowed : Operation → Bool} (h : Reachable allowed s) :
    s.table.InterfacesLinked := by
  obtain ⟨i, he⟩ := h.edited_initial
  obtain ⟨implementors, supers, nodup⟩ := SymbolTable.agree_edited he (SymbolTable.initial_agree i)
  exact ⟨implementors, supers, nodup⟩

/-- A refused edit changes nothing in a session. -/
theorem perform_of_apply_eq {e : Edit} (h : s.table.apply e = s.table) :
    s.perform (.edit e) = s := by
  rw [perform, h]
  rfl

/-- What types store about each other agrees after any operations. A class is listed once by the
base that it was last put below, and by no other, unless a super type was set by force; classes and
interfaces list each other; and an operation that is refused changes nothing. -/
theorem backLinks_of_performAll (reporting verbose : Bool) (interner : Interner)
    (ops : List Operation)
    (h : Session.Admits (fun _ => true) (.start (.initial interner) reporting verbose) ops) :
    let start : Session := .start (.initial interner) reporting verbose
    let s := start.performAll ops
    ((∀ op ∈ ops, op.setsSuperType = false) →
      ∀ b c, (s.table.type b).isClass → (s.table.type c).isClass →
        (s.table.subclasses b).count c ≤ 1 ∧
        (c ∈ s.table.subclasses b ↔ lastBase? c start ops = some b) ∧
        (lastBase? c start ops = some b → s.table.superType? c = some b)) ∧
    s.table.InterfacesLinked ∧
    (∀ cls base e, (s.table.extendClass cls base).1 = .error e →
      s.perform (.edit (.extendClass cls base)) = s) ∧
    (∀ cls i e, (s.table.implement cls i).1 = .error e →
      s.perform (.edit (.implement cls i)) = s) ∧
    ∀ j i e, (s.table.extendInterface j i).1 = .error e →
      s.perform (.edit (.extendInterface j i)) = s := by
  intro start s
  have hfresh : Reachable (fun _ => true) start := .fresh reporting verbose interner
  refine ⟨fun hops b c hb hc => ?_, (hfresh.performAll h).interfacesLinked, ?_, ?_, ?_⟩
  · have hl : ClassLinks.Follow s.table.classLinks fun c => (lastBase? c start ops).or none :=
      performAll_follow hfresh.closed h hops (start_follow reporting verbose interner)
    simp only [Option.or_none] at hl
    refine ⟨List.nodup_iff_count_le_one.mp (hl.nodup b) c, hl.mem b c, fun hlast => ?_⟩
    exact SymbolTable.superType?_of_given hc (hl.superType b c hlast)
  · intro cls base e he
    exact perform_of_apply_eq (SymbolTable.extendClass_refused he)
  · intro cls i e he
    exact perform_of_apply_eq (SymbolTable.implement_refused he)
  · intro j i e he
    exact perform_of_apply_eq (SymbolTable.extendInterface_refused he)

/-- A class is put below one class, then below another one, and below the first again, after which
it cannot be put below itself. It implements an interface that is then extended. -/
def sampleMoves : List Operation :=
  [.edit (.addClass "Shape" false), .edit (.addClass "Solid" false), .edit (.addClass "Cube" false),
    .edit (.extendClass ⟨22⟩ ⟨20⟩), .edit (.extendClass ⟨22⟩ ⟨21⟩), .edit (.extendClass ⟨22⟩ ⟨20⟩),
    .edit (.extendClass ⟨22⟩ ⟨22⟩), .edit (.addInterface "Drawn"), .edit (.addInterface "Printed"),
    .edit (.implement ⟨22⟩ ⟨23⟩), .edit (.implement ⟨22⟩ ⟨23⟩), .edit (.extendInterface ⟨24⟩ ⟨23⟩)]

theorem backLinks_sampleMoves :
    let s := performAll {} sampleMoves
    Session.Admits (fun _ => true) {} sampleMoves ∧
      (∀ op ∈ sampleMoves, op.setsSuperType = false) ∧
      lastBase? ⟨22⟩ {} sampleMoves = some ⟨20⟩ ∧ ⟨22⟩ ∈ s.table.subclasses ⟨20⟩ ∧
      ⟨22⟩ ∉ s.table.subclasses ⟨21⟩ ∧ s.table.superType? ⟨22⟩ = some ⟨20⟩ ∧
      ⟨22⟩ ∈ s.table.implementors ⟨23⟩ ∧ ⟨23⟩ ∈ s.table.superInterfaces ⟨24⟩ ∧
      s.perform (.edit (.extendClass ⟨22⟩ ⟨22⟩)) = s := by
  intro s
  have facts : Session.Admits (fun _ => true) {} sampleMoves ∧
      (∀ op ∈ sampleMoves, op.setsSuperType = false) ∧
      (s.table.type ⟨20⟩).isClass ∧ (s.table.type ⟨21⟩).isClass ∧ (s.table.type ⟨22⟩).isClass ∧
      lastBase? ⟨22⟩ {} sampleMoves = some ⟨20⟩ ∧ ⟨23⟩ ∈ s.table.implemented ⟨22⟩ ∧
      ⟨24⟩ ∈ s.table.subInterfaces ⟨23⟩ ∧
      (s.table.extendClass ⟨22⟩ ⟨22⟩).1.isOk = false := by
    decide +kernel
  obtain ⟨h, hops, hshape, hsolid, hcube, hlast, himpl, hsub, hrefused⟩ := facts
  obtain ⟨hclasses, hinterfaces, hextend, _, _⟩ :=
    backLinks_of_performAll true false .counting sampleMoves h
  obtain ⟨_, hmem, hsuper⟩ := hclasses hops ⟨20⟩ ⟨22⟩ hshape hcube
  obtain ⟨_, hother, _⟩ := hclasses hops ⟨21⟩ ⟨22⟩ hsolid hcube
  refine ⟨h, hops, hlast, hmem.mpr hlast, fun hm => ?_, hsuper hlast,
    (hinterfaces.implementors _ _).mpr himpl, hinterfaces.superInterfaces _ _ hsub, ?_⟩
  · have heq := (hother.mp hm).symm.trans hlast
    cases heq
  · cases hx : (s.table.extendClass ⟨22⟩ ⟨22⟩).1 with
    | error e => exact hextend _ _ e hx
    | ok a =>
        rw [hx] at hrefused
        cases hrefused

end Session
end StaticSemantics
