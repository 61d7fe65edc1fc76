import StaticSemantics.Proofs.Closure.Session
import StaticSemantics.Proofs.Hierarchy.Inversion
import StaticSemantics.Proofs.Hierarchy.Order
import StaticSemantics.Proofs.View

/-!
What edits do to the hierarchy. An edit that sets no super type by force leaves all outlines alone,
adds one type, or gives one class or interface new types above it; each keeps the hierarchy layered.
-/

namespace StaticSemantics

open Relation

namespace SymbolTable

/-- What an edit, if it is not forced, does to the hierarchy. -/
inductive HierarchyStep (w w' : SymbolTable) : Prop where
  | same (ho : w'.outline = w.outline) (hs : w'.types.size = w.types.size)
  | added (x : Outline) (ha : x.isAny = false) (hi : x.interfaces = [])
      (ht : ∀ s ∈ x.superType, s = .object) (hn : x.isInterface → x.superType = none)
      (hw : ∀ u ∈ x.wraps?, w.types.Has u) (ho : w'.outline = w.outline.set w.types.next x)
      (hs : w'.types.size = w.types.size + 1)
  | extended (cls base : TypeId) (l : List TypeId) (hc : (w.outline cls).kind = .cls l)
      (hb : (w.type base).isClass) (hr : w.isSubtype base cls = false)
      (ho : w'.outline = w.outline.set cls { kind := .cls l, superType := some base })
      (hs : w'.types.size = w.types.size)
  | implemented (cls interface : TypeId) (l : List TypeId) (hc : (w.outline cls).kind = .cls l)
      (hi : (w.type interface).isInterface)
      (ho : w'.outline =
        w.outline.set cls { w.outline cls with kind := .cls (l ++ [interface]) })
      (hs : w'.types.size = w.types.size)
  | linked (interface base : TypeId) (l l' : List TypeId)
      (hi : (w.outline interface).kind = .interface l) (hb : (w.type base).isInterface)
      (hr : w.isSubtype base interface = false)
      (hl : ∀ u ∈ l', u ∈ l ∨ u = base ∨ u ∈ (w.outline base).interfaces)
      (ho : w'.outline =
        w.outline.set interface { w.outline interface with kind := .interface l' })
      (hs : w'.types.size = w.types.size)

variable {w w' : SymbolTable}

theorem Layered.not_reach (h : w.Layered) {t u : TypeId}
    (hr : w.isSubtype t u = false) : ¬ ReflTransGen w.outline.Above t u := by
  intro htu
  rw [← directSuper_eq_above] at htu
  rw [h.isSubtype_iff_reach.mpr (.inr htu)] at hr
  cases hr

namespace Layered

theorem extended (h : w.Layered) {cls base : TypeId} {l : List TypeId}
    (hc : (w.outline cls).kind = .cls l) (hb : (w.type base).isClass)
    (hr : w.isSubtype base cls = false) :
    (w.outline.set cls { kind := .cls l, superType := some base }).Layered w.types.size := by
  have hl : (w.outline cls).interfaces = l := by simp [Outline.interfaces, hc]
  refine h.replace (.inl ⟨rfl, by simp [Outline.isClass, hc]⟩) ?_ ?_ ?_ ?_
  · intro s hs
    cases hs
    simpa [outline] using hb
  · intro hi
    cases hi
  · exact fun u hu => h.interfaces cls u (hl ▸ hu)
  · rintro b (rfl | hb)
    · exact .inr (h.not_reach hr)
    · exact .inl (.inr (hl ▸ hb))

theorem implemented (h : w.Layered) {cls interface : TypeId} {l : List TypeId}
    (hc : (w.outline cls).kind = .cls l) (hi : (w.type interface).isInterface) :
    (w.outline.set cls { w.outline cls with kind := .cls (l ++ [interface]) }).Layered
      w.types.size := by
  have hl : (w.outline cls).interfaces = l := by simp [Outline.interfaces, hc]
  have hcls : (w.outline cls).isClass := by simp [Outline.isClass, hc]
  have hi : (w.outline interface).isInterface := by simpa [outline] using hi
  obtain ⟨hw, ha, hn⟩ := Outline.of_isClass hcls
  refine h.replace (.inl ⟨rfl, hcls⟩) (h.superType cls) ?_ ?_ ?_
  · intro hi
    cases hi
  · intro u hu
    rcases List.mem_append.mp hu with hu | hu
    · exact h.interfaces cls u (hl ▸ hu)
    · exact List.mem_singleton.mp hu ▸ hi
  · rintro b (rfl | hb)
    · exact .inl (Outlines.above_superType hw ha)
    · rcases List.mem_append.mp hb with hb | hb
      · exact .inl (.inr (hl ▸ hb))
      · refine .inr fun hb' => ?_
        rw [List.mem_singleton.mp hb] at hb'
        rcases h.isInterface_of_reach hi hb' with hk | hk
        · rw [ha] at hk
          cases hk
        · rw [hn] at hk
          cases hk

theorem linked (h : w.Layered) {interface base : TypeId} {l l' : List TypeId}
    (hi : (w.outline interface).kind = .interface l) (hb : (w.type base).isInterface)
    (hr : w.isSubtype base interface = false)
    (hl' : ∀ u ∈ l', u ∈ l ∨ u = base ∨ u ∈ (w.outline base).interfaces) :
    (w.outline.set interface { w.outline interface with kind := .interface l' }).Layered
      w.types.size := by
  have hl : (w.outline interface).interfaces = l := by simp [Outline.interfaces, hi]
  have hint : (w.outline interface).isInterface := by simp [Outline.isInterface, hi]
  have hb : (w.outline base).isInterface := by simpa [outline] using hb
  obtain ⟨hw, ha, _⟩ := Outline.of_isInterface hint
  refine h.replace (.inr ⟨rfl, hint⟩) (h.superType interface) ?_ ?_ ?_
  · exact fun _ => h.interface interface hint
  · intro u hu
    rcases hl' u hu with hu | rfl | hu
    · exact h.interfaces interface u (hl ▸ hu)
    · exact hb
    · exact h.interfaces base u hu
  · rintro b (rfl | hbl)
    · exact .inl (Outlines.above_superType hw ha)
    · rcases hl' b hbl with hbl | rfl | hbl
      · exact .inl (.inr (hl ▸ hbl))
      · exact .inr (h.not_reach hr)
      · exact .inr fun hb' => h.not_reach hr (.head (.inr hbl) hb')

theorem step (h : w.Layered) (hs : HierarchyStep w w') : w'.Layered := by
  unfold Layered
  cases hs with
  | same ho hs =>
      rw [ho, hs]
      exact h
  | added x ha hi ht hn hw ho hs =>
      rw [ho, hs]
      exact Outlines.Layered.add hi ht hw h ha hn
  | extended cls base l hc hb hr ho hs =>
      rw [ho, hs]
      exact h.extended hc hb hr
  | implemented cls interface l hc hi ho hs =>
      rw [ho, hs]
      exact h.implemented hc hi
  | linked interface base l l' hi hb hr hl ho hs =>
      rw [ho, hs]
      exact h.linked hi hb hr hl

end Layered

end SymbolTable

/-! ## Outlines after a change -/

namespace TypeDecl

variable {d : TypeDecl}

theorem outline_modifyClass {info : ClassInfo} (hk : d.kind = .cls info)
    (change : ClassInfo → ClassInfo) :
    (d.modifyClass change).outline = { d.outline with kind := .cls (change info).implements } := by
  simp [modifyClass, hk, outline, TypeKind.outline]

theorem outline_modifyClass_of {change : ClassInfo → ClassInfo}
    (hc : ∀ info, (change info).implements = info.implements) :
    (d.modifyClass change).outline = d.outline := by
  unfold modifyClass
  split
  · rename_i info hk
    simp [outline, hk, TypeKind.outline, hc info]
  · rfl

theorem outline_modifyInterface {info : InterfaceInfo} (hk : d.kind = .interface info)
    (change : InterfaceInfo → InterfaceInfo) :
    (d.modifyInterface change).outline =
      { d.outline with kind := .interface (change info).supers } := by
  simp [modifyInterface, hk, outline, TypeKind.outline]

theorem outline_modifyInterface_of {change : InterfaceInfo → InterfaceInfo}
    (hc : ∀ info, (change info).supers = info.supers) :
    (d.modifyInterface change).outline = d.outline := by
  unfold modifyInterface
  split
  · rename_i info hk
    simp [outline, hk, TypeKind.outline, hc info]
  · rfl

theorem outline_modifyEnum (change : EnumInfo → EnumInfo) :
    (d.modifyEnum change).outline = d.outline := by
  unfold modifyEnum
  split
  · rename_i info hk
    simp [outline, hk, TypeKind.outline]
  · rfl

end TypeDecl

namespace SymbolTable

variable {w w' : SymbolTable}

/-- The hierarchies are the same. -/
def SameOutlines (w w' : SymbolTable) : Prop :=
  w'.outline = w.outline ∧ w'.types.size = w.types.size

/-- Outlines are a view of the types, and of nothing in the member tables. -/
def outlineView : View Outline Unit where
  type := TypeDecl.outline
  members _ := ()
  type_statics _ _ := rfl
  type_definedIn _ _ := rfl
  type_visibility _ _ := rfl
  type_modifyEnum _ := TypeDecl.outline_modifyEnum
  members_names _ _ := rfl
  members_setOperator _ _ _ := rfl

namespace SameOutlines

theorem of_same (h : outlineView.Same w w') : SameOutlines w w' :=
  ⟨funext h.type, h.typeCount⟩

theorem of_types (h : w'.types = w.types) : SameOutlines w w' := by
  refine ⟨?_, by rw [h]⟩
  funext u
  unfold outline type
  rw [h]

theorem modifyType (t : TypeId) {change : TypeDecl → TypeDecl}
    (hc : ∀ d : TypeDecl, (change d).outline = d.outline) :
    SameOutlines w (w.modifyType t change) :=
  .of_same (.modifyType t hc)

theorem detachSubclass (cls : TypeId) : SameOutlines w (w.detachSubclass cls) := by
  unfold SymbolTable.detachSubclass
  split
  · exact .modifyType _ fun _ => TypeDecl.outline_modifyClass_of fun _ => rfl
  · exact .of_types rfl

end SameOutlines

theorem outline_modifyType {t : TypeId} (ht : w.types.Has t) (change : TypeDecl → TypeDecl) :
    (w.modifyType t change).outline = w.outline.set t (change (w.type t)).outline := by
  funext u
  unfold outline type modifyType Outlines.set
  rw [Arena.get_modify]
  by_cases hu : u = t
  · subst hu
    rw [if_pos ⟨rfl, ht⟩, if_pos rfl]
  · rw [if_neg (fun e => hu e.1.symm), if_neg hu]

theorem outline_push {d : TypeDecl} (h : w'.types = w.types.push d) :
    w'.outline = w.outline.set w.types.next d.outline := by
  funext u
  unfold outline type Outlines.set
  rw [h, Arena.get_push]
  split <;> rfl

/-! ## Edits -/

theorem HierarchyStep.of_same (h : SameOutlines w w') : HierarchyStep w w' := .same h.1 h.2

theorem has_of_isClass {t : TypeId} (h : (w.type t).isClass) : w.types.Has t := by
  by_contra hn
  rw [type, Arena.get_of_not_has hn] at h
  cases h

theorem has_of_isInterface {t : TypeId} (h : (w.type t).isInterface) : w.types.Has t := by
  by_contra hn
  rw [type, Arena.get_of_not_has hn] at h
  cases h

theorem exists_of_isInterface {d : TypeDecl} (h : d.isInterface) :
    ∃ info, d.kind = .interface info := by
  unfold TypeDecl.isInterface at h
  split at h
  · exact ⟨_, ‹_›⟩
  · cases h

theorem exists_of_isClass {d : TypeDecl} (h : d.isClass) : ∃ info, d.kind = .cls info := by
  unfold TypeDecl.isClass at h
  split at h
  · exact ⟨_, ‹_›⟩
  · cases h

theorem outline_setSuperType {t : TypeId} (ht : w.types.Has t) (s : TypeId) :
    (w.setSuperType t s).outline = w.outline.set t { w.outline t with superType := some s } ∧
      (w.setSuperType t s).types.size = w.types.size := by
  have hm := outline_modifyType ht ({ · with superType := some s })
  have hs : (w.modifyType t ({ · with superType := some s })).types.size = w.types.size := by
    simp [modifyType]
  unfold setSuperType
  dsimp only
  split
  · exact ⟨hm, hs⟩
  · exact ⟨hm, hs⟩

namespace HierarchyStep

theorem push {d : TypeDecl} (h : w'.types = w.types.push d) (ha : d.isAny = false)
    (hi : d.outline.interfaces = []) (hs : ∀ s ∈ d.superType, s = .object)
    (hn : d.isInterface → d.superType = none) (hw : ∀ u ∈ d.wraps?, w.types.Has u) :
    HierarchyStep w w' :=
  .added d.outline (by simpa using ha) hi hs (fun h => hn (by simpa using h))
    (by simpa using hw) (outline_push h) (by simp [h])

theorem addNullable {t : TypeId} (ht : w.types.Has t) : HierarchyStep w (w.addNullable t).2 := by
  rcases w.addNullable_cases t with ⟨_, hw⟩ | ⟨u, _, _, hw⟩ | ⟨_, _, hw⟩
  · rw [hw]
    exact .same rfl rfl
  · rw [hw]
    exact .same rfl rfl
  · rw [hw]
    exact .push rfl rfl rfl (by simp) (by simp) (by simpa [TypeDecl.wraps?] using ht)

theorem addTuple (elements : List TypeId) : HierarchyStep w (w.addTuple elements).2 := by
  rcases w.addTuple_cases elements with ⟨u, _, hw⟩ | ⟨_, hw⟩
  · rw [hw]
    exact .same rfl rfl
  · rw [hw]
    exact .push rfl rfl rfl (by simp) (fun h => by cases h) (by simp [TypeDecl.wraps?])

theorem andSame {w'' : SymbolTable} (h : HierarchyStep w w') (h' : SameOutlines w' w'') :
    HierarchyStep w w'' := by
  obtain ⟨ho', hs'⟩ := h'
  cases h with
  | same ho hs => exact .same (ho'.trans ho) (hs'.trans hs)
  | added x ha hi ht hn hw ho hs =>
      exact .added x ha hi ht hn hw (ho'.trans ho) (hs'.trans hs)
  | extended cls base l hc hb hr ho hs =>
      exact .extended cls base l hc hb hr (ho'.trans ho) (hs'.trans hs)
  | implemented cls interface l hc hi ho hs =>
      exact .implemented cls interface l hc hi (ho'.trans ho) (hs'.trans hs)
  | linked interface base l l' hi hb hr hl ho hs =>
      exact .linked interface base l l' hi hb hr hl (ho'.trans ho) (hs'.trans hs)

theorem extendClass {cls base : TypeId} (hw : w.extendClass cls base = (.ok (), w')) :
    HierarchyStep w w' := by
  obtain ⟨hc, ⟨info, hb, _⟩, hr, rfl⟩ := extendClass_eq_ok hw
  have hb : (w.type base).isClass := by simp [TypeDecl.isClass, TypeDecl.class?_eq_some.mp hb]
  obtain ⟨cinfo, hk⟩ := exists_of_isClass hc
  have hk : (w.outline cls).kind = .cls cinfo.implements := by
    simp [outline, TypeDecl.outline, TypeKind.outline, hk]
  obtain ⟨hdo, hds⟩ := SameOutlines.detachSubclass (w := w) cls
  have ht : (w.detachSubclass cls).types.Has cls := by
    unfold Arena.Has
    rw [hds]
    exact has_of_isClass hc
  obtain ⟨hso, hss⟩ := outline_setSuperType ht base
  refine andSame ?_ (.modifyType base fun _ => TypeDecl.outline_modifyClass_of fun _ => rfl)
  refine .extended cls base cinfo.implements hk hb hr ?_ (hss.trans hds)
  rw [hso, hdo]
  simp only [hk]

theorem implement {cls interface : TypeId} (hw : w.implement cls interface = (.ok (), w')) :
    HierarchyStep w w' := by
  obtain ⟨hi, info, hc, ⟨_, rfl⟩ | ⟨_, rfl⟩⟩ := implement_eq_ok hw
  · exact .same rfl rfl
  · have hk := TypeDecl.class?_eq_some.mp hc
    have ht : w.types.Has cls := has_of_isClass (by simp [TypeDecl.isClass, hk])
    refine andSame ?_
      (.modifyType interface fun _ => TypeDecl.outline_modifyInterface_of fun _ => rfl)
    refine .implemented cls interface info.implements ?_ hi ?_ (by simp [modifyType])
    · simp [outline, TypeDecl.outline, TypeKind.outline, hk]
    · rw [outline_modifyType ht, TypeDecl.outline_modifyClass hk]
      rfl

theorem linkInterfaces {interface base : TypeId} (hi : (w.type interface).isInterface)
    (hb : (w.type base).isInterface) (hr : w.isSubtype base interface = false) :
    HierarchyStep w (w.linkInterfaces interface base) := by
  obtain ⟨info, hk⟩ := exists_of_isInterface hi
  obtain ⟨binfo, hbk⟩ := exists_of_isInterface hb
  refine andSame ?_ (.modifyType base fun _ => TypeDecl.outline_modifyInterface_of fun _ => rfl)
  refine .linked interface base info.supers ((base :: binfo.supers).foldl addLast info.supers)
    ?_ hb hr ?_ ?_ (by simp [modifyType])
  · simp [outline, TypeDecl.outline, TypeKind.outline, hk]
  · intro u hu
    rw [mem_foldl_addLast, List.mem_cons] at hu
    rwa [outline, TypeDecl.interfaces_of_interface hbk]
  · rw [outline_modifyType (has_of_isInterface hi), TypeDecl.outline_modifyInterface hk]
    simp [TypeDecl.interface?, hbk, outline]

theorem extendInterface {interface base : TypeId} {problems : List SymbolError}
    (hw : w.extendInterface interface base = (.ok problems, w')) : HierarchyStep w w' := by
  obtain ⟨hi, hb, ⟨_, _, rfl⟩ | ⟨hr, h⟩⟩ := extendInterface_eq_ok hw
  · exact .same rfl rfl
  · have hl := linkInterfaces hi hb (Bool.or_eq_false_iff.mp hr).1
    rcases h with h | ⟨d, e, _, _, h⟩
    · rw [h]
      exact hl
    · rw [h]
      exact hl.andSame (.of_types rfl)

/-- Every edit is a step of the hierarchy, unless it forces a super type. -/
theorem apply {e : Edit} (he : w.Covers e.ids) (ha : !e.setsSuperType) :
    HierarchyStep w (w.apply e) := by
  have self : HierarchyStep w w := .same rfl rfl
  cases e with
  | setSuperType t s => cases ha
  | addClass name isSealed | addStruct name | addEnum name isFlags =>
      exact .push rfl rfl rfl (by simp) (fun h => by cases h) (by simp [TypeDecl.wraps?])
  | addInterface name => exact .push rfl rfl rfl (by simp) (by simp) (by simp [TypeDecl.wraps?])
  | addNullable t => exact addNullable (by simpa [Edit.ids] using he)
  | addTuple elements => exact addTuple elements
  | extendClass cls base =>
      exact settled_induction (fun _ => extendClass_refused) self fun _ w' hw => extendClass hw
  | implement cls interface =>
      exact settled_induction (fun _ => implement_refused) self fun _ w' hw => implement hw
  | extendInterface interface base =>
      exact settled_induction (fun _ => extendInterface_refused) self
        fun _ w' hw => extendInterface hw
  | setTypeVisibility _ _ | setEnumMember _ _ _ | declareEnumHelpers _ | addOperator _ _ _
  | addModule _ | setRoot _ _ | addAlias _ _ | setAliasTarget _ _ | addVariable _ _ _
  | setInitial _ _ | addProperty _ _ | addMethod _ _ | addSignature _ | setAccessors _ _ _
  | setSlotVisibility _ _ | setMethodFlags _ _ | override _ _ | define _ _ _ | bind _ _ _
  | intern _ | addFrame _ | addWithFrame _ | importModule _ _ | capture _ _ | attachFrame _ _ =>
      exact .of_same (.of_same (.apply rfl))

end HierarchyStep

/-! ## Reachable tables -/

theorem Layered.edited (h : w.Layered) (he : Edited (fun e => !e.setsSuperType) w w') :
    w'.Layered := by
  induction he with
  | refl => exact h
  | step e _ hc ha ih => exact ih.step (.apply hc ha)

/-- In the table that programs start from all types but `Any` and `Object` stand on one level. -/
private def initialRank (t : TypeId) : Nat := if t = .any then 0 else if t = .object then 1 else 2

/-- The table that programs start from, with names numbered as they come. -/
private abbrev counted : SymbolTable := initial .counting

/-- What can be checked of each type in the table that programs start from. -/
private structure InitialOutline (t : TypeId) : Prop where
  wraps : (counted.outline t).wraps? = none
  any : (counted.outline t).isAny = decide (t = .any)
  superType : ∀ s ∈ (counted.outline t).superType.toList, (counted.outline s).isClass
  interface : (counted.outline t).isInterface = false
  interfaces : (counted.outline t).interfaces = []
  rank : ∀ s ∈ (counted.outline.superType? t).toList, initialRank s < initialRank t

private theorem initial_outlines (t : TypeId) (ht : t.index < counted.types.size) :
    InitialOutline t := by
  have h : ∀ i < counted.types.size,
      (counted.outline ⟨i⟩).wraps? = none ∧
        (counted.outline ⟨i⟩).isAny = decide ((⟨i⟩ : TypeId) = .any) ∧
        (∀ s ∈ (counted.outline ⟨i⟩).superType.toList, (counted.outline s).isClass) ∧
        (counted.outline ⟨i⟩).isInterface = false ∧ (counted.outline ⟨i⟩).interfaces = [] ∧
        ∀ s ∈ (counted.outline.superType? ⟨i⟩).toList, initialRank s < initialRank ⟨i⟩ := by
    decide +kernel
  obtain ⟨wraps, any, superType, interface, interfaces, rank⟩ := h t.index ht
  exact ⟨wraps, any, superType, interface, interfaces, rank⟩

private theorem initial_outline_beyond (t : TypeId) (ht : counted.types.size ≤ t.index) :
    counted.outline t = {} := by
  unfold outline type
  rw [Arena.get_of_not_has (Nat.not_lt.mpr ht)]
  rfl

/-- What is checked of the declared types holds of ids beyond them, which read as `Any`. -/
private theorem initial_outline_induction {P : Outline → Prop} (beyond : P {})
    (h : ∀ t, InitialOutline t → P (counted.outline t)) (t : TypeId) : P (counted.outline t) := by
  by_cases ht : t.index < counted.types.size
  · exact h t (initial_outlines t ht)
  · rw [initial_outline_beyond t (Nat.le_of_not_lt ht)]
    exact beyond

private theorem initial_interfaces (t : TypeId) : (counted.outline t).interfaces = [] :=
  initial_outline_induction (P := fun x => x.interfaces = []) rfl (fun _ h => h.interfaces) t

private theorem initial_rank {t u : TypeId} (h : counted.outline.Above t u) :
    initialRank u < initialRank t := by
  rcases h with h | h
  · by_cases ht : t.index < counted.types.size
    · exact (initial_outlines t ht).rank u (Option.mem_toList.mpr h)
    · have hany : (counted.outline t).isAny := by
        rw [initial_outline_beyond t (Nat.le_of_not_lt ht)]
        rfl
      exact absurd (.inl h) (Outlines.not_above_of_isAny hany)
  · rw [initial_interfaces t] at h
    cases h

theorem initial_layered (i : Interner) : (initial i).Layered := by
  refine initial_induction (fun _ _ _ h => h) ?_ i
  refine ⟨by decide +kernel, initial_outline_beyond, ?_, ?_, by decide +kernel, ?_, ?_, ?_, ?_⟩
  · refine initial_outline_induction (P := fun x => ∀ u ∈ x.wraps?, u.index < counted.types.size)
      (by simp [Outline.wraps?]) fun t h => ?_
    simp [h.wraps]
  · intro t ht
    simpa using Bool.eq_iff_iff.mp (initial_outlines t ht).any
  · refine initial_outline_induction
      (P := fun x => ∀ s ∈ x.superType, (counted.outline s).isClass) (by simp) fun t h => ?_
    simpa using h.superType
  · refine initial_outline_induction (P := fun x => x.isInterface → x.superType = none) (by simp)
      fun t h hi => ?_
    rw [h.interface] at hi
    cases hi
  · intro t u hu
    rw [initial_interfaces t] at hu
    cases hu
  · exact acyclic_of_rank initialRank fun t u => initial_rank

end SymbolTable
end StaticSemantics
