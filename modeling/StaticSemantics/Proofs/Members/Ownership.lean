import StaticSemantics.Proofs.Closure.Session
import StaticSemantics.Proofs.Hierarchy.Inversion
import StaticSemantics.Proofs.View

/-!
Types and their member tables. Each member table belongs to one type, each type whose kind has
instance members owns one table, and tables inherit from each other as their types were put below
each other. Every edit keeps it so, also one that sets a super type by force.
-/

namespace StaticSemantics

/-- Types of this kind own a member table. -/
def TypeKind.holdsMembers : TypeKind → Bool
  | .cls _ | .struct | .enum _ | .interface _ | .tuple _ => true
  | .any | .empty | .nothing | .null | .nullable _ => false

/-- What ties a type to member tables. -/
structure TypeLinks where
  superType : Option TypeId
  members : Option MemberTableId
  holdsMembers : Bool

namespace TypeDecl

def links (d : TypeDecl) : TypeLinks := ⟨d.superType, d.members, d.kind.holdsMembers⟩

variable (d : TypeDecl)

theorem links_modifyClass (change : ClassInfo → ClassInfo) :
    (d.modifyClass change).links = d.links := by
  unfold modifyClass
  split
  · rename_i info hk
    simp [links, hk, TypeKind.holdsMembers]
  · rfl

theorem links_modifyEnum (change : EnumInfo → EnumInfo) :
    (d.modifyEnum change).links = d.links := by
  unfold modifyEnum
  split
  · rename_i info hk
    simp [links, hk, TypeKind.holdsMembers]
  · rfl

theorem links_modifyInterface (change : InterfaceInfo → InterfaceInfo) :
    (d.modifyInterface change).links = d.links := by
  unfold modifyInterface
  split
  · rename_i info hk
    simp [links, hk, TypeKind.holdsMembers]
  · rfl

end TypeDecl

/-- What ties a member table to its type and to other tables. -/
def MemberTable.links (m : MemberTable) : TypeId × Option MemberTableId := (m.definedIn, m.inherits)

def linkView : View TypeLinks (TypeId × Option MemberTableId) where
  type := TypeDecl.links
  members := MemberTable.links
  type_statics _ _ := rfl
  type_definedIn _ _ := rfl
  type_visibility _ _ := rfl
  type_modifyEnum := TypeDecl.links_modifyEnum
  members_names _ _ := rfl
  members_setOperator _ _ _ := rfl

namespace SymbolTable

/-- The table that a type inherits members from: that of the super type given for it. -/
def superMembers? (w : SymbolTable) (t : TypeId) : Option MemberTableId :=
  (w.type t).superType.bind fun s => (w.type s).members

/-- Types and member tables belong to each other in pairs. -/
structure Paired (w : SymbolTable) : Prop where
  owner : ∀ t d, (w.type t).members = some d ↔
    w.memberTables.Has d ∧ (w.memberTable d).definedIn = t
  inherits : ∀ t d, (w.type t).members = some d → (w.memberTable d).inherits = w.superMembers? t
  holds : ∀ t, (w.type t).members.isSome = (w.type t).kind.holdsMembers
  any : (w.type .any).members = none

variable {w w' : SymbolTable}

theorem has_of_members {t : TypeId} {d : MemberTableId} (hd : (w.type t).members = some d) :
    w.types.Has t := by
  by_contra hn
  rw [type, Arena.get_of_not_has hn] at hd
  cases hd

/-! ## Reading after a super type is set -/

theorem type_setSuperType (w : SymbolTable) (t s u : TypeId) :
    (w.setSuperType t s).type u =
      if t = u ∧ w.types.Has t then { w.type u with superType := some s } else w.type u := by
  have hm := Arena.get_modify w.types t u ({ · with superType := some s })
  unfold setSuperType
  cases (w.type t).members with
  | none => exact hm
  | some d => exact hm

theorem memberTable_setSuperType (w : SymbolTable) (t s : TypeId) (d : MemberTableId) :
    (w.setSuperType t s).memberTable d =
      if (w.type t).members = some d ∧ w.memberTables.Has d then
        { w.memberTable d with inherits := (w.type s).members }
      else w.memberTable d := by
  unfold setSuperType
  cases (w.type t).members with
  | none => rfl
  | some e =>
      simp only [memberTable, modifyType, modifyMemberTable, Arena.get_modify, Option.some.injEq]
      by_cases he : e = d
      · subst he
        rfl
      · rw [if_neg fun h => he h.1, if_neg fun h => he h.1]

theorem memberTables_size_setSuperType (w : SymbolTable) (t s : TypeId) :
    (w.setSuperType t s).memberTables.size = w.memberTables.size := by
  unfold setSuperType
  cases (w.type t).members with
  | none => rfl
  | some d => exact Arena.size_modify _ _ _

theorem same_linkInterfaces (w : SymbolTable) (interface base : TypeId) :
    linkView.Same w (w.linkInterfaces interface base) :=
  (View.Same.modifyType interface fun d => d.links_modifyInterface _).trans
    (.modifyType base fun d => d.links_modifyInterface _)

theorem links_mergeOperators (source target : MemberTable) :
    (mergeOperators source target).links = target.links := by
  unfold mergeOperators
  induction source.operators generalizing target with
  | nil => rfl
  | cons e l ih =>
      rw [List.foldl_cons, ih]
      dsimp only
      split <;> rfl

namespace Paired

theorem of_eq (h : w.Paired) (ht : w'.types = w.types) (hm : w'.memberTables = w.memberTables) :
    w'.Paired := by
  obtain ⟨types, memberTables, _⟩ := w
  obtain ⟨types', memberTables', _⟩ := w'
  cases ht
  cases hm
  exact ⟨h.owner, h.inherits, h.holds, h.any⟩

theorem same (h : w.Paired) (hs : linkView.Same w w') : w'.Paired := by
  have superType : ∀ t, (w'.type t).superType = (w.type t).superType :=
    fun t => congrArg TypeLinks.superType (hs.type t)
  have members : ∀ t, (w'.type t).members = (w.type t).members :=
    fun t => congrArg TypeLinks.members (hs.type t)
  have kind : ∀ t, (w'.type t).kind.holdsMembers = (w.type t).kind.holdsMembers :=
    fun t => congrArg TypeLinks.holdsMembers (hs.type t)
  have definedIn : ∀ d, (w'.memberTable d).definedIn = (w.memberTable d).definedIn :=
    fun d => congrArg Prod.fst (hs.members d)
  have inherits : ∀ d, (w'.memberTable d).inherits = (w.memberTable d).inherits :=
    fun d => congrArg Prod.snd (hs.members d)
  refine ⟨fun t d => ?_, fun t d hd => ?_, fun t => ?_, by rw [members, h.any]⟩
  · rw [members, definedIn, h.owner, Arena.Has, Arena.Has, hs.memberTableCount]
  · rw [members] at hd
    simp only [inherits, superMembers?, superType, members]
    exact h.inherits t d hd
  · rw [members, kind, h.holds]

theorem members_next (w : SymbolTable) : (w.type w.types.next).members = none := by
  rw [type, Arena.get_of_not_has w.types.not_has_next]
  rfl

/-- Where a new type has been added, the old ones inherit from the same tables as before. -/
theorem superMembers?_push (hc : w.Closed) {x : TypeDecl} (hw : w'.types = w.types.push x)
    {t : TypeId} (ht : t ≠ w.types.next) : w'.superMembers? t = w.superMembers? t := by
  unfold superMembers? type
  rw [hw, Arena.get_push, if_neg ht]
  cases hs : (w.types.get t).superType with
  | none => rfl
  | some s =>
      simp only [Option.bind_some]
      rw [Arena.get_push_of_has (hc.superType_has hs)]

theorem members_of_holds (h : w.Paired) {t : TypeId} (hk : (w.type t).kind.holdsMembers) :
    ∃ d, (w.type t).members = some d := by
  rw [← Option.isSome_iff_exists, h.holds, hk]

/-- A type without members is added. -/
theorem addType (h : w.Paired) (hc : w.Closed) {x : TypeDecl} (hx : x.members = none)
    (hk : x.kind.holdsMembers = false) : (w.addType x).2.Paired := by
  have members : ∀ t, ((w.addType x).2.type t).members = (w.type t).members := by
    intro t
    simp only [SymbolTable.addType, type, Arena.get_push]
    by_cases ht : t = w.types.next
    · subst ht
      rw [if_pos rfl, hx]
      exact (members_next w).symm
    · rw [if_neg ht]
  refine ⟨fun t d => ?_, fun t d hd => ?_, fun t => ?_, by rw [members, h.any]⟩
  · rw [members]
    exact h.owner t d
  · rw [members] at hd
    have ht : t ≠ w.types.next := by
      intro ht
      rw [ht, members_next] at hd
      cases hd
    rw [superMembers?_push hc rfl ht]
    exact h.inherits t d hd
  · simp only [SymbolTable.addType, type, Arena.get_push]
    by_cases ht : t = w.types.next
    · rw [if_pos ht, hx, hk]
      rfl
    · rw [if_neg ht]
      exact h.holds t

/-- A type and its table are added at the ends of their arenas, where they meet no other pair. -/
theorem addTypeWithMembers (h : w.Paired) (hc : w.Closed) {kind : TypeKind}
    (hk : kind.holdsMembers) (name : Option String) {superType : Option TypeId}
    (hs : ∀ s ∈ superType, w.types.Has s) :
    (w.addTypeWithMembers kind name superType).2.Paired := by
  have noOwner : ∀ d, ¬ (w.memberTables.Has d ∧ (w.memberTable d).definedIn = w.types.next) := by
    intro d hd
    rw [← h.owner, members_next] at hd
    cases hd
  refine ⟨fun t d => ?_, fun t d hd => ?_, fun t => ?_, ?_⟩
  · simp only [SymbolTable.addTypeWithMembers, type, memberTable, Arena.get_push, Arena.has_push]
    by_cases ht : t = w.types.next
    · by_cases hd : d = w.memberTables.next
      · simp [ht, hd]
      · simpa [ht, hd, Ne.symm hd, memberTable] using noOwner d
    · by_cases hd : d = w.memberTables.next
      · have hne : ∀ d, (w.type t).members = some d → w.memberTables.Has d :=
          fun d hd => ((h.owner t d).mp hd).1
        have hno : (w.types.get t).members ≠ some w.memberTables.next :=
          fun he => w.memberTables.not_has_next (hne _ he)
        simp [ht, hd, Ne.symm ht, hno]
      · simp only [if_neg ht, hd, false_or]
        exact h.owner t d
  · by_cases ht : t = w.types.next
    · subst ht
      obtain rfl : w.memberTables.next = d := by
        simpa [SymbolTable.addTypeWithMembers, type] using hd
      simp only [superMembers?, SymbolTable.addTypeWithMembers, type, memberTable,
        Arena.get_push_next]
      cases superType with
      | none => rfl
      | some s =>
          simp only [Option.bind_some]
          rw [Arena.get_push_of_has (hs s rfl)]
    · rw [superMembers?_push hc rfl ht]
      simp only [SymbolTable.addTypeWithMembers, type, memberTable, Arena.get_push, if_neg ht]
        at hd ⊢
      have hne : d ≠ w.memberTables.next := by
        intro he
        exact w.memberTables.not_has_next (he ▸ ((h.owner t d).mp hd).1)
      rw [if_neg hne]
      exact h.inherits t d hd
  · simp only [SymbolTable.addTypeWithMembers, type, Arena.get_push]
    by_cases ht : t = w.types.next
    · simp [ht, hk]
    · rw [if_neg ht]
      exact h.holds t
  · have hany : w.types.Has .any := hc.has_supplied (by decide)
    simp only [SymbolTable.addTypeWithMembers, type, Arena.get_push_of_has hany]
    exact h.any

theorem addNullable (h : w.Paired) (hc : w.Closed) (t : TypeId) : (w.addNullable t).2.Paired := by
  rcases w.addNullable_cases t with ⟨_, hw⟩ | ⟨u, _, _, hw⟩ | ⟨_, _, hw⟩
  · rw [hw]
    exact h
  · rw [hw]
    exact h
  · rw [hw]
    exact (h.addType hc (x := { kind := .nullable t }) rfl rfl).of_eq rfl rfl

theorem addTuple (h : w.Paired) (hc : w.Closed) (elements : List TypeId) :
    (w.addTuple elements).2.Paired := by
  rcases w.addTuple_cases elements with ⟨u, _, hw⟩ | ⟨_, hw⟩
  · rw [hw]
    exact h
  · rw [hw]
    have object : ∀ s ∈ some EntityId.object, w.types.Has s := by
      rintro _ ⟨⟩
      exact hc.has_supplied (by decide)
    have hk : (TypeKind.tuple elements).holdsMembers := rfl
    exact (h.addTypeWithMembers hc hk none object).of_eq rfl rfl

/-- The table of the type follows the super type; no other type inherits through a changed link. -/
theorem setSuperType (h : w.Paired) (t s : TypeId) : (w.setSuperType t s).Paired := by
  have members : ∀ u, ((w.setSuperType t s).type u).members = (w.type u).members := by
    intro u
    rw [type_setSuperType]
    split <;> rfl
  refine ⟨fun u d => ?_, fun u d hd => ?_, fun u => ?_, by rw [members, h.any]⟩
  · have definedIn : ((w.setSuperType t s).memberTable d).definedIn =
        (w.memberTable d).definedIn := by
      rw [memberTable_setSuperType]
      split <;> rfl
    rw [members, definedIn, h.owner, Arena.Has, Arena.Has, memberTables_size_setSuperType]
  · rw [members] at hd
    obtain ⟨htab, hown⟩ := (h.owner u d).mp hd
    simp only [superMembers?, members]
    by_cases hu : t = u
    · subst hu
      rw [memberTable_setSuperType, if_pos ⟨hd, htab⟩, type_setSuperType,
        if_pos ⟨rfl, has_of_members hd⟩]
      rfl
    · -- another type owns another table
      have hne : (w.type t).members ≠ some d := by
        intro ht
        exact hu (((h.owner t d).mp ht).2.symm.trans hown)
      rw [memberTable_setSuperType, if_neg fun e => hne e.1, type_setSuperType,
        if_neg fun e => hu e.1]
      exact h.inherits u d hd
  · rw [members, h.holds, type_setSuperType]
    split <;> rfl

theorem extendClass (h : w.Paired) {cls base : TypeId}
    (hw : w.extendClass cls base = (.ok (), w')) : w'.Paired := by
  obtain ⟨_, _, _, rfl⟩ := extendClass_eq_ok hw
  refine same ?_ (.modifyType base fun d => d.links_modifyClass _)
  refine setSuperType ?_ cls base
  unfold detachSubclass
  split
  · exact h.same (.modifyType _ fun d => d.links_modifyClass _)
  · exact h

theorem implement (h : w.Paired) {cls interface : TypeId}
    (hw : w.implement cls interface = (.ok (), w')) : w'.Paired := by
  obtain ⟨_, _, _, ⟨_, rfl⟩ | ⟨_, rfl⟩⟩ := implement_eq_ok hw
  · exact h
  · exact h.same ((View.Same.modifyType cls fun d => d.links_modifyClass _).trans
      (.modifyType interface fun d => d.links_modifyInterface _))

theorem extendInterface (h : w.Paired) {interface base : TypeId} {problems : List SymbolError}
    (hw : w.extendInterface interface base = (.ok problems, w')) : w'.Paired := by
  have linked := same_linkInterfaces w interface base
  obtain ⟨_, _, ⟨_, _, rfl⟩ | ⟨_, rfl | ⟨d, e, _, _, rfl⟩⟩⟩ := extendInterface_eq_ok hw
  · exact h
  · exact h.same linked
  · exact h.same (linked.trans (.modifyMemberTable e fun m => links_mergeOperators _ _))

/-- Every edit keeps types and member tables paired. -/
theorem apply (h : w.Paired) (hc : w.Closed) {e : Edit} (he : w.Covers e.ids) :
    (w.apply e).Paired := by
  have object : ∀ s ∈ some EntityId.object, w.types.Has s := by
    rintro _ ⟨⟩
    exact hc.has_supplied (by decide)
  cases e with
  | addClass name _ | addStruct name | addEnum name _ =>
      exact h.addTypeWithMembers hc rfl (some name) object
  | addInterface name => exact h.addTypeWithMembers hc rfl (some name) (by simp)
  | addNullable t => exact h.addNullable hc t
  | addTuple elements => exact h.addTuple hc elements
  | setSuperType t s => exact h.setSuperType t s
  | extendClass cls base =>
      exact settled_induction (fun _ => extendClass_refused) h fun _ w' hw => h.extendClass hw
  | implement cls interface =>
      exact settled_induction (fun _ => implement_refused) h fun _ w' hw => h.implement hw
  | extendInterface interface base =>
      exact settled_induction (fun _ => extendInterface_refused) h
        fun _ w' hw => h.extendInterface hw
  | setTypeVisibility _ _ | setEnumMember _ _ _ | declareEnumHelpers _ | addOperator _ _ _
  | addModule _ | setRoot _ _ | addAlias _ _ | setAliasTarget _ _ | addVariable _ _ _
  | setInitial _ _ | addProperty _ _ | addMethod _ _ | addSignature _ | setAccessors _ _ _
  | setSlotVisibility _ _ | setMethodFlags _ _ | override _ _ | define _ _ _ | bind _ _ _
  | intern _ | addFrame _ | addWithFrame _ | importModule _ _ | capture _ _ | attachFrame _ _ =>
      exact h.same (.apply rfl)

theorem edited (h : w.Paired) (hc : w.Closed) {allowed : Edit → Bool}
    (he : Edited allowed w w') : w'.Paired := by
  induction he with
  | refl => exact h
  | step e he hcov _ ih => exact ih.apply (hc.edited he).1 hcov

end Paired

/-- What can be checked of each pair in the table that programs start from. -/
private theorem initial_pairs :
    (∀ i < (initial .counting).types.size, ∀ d ∈ ((initial .counting).type ⟨i⟩).members.toList,
      (initial .counting).memberTables.Has d ∧
        ((initial .counting).memberTable d).definedIn = ⟨i⟩ ∧
        ((initial .counting).memberTable d).inherits = (initial .counting).superMembers? ⟨i⟩) ∧
    (∀ i < (initial .counting).types.size,
      ((initial .counting).type ⟨i⟩).members.isSome =
        ((initial .counting).type ⟨i⟩).kind.holdsMembers) ∧
    ∀ j < (initial .counting).memberTables.size,
      ((initial .counting).type ((initial .counting).memberTable ⟨j⟩).definedIn).members =
        some ⟨j⟩ := by
  decide +kernel

theorem initial_paired (i : Interner) : (initial i).Paired := by
  refine initial_induction (fun _ _ _ h => ⟨h.owner, h.inherits, h.holds, h.any⟩) ?_ i
  obtain ⟨types, holds, tables⟩ := initial_pairs
  have check : ∀ t d, ((initial .counting).type t).members = some d →
      (initial .counting).memberTables.Has d ∧ ((initial .counting).memberTable d).definedIn = t ∧
        ((initial .counting).memberTable d).inherits = (initial .counting).superMembers? t :=
    fun t d hd => types t.index (has_of_members hd) d (Option.mem_toList.mpr hd)
  refine ⟨fun t d => ⟨fun hd => ?_, ?_⟩, fun t d hd => (check t d hd).2.2, fun t => ?_,
    by decide +kernel⟩
  · exact ⟨(check t d hd).1, (check t d hd).2.1⟩
  · rintro ⟨hd, rfl⟩
    exact tables d.index hd
  · by_cases ht : (initial .counting).types.Has t
    · exact holds t.index ht
    · rw [type, Arena.get_of_not_has ht]
      rfl

end SymbolTable

theorem Session.Reachable.paired {allowed : Operation → Bool} {s : Session}
    (h : Reachable allowed s) : s.table.Paired := by
  obtain ⟨i, he⟩ := h.edited_initial
  exact (SymbolTable.initial_paired i).edited (SymbolTable.initial_closed i) he

end StaticSemantics
