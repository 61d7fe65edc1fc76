import Mathlib.Data.List.Nodup
import StaticSemantics.Proofs.Closure.Session
import StaticSemantics.Proofs.Hierarchy.Inversion
import StaticSemantics.Proofs.View

/-!
Canonical types. There is one nullable type over a type and one tuple type over a list of elements,
and the tables in which these are looked up list exactly the types that have been declared. Every
edit keeps it so, and none changes what a type is made of: requests for such a type agree however
far apart they are made.
-/

namespace StaticSemantics

/-- What a type is made of, if it is a nullable or a tuple type, and whether it accepts null or any
value. -/
structure Makeup where
  wraps : Option TypeId
  elements : Option (List TypeId)
  acceptsNull : Bool
  isAny : Bool

namespace TypeDecl

def makeup (d : TypeDecl) : Makeup := ⟨d.wraps?, d.elements?, d.acceptsNull, d.isAny⟩

variable {d : TypeDecl}

theorem eq_of_makeup {d' : TypeDecl} (h : d.makeup = d'.makeup) :
    d.wraps? = d'.wraps? ∧ d.elements? = d'.elements? ∧ d.acceptsNull = d'.acceptsNull ∧
      d.isAny = d'.isAny := by
  simpa [makeup] using h

theorem makeup_modifyClass (change : ClassInfo → ClassInfo) :
    (d.modifyClass change).makeup = d.makeup := by
  unfold modifyClass
  split
  · rename_i info hk
    simp [makeup, wraps?, elements?, acceptsNull, isAny, hk]
  · rfl

theorem makeup_modifyEnum (change : EnumInfo → EnumInfo) :
    (d.modifyEnum change).makeup = d.makeup := by
  unfold modifyEnum
  split
  · rename_i info hk
    simp [makeup, wraps?, elements?, acceptsNull, isAny, hk]
  · rfl

theorem makeup_modifyInterface (change : InterfaceInfo → InterfaceInfo) :
    (d.modifyInterface change).makeup = d.makeup := by
  unfold modifyInterface
  split
  · rename_i info hk
    simp [makeup, wraps?, elements?, acceptsNull, isAny, hk]
  · rfl

theorem acceptsNull_of_wraps? {t : TypeId} (h : d.wraps? = some t) : d.acceptsNull := by
  simp [acceptsNull, wraps?_eq_some.mp h]

theorem acceptsNull_of_elements? {l : List TypeId} (h : d.elements? = some l) :
    d.acceptsNull = false := by
  simp [acceptsNull, elements?_eq_some.mp h]

/-- The elements of a tuple type that has so many. -/
def elementsOf? (d : TypeDecl) (n : Nat) : Option (List TypeId) := d.elements?.filter (·.length = n)

theorem elementsOf?_eq_some {n : Nat} {l : List TypeId} :
    d.elementsOf? n = some l ↔ l.length = n ∧ d.elements? = some l := by
  rw [elementsOf?, Option.filter_eq_some_iff, and_comm, decide_eq_true_eq]

theorem wraps?_of_acceptsNull_eq_false (h : d.acceptsNull = false) : d.wraps? = none := by
  cases hw : d.wraps? with
  | none => rfl
  | some t =>
      rw [acceptsNull_of_wraps? hw] at h
      cases h

end TypeDecl

def makeupView : View Makeup Unit where
  type := TypeDecl.makeup
  members _ := ()
  type_statics _ _ := rfl
  type_definedIn _ _ := rfl
  type_visibility _ _ := rfl
  type_modifyEnum _ := TypeDecl.makeup_modifyEnum
  members_names _ _ := rfl
  members_setOperator _ _ _ := rfl

theorem makeupView_blind : makeupView.BlindToRelations :=
  ⟨fun _ _ => rfl, fun _ => TypeDecl.makeup_modifyClass, fun _ => TypeDecl.makeup_modifyInterface,
    fun _ _ => rfl⟩

namespace SymbolTable

/-- What an edit does to nullable and tuple types: nothing, or it adds a type. A new nullable or
tuple type is noted in its table, where there was none like it. -/
inductive InterningStep (w w' : SymbolTable) : Prop where
  | same (h : makeupView.Same w w')
  | added (d : TypeDecl) (types : w'.types = w.types.push d)
      (nullables : w'.nullables = d.wraps?.toList.map (·, w.types.next) ++ w.nullables)
      (tuples : ∀ n, w'.tuplesOf n =
        (d.elementsOf? n).toList.map (·, w.types.next) ++ w.tuplesOf n)
      (wraps : ∀ t ∈ d.wraps?, w.types.Has t ∧ w.acceptsNull t = false ∧ w.nullableOf? t = none)
      (elements : ∀ l ∈ d.elements?, w.tupleOf? l = none)

variable {w w' : SymbolTable} {t u : TypeId}

namespace InterningStep

/-- A type is added that is neither a nullable nor a tuple type. -/
theorem push {d : TypeDecl} (ht : w'.types = w.types.push d) (hn : w'.nullables = w.nullables)
    (hu : w'.tuples = w.tuples) (hw : d.wraps? = none) (he : d.elements? = none) :
    InterningStep w w' := by
  refine .added d ht (by simpa [hw] using hn) (fun n => ?_) (by simp [hw]) (by simp [he])
  simp [TypeDecl.elementsOf?, he, tuplesOf, hu]

theorem addNullable (ht : w.types.Has t) : InterningStep w (w.addNullable t).2 := by
  rcases w.addNullable_cases t with ⟨_, hw⟩ | ⟨u, _, _, hw⟩ | ⟨ha, hn, hw⟩
  · rw [hw]
    exact .same (.refl w)
  · rw [hw]
    exact .same (.refl w)
  · rw [hw]
    refine .added { kind := .nullable t } rfl rfl (fun n => rfl) ?_ (by simp [TypeDecl.elements?])
    rintro _ ⟨⟩
    exact ⟨ht, ha, hn⟩

theorem addTuple (elements : List TypeId) : InterningStep w (w.addTuple elements).2 := by
  rcases w.addTuple_cases elements with ⟨u, _, hw⟩ | ⟨hn, hw⟩
  · rw [hw]
    exact .same (.refl w)
  · rw [hw]
    let d : TypeDecl :=
      { kind := .tuple elements, superType := some .object, members := some w.memberTables.next }
    refine .added d rfl rfl (fun n => ?_) (by simp [d, TypeDecl.wraps?]) ?_
    · rw [tuplesOf_declareTuple]
      by_cases h : elements.length = n <;>
        simp [d, TypeDecl.elementsOf?, TypeDecl.elements?, Option.filter_some, h]
    · rintro _ ⟨⟩
      exact hn

/-- Every edit is such a step. -/
theorem apply {e : Edit} (he : w.Covers e.ids) : InterningStep w (w.apply e) := by
  cases ha : e.addsType with
  | false => exact .same (makeupView_blind.apply ha)
  | true =>
      cases e with
      | addClass _ _ | addStruct _ | addEnum _ _ | addInterface _ => exact .push rfl rfl rfl rfl rfl
      | addNullable t => exact addNullable (by simpa [Edit.ids] using he)
      | addTuple elements => exact addTuple elements
      | _ => cases ha

/-- No step changes what a type is made of. -/
theorem makeup_eq (h : InterningStep w w') (ht : w.types.Has t) :
    (w'.type t).makeup = (w.type t).makeup := by
  cases h with
  | same h => exact h.type t
  | added d types _ _ _ _ => rw [type, types, Arena.get_push_of_has ht]; rfl

end InterningStep

theorem makeup_eq_of_edited {allowed : Edit → Bool} (hc : w.Closed) (he : Edited allowed w w')
    (ht : w.types.Has t) : (w'.type t).makeup = (w.type t).makeup := by
  induction he with
  | refl => rfl
  | step e he hcov _ ih =>
      have hw := (hc.edited he).2 .type
      exact ((InterningStep.apply hcov).makeup_eq (Nat.lt_of_lt_of_le ht hw)).trans ih

/-! ## Indexes of types -/

section Indexed

variable {κ : Type} {key : TypeDecl → Option κ} {entries : List (κ × TypeId)} {k : κ}

/-- The entries list the types that have a key, each under its key, and no key twice. -/
structure Indexed (w : SymbolTable) (key : TypeDecl → Option κ) (entries : List (κ × TypeId)) :
    Prop where
  mem_iff : ∀ k u, (k, u) ∈ entries ↔ key (w.type u) = some k
  nodup : (entries.map Prod.fst).Nodup

namespace Indexed

theorem congr (h : w.Indexed key entries) (hk : ∀ t, key (w'.type t) = key (w.type t)) :
    w'.Indexed key entries :=
  ⟨fun k u => by rw [hk, h.mem_iff], h.nodup⟩

/-- A type is added whose key, if it has one, is not there. -/
theorem push (h : w.Indexed key entries) {d : TypeDecl} (types : w'.types = w.types.push d)
    (hdefault : key default = none) (hfresh : ∀ k ∈ key d, k ∉ entries.map Prod.fst) :
    w'.Indexed key ((key d).toList.map (·, w.types.next) ++ entries) := by
  constructor
  · intro k u
    rw [List.mem_append, h.mem_iff, type, type, types, Arena.get_push]
    by_cases hu : u = w.types.next
    · subst hu
      rw [if_pos rfl, Arena.get_of_not_has w.types.not_has_next, hdefault]
      simp
    · rw [if_neg hu]
      simp [Ne.symm hu]
  · cases hk : key d with
    | none => simpa using h.nodup
    | some k => simpa using ⟨by simpa using hfresh k hk, h.nodup⟩

variable [DecidableEq κ]

theorem not_mem_keys_of_find? (h : (entries.find? (·.1 = k)).map Prod.snd = none) :
    k ∉ entries.map Prod.fst := by
  intro hk
  obtain ⟨e, he, rfl⟩ := List.mem_map.mp hk
  simpa using List.find?_eq_none.mp (Option.map_eq_none_iff.mp h) e he

theorem find?_of_mem {β : Type} {entries : List (κ × β)} {u : β}
    (hn : (entries.map Prod.fst).Nodup) (hk : (k, u) ∈ entries) :
    (entries.find? (·.1 = k)).map Prod.snd = some u := by
  induction entries with
  | nil => cases hk
  | cons e l ih =>
      obtain ⟨hne, hn⟩ := List.nodup_cons.mp hn
      rcases List.mem_cons.mp hk with rfl | hk
      · simp
      · have hek : e.1 ≠ k := by
          rintro rfl
          exact hne (List.mem_map.mpr ⟨_, hk, rfl⟩)
        rw [List.find?_cons, decide_eq_false hek]
        exact ih hn hk

/-- Looking a key up finds the type that has it. -/
theorem find?_eq_some (h : w.Indexed key entries) :
    (entries.find? (·.1 = k)).map Prod.snd = some u ↔ key (w.type u) = some k := by
  rw [← h.mem_iff]
  constructor
  · intro hu
    obtain ⟨e, he, rfl⟩ := Option.map_eq_some_iff.mp hu
    have hk : e.1 = k := by simpa using List.find?_some he
    exact hk ▸ List.mem_of_find?_eq_some he
  · exact find?_of_mem h.nodup

/-- No two types have the same key. -/
theorem unique (h : w.Indexed key entries) {u' : TypeId} (hu : key (w.type u) = some k)
    (hu' : key (w.type u') = some k) : u = u' := by
  rw [← h.find?_eq_some] at hu hu'
  exact Option.some.inj (hu.symm.trans hu')

end Indexed
end Indexed

/-! ## Canonical tables -/

/-- Nullable types are indexed by the type that they wrap, and tuple types of each length by their
elements. A nullable type has one layer of null. -/
structure Canonical (w : SymbolTable) : Prop where
  nullables : w.Indexed TypeDecl.wraps? w.nullables
  tuples : ∀ n, w.Indexed (TypeDecl.elementsOf? · n) (w.tuplesOf n)
  oneLayer : ∀ t u, (w.type u).wraps? = some t → w.acceptsNull t = false

theorem withoutNull_of_wraps? (h : (w.type u).wraps? = some t) : w.withoutNull u = t := by
  rw [withoutNull, h]
  rfl

theorem withoutNull_of_bare (h : (w.type t).wraps? = none) : w.withoutNull t = t := by
  rw [withoutNull, h]
  rfl

theorem withoutNull_of_acceptsNull_eq_false (h : w.acceptsNull t = false) :
    w.withoutNull t = t :=
  withoutNull_of_bare (TypeDecl.wraps?_of_acceptsNull_eq_false h)

namespace Canonical

theorem nullableOf?_eq_some (h : w.Canonical) :
    w.nullableOf? t = some u ↔ (w.type u).wraps? = some t :=
  h.nullables.find?_eq_some

theorem tupleOf?_eq_some (h : w.Canonical) {l : List TypeId} :
    w.tupleOf? l = some u ↔ (w.type u).elements? = some l := by
  rw [tupleOf?, (h.tuples l.length).find?_eq_some, TypeDecl.elementsOf?_eq_some]
  exact and_iff_right rfl

theorem nullable_unique (h : w.Canonical) {u' : TypeId} (hu : (w.type u).wraps? = some t)
    (hu' : (w.type u').wraps? = some t) : u = u' :=
  h.nullables.unique hu hu'

theorem tuple_unique (h : w.Canonical) {u' : TypeId} {l : List TypeId}
    (hu : (w.type u).elements? = some l) (hu' : (w.type u').elements? = some l) : u = u' :=
  (h.tuples l.length).unique (TypeDecl.elementsOf?_eq_some.mpr ⟨rfl, hu⟩)
    (TypeDecl.elementsOf?_eq_some.mpr ⟨rfl, hu'⟩)

theorem mem_tuplesOf (h : w.Canonical) {n : Nat} {l : List TypeId} :
    (l, u) ∈ w.tuplesOf n ↔ l.length = n ∧ (w.type u).elements? = some l := by
  rw [(h.tuples n).mem_iff, TypeDecl.elementsOf?_eq_some]

theorem of_same (h : w.Canonical) (hs : makeupView.Same w w') : w'.Canonical := by
  have wraps t : (w'.type t).wraps? = (w.type t).wraps? :=
    (TypeDecl.eq_of_makeup (hs.type t)).1
  have elements t : (w'.type t).elements? = (w.type t).elements? :=
    (TypeDecl.eq_of_makeup (hs.type t)).2.1
  have null t : w'.acceptsNull t = w.acceptsNull t :=
    (TypeDecl.eq_of_makeup (hs.type t)).2.2.1
  refine ⟨?_, fun n => ?_, by simpa only [wraps, null] using h.oneLayer⟩
  · rw [hs.nullables]
    exact h.nullables.congr wraps
  · rw [tuplesOf, hs.tuples]
    exact (h.tuples n).congr fun t => by rw [TypeDecl.elementsOf?, elements]; rfl

theorem step (h : w.Canonical) (hc : w.Closed) (hs : InterningStep w w') : w'.Canonical := by
  cases hs with
  | same hs => exact h.of_same hs
  | added d types nullables tuples wraps elements =>
      refine ⟨?_, fun n => ?_, fun t u hu => ?_⟩
      · rw [nullables]
        exact h.nullables.push types rfl fun t ht =>
          Indexed.not_mem_keys_of_find? (wraps t ht).2.2
      · rw [tuples]
        refine (h.tuples n).push types rfl fun l hl => ?_
        obtain ⟨rfl, helements⟩ := TypeDecl.elementsOf?_eq_some.mp hl
        exact Indexed.not_mem_keys_of_find? (elements l helements)
      · have ht : w.types.Has t ∧ w.acceptsNull t = false := by
          rw [type, types, Arena.get_push] at hu
          split at hu
          · obtain ⟨ht, ha, _⟩ := wraps t hu
            exact ⟨ht, ha⟩
          · exact ⟨hc.wraps?_has hu, h.oneLayer t u hu⟩
        rw [acceptsNull, type, types, Arena.get_push_of_has ht.1]
        exact ht.2

theorem edited (h : w.Canonical) (hc : w.Closed) {allowed : Edit → Bool}
    (he : Edited allowed w w') : w'.Canonical := by
  induction he with
  | refl => exact h
  | step e he hcov _ ih => exact ih.step (hc.edited he).1 (.apply hcov)

theorem mem_tupleTypes (h : w.Canonical) :
    t ∈ w.tupleTypes ↔ ∃ l, (w.type t).elements? = some l := by
  simp only [tupleTypes, List.mem_mergeSort, List.mem_map, mem_flatten_tuples]
  constructor
  · rintro ⟨e, ⟨n, he⟩, rfl⟩
    exact ⟨e.1, (h.mem_tuplesOf.mp he).2⟩
  · rintro ⟨l, hl⟩
    exact ⟨(l, t), ⟨l.length, h.mem_tuplesOf.mpr ⟨rfl, hl⟩⟩, rfl⟩

/-- No tuple type is listed twice: lists of elements of different lengths are kept apart, and those
of one length are the keys of their table. -/
theorem nodup_tupleTypes (h : w.Canonical) : w.tupleTypes.Nodup := by
  have bucket : ∀ n (hn : n < w.tuples.length), w.tuples[n] = w.tuplesOf n := fun n hn => by
    rw [tuplesOf, List.getD_eq_getElem?_getD, List.getElem?_eq_getElem hn]
    rfl
  have hflat : w.tuples.flatten.Nodup := by
    rw [List.nodup_flatten]
    constructor
    · intro l hl
      obtain ⟨n, hn, rfl⟩ := List.getElem_of_mem hl
      rw [bucket n hn]
      exact .of_map _ (h.tuples n).nodup
    · rw [List.pairwise_iff_getElem]
      intro i j hi hj hij e he he'
      rw [bucket i hi] at he
      rw [bucket j hj] at he'
      have hlen := (h.mem_tuplesOf.mp he).1.symm.trans (h.mem_tuplesOf.mp he').1
      exact Nat.ne_of_lt hij hlen
  have hmap : (w.tuples.flatten.map Prod.snd).Nodup := by
    refine hflat.map_on fun e he e' he' hsnd => ?_
    obtain ⟨n, he⟩ := mem_flatten_tuples.mp he
    obtain ⟨n', he'⟩ := mem_flatten_tuples.mp he'
    have hl := (h.mem_tuplesOf.mp he).2
    have hl' := (h.mem_tuplesOf.mp he').2
    rw [hsnd] at hl
    exact Prod.ext (Option.some.inj (hl.symm.trans hl')) hsnd
  exact (List.mergeSort_perm _ _).nodup_iff.mpr hmap

end Canonical

private theorem initial_makeups (i : Interner) :
    (initial i).nullables = [] ∧ (initial i).tuples = [] ∧ ∀ j < (initial i).types.size,
      ((initial i).type ⟨j⟩).wraps? = none ∧ ((initial i).type ⟨j⟩).elements? = none :=
  initial_induction (P := fun w => w.nullables = [] ∧ w.tuples = [] ∧ ∀ j < w.types.size,
    (w.type ⟨j⟩).wraps? = none ∧ (w.type ⟨j⟩).elements? = none)
    (fun _ _ _ h => h) (by decide +kernel) i

theorem initial_makeup (i : Interner) (t : TypeId) :
    ((initial i).type t).wraps? = none ∧ ((initial i).type t).elements? = none := by
  by_cases ht : (initial i).types.Has t
  · exact (initial_makeups i).2.2 t.index ht
  · rw [type, Arena.get_of_not_has ht]
    exact ⟨rfl, rfl⟩

theorem initial_canonical (i : Interner) : (initial i).Canonical := by
  obtain ⟨hn, hu, _⟩ := initial_makeups i
  refine ⟨⟨fun t u => ?_, ?_⟩, fun n => ⟨fun l u => ?_, ?_⟩, fun t u h => ?_⟩
  · simp [hn, initial_makeup i u]
  · simp [hn]
  · simp [tuplesOf, hu, TypeDecl.elementsOf?, initial_makeup i u]
  · simp [tuplesOf, hu]
  · simp [initial_makeup i u] at h

end SymbolTable

/-! ## Requests for a type -/

/-- A request for a type by what it is made of. -/
inductive TypeRequest where
  | nullable (t : TypeId)
  | tuple (elements : List TypeId)
  deriving DecidableEq, Repr

namespace TypeRequest

/-- The edit that makes the request. -/
def edit : TypeRequest → Edit
  | nullable t => .addNullable t
  | tuple elements => .addTuple elements

/-- The type that the request is answered with. -/
def answer (w : SymbolTable) : TypeRequest → TypeId
  | nullable t => (w.addNullable t).1
  | tuple elements => (w.addTuple elements).1

/-- The request with null taken from the type that is to accept it. -/
def withoutNull (w : SymbolTable) : TypeRequest → TypeRequest
  | nullable t => nullable (w.withoutNull t)
  | tuple elements => tuple elements

/-- A request without null asks for this type. -/
def MetBy (w : SymbolTable) (u : TypeId) : TypeRequest → Prop
  | nullable t => w.acceptsNull u ∧ w.withoutNull u = t
  | tuple elements => (w.type u).elements? = some elements

variable {w w' : SymbolTable} {t u u' : TypeId} {r r' : TypeRequest}

theorem MetBy.of_wraps? (h : (w.type u).wraps? = some t) : (nullable t).MetBy w u :=
  ⟨TypeDecl.acceptsNull_of_wraps? h, SymbolTable.withoutNull_of_wraps? h⟩

/-- A type that accepts null wraps the type without null, or is that type. -/
theorem MetBy.nullable_cases (h : (nullable t).MetBy w u) :
    (w.type u).wraps? = some t ∨ u = t := by
  obtain ⟨_, h⟩ := h
  rw [SymbolTable.withoutNull] at h
  cases hw : (w.type u).wraps? with
  | none => exact .inr (by simpa [hw] using h)
  | some t' => exact .inl (by simpa [hw] using h)

theorem MetBy.has (h : r.MetBy w u) : w.types.Has u := by
  by_contra hu
  cases r with
  | nullable t =>
      have hn := h.1
      rw [SymbolTable.acceptsNull, SymbolTable.type, Arena.get_of_not_has hu] at hn
      cases hn
  | tuple l =>
      rw [MetBy, SymbolTable.type, Arena.get_of_not_has hu] at h
      cases h

theorem MetBy.not_tuple {l : List TypeId} (h : (nullable t).MetBy w u) : ¬(tuple l).MetBy w u := by
  intro h'
  have hn := TypeDecl.acceptsNull_of_elements? h'
  rw [show (w.type u).acceptsNull = true from h.1] at hn
  cases hn

/-- A type meets one request. -/
theorem MetBy.request_unique (h : r.MetBy w u) (h' : r'.MetBy w u) : r = r' := by
  cases r with
  | nullable t =>
      cases r' with
      | nullable t' => rw [← h.2, ← h'.2]
      | tuple l => exact absurd h' h.not_tuple
  | tuple l =>
      cases r' with
      | nullable t' => exact absurd h h'.not_tuple
      | tuple l' => exact congrArg tuple (Option.some.inj (h.symm.trans h'))

/-- One type meets a request. -/
theorem MetBy.type_unique (hc : w.Canonical) (h : r.MetBy w u) (h' : r.MetBy w u') : u = u' := by
  cases r with
  | nullable t =>
      rcases h.nullable_cases with hu | hu
      · rcases h'.nullable_cases with hu' | rfl
        · exact hc.nullable_unique hu hu'
        · exact absurd (hc.oneLayer _ _ hu) (by simpa using h'.1)
      · rcases h'.nullable_cases with hu' | hu'
        · subst hu
          exact absurd (hc.oneLayer _ _ hu') (by simpa using h.1)
        · exact hu.trans hu'.symm
  | tuple l => exact hc.tuple_unique h h'

/-- What a request is answered with meets it. -/
theorem metBy_answer (hc : w.Canonical) (r : TypeRequest) :
    (r.withoutNull w).MetBy (w.apply r.edit) (r.answer w) := by
  cases r with
  | nullable t =>
      simp only [withoutNull, answer, edit, SymbolTable.apply]
      rcases w.addNullable_cases t with ⟨ha, hw⟩ | ⟨u, ha, hu, hw⟩ | ⟨ha, _, hw⟩
      · rw [hw]
        exact ⟨ha, rfl⟩
      · rw [hw, SymbolTable.withoutNull_of_acceptsNull_eq_false ha]
        exact .of_wraps? (hc.nullableOf?_eq_some.mp hu)
      · rw [hw, SymbolTable.withoutNull_of_acceptsNull_eq_false ha]
        have hk : (w.declareNullable t).type w.types.next = { kind := .nullable t } :=
          Arena.get_push_next _ _
        exact .of_wraps? (by rw [hk]; rfl)
  | tuple l =>
      simp only [withoutNull, answer, edit, SymbolTable.apply, MetBy]
      rcases w.addTuple_cases l with ⟨u, hu, hw⟩ | ⟨_, hw⟩
      · rw [hw]
        exact hc.tupleOf?_eq_some.mp hu
      · rw [hw]
        exact congrArg TypeDecl.elements? (Arena.get_push_next _ _)

/-- A request that some type meets is answered with this type, and adds nothing. -/
theorem answer_of_metBy (hc : w.Canonical) (h : (r.withoutNull w).MetBy w u) :
    r.answer w = u ∧ w.apply r.edit = w := by
  have hw : w.apply r.edit = w := by
    cases r with
    | nullable t =>
        rcases w.addNullable_cases t with ⟨_, hw⟩ | ⟨u, _, _, hw⟩ | ⟨ha, hn, _⟩
        · exact congrArg Prod.snd hw
        · exact congrArg Prod.snd hw
        · rw [withoutNull, SymbolTable.withoutNull_of_acceptsNull_eq_false ha] at h
          rcases h.nullable_cases with hu | rfl
          · rw [hc.nullableOf?_eq_some.mpr hu] at hn
            cases hn
          · exact absurd ha (by simpa using h.1)
    | tuple l =>
        rcases w.addTuple_cases l with ⟨u, _, hw⟩ | ⟨hn, _⟩
        · exact congrArg Prod.snd hw
        · rw [hc.tupleOf?_eq_some.mpr h] at hn
          cases hn
  have hr := metBy_answer hc r
  rw [hw] at hr
  exact ⟨hr.type_unique hc h, hw⟩

section Later

variable {allowed : Edit → Bool} (hc : w.Closed) (he : SymbolTable.Edited allowed w w')

include hc he

theorem MetBy.later (h : r.MetBy w u) : r.MetBy w' u := by
  obtain ⟨hwraps, helements, hnull, _⟩ :=
    TypeDecl.eq_of_makeup (SymbolTable.makeup_eq_of_edited hc he h.has)
  cases r with
  | nullable t =>
      refine ⟨hnull.trans h.1, ?_⟩
      rw [SymbolTable.withoutNull, hwraps]
      exact h.2
  | tuple l => exact helements.trans h

theorem withoutNull_later (hr : w.Covers r.edit.ids) : r.withoutNull w' = r.withoutNull w := by
  cases r with
  | nullable t =>
      have ht : w.types.Has t := by simpa [edit, Edit.ids] using hr
      have hm := SymbolTable.makeup_eq_of_edited hc he ht
      rw [withoutNull, SymbolTable.withoutNull, (TypeDecl.eq_of_makeup hm).1]
      rfl
  | tuple l => rfl

end Later

/-- The request was made in `w`, and `w'` came later. It is then settled: other requests are
answered alike exactly if they ask for the same once null is taken away, and asking again adds
nothing. -/
structure Settled (r : TypeRequest) (w w' : SymbolTable) : Prop where
  answer_eq_iff : ∀ r' : TypeRequest, w'.Covers r'.edit.ids →
    (r'.answer w' = r.answer w ↔ r'.withoutNull w' = r.withoutNull w)
  again : r.answer w' = r.answer w ∧ w'.apply r.edit = w'
  nullable_answer : ∀ t, r = nullable t → w'.addNullable (r.answer w) = (r.answer w, w')

theorem settled_of_edited {allowed : Edit → Bool} (hc : w.Closed) (hw : w.Canonical)
    (hr : w.Covers r.edit.ids) (he : SymbolTable.Edited allowed (w.apply r.edit) w') :
    r.Settled w w' := by
  have hmade : SymbolTable.Edited (fun _ => true) w (w.apply r.edit) := .single _ hr rfl
  have hlater : SymbolTable.Edited (fun _ => true) w w' := hmade.trans (he.mono fun _ _ => rfl)
  have hc' := (hc.edited hlater).1
  have hw' := hw.edited hc hlater
  have hmet : (r.withoutNull w).MetBy w' (r.answer w) :=
    (metBy_answer hw r).later (hc.edited hmade).1 he
  refine ⟨fun r' hr' => ?_, ?_, ?_⟩
  · have he' : SymbolTable.Edited (fun _ => true) w' (w'.apply r'.edit) := .single _ hr' rfl
    have hmet' := metBy_answer hw' r'
    have hmet := hmet.later hc' he'
    constructor
    · intro ha
      rw [ha] at hmet'
      exact hmet'.request_unique hmet
    · intro ha
      rw [ha] at hmet'
      exact hmet'.type_unique (hw'.edited hc' he') hmet
  · rw [← withoutNull_later hc hlater hr] at hmet
    exact answer_of_metBy hw' hmet
  · rintro t rfl
    exact if_pos hmet.1

end TypeRequest

/-- Nullable and tuple types are found by what they are made of, and no two are made of the same. -/
structure SymbolTable.CanonicalTypes (w : SymbolTable) : Prop where
  tables : w.Canonical
  nullableOf : ∀ t u, w.nullableOf? t = some u ↔ (w.type u).kind = .nullable t
  tupleOf : ∀ l u, w.tupleOf? l = some u ↔ (w.type u).kind = .tuple l
  nullable_injective : ∀ t u u', (w.type u).kind = .nullable t → (w.type u').kind = .nullable t →
    u = u'
  tuple_injective : ∀ l u u', (w.type u).kind = .tuple l → (w.type u').kind = .tuple l → u = u'
  wrapped : ∀ t u, (w.type u).kind = .nullable t →
    (w.type t).kind ≠ .null ∧ ∀ v, (w.type t).kind ≠ .nullable v
  tupleTypes : w.tupleTypes.Nodup ∧ ∀ t, t ∈ w.tupleTypes ↔ ∃ l, (w.type t).kind = .tuple l

theorem SymbolTable.Canonical.types {w : SymbolTable} (h : w.Canonical) : w.CanonicalTypes := by
  refine ⟨h, fun t u => ?_, fun l u => ?_, fun t u u' hu hu' => ?_, fun l u u' hu hu' => ?_,
    fun t u hu => ?_, h.nodup_tupleTypes, fun t => ?_⟩
  · rw [h.nullableOf?_eq_some, TypeDecl.wraps?_eq_some]
  · rw [h.tupleOf?_eq_some, TypeDecl.elements?_eq_some]
  · exact h.nullable_unique (TypeDecl.wraps?_eq_some.mpr hu) (TypeDecl.wraps?_eq_some.mpr hu')
  · exact h.tuple_unique (TypeDecl.elements?_eq_some.mpr hu) (TypeDecl.elements?_eq_some.mpr hu')
  · have hn := h.oneLayer t u (TypeDecl.wraps?_eq_some.mpr hu)
    refine ⟨fun hk => ?_, fun v hk => ?_⟩ <;>
      simp [SymbolTable.acceptsNull, TypeDecl.acceptsNull, hk] at hn
  · rw [h.mem_tupleTypes]
    exact exists_congr fun l => TypeDecl.elements?_eq_some

namespace Session

variable {s : Session}

theorem Reachable.canonical {allowed : Operation → Bool} (h : Reachable allowed s) :
    s.table.Canonical := by
  obtain ⟨i, he⟩ := h.edited_initial
  exact (SymbolTable.initial_canonical i).edited (SymbolTable.initial_closed i) he

/-- The types that exist from the start stay what they are. -/
theorem Reachable.makeup_supplied {allowed : Operation → Bool} (h : Reachable allowed s)
    {t : TypeId} (ht : t.index < 20) :
    (s.table.type t).makeup = ((SymbolTable.initial .counting).type t).makeup := by
  obtain ⟨i, he⟩ := h.edited_initial
  have closed := SymbolTable.initial_closed i
  have alike : ((SymbolTable.initial i).type t).makeup =
      ((SymbolTable.initial .counting).type t).makeup :=
    SymbolTable.initial_induction (P := fun w => (w.type t).makeup =
      ((SymbolTable.initial .counting).type t).makeup) (fun _ _ _ h => h) rfl i
  exact (SymbolTable.makeup_eq_of_edited closed he (closed.has_supplied ht)).trans alike

/-- In every session nullable and tuple types are canonical, and a request for one is settled at
every later point, also at those that only the resolution of an expression passes through. -/
theorem canonicalTypes_of_reachable (h : Reachable (fun _ => true) s) :
    s.table.CanonicalTypes ∧
    ∀ (w w' : SymbolTable) (r : TypeRequest), SymbolTable.Edited (fun _ => true) s.table w →
      w.Covers r.edit.ids → SymbolTable.Edited (fun _ => true) (w.apply r.edit) w' →
      w.CanonicalTypes ∧ r.Settled w w' := by
  refine ⟨h.canonical.types, fun w w' r hw hr hw' => ?_⟩
  have hc := h.closed.table
  have hcanonical := h.canonical.edited hc hw
  exact ⟨hcanonical.types, TypeRequest.settled_of_edited (hc.edited hw).1 hcanonical hr hw'⟩

/-- A tuple type is requested, and then one is written whose second element is unknown. The nullable
type that is its first element stays when the tuple type is refused. -/
def sampleRequests : List Operation :=
  [.edit (.addTuple [.integer, .string]), .edit (.addFrame (.activation none [])),
    .edit (.importModule ⟨0⟩ .globalModule), .enter ⟨0⟩,
    .query (.type (.tuple { id := 1 }
      [.nullable { id := 2 } (.ident { id := 3 } "Long"), .ident { id := 4 } "Missing"])) {}]

theorem canonicalTypes_sampleRequests :
    let w := (performAll {} sampleRequests).table
    Session.Admits (fun _ => true) {} sampleRequests ∧
      (performAll {} sampleRequests).problems ≠ [] ∧ w.types.size = 22 ∧ ⟨20⟩ ∈ w.tupleTypes ∧
      w.CanonicalTypes ∧
      (TypeRequest.nullable .long).answer w = ⟨21⟩ ∧
      (TypeRequest.nullable .long).Settled w (w.apply (.addNullable .long)) := by
  have facts : let w := (performAll {} sampleRequests).table
      Session.Admits (fun _ => true) {} sampleRequests ∧
        w.Covers (TypeRequest.nullable .long).edit.ids ∧
        (w.type ⟨20⟩).elements? = some [.integer, .string] ∧
        (performAll {} sampleRequests).problems ≠ [] ∧ w.types.size = 22 ∧
        (TypeRequest.nullable .long).answer w = ⟨21⟩ := by
    decide +kernel
  obtain ⟨h, hc, helements, hproblems, hsize, hanswer⟩ := facts
  obtain ⟨hw, hr⟩ := canonicalTypes_of_reachable (Reachable.new.performAll h)
  exact ⟨h, hproblems, hsize, hw.tables.mem_tupleTypes.mpr ⟨_, helements⟩, hw, hanswer,
    (hr _ _ (.nullable .long) .refl hc .refl).2⟩

end Session
end StaticSemantics
