import StaticSemantics.Proofs.Hierarchy.Outline
import StaticSemantics.Proofs.Walk

/-!
Subtyping as an order. In a table with a layered hierarchy the bounded searches for super types find
all of them: subtyping is reachability, `Any` on top, and between classes it is membership in the
chain of super classes.
-/

namespace StaticSemantics

open Relation

def TypeKind.outline : TypeKind → OutlineKind
  | .any => .any
  | .cls info => .cls info.implements
  | .interface info => .interface info.supers
  | .nullable t => .nullable t
  | .empty | .nothing | .null | .struct | .enum _ | .tuple _ => .other

namespace TypeDecl

def outline (d : TypeDecl) : Outline := { kind := d.kind.outline, superType := d.superType }

@[simp] theorem isAny_outline (d : TypeDecl) : d.outline.isAny = d.isAny := by
  obtain ⟨kind, _⟩ := d
  cases kind <;> rfl

@[simp] theorem isClass_outline (d : TypeDecl) : d.outline.isClass = d.isClass := by
  obtain ⟨kind, _⟩ := d
  cases kind <;> rfl

@[simp] theorem isInterface_outline (d : TypeDecl) : d.outline.isInterface = d.isInterface := by
  obtain ⟨kind, _⟩ := d
  cases kind <;> rfl

@[simp] theorem wraps?_outline (d : TypeDecl) : d.outline.wraps? = d.wraps? := by
  obtain ⟨kind, _⟩ := d
  cases kind <;> rfl

theorem interfaces_of_class {d : TypeDecl} {info : ClassInfo} (hk : d.kind = .cls info) :
    d.outline.interfaces = info.implements := by
  simp [outline, hk, TypeKind.outline, Outline.interfaces]

theorem interfaces_of_interface {d : TypeDecl} {info : InterfaceInfo}
    (hk : d.kind = .interface info) : d.outline.interfaces = info.supers := by
  simp [outline, hk, TypeKind.outline, Outline.interfaces]

end TypeDecl

namespace SymbolTable

def outline (w : SymbolTable) : Outlines := fun t => (w.type t).outline

/-- The hierarchy of the declared types is layered. -/
def Layered (w : SymbolTable) : Prop := w.outline.Layered w.types.size

/-- `u` stands directly above `t`. -/
inductive DirectSuper (w : SymbolTable) (t u : TypeId) : Prop where
  | superType (h : w.superType? t = some u)
  | implements {info : ClassInfo} (hk : (w.type t).kind = .cls info) (hu : u ∈ info.implements)
  | extends {info : InterfaceInfo} (hk : (w.type t).kind = .interface info) (hu : u ∈ info.supers)

variable {w : SymbolTable} {t u v : TypeId}

theorem superType?_outline (w : SymbolTable) (t : TypeId) :
    w.outline.superType? t = w.superType? t := by
  simp only [Outlines.superType?, outline, TypeDecl.wraps?_outline, TypeDecl.isAny_outline]
  rfl

theorem directSuper_iff_above : w.DirectSuper t u ↔ w.outline.Above t u := by
  unfold Outlines.Above
  rw [superType?_outline]
  constructor
  · rintro (h | ⟨hk, hu⟩ | ⟨hk, hu⟩)
    · exact .inl h
    · exact .inr (TypeDecl.interfaces_of_class hk ▸ hu)
    · exact .inr (TypeDecl.interfaces_of_interface hk ▸ hu)
  · rintro (h | h)
    · exact .superType h
    · cases hk : (w.type t).kind <;> simp only [outline, TypeDecl.outline, hk] at h
      case cls info => exact .implements hk h
      case interface info => exact .extends hk h
      all_goals cases h

theorem directSuper_eq_above (w : SymbolTable) : w.DirectSuper = w.outline.Above :=
  funext fun _ => funext fun _ => propext directSuper_iff_above

/-! ## The search for a super type -/

theorem directSuper_of_mem (h : v ∈ w.directSupers t u) : w.DirectSuper t v := by
  rcases List.mem_append.mp h with h | h
  · exact .superType (Option.mem_toList.mp h)
  · split at h
    · split at h
      · exact .implements ‹_› h
      · cases h
    · exact .extends ‹_› h
    · cases h

theorem reach_of_reaches {n : Nat} (h : w.reaches u n t) : ReflTransGen w.DirectSuper t u := by
  induction n generalizing t with
  | zero => exact of_decide_eq_true h ▸ .refl
  | succ n ih =>
      rcases (Bool.or_eq_true _ _).mp h with h | h
      · exact of_decide_eq_true h ▸ .refl
      · obtain ⟨v, hv, h⟩ := List.any_eq_true.mp h
        exact .head (directSuper_of_mem hv) (ih h)

theorem reaches_eq {w' : SymbolTable} (ht : w'.types = w.types) (u : TypeId) (n : Nat)
    (t : TypeId) : w'.reaches u n t = w.reaches u n t := by
  have hsupers : ∀ t, w'.directSupers t u = w.directSupers t u := by
    intro t
    simp only [directSupers, superType?, withoutNull, type, ht]
    rfl
  induction n generalizing t with
  | zero => rfl
  | succ n ih =>
      simp only [reaches, hsupers]
      rw [funext ih]

theorem isSubtype_eq_of_types {w' : SymbolTable} (ht : w'.types = w.types) (t u : TypeId) :
    w'.isSubtype t u = w.isSubtype t u := by
  simp only [isSubtype, type, ht, reaches_eq ht]

namespace Layered

theorem isAny_iff (h : w.Layered) (ht : w.types.Has t) : (w.type t).isAny ↔ t = .any := by
  simpa [outline] using h.any t ht

theorem wellFounded (h : w.Layered) : WellFounded fun u t => w.DirectSuper t u := by
  rw [directSuper_eq_above]
  refine Subrelation.wf (fun {u t} htu => ?_)
    (InvImage.wf (reachedCount w.outline.Above w.types.size) Nat.lt_wfRel.wf)
  exact h.acyclic.reachedCount_lt htu (h.lt_of_above htu)

/-- The search looks at every type that stands directly above `t` and leads to `u`. -/
theorem mem_directSupers (h : w.Layered) (hu : (w.type u).isAny = false)
    (hv : w.DirectSuper t v) (hvu : ReflTransGen w.DirectSuper v u) : v ∈ w.directSupers t u := by
  refine List.mem_append.mpr ?_
  cases hv with
  | superType hv => exact .inl (Option.mem_toList.mpr hv)
  | implements hk hv =>
      have hi : (w.outline v).isInterface :=
        h.interfaces t v (TypeDecl.interfaces_of_class hk ▸ hv)
      rw [directSuper_eq_above] at hvu
      -- what is reached from an interface and is not `Any` is an interface
      have hui := h.isInterface_of_reach hi hvu
      simp only [outline, TypeDecl.isAny_outline, hu, TypeDecl.isInterface_outline] at hui
      refine .inr ?_
      simp only [hk]
      rwa [if_pos (by simpa using hui)]
  | «extends» hk hv => exact .inr (by simpa only [hk] using hv)

theorem reaches_of_reach (h : w.Layered) (hu : (w.type u).isAny = false)
    (htu : ReflTransGen w.DirectSuper t u) {n : Nat}
    (hn : reachedCount w.outline.Above w.types.size t ≤ n) : w.reaches u n t := by
  induction htu using ReflTransGen.head_induction_on generalizing n with
  | refl => cases n <;> simp [reaches]
  | head htv hvu ih =>
      have habove := directSuper_iff_above.mp htv
      have hlt := h.acyclic.reachedCount_lt habove (h.lt_of_above habove)
      cases n with
      | zero => exact absurd (Nat.lt_of_lt_of_le hlt hn) (Nat.not_lt_zero _)
      | succ n =>
          refine (Bool.or_eq_true _ _).mpr (.inr (List.any_eq_true.mpr ?_))
          exact ⟨_, h.mem_directSupers hu htv hvu,
            ih (Nat.le_of_lt_succ (Nat.lt_of_lt_of_le hlt hn))⟩

/-- Subtyping is reachability over the direct super types, with `Any` above all. -/
theorem isSubtype_iff_reach (h : w.Layered) :
    w.isSubtype t u ↔ (w.type u).isAny ∨ ReflTransGen w.DirectSuper t u := by
  unfold isSubtype
  rw [Bool.or_eq_true]
  constructor
  · exact Or.imp id reach_of_reaches
  · intro htu
    cases hu : (w.type u).isAny with
    | true => exact .inl rfl
    | false =>
        rw [hu] at htu
        exact .inr (h.reaches_of_reach hu (htu.resolve_left (by simp)) (reachedCount_le _ _ _))

/-- The search satisfies the equation of an unbounded recursion. -/
theorem isSubtype_eq (h : w.Layered) (t u : TypeId) :
    w.isSubtype t u = (decide (t = u) || (w.type u).isAny ||
      (w.directSupers t u).any fun v => w.isSubtype v u) := by
  rw [Bool.eq_iff_iff, Bool.or_eq_true, Bool.or_eq_true, List.any_eq_true, h.isSubtype_iff_reach]
  constructor
  · rintro (hu | htu)
    · exact .inl (.inr hu)
    · cases hu : (w.type u).isAny with
      | true => exact .inl (.inr rfl)
      | false =>
          rcases ReflTransGen.cases_head htu with rfl | ⟨v, htv, hvu⟩
          · exact .inl (.inl (decide_eq_true rfl))
          · exact .inr ⟨v, h.mem_directSupers hu htv hvu, h.isSubtype_iff_reach.mpr (.inr hvu)⟩
  · rintro ((htu | hu) | ⟨v, htv, hvu⟩)
    · exact .inr (of_decide_eq_true htu ▸ .refl)
    · exact .inl hu
    · exact (h.isSubtype_iff_reach.mp hvu).imp id fun hvu => .head (directSuper_of_mem htv) hvu

/-! ## The order -/

theorem isSubtype_refl (h : w.Layered) (t : TypeId) : w.isSubtype t t :=
  h.isSubtype_iff_reach.mpr (.inr .refl)

theorem isSubtype_trans (h : w.Layered) (htu : w.isSubtype t u) (huv : w.isSubtype u v) :
    w.isSubtype t v := by
  rw [h.isSubtype_iff_reach] at *
  rcases huv with hv | huv
  · exact .inl hv
  · rcases htu with hu | htu
    · rcases ReflTransGen.cases_head huv with rfl | ⟨x, hux, _⟩
      · exact .inl hu
      · rw [directSuper_iff_above] at hux
        exact absurd hux (Outlines.not_above_of_isAny (by simpa [outline] using hu))
    · exact .inr (htu.trans huv)

theorem isSubtype_any (h : w.Layered) (t : TypeId) : w.isSubtype t .any :=
  h.isSubtype_iff_reach.mpr (.inl (by simpa [outline] using h.any_isAny))

/-- Only `Any` stands above `Any`. -/
theorem eq_any_of_isSubtype (h : w.Layered) (hu : w.types.Has u) (htu : w.isSubtype .any u) :
    u = .any := by
  rcases h.isSubtype_iff_reach.mp htu with ha | htu
  · exact (h.isAny_iff hu).mp ha
  · rcases ReflTransGen.cases_head htu with rfl | ⟨v, hv, _⟩
    · rfl
    · rw [directSuper_iff_above] at hv
      exact absurd hv (Outlines.not_above_of_isAny h.any_isAny)

theorem isSubtype_antisymm (h : w.Layered) (ht : w.types.Has t) (hu : w.types.Has u)
    (htu : w.isSubtype t u) (hut : w.isSubtype u t) : t = u := by
  by_cases hta : t = .any
  · subst hta
    exact (h.eq_any_of_isSubtype hu htu).symm
  by_cases hua : u = .any
  · subst hua
    exact h.eq_any_of_isSubtype ht hut
  have htu := (h.isSubtype_iff_reach.mp htu).resolve_left (fun ha => hua ((h.isAny_iff hu).mp ha))
  have hut := (h.isSubtype_iff_reach.mp hut).resolve_left (fun ha => hta ((h.isAny_iff ht).mp ha))
  rw [directSuper_eq_above] at htu hut
  rcases reflTransGen_iff_eq_or_transGen.mp htu with rfl | htu
  · rfl
  · exact absurd (htu.trans_left hut) (h.acyclic t)

/-! ## Super classes -/

/-- A step on the way to a class goes to the super type, and that is a class. -/
theorem superType?_of_reach (h : w.Layered) (hu : (w.type u).isClass) (htv : w.DirectSuper t v)
    (hvu : ReflTransGen w.DirectSuper v u) : w.superType? t = some v ∧ (w.type v).isClass := by
  rw [directSuper_eq_above] at htv hvu
  have hu : (w.outline u).isClass := by simpa [outline] using hu
  obtain ⟨_, hua, hui⟩ := Outline.of_isClass hu
  rcases htv with htv | htv
  · have hv : (w.outline v).isClass := by
      rcases Outlines.superType?_isClass h.superType htv with rfl | hv
      · rcases ReflTransGen.cases_head hvu with rfl | ⟨x, hx, _⟩
        · exact hu
        · exact absurd hx (Outlines.not_above_of_isAny h.any_isAny)
      · exact hv
    exact ⟨superType?_outline w t ▸ htv, by simpa [outline] using hv⟩
  · rcases h.isInterface_of_reach (h.interfaces t v htv) hvu with ha | hi
    · rw [hua] at ha
      cases ha
    · rw [hui] at hi
      cases hi

theorem mem_superChainAt_of_reach (h : w.Layered) (hu : (w.type u).isClass)
    (htu : ReflTransGen w.DirectSuper t u) {n : Nat}
    (hn : reachedCount w.outline.Above w.types.size t ≤ n) :
    u = t ∨ u ∈ (w.superChainAt n t).tail.takeWhile fun s => (w.type s).isClass := by
  induction htu using ReflTransGen.head_induction_on generalizing n with
  | refl => exact .inl rfl
  | head htv hvu ih =>
      rename_i t v
      obtain ⟨hs, hv⟩ := h.superType?_of_reach hu htv hvu
      have habove := directSuper_iff_above.mp htv
      have hlt := h.acyclic.reachedCount_lt habove (h.lt_of_above habove)
      cases n with
      | zero => exact absurd (Nat.lt_of_lt_of_le hlt hn) (Nat.not_lt_zero _)
      | succ n =>
          have ih := ih (Nat.le_of_lt_succ (Nat.lt_of_lt_of_le hlt hn))
          have hchain : w.superChainAt n v = v :: (w.superChainAt n v).tail := by
            cases n <;> rfl
          refine .inr ?_
          simp only [superChainAt, hs, Option.map_some, Option.getD_some, List.tail_cons]
          rw [hchain, List.takeWhile_cons, if_pos hv]
          exact List.mem_cons.mpr ih

theorem isSubtype_iff_mem_superClasses (h : w.Layered) (hu : (w.type u).isClass) :
    w.isSubtype t u ↔ u = t ∨ u ∈ w.superClasses t := by
  rw [h.isSubtype_iff_reach]
  constructor
  · rintro (ha | htu)
    · have := (Outline.of_isClass (x := w.outline u) (by simpa [outline] using hu)).2.1
      simp only [outline, TypeDecl.isAny_outline, ha] at this
      cases this
    · exact h.mem_superChainAt_of_reach hu htu (reachedCount_le _ _ _)
  · rintro (rfl | htu)
    · exact .inr .refl
    · refine .inr (w.walks_superChainAt.forall_mem (P := ReflTransGen w.DirectSuper t) ?_
        w.types.size .refl u ?_)
      · exact fun x y hx hy => hx.tail (.superType hy)
      · exact List.mem_of_mem_tail ((List.takeWhile_sublist _).subset htu)

end Layered
end SymbolTable
end StaticSemantics
