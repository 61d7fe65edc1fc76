import StaticSemantics.Proofs.Hierarchy.Acyclic

/-!
Outlines: what the hierarchy of types depends on, and nothing else of their declarations. A layered
hierarchy has classes below classes, interfaces below interfaces, one type above all others and no
type above itself. It stays so when a type is added, and when a class or interface gets new types
above it that are not below it.
-/

namespace StaticSemantics

open Relation

inductive OutlineKind where
  | any
  | cls (implements : List TypeId)
  | interface (supers : List TypeId)
  | nullable (wraps : TypeId)
  | other

structure Outline where
  kind : OutlineKind := .any
  superType : Option TypeId := none

namespace Outline

def isAny (x : Outline) : Bool := x.kind matches .any

def isClass (x : Outline) : Bool := x.kind matches .cls _

def isInterface (x : Outline) : Bool := x.kind matches .interface _

def wraps? (x : Outline) : Option TypeId :=
  match x.kind with
  | .nullable t => some t
  | _ => none

/-- The interfaces that a class implements or an interface extends. -/
def interfaces (x : Outline) : List TypeId :=
  match x.kind with
  | .cls l | .interface l => l
  | _ => []

variable {x : Outline}

theorem of_isAny (h : x.isAny) : x.wraps? = none ∧ x.interfaces = [] := by
  obtain ⟨kind, _⟩ := x
  cases kind <;> simp_all [isAny, wraps?, interfaces]

theorem of_isClass (h : x.isClass) :
    x.wraps? = none ∧ x.isAny = false ∧ x.isInterface = false := by
  obtain ⟨kind, _⟩ := x
  cases kind <;> simp_all [isAny, isClass, isInterface, wraps?]

theorem of_isInterface (h : x.isInterface) :
    x.wraps? = none ∧ x.isAny = false ∧ x.isClass = false := by
  obtain ⟨kind, _⟩ := x
  cases kind <;> simp_all [isAny, isClass, isInterface, wraps?]

end Outline

/-- An outline for every type. -/
abbrev Outlines := TypeId → Outline

namespace Outlines

/-- The direct super type, null aside. -/
def superType? (o : Outlines) (t : TypeId) : Option TypeId :=
  let x := o ((o t).wraps?.getD t)
  if x.isAny then none else some (x.superType.getD .any)

/-- `u` stands directly above `t`. -/
def Above (o : Outlines) (t u : TypeId) : Prop :=
  o.superType? t = some u ∨ u ∈ (o t).interfaces

/-- One outline replaced. -/
def set (o : Outlines) (c : TypeId) (x : Outline) : Outlines := fun t => if t = c then x else o t

/-- The outlines of `n` types are layered; an id beyond them reads as `Any`. -/
structure Layered (o : Outlines) (n : Nat) : Prop where
  nonempty : 0 < n
  beyond : ∀ t : TypeId, n ≤ t.index → o t = {}
  wraps : ∀ t, ∀ u ∈ (o t).wraps?, u.index < n
  any : ∀ t : TypeId, t.index < n → ((o t).isAny ↔ t = .any)
  object : (o .object).isClass
  superType : ∀ t, ∀ s ∈ (o t).superType, (o s).isClass
  interface : ∀ t, (o t).isInterface → (o t).superType = none
  interfaces : ∀ t, ∀ u ∈ (o t).interfaces, (o u).isInterface
  acyclic : Acyclic o.Above

variable {o : Outlines} {t u : TypeId}

@[simp] theorem set_self (o : Outlines) (c : TypeId) (x : Outline) : o.set c x c = x := if_pos rfl

theorem set_of_ne {c : TypeId} (h : t ≠ c) (o : Outlines) (x : Outline) : o.set c x t = o t :=
  if_neg h

/-- To check all outlines after a change, check the new one and the others. -/
theorem forall_set {P : TypeId → Outline → Prop} {c : TypeId} {x : Outline} (hx : P c x)
    (ho : ∀ t, t ≠ c → P t (o t)) (t : TypeId) : P t (o.set c x t) := by
  by_cases ht : t = c
  · subst ht
    rw [set_self]
    exact hx
  · rw [set_of_ne ht]
    exact ho t ht

theorem superType?_of_wraps (hw : (o t).wraps? = none) :
    o.superType? t = if (o t).isAny then none else some ((o t).superType.getD .any) := by
  simp [superType?, hw]

theorem above_superType (hw : (o t).wraps? = none) (ha : (o t).isAny = false) :
    o.Above t ((o t).superType.getD .any) :=
  .inl (by simp [superType?_of_wraps hw, ha])

theorem not_above_of_isAny (h : (o t).isAny) : ¬ o.Above t u := by
  obtain ⟨hw, hi⟩ := Outline.of_isAny h
  simp [Above, superType?_of_wraps hw, h, hi]

/-- A super type is a class, or `Any`. -/
theorem superType?_isClass (hs : ∀ t, ∀ s ∈ (o t).superType, (o s).isClass)
    (h : o.superType? t = some u) : u = .any ∨ (o u).isClass := by
  unfold superType? at h
  dsimp only at h
  split at h
  · cases h
  · cases hx : (o ((o t).wraps?.getD t)).superType with
    | none =>
        rw [hx] at h
        exact .inl (by simpa using h.symm)
    | some s =>
        rw [hx] at h
        cases h
        exact .inr (hs _ _ hx)

/-- What stands above another type is a class, an interface or `Any`. -/
theorem kind_of_above (hs : ∀ t, ∀ s ∈ (o t).superType, (o s).isClass)
    (hi : ∀ t, ∀ u ∈ (o t).interfaces, (o u).isInterface) (h : o.Above t u) :
    u = .any ∨ (o u).isClass ∨ (o u).isInterface := by
  rcases h with h | h
  · exact (superType?_isClass hs h).imp id .inl
  · exact .inr (.inr (hi t u h))

namespace Layered

variable {n : Nat}

theorem lt_of_isAny_eq_false (h : o.Layered n) (ht : (o t).isAny = false) : t.index < n := by
  by_contra hn
  rw [h.beyond t (Nat.le_of_not_lt hn)] at ht
  cases ht

theorem lt_of_isClass (h : o.Layered n) (ht : (o t).isClass) : t.index < n :=
  h.lt_of_isAny_eq_false (Outline.of_isClass ht).2.1

theorem lt_of_isInterface (h : o.Layered n) (ht : (o t).isInterface) : t.index < n :=
  h.lt_of_isAny_eq_false (Outline.of_isInterface ht).2.1

theorem lt_of_above (h : o.Layered n) (hu : o.Above t u) : u.index < n := by
  rcases kind_of_above h.superType h.interfaces hu with rfl | hu | hu
  · exact h.nonempty
  · exact h.lt_of_isClass hu
  · exact h.lt_of_isInterface hu

theorem any_isAny (h : o.Layered n) : (o .any).isAny := (h.any .any h.nonempty).mpr rfl

theorem isInterface_of_above (h : o.Layered n) (ht : (o t).isInterface) (hu : o.Above t u) :
    (o u).isAny ∨ (o u).isInterface := by
  rcases hu with hu | hu
  · obtain ⟨hw, ha, _⟩ := Outline.of_isInterface ht
    rw [superType?_of_wraps hw, ha, h.interface t ht] at hu
    cases hu
    exact .inl h.any_isAny
  · exact .inr (h.interfaces t u hu)

/-- From an interface only interfaces and `Any` are reached. -/
theorem isInterface_of_reach (h : o.Layered n) (ht : (o t).isInterface)
    (hu : ReflTransGen o.Above t u) : (o u).isAny ∨ (o u).isInterface := by
  induction hu with
  | refl => exact .inr ht
  | tail _ huv ih =>
      rcases ih with ih | ih
      · exact absurd huv (not_above_of_isAny ih)
      · exact h.isInterface_of_above ih huv

theorem lt_superType (h : o.Layered n) {x : Outline} (hx : ∀ s ∈ x.superType, (o s).isClass) :
    (x.superType.getD .any).index < n := by
  cases hs : x.superType with
  | none => exact h.nonempty
  | some s => exact h.lt_of_isClass (hx s hs)

/-! ## New types -/

section

variable {x : Outline} (hi : x.interfaces = []) (hs : ∀ s ∈ x.superType, s = .object)
  (hw : ∀ u ∈ x.wraps?, u.index < n)
include hi hs hw

/-- The edges after a type has been added: those that were there, and edges from the new type. -/
theorem above_add (h : o.Layered n) (hu : (o.set ⟨n⟩ x).Above t u) :
    u.index < n ∧ (o.Above t u ∨ t = ⟨n⟩) := by
  have old : ∀ v : TypeId, v.index < n → o.set ⟨n⟩ x v = o v :=
    fun v hv => set_of_ne (fun e => by subst e; exact Nat.lt_irrefl n hv) o x
  by_cases ht : t = ⟨n⟩
  · subst ht
    refine ⟨?_, .inr rfl⟩
    rcases hu with hu | hu
    · have hy : ∀ s ∈ (o.set ⟨n⟩ x (x.wraps?.getD ⟨n⟩)).superType, (o s).isClass := by
        cases hx : x.wraps? with
        | none =>
            intro s hss
            rw [Option.getD_none, set_self] at hss
            exact hs s hss ▸ h.object
        | some v =>
            rw [Option.getD_some, old v (hw v hx)]
            exact h.superType v
      simp only [superType?, set_self] at hu
      split at hu
      · cases hu
      · cases hu
        exact h.lt_superType hy
    · simp [hi] at hu
  · have heq := set_of_ne ht o x
    have hold : o.Above t u := by
      refine hu.imp (fun hu => ?_) fun hu => heq ▸ hu
      unfold superType? at hu ⊢
      rw [heq] at hu
      cases hx : (o t).wraps? with
      | none => simpa [hx, heq] using hu
      | some v => simpa [hx, old v (h.wraps t v hx)] using hu
    exact ⟨h.lt_of_above hold, .inl hold⟩

/-- A new type may stand below `Object`, or else directly below `Any`. -/
theorem add (h : o.Layered n) (ha : x.isAny = false) (hx : x.isInterface → x.superType = none) :
    (o.set ⟨n⟩ x).Layered (n + 1) := by
  have ne : ∀ {v : TypeId}, v.index < n → v ≠ ⟨n⟩ :=
    fun hv e => by subst e; exact Nat.lt_irrefl n hv
  have cls : ∀ {v : TypeId}, (o v).isClass → (o.set ⟨n⟩ x v).isClass :=
    fun hv => by rwa [set_of_ne (ne (h.lt_of_isClass hv))]
  refine ⟨Nat.succ_pos n, ?_, ?_, ?_, cls h.object, ?_, ?_, ?_, ?_⟩
  · intro t ht
    rw [set_of_ne (fun e => by subst e; exact absurd ht (Nat.not_succ_le_self n))]
    exact h.beyond t (Nat.le_of_succ_le ht)
  · refine forall_set (P := fun _ y => ∀ v ∈ y.wraps?, v.index < n + 1) ?_ fun t _ v hv => ?_
    · exact fun v hv => Nat.lt_succ_of_lt (hw v hv)
    · exact Nat.lt_succ_of_lt (h.wraps t v hv)
  · refine forall_set (P := fun t y => t.index < n + 1 → (y.isAny ↔ t = .any)) ?_ fun t hn ht => ?_
    · have hany : (⟨n⟩ : TypeId) ≠ .any := (ne h.nonempty).symm
      simp [ha, hany]
    · refine h.any t (Nat.lt_of_le_of_ne (Nat.le_of_lt_succ ht) fun e => hn ?_)
      cases t
      exact congrArg _ e
  · refine forall_set (P := fun _ y => ∀ s ∈ y.superType, (o.set ⟨n⟩ x s).isClass) ?_
      fun t _ s hss => ?_
    · exact fun s hss => hs s hss ▸ cls h.object
    · exact cls (h.superType t s hss)
  · exact forall_set (P := fun _ y => y.isInterface → y.superType = none) hx
      fun t _ => h.interface t
  · refine forall_set (P := fun _ y => ∀ u ∈ y.interfaces, (o.set ⟨n⟩ x u).isInterface) ?_
      fun t _ u hu => ?_
    · simp [hi]
    · have hu := h.interfaces t u hu
      rwa [set_of_ne (ne (h.lt_of_isInterface hu))]
  · refine h.acyclic.newEdges (c := ⟨n⟩) fun a b hab => ?_
    rcases (h.above_add hi hs hw hab).2 with hab | rfl
    · exact .inl hab
    · exact .inr (.inr fun y hy => ne (h.above_add hi hs hw hy).1 rfl)

end

/-! ## New edges -/

/-- `x` is a class if `y` is one, and an interface if `y` is one; it must be one of the two. -/
def SameKind (x y : Outline) : Prop :=
  (x.isClass ∧ y.isClass) ∨ (x.isInterface ∧ y.isInterface)

theorem SameKind.eq {x y : Outline} (h : SameKind x y) :
    x.isAny = y.isAny ∧ x.isClass = y.isClass ∧ x.isInterface = y.isInterface ∧
      x.wraps? = y.wraps? := by
  rcases h with ⟨hx, hy⟩ | ⟨hx, hy⟩
  · obtain ⟨wx, ax, ix⟩ := Outline.of_isClass hx
    obtain ⟨wy, ay, iy⟩ := Outline.of_isClass hy
    exact ⟨ax.trans ay.symm, hx.trans hy.symm, ix.trans iy.symm, wx.trans wy.symm⟩
  · obtain ⟨wx, ax, cx⟩ := Outline.of_isInterface hx
    obtain ⟨wy, ay, cy⟩ := Outline.of_isInterface hy
    exact ⟨ax.trans ay.symm, cx.trans cy.symm, hx.trans hy.symm, wx.trans wy.symm⟩

theorem SameKind.not_any {x y : Outline} (h : SameKind x y) :
    x.isAny = false ∧ x.wraps? = none := by
  rcases h with ⟨hx, _⟩ | ⟨hx, _⟩
  · exact ⟨(Outline.of_isClass hx).2.1, (Outline.of_isClass hx).1⟩
  · exact ⟨(Outline.of_isInterface hx).2.1, (Outline.of_isInterface hx).1⟩

section

variable {c : TypeId} {x : Outline} (hc : SameKind x (o c))
include hc

theorem SameKind.set (t : TypeId) :
    (o.set c x t).isAny = (o t).isAny ∧ (o.set c x t).isClass = (o t).isClass ∧
      (o.set c x t).isInterface = (o t).isInterface ∧ (o.set c x t).wraps? = (o t).wraps? :=
  forall_set (P := fun t y => y.isAny = (o t).isAny ∧ y.isClass = (o t).isClass ∧
    y.isInterface = (o t).isInterface ∧ y.wraps? = (o t).wraps?) hc.eq (fun _ _ => by simp) t

/-- The edges after a change of outline: those that were there, edges from the changed type to what
is now above it, and edges from types that are nullable. -/
theorem above_set (h : (o.set c x).Above t u) : o.Above t u ∨
    (t = c ∧ (u = x.superType.getD .any ∨ u ∈ x.interfaces)) ∨ ((o t).wraps?).isSome := by
  obtain ⟨hxa, hxw⟩ := hc.not_any
  by_cases ht : t = c
  · subst ht
    refine .inr (.inl ⟨rfl, h.imp (fun hu => ?_) fun hu => by simpa using hu⟩)
    rw [superType?_of_wraps (by simpa using hxw), set_self, hxa] at hu
    simpa using hu.symm
  · cases hw : (o t).wraps? with
    | none =>
        simp only [Above, superType?, set_of_ne ht, hw, Option.getD_none] at h ⊢
        exact .inl h
    | some v => exact .inr (.inr rfl)

/-- A class or interface may get other types above it if none of them is below it. -/
theorem replace (h : o.Layered n) (hs : ∀ s ∈ x.superType, (o s).isClass)
    (hx : x.isInterface → x.superType = none) (hi : ∀ u ∈ x.interfaces, (o u).isInterface)
    (he : ∀ b, b = x.superType.getD .any ∨ b ∈ x.interfaces →
      o.Above c b ∨ ¬ ReflTransGen o.Above b c) :
    (o.set c x).Layered n := by
  have kind := hc.set
  have hs' : ∀ t, ∀ s ∈ (o.set c x t).superType, (o.set c x s).isClass := by
    simp only [fun s => (kind s).2.1]
    exact forall_set (P := fun _ y => ∀ s ∈ y.superType, (o s).isClass) hs
      fun t _ => h.superType t
  have hi' : ∀ t, ∀ u ∈ (o.set c x t).interfaces, (o.set c x u).isInterface := by
    simp only [fun u => (kind u).2.2.1]
    exact forall_set (P := fun _ y => ∀ u ∈ y.interfaces, (o u).isInterface) hi
      fun t _ => h.interfaces t
  refine ⟨h.nonempty, ?_, ?_, ?_, (kind .object).2.1 ▸ h.object, hs', ?_, hi', ?_⟩
  · intro t ht
    have hne : t ≠ c := by
      rintro rfl
      have hk := (kind t).1
      rw [set_self, hc.not_any.1, h.beyond t ht] at hk
      cases hk
    rw [set_of_ne hne]
    exact h.beyond t ht
  · intro t u hu
    exact h.wraps t u ((kind t).2.2.2 ▸ hu)
  · intro t ht
    rw [(kind t).1]
    exact h.any t ht
  · exact forall_set (P := fun _ y => y.isInterface → y.superType = none) hx
      fun t _ => h.interface t
  · refine h.acyclic.newEdges (c := c) fun a b hab => ?_
    rcases above_set hc hab with hab | ⟨rfl, hb⟩ | hw
    · exact .inl hab
    · exact (he b hb).imp id fun hn => .inl ⟨rfl, hn⟩
    · -- a nullable type stands above no other
      refine .inr (.inr fun y hy => ?_)
      rcases kind_of_above hs' hi' hy with rfl | hk | hk
      · simp [(Outline.of_isAny h.any_isAny).1] at hw
      · rw [(kind a).2.1] at hk
        simp [(Outline.of_isClass hk).1] at hw
      · rw [(kind a).2.2.1] at hk
        simp [(Outline.of_isInterface hk).1] at hw

end

end Layered
end Outlines
end StaticSemantics
