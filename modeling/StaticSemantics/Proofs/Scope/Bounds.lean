import StaticSemantics.Access
import StaticSemantics.Proofs.Chain
import StaticSemantics.Proofs.Closure.Answers
import StaticSemantics.Proofs.Hierarchy.Reach
import StaticSemantics.Proofs.Hierarchy.Subtyping
import StaticSemantics.Proofs.Members.Inheritance

/-!
Walks through types. Where no type lies above itself and none is defined within itself, the walks up
the super types, along member tables and out to the enclosing module come to their end, and their
bounds cut nothing off.
-/

namespace StaticSemantics

open Relation

namespace SymbolTable

variable {w : SymbolTable}

/-! ## Member tables -/

/-- A table inherits from that of a type directly above its own. -/
theorem Paired.directSuper_of_inherited? (h : w.Paired) {d e : MemberTableId}
    (he : w.inherited? d = some e) :
    w.DirectSuper (w.memberTable d).definedIn (w.memberTable e).definedIn := by
  have hd : w.memberTables.Has d := by
    by_contra hn
    rw [inherited?, memberTable, Arena.get_of_not_has hn] at he
    cases he
  generalize ht : (w.memberTable d).definedIn = t
  have hmembers : (w.type t).members = some d := (h.owner t d).mpr ⟨hd, ht⟩
  have hholds : (w.type t).kind.holdsMembers := by rw [← h.holds, hmembers]; rfl
  rw [inherited?, h.inherits t d hmembers] at he
  obtain ⟨s, hs, hse⟩ := Option.bind_eq_some_iff.mp he
  rw [((h.owner s e).mp hse).2]
  refine .superType ?_
  have hbare : w.withoutNull t = t := by
    cases hk : (w.type t).kind <;> simp [withoutNull, TypeDecl.wraps?, hk]
    simp [hk, TypeKind.holdsMembers] at hholds
  have hany : (w.type t).isAny = false := by
    cases hk : (w.type t).kind <;> simp [TypeDecl.isAny, hk]
    simp [hk, TypeKind.holdsMembers] at hholds
  simp [superType?, hbare, hany, hs]

theorem Paired.acyclic_inherited? (h : w.Paired) (ha : Acyclic w.DirectSuper) :
    Acyclic fun d e => w.inherited? d = some e :=
  ha.of_map (fun d => (w.memberTable d).definedIn) fun _ _ => h.directSuper_of_inherited?

/-! ## Types defined within types -/

/-- The type that a declaration belongs to. -/
def ownerType? (w : SymbolTable) : Owner → Option TypeId
  | .type t => some t
  | .members d => some (w.memberTable d).definedIn
  | .module _ | .frame _ => none

/-- The type that a type is defined within. -/
def outerType? (w : SymbolTable) (t : TypeId) : Option TypeId :=
  (w.type t).definedIn.bind w.ownerType?

theorem Closed.outerType?_has (h : w.Closed) {t u : TypeId} (hu : w.outerType? t = some u) :
    w.types.Has u := by
  obtain ⟨o, ho, hou⟩ := Option.bind_eq_some_iff.mp hu
  have hcov := h.covers_definedIn t o ho
  cases o with
  | type t =>
      cases hou
      simpa [Owner.ids] using hcov
  | members d =>
      cases hou
      exact h.definedIn_has d
  | module _ | frame _ => cases hou

section Outward

variable (h : w.Closed) (ha : Acyclic fun t u => w.outerType? t = some u)

include h ha

/-- More steps than there are types around the declaration add nothing. -/
theorem enclosingModuleAt?_succ {n : Nat} {o : Option Owner}
    (hn : ∀ t ∈ o.bind w.ownerType?,
      reachedCount (fun t u => w.outerType? t = some u) w.types.size t < n) :
    w.enclosingModuleAt? (n + 1) o = w.enclosingModuleAt? n o := by
  induction n generalizing o with
  | zero =>
      rcases o with _ | _ | t | d | _
      · rfl
      · rfl
      · exact absurd (hn t rfl) (Nat.not_lt_zero _)
      · exact absurd (hn _ rfl) (Nat.not_lt_zero _)
      · rfl
  | succ n ih =>
      have outward : ∀ t,
          reachedCount (fun t u => w.outerType? t = some u) w.types.size t < n + 1 →
          w.enclosingModuleAt? (n + 1) (w.type t).definedIn =
            w.enclosingModuleAt? n (w.type t).definedIn := by
        intro t ht
        refine ih fun u hu => ?_
        have hlt := ha.reachedCount_lt hu (h.outerType?_has hu)
        exact Nat.lt_of_lt_of_le hlt (Nat.le_of_lt_succ ht)
      rcases o with _ | _ | t | d | _
      · rfl
      · rfl
      · exact outward t (hn t rfl)
      · exact outward _ (hn _ rfl)
      · rfl

theorem enclosingModule?_outward (t : TypeId) :
    w.enclosingModuleAt? w.types.size (w.type t).definedIn =
      w.enclosingModule? (w.type t).definedIn := by
  refine (enclosingModuleAt?_succ h ha fun u hu => ?_).symm
  have hlt := ha.reachedCount_lt hu (h.outerType?_has hu)
  exact Nat.lt_of_lt_of_le hlt (reachedCount_le _ _ _)

/-- The equation of the walk to the enclosing module without a bound. -/
theorem enclosingModule?_eq (o : Option Owner) :
    w.enclosingModule? o =
      match o with
      | some (.module m) => some m
      | some (.type t) => w.enclosingModule? (w.type t).definedIn
      | some (.members d) => w.enclosingModule? (w.type (w.memberTable d).definedIn).definedIn
      | _ => none := by
  rcases o with _ | _ | t | d | _
  · rfl
  · rfl
  · exact enclosingModule?_outward h ha t
  · exact enclosingModule?_outward h ha _
  · rfl

end Outward

/-! ## All walks together -/

/-- The walks up from types make no call that leads back to itself, and answer as they would without
a bound. -/
structure UpwardWalksEnd (w : SymbolTable) : Prop where
  superTypes : WellFounded fun u t => w.DirectSuper t u
  superChain : ∀ t, w.superChain t = t :: ((w.superType? t).map w.superChain).getD []
  isSubtype : ∀ t u, w.isSubtype t u ↔
    t = u ∨ (w.type u).isAny ∨ ∃ v ∈ w.directSupers t u, w.isSubtype v u
  memberTables : WellFounded fun e d => w.inherited? d = some e
  memberChain : ∀ d, w.memberChain d = d :: ((w.inherited? d).map w.memberChain).getD []

/-- So do all walks through types, those outward from a type included. -/
structure WalksEnd (w : SymbolTable) : Prop extends w.UpwardWalksEnd where
  outerTypes : WellFounded fun u t => w.outerType? t = some u
  enclosingModule : ∀ o, w.enclosingModule? o =
    match o with
    | some (.module m) => some m
    | some (.type t) => w.enclosingModule? (w.type t).definedIn
    | some (.members d) => w.enclosingModule? (w.type (w.memberTable d).definedIn).definedIn
    | _ => none

theorem upwardWalksEnd_of_acyclic (h : w.Closed) (hp : w.Paired) (hs : Acyclic w.DirectSuper) :
    w.UpwardWalksEnd := by
  have super : Acyclic fun t u => w.superType? t = some u := hs.of_map id fun _ _ => .superType
  have inherited := hp.acyclic_inherited? hs
  refine ⟨hs.wellFounded fun t u htu => h.directSuper_has htu, ?_, fun t u => h.isSubtype_iff,
    inherited.wellFounded fun d e he => h.inherits_has he, ?_⟩
  · exact w.walks_superChainAt.eq_cons super fun t u hu => h.superType?_has hu
  · exact w.walks_memberChainAt.eq_cons inherited fun d e he => h.inherits_has he

theorem walksEnd_of_acyclic (h : w.Closed) (hp : w.Paired) (hs : Acyclic w.DirectSuper)
    (ho : Acyclic fun t u => w.outerType? t = some u) : w.WalksEnd where
  toUpwardWalksEnd := upwardWalksEnd_of_acyclic h hp hs
  outerTypes := ho.wellFounded fun _ _ hu => h.outerType?_has hu
  enclosingModule := enclosingModule?_eq h ho

end SymbolTable

namespace Session

variable {s : Session}

/-- No type comes to lie above itself where none is put below another one without a test. -/
theorem Reachable.acyclic_directSuper (h : Reachable (fun op => !op.setsSuperType) s) :
    Acyclic s.table.DirectSuper := by
  rw [SymbolTable.directSuper_eq_above]
  exact h.layered.acyclic

theorem Reachable.upwardWalksEnd {allowed : Operation → Bool} (h : Reachable allowed s)
    (hs : Acyclic s.table.DirectSuper) : s.table.UpwardWalksEnd :=
  SymbolTable.upwardWalksEnd_of_acyclic h.closed.table h.paired hs

end Session
end StaticSemantics
