import StaticSemantics.Proofs.Hierarchy.Edits

/-!
Subtyping is a partial order in every session that never forces a super type.
-/

namespace StaticSemantics

open Relation

namespace SymbolTable

/-- What makes subtyping in a table a partial order that a search can decide. -/
structure SubtypeOrder (w : SymbolTable) : Prop where
  /-- The calls that the search for a super type makes go on forever from no type. -/
  terminates : WellFounded fun v t => ∃ u, v ∈ w.directSupers t u
  /-- The search is the recursion over the types directly above, without a bound. -/
  recursion : ∀ t u, w.isSubtype t u = (decide (t = u) || (w.type u).isAny ||
    (w.directSupers t u).any fun v => w.isSubtype v u)
  refl : ∀ t, w.isSubtype t t
  antisymm : ∀ t u, w.types.Has t → w.types.Has u → w.isSubtype t u → w.isSubtype u t → t = u
  trans : ∀ t u v, w.isSubtype t u → w.isSubtype u v → w.isSubtype t v
  top : ∀ t, w.isSubtype t .any
  reach : ∀ t u, w.types.Has u →
    (w.isSubtype t u ↔ u = .any ∨ ReflTransGen w.DirectSuper t u)
  classes : ∀ t u, (w.type t).isClass → (w.type u).isClass →
    (w.isSubtype t u ↔ u = t ∨ u ∈ w.superClasses t)

end SymbolTable

namespace Session

/-- A session that never forces a super type changes its table by edits that do not. -/
theorem Reachable.unforced {s : Session} (h : Reachable (fun op => !op.setsSuperType) s) :
    ∃ interner, SymbolTable.Edited (fun e => !e.setsSuperType) (.initial interner) s.table := by
  refine h.edited fun op ha e he => ?_
  have hop : op.setsSuperType = false := by simpa using ha
  rwa [hop, Bool.false_or] at he

theorem Reachable.layered {s : Session} (h : Reachable (fun op => !op.setsSuperType) s) :
    s.table.Layered := by
  obtain ⟨i, he⟩ := h.unforced
  exact (SymbolTable.initial_layered i).edited he

theorem subtypeOrder_of_reachable {s : Session}
    (h : Reachable (fun op => !op.setsSuperType) s) : s.table.SubtypeOrder := by
  have hl := h.layered
  refine ⟨?_, hl.isSubtype_eq, hl.isSubtype_refl, fun t u => hl.isSubtype_antisymm,
    fun t u v => hl.isSubtype_trans, hl.isSubtype_any, ?_, ?_⟩
  · exact Subrelation.wf (fun ⟨_, hv⟩ => SymbolTable.directSuper_of_mem hv) hl.wellFounded
  · intro t u hu
    rw [hl.isSubtype_iff_reach, hl.isAny_iff hu]
  · intro t u _ hu
    exact hl.isSubtype_iff_mem_superClasses hu

/-- A class below another one, which implements an interface that extends a further one, and the
nullable type over the class. -/
def sampleHierarchy : List Operation :=
  [.edit (.addInterface "Shape"), .edit (.addInterface "Solid"), .edit (.addClass "Body" false),
    .edit (.addClass "Cube" false), .edit (.extendInterface ⟨21⟩ ⟨20⟩),
    .edit (.implement ⟨22⟩ ⟨21⟩), .edit (.extendClass ⟨23⟩ ⟨22⟩), .edit (.addNullable ⟨23⟩)]

theorem subtypeOrder_sampleHierarchy :
    Session.Admits (fun op => !op.setsSuperType) {} sampleHierarchy ∧
      (performAll {} sampleHierarchy).table.isSubtype ⟨23⟩ ⟨20⟩ = true ∧
      (performAll {} sampleHierarchy).table.SubtypeOrder := by
  have h : Session.Admits (fun op => !op.setsSuperType) {} sampleHierarchy := by decide +kernel
  exact ⟨h, by decide +kernel,
    subtypeOrder_of_reachable (Reachable.new.performAll h)⟩

end Session
end StaticSemantics
