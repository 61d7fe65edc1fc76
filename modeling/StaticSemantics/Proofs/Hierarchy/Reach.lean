import Mathlib.Order.Lattice.Nat
import StaticSemantics.Proofs.Closure.Values
import StaticSemantics.Proofs.Hierarchy.Order

/-!
The search for a super type in any closed table. Where types lie above themselves, as they may once
a super type has been forced, a type above another one is still found within as many steps as there
are types: the shortest way to it passes no type twice.
-/

namespace StaticSemantics.SymbolTable

variable {w : SymbolTable} {t u v : TypeId} {n : Nat}

theorem reaches_self (w : SymbolTable) (u : TypeId) (n : Nat) : w.reaches u n u := by
  cases n <;> simp [reaches]

theorem reaches_succ :
    w.reaches u (n + 1) t ↔ t = u ∨ ∃ v ∈ w.directSupers t u, w.reaches u n v := by
  simp [reaches]

theorem reaches_mono {m : Nat} (hm : m ≤ n) (h : w.reaches u m t) : w.reaches u n t := by
  induction n generalizing m t with
  | zero => rwa [Nat.le_zero.mp hm] at h
  | succ n ih =>
      cases m with
      | zero =>
          have htu : t = u := of_decide_eq_true h
          exact reaches_succ.mpr (.inl htu)
      | succ m =>
          refine reaches_succ.mpr ((reaches_succ.mp h).imp id ?_)
          exact fun ⟨v, hv, hvu⟩ => ⟨v, hv, ih (Nat.le_of_succ_le_succ hm) hvu⟩

theorem Closed.directSuper_has (h : w.Closed) (hv : w.DirectSuper t v) : w.types.Has v := by
  have hk := h.covers_kind t
  cases hv with
  | superType hv => exact h.superType?_has hv
  | implements hkind hv =>
      rw [hkind, TypeKind.ids, covers_map] at hk
      exact hk v (by simp [hv])
  | «extends» hkind hv =>
      rw [hkind, TypeKind.ids, covers_map] at hk
      exact hk v (by simp [hv])

/-- The search goes on from `t` to `v`, which is closer to `u`. -/
def Approaches (w : SymbolTable) (u t v : TypeId) : Prop :=
  v ∈ w.directSupers t u ∧ ∃ n, w.reaches u n v ∧ ¬ w.reaches u n t

theorem acyclic_approaches (w : SymbolTable) (u : TypeId) : Acyclic (w.Approaches u) := by
  -- the rank is the number of steps that it takes to `u`
  refine acyclic_of_rank (fun t => sInf {n | w.reaches u n t}) fun t v ⟨hv, n, hvu, htu⟩ => ?_
  have hsucc : w.reaches u (n + 1) t := reaches_succ.mpr (.inr ⟨v, hv, hvu⟩)
  have hle : sInf {n | w.reaches u n v} ≤ n := Nat.sInf_le hvu
  have hmem : w.reaches u (sInf {n | w.reaches u n t}) t :=
    Nat.sInf_mem (s := {n | w.reaches u n t}) ⟨n + 1, hsucc⟩
  have hlt : n < sInf {n | w.reaches u n t} :=
    Nat.lt_of_not_le fun hn => htu (reaches_mono hn hmem)
  exact Nat.lt_of_le_of_lt hle hlt

namespace Closed

theorem reaches_of_count (h : w.Closed) (htu : w.reaches u n t) {m : Nat}
    (hm : reachedCount (w.Approaches u) w.types.size t ≤ m) : w.reaches u m t := by
  induction n generalizing t m with
  | zero => exact reaches_mono (Nat.zero_le m) htu
  | succ n ih =>
      by_cases hn : w.reaches u n t
      · exact ih hn hm
      · rcases reaches_succ.mp htu with rfl | ⟨v, hv, hvu⟩
        · exact reaches_self w t m
        · have hlt := (w.acyclic_approaches u).reachedCount_lt ⟨hv, n, hvu, hn⟩
            (h.directSuper_has (directSuper_of_mem hv))
          cases m with
          | zero => exact absurd (Nat.lt_of_lt_of_le hlt hm) (Nat.not_lt_zero _)
          | succ m =>
              have hvm := ih hvu (Nat.le_of_lt_succ (Nat.lt_of_lt_of_le hlt hm))
              exact reaches_succ.mpr (.inr ⟨v, hv, hvm⟩)

/-- As many steps as there are types are enough. -/
theorem reaches_size (h : w.Closed) (htu : w.reaches u n t) : w.reaches u w.types.size t :=
  h.reaches_of_count htu (reachedCount_le _ _ _)

/-- The search satisfies the equation of an unbounded recursion, whatever lies above what. -/
theorem isSubtype_iff (h : w.Closed) :
    w.isSubtype t u ↔
      t = u ∨ (w.type u).isAny ∨ ∃ v ∈ w.directSupers t u, w.isSubtype v u := by
  cases hu : (w.type u).isAny with
  | true => simp [isSubtype, hu]
  | false =>
      simp only [isSubtype, hu, Bool.false_or, Bool.false_eq_true, false_or]
      constructor
      · intro htu
        have hsucc := reaches_mono (Nat.le_succ w.types.size) htu
        exact reaches_succ.mp hsucc
      · intro htu
        exact h.reaches_size (reaches_succ.mpr htu)

end Closed
end StaticSemantics.SymbolTable
