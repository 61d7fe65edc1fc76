import StaticSemantics.Proofs.Hierarchy.Acyclic
import StaticSemantics.Proofs.Walk

/-!
Walks that come to their end. Where no element lies further on from itself, a walk over as many
steps as there are ids is never cut short: it satisfies the equation of the walk without a bound,
and lists each element that it can reach once.
-/

namespace StaticSemantics

open Relation

namespace Walks

variable {e : Entity} {next : EntityId e → Option (EntityId e)}
  {walk : Nat → EntityId e → List (EntityId e)} {n : Nat} {x y : EntityId e}

theorem reach_of_mem (h : Walks next walk) (n : Nat) (hy : y ∈ walk n x) :
    ReflTransGen (fun a b => next a = some b) x y :=
  h.forall_mem (P := ReflTransGen (fun a b => next a = some b) x)
    (fun _ _ hx hn => hx.tail hn) n .refl y hy

variable (h : Walks next walk) (ha : Acyclic fun a b => next a = some b)

include h ha

theorem nodup (n : Nat) (x : EntityId e) : (walk n x).Nodup := by
  induction n generalizing x with
  | zero => simp [h.zero]
  | succ n ih =>
      rw [h.succ]
      cases hx : next x with
      | none => simp
      | some y =>
          refine List.nodup_cons.mpr ⟨fun hmem => ?_, ih y⟩
          exact ha x (TransGen.head' hx (h.reach_of_mem n hmem))

variable (hn : ∀ a b, next a = some b → b.index < n)

include hn

/-- More steps than there are elements ahead add nothing. -/
theorem walk_succ {m : Nat} (hm : reachedCount (fun a b => next a = some b) n x ≤ m) :
    walk (m + 1) x = walk m x := by
  induction m generalizing x with
  | zero =>
      cases hx : next x with
      | none => simp [h.succ, h.zero, hx]
      | some y => exact absurd (ha.reachedCount_lt hx (hn x y hx)) (by omega)
  | succ m ih =>
      rw [h.succ, h.succ m x]
      cases hx : next x with
      | none => rfl
      | some y =>
          have hlt := ha.reachedCount_lt hx (hn x y hx)
          simp only [Option.map_some, ih (Nat.le_of_lt_succ (Nat.lt_of_lt_of_le hlt hm))]

/-- The equation of the walk without a bound. -/
theorem eq_cons (x : EntityId e) : walk n x = x :: ((next x).map (walk n)).getD [] :=
  (h.walk_succ ha hn (reachedCount_le _ _ _)).symm.trans (h.succ n x)

theorem mem_iff : y ∈ walk n x ↔ ReflTransGen (fun a b => next a = some b) x y := by
  refine ⟨h.reach_of_mem n, fun hr => ?_⟩
  induction hr using ReflTransGen.head_induction_on with
  | refl =>
      rw [h.eq_cons ha hn]
      exact List.mem_cons_self
  | head hab _ ih =>
      rw [h.eq_cons ha hn, hab]
      exact List.mem_cons_of_mem _ ih

theorem findSome?_eq {β : Type} (test : EntityId e → Option β) (x : EntityId e) :
    (walk n x).findSome? test =
      (test x).or ((next x).bind fun y => (walk n y).findSome? test) := by
  rw [h.eq_cons ha hn, List.findSome?_cons]
  cases test x with
  | some y => rfl
  | none => cases next x <;> rfl

theorem find?_eq (test : EntityId e → Bool) (x : EntityId e) :
    (walk n x).find? test =
      if test x then some x else (next x).bind fun y => (walk n y).find? test := by
  rw [h.eq_cons ha hn, List.find?_cons]
  cases test x with
  | true => rfl
  | false => cases next x <;> rfl

theorem any_eq (test : EntityId e → Bool) (x : EntityId e) :
    (walk n x).any test = (test x || (next x).any fun y => (walk n y).any test) := by
  rw [h.eq_cons ha hn, List.any_cons]
  cases next x <;> rfl

end Walks
end StaticSemantics
