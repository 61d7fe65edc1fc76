import StaticSemantics.Proofs.Closure.Lookup
import StaticSemantics.Proofs.Hierarchy.Acyclic

/-!
Searches along a chain of declarations. A search goes from one declaration to the next until a test
succeeds, with no bound on the way. A search that succeeds passes no declaration twice, so that the
bounded chains of a closed table find exactly what the search finds, also where a chain runs in a
circle.
-/

namespace StaticSemantics

open Relation

/-- From `x` on, the first element at which the test yields something yields `y`. -/
inductive FirstFound {α β : Type} (next : α → Option α) (test : α → Option β) : α → β → Prop where
  | here {x : α} {y : β} (ht : test x = some y) : FirstFound next test x y
  | later {x x' : α} {y : β} (ht : test x = none) (hn : next x = some x')
      (hf : FirstFound next test x' y) : FirstFound next test x y

namespace FirstFound

variable {α β γ : Type} {next : α → Option α} {test : α → Option β} {x x' : α} {y : β}

/-- A search that starts further down also succeeds, be it earlier on its way. -/
theorem exists_of_reach (hr : ReflTransGen (fun a b => next a = some b) x x')
    (h : FirstFound next test x' y) : ∃ y, FirstFound next test x y := by
  induction hr using ReflTransGen.head_induction_on with
  | refl => exact ⟨y, h⟩
  | @head a b hab _ ih =>
      obtain ⟨z, hz⟩ := ih
      cases ht : test a with
      | none => exact ⟨z, .later ht hab hz⟩
      | some z' => exact ⟨z', .here ht⟩

/-- What is made of each hit, knowing where it was found, changes no search. -/
theorem map (f : α → β → γ) (h : FirstFound next test x y) :
    ∃ e, test e = some y ∧ FirstFound next (fun a => (test a).map (f a)) x (f e y) := by
  induction h with
  | here ht => exact ⟨_, ht, .here (by simp [ht])⟩
  | later ht hn _ ih =>
      obtain ⟨e, he, hf⟩ := ih
      exact ⟨e, he, .later (by simp [ht]) hn hf⟩

/-- The search goes on from `a` to `b` and succeeds. -/
def Passes (next : α → Option α) (test : α → Option β) (a b : α) : Prop :=
  test a = none ∧ next a = some b ∧ ∃ y, FirstFound next test b y

/-- No element is passed twice, since after it the search takes the same way again. -/
theorem acyclic_passes (next : α → Option α) (test : α → Option β) :
    Acyclic (Passes next test) := by
  have never : ∀ {a y}, FirstFound next test a y → ¬ TransGen (Passes next test) a a := by
    intro a y h
    induction h with
    | here ht =>
        intro hc
        obtain ⟨b, hb, _⟩ := TransGen.head'_iff.mp hc
        rw [hb.1] at ht
        cases ht
    | later ht hn _ ih =>
        intro hc
        obtain ⟨b, hb, hba⟩ := TransGen.head'_iff.mp hc
        have hb' := hb.2.1
        rw [hn] at hb'
        cases hb'
        exact ih (TransGen.tail' hba hb)
  intro a hc
  obtain ⟨b, ⟨ht, hn, y, hf⟩, _⟩ := TransGen.head'_iff.mp hc
  exact never (.later ht hn hf) hc

end FirstFound

namespace Walks

variable {e : Entity} {β : Type} {next : EntityId e → Option (EntityId e)}
  {walk : Nat → EntityId e → List (EntityId e)} {test : EntityId e → Option β} {n : Nat}
  {x : EntityId e} {y : β}

theorem findSome?_succ (h : Walks next walk) (n : Nat) (x : EntityId e) :
    (walk (n + 1) x).findSome? test =
      (test x).or ((next x).bind fun x' => (walk n x').findSome? test) := by
  rw [h.succ, List.findSome?_cons]
  cases test x with
  | some y => rfl
  | none => cases next x <;> rfl

theorem firstFound_of_findSome? (h : Walks next walk)
    (hy : (walk n x).findSome? test = some y) : FirstFound next test x y := by
  induction n generalizing x with
  | zero =>
      rw [h.zero] at hy
      exact .here (by simpa using hy)
  | succ n ih =>
      rw [h.findSome?_succ] at hy
      cases ht : test x with
      | some z =>
          rw [ht] at hy
          exact .here (ht.trans hy)
      | none =>
          rw [ht, Option.none_or] at hy
          obtain ⟨x', hn, hy⟩ := Option.bind_eq_some_iff.mp hy
          exact .later ht hn (ih hy)

/-- A walk over as many steps as there are ids finds what a search finds. -/
theorem findSome?_eq_some_iff (h : Walks next walk)
    (hn : ∀ a b, next a = some b → b.index < n) :
    (walk n x).findSome? test = some y ↔ FirstFound next test x y := by
  refine ⟨h.firstFound_of_findSome?, fun hf => ?_⟩
  -- the bound falls with the number of elements that are still to be passed
  have bounded : ∀ m, reachedCount (FirstFound.Passes next test) n x ≤ m →
      (walk m x).findSome? test = some y := by
    induction hf with
    | here ht =>
        intro m _
        cases m with
        | zero => rw [h.zero]; simp [ht]
        | succ m => rw [h.findSome?_succ, ht]; rfl
    | later ht hx hf ih =>
        intro m hm
        have hlt := (FirstFound.acyclic_passes next test).reachedCount_lt
          ⟨ht, hx, _, hf⟩ (hn _ _ hx)
        cases m with
        | zero => omega
        | succ m =>
            rw [h.findSome?_succ, ht, hx]
            exact ih m (by omega)
  exact bounded n (reachedCount_le _ _ _)

end Walks

namespace SymbolTable

variable {w : SymbolTable} {β : Type} {y : β}

/-- The member table that a member table inherits from. -/
def inherited? (w : SymbolTable) (d : MemberTableId) : Option MemberTableId :=
  (w.memberTable d).inherits

namespace Closed

theorem findSome?_memberChain (h : w.Closed) {d : MemberTableId}
    {test : MemberTableId → Option β} :
    (w.memberChain d).findSome? test = some y ↔ FirstFound w.inherited? test d y :=
  w.walks_memberChainAt.findSome?_eq_some_iff fun _ _ hb => h.inherits_has hb

theorem findSome?_superChain (h : w.Closed) {t : TypeId} {test : TypeId → Option β} :
    (w.superChain t).findSome? test = some y ↔ FirstFound w.superType? test t y :=
  w.walks_superChainAt.findSome?_eq_some_iff fun _ _ hb => h.superType?_has hb

end Closed
end SymbolTable
end StaticSemantics
