import StaticSemantics.Scope

/-!
Bounded walks: from an element to the next one, for a number of steps at most. The chains of super
types, of member tables and of frames are such walks.
-/

namespace StaticSemantics

/-- `walk n x` lists `x` and the elements after it, at most `n` of them. -/
structure Walks {α : Type} (next : α → Option α) (walk : Nat → α → List α) : Prop where
  zero : ∀ x, walk 0 x = [x]
  succ : ∀ n x, walk (n + 1) x = x :: ((next x).map (walk n)).getD []

namespace Walks

variable {α : Type} {next : α → Option α} {walk : Nat → α → List α}

/-- What holds of the start and passes on to the next element holds along the walk. -/
theorem forall_mem (h : Walks next walk) {P : α → Prop}
    (hP : ∀ x y, P x → next x = some y → P y) (n : Nat) {x : α} (hx : P x) :
    ∀ y ∈ walk n x, P y := by
  induction n generalizing x with
  | zero => simpa [h.zero] using hx
  | succ n ih =>
      intro y hy
      rw [h.succ] at hy
      cases hn : next x with
      | none =>
          simp only [hn, Option.map_none, Option.getD_none, List.mem_singleton] at hy
          exact hy ▸ hx
      | some z =>
          simp only [hn, Option.map_some, Option.getD_some, List.mem_cons] at hy
          rcases hy with rfl | hy
          · exact hx
          · exact ih (hP x z hx hn) y hy

variable {next' : α → Option α} {walk' : Nat → α → List α}

/-- Walks that go on in the same way from wherever they come are the same. -/
theorem congr_of_forall (h : Walks next walk) (h' : Walks next' walk') {P : α → Prop}
    (hP : ∀ x y, P x → next x = some y → P y) (hn : ∀ x, P x → next' x = next x) (n : Nat) {x : α}
    (hx : P x) : walk' n x = walk n x := by
  induction n generalizing x with
  | zero => rw [h.zero, h'.zero]
  | succ n ih =>
      rw [h.succ, h'.succ, hn x hx]
      cases hy : next x with
      | none => rfl
      | some y => simp [ih (hP x y hx hy)]

theorem congr (h : Walks next walk) (h' : Walks next walk') (n : Nat) (x : α) :
    walk' n x = walk n x :=
  h.congr_of_forall h' (fun _ _ _ _ => trivial) (fun _ _ => rfl) n (P := fun _ => True) trivial

end Walks

namespace SymbolTable

theorem walks_superChainAt [Memory] (w : SymbolTable) : Walks w.superType? w.superChainAt :=
  ⟨fun _ => rfl, fun _ _ => rfl⟩

theorem walks_memberChainAt [Memory] (w : SymbolTable) :
    Walks (fun d => (w.memberTable d).inherits) w.memberChainAt :=
  ⟨fun _ => rfl, fun _ _ => rfl⟩

theorem walks_frameChainAt [Memory] (w : SymbolTable) :
    Walks (fun f => (w.frame f).parent) w.frameChainAt :=
  ⟨fun _ => rfl, fun _ _ => rfl⟩

end SymbolTable
end StaticSemantics
