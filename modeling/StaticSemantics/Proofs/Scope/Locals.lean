import StaticSemantics.Proofs.Constant.Typing
import StaticSemantics.Proofs.Scope.Hits

/-!
References to locals. Unless a name or an alias stands for such a reference by itself, a look-up in
scope finds a local only in the frame that holds it. If that is the body of a function, and not of
the innermost one, it lies around the innermost one.
-/

namespace StaticSemantics

open Relation

/-- From the first element of a walk that passes a test, the others that pass it lie further on. -/
theorem Walks.transGen_of_find? {e : Entity} {next : EntityId e → Option (EntityId e)}
    {walk : Nat → EntityId e → List (EntityId e)} (h : Walks next walk) {p : EntityId e → Bool}
    {n : Nat} {x y z : EntityId e} (hz : (walk n x).find? p = some z) (hy : y ∈ walk n x)
    (hp : p y) (hne : y ≠ z) : TransGen (fun a b => next a = some b) z y := by
  induction n generalizing x with
  | zero =>
      rw [h.zero] at hz hy
      rw [List.mem_singleton.mp hy] at hp hne
      rw [List.find?_cons_of_pos hp] at hz
      exact absurd (Option.some.inj hz) hne
  | succ n ih =>
      rw [h.succ] at hz hy
      cases hx : p x with
      | true =>
          rw [List.find?_cons_of_pos hx] at hz
          cases hz
          cases hn : next z with
          | none => simp [hn, hne] at hy
          | some x' =>
              have hy' : y ∈ walk n x' := by simpa [hn, hne] using hy
              exact .head' hn (h.reach_of_mem n hy')
      | false =>
          rw [List.find?_cons_of_neg (by simp [hx])] at hz
          have hyx : y ≠ x := by
            rintro rfl
            rw [hx] at hp
            cases hp
          cases hn : next x with
          | none => simp [hn, hyx] at hy
          | some x' =>
              rw [hn, Option.map_some, Option.getD_some] at hz
              exact ih hz (by simpa [hn, hyx] using hy)

/-- The frame and the slot, if the symbol is a reference to a local. -/
def Symbol.local? : Symbol → Option (FrameId × SlotId)
  | .value (.reference (.frame f) i _) => some (f, i)
  | _ => none

namespace SymbolTable

variable {w : SymbolTable} {name : String} {wanted : Wanted} {f g inner : FrameId} {i : SlotId}
  {s : Symbol}

/-- No name and no alias stands for a reference to a local. -/
def LocalFree (w : SymbolTable) : Prop := ∀ s, w.Stored s → s.local? = none

theorem localFree_iff : w.LocalFree ↔ ∀ s ∈ w.storedSymbols, s.local? = none := by
  refine ⟨fun h s hs => h s (stored_of_mem_storedSymbols hs), fun h s hs => ?_⟩
  rcases hs.mem_storedSymbols with hs | rfl
  · exact h s hs
  · rfl

instance (w : SymbolTable) : Decidable w.LocalFree := decidable_of_iff _ localFree_iff.symm

namespace LocalFree

/-- A local is found in the frame that holds it. -/
theorem owner_eq (h : w.LocalFree) {o : Owner} (hs : w.resolveIn? o name wanted = some s)
    (hl : s.local? = some (f, i)) : o = .frame f := by
  obtain ⟨s', hs', rfl⟩ := Option.map_eq_some_iff.mp hs
  obtain ⟨k, -, hg⟩ := Option.bind_eq_some_iff.mp (Option.filter_eq_some_iff.mp hs').1
  have hstored : w.Stored s' := .name o k (Bindings.get?_eq_some_iff.mp hg)
  unfold reference referTo at hl
  split at hl
  · cases o with
    | frame g =>
        cases hl
        rfl
    | type _ | members _ | module _ => cases hl
  · rename_i hu
    rw [h _ ((leadsTo_of_unwindAt hu).stored hstored)] at hl
    cases hl
  · cases hl

end LocalFree

theorem local?_rebase (w : SymbolTable) (v : Value) (s : Symbol) :
    (w.rebase v s).local? = none := by
  unfold rebase
  split
  · rfl
  · rename_i hs
    cases s with
    | value u => cases u <;> first | rfl | cases hs
    | slot _ | type _ | module _ | aliasDecl _ | error _ => rfl

namespace LocalFree

/-- Nothing that is found through an object is a local. -/
theorem local?_resolveInValue? (h : w.LocalFree) {v : Value}
    (hs : w.resolveInValue? v name wanted = some s) : s.local? = none := by
  unfold resolveInValue? at hs
  split at hs
  · obtain ⟨t, _, hs⟩ := List.exists_of_findSome?_eq_some hs
    by_contra hl
    obtain ⟨l, hl⟩ := Option.ne_none_iff_exists'.mp hl
    cases h.owner_eq hs hl
  · dsimp only at hs
    split at hs
    · cases hs
      rfl
    · obtain ⟨s', _, rfl⟩ := Option.map_eq_some_iff.mp hs
      exact w.local?_rebase _ s'

theorem frame_eq_of_mem_ownHits (h : w.LocalFree) (hs : s ∈ w.ownHits g name wanted)
    (hl : s.local? = some (f, i)) : f = g := by
  have locals (hs : w.resolveIn? (.frame g) name wanted = some s) : f = g := by
    cases h.owner_eq hs hl
    rfl
  unfold ownHits bodyHits at hs
  cases hk : (w.frame g).kind with
  | activation me _ =>
      simp only [hk, Option.mem_toList] at hs
      rcases (Option.orElse_eq_some _ _ _).mp hs with hs | ⟨_, hs⟩
      · exact locals hs
      · obtain ⟨v, _, hs⟩ := Option.bind_eq_some_iff.mp hs
        rw [h.local?_resolveInValue? hs] at hl
        cases hl
  | module m =>
      simp only [hk, List.mem_append, Option.mem_toList] at hs
      rcases hs with hs | hs
      · cases h.owner_eq hs hl
      · exact locals hs
  | body t =>
      simp only [hk, List.mem_append, List.mem_filterMap, Option.mem_toList] at hs
      rcases hs with ⟨u, _, hs⟩ | hs
      · cases h.owner_eq hs hl
      · exact locals hs
  | withBlock _ =>
      simp only [hk, List.nil_append, Option.mem_toList] at hs
      exact locals hs

theorem frame_eq (h : w.LocalFree) (hs : w.resolveAtFrame? g name wanted = some s)
    (hl : s.local? = some (f, i)) : f = g := by
  rw [resolveAtFrame?_eq_settle] at hs
  rcases mem_of_settle hs with ⟨m, hm⟩ | rfl
  · have himported : (s, m) ∉ w.importHits g name wanted := by
      rw [mem_importHits]
      rintro ⟨n, _, hs, _⟩
      cases h.owner_eq hs hl
    have hown : s ∈ w.ownHits g name wanted := by
      unfold hits at hm
      dsimp only at hm
      split at hm <;> simp_all
    exact h.frame_eq_of_mem_ownHits hown hl
  · cases hl

theorem mem_frameChain (h : w.LocalFree) (hs : w.resolveInFrame? g name wanted = some s)
    (hl : s.local? = some (f, i)) : f ∈ w.frameChain g := by
  obtain ⟨g', hg', hs⟩ := List.exists_of_findSome?_eq_some hs
  exact h.frame_eq hs hl ▸ hg'

/-- A function whose local is found lies around the innermost one, unless it is that. -/
theorem outer (h : w.LocalFree) (hs : w.resolveInFrame? g name wanted = some s)
    (hl : s.local? = some (f, i)) (hinner : w.activationOf? g = some inner) (hne : f ≠ inner)
    (hf : (w.frame f).isActivation) :
    TransGen (fun a b => (w.frame a).parent = some b) inner f :=
  w.walks_frameChainAt.transGen_of_find? hinner (h.mem_frameChain hs hl) hf hne

end LocalFree
end SymbolTable
end StaticSemantics
