import Mathlib.Data.Finset.Card
import Mathlib.Logic.Relation
import StaticSemantics.Id

/-!
Relations without cycles. Where only finitely many elements have something above them, such a
relation has a bounded rank; and it stays without cycles when an element gets new edges to others
that do not lead back to it.
-/

namespace StaticSemantics

open Relation

/-- No element is reached from itself by one step or more. -/
def Acyclic {α : Type} (r : α → α → Prop) : Prop := ∀ a, ¬ TransGen r a a

theorem acyclic_of_rank {α : Type} {r : α → α → Prop} (rank : α → Nat)
    (hr : ∀ a b, r a b → rank b < rank a) : Acyclic r := by
  have lower : ∀ {a b}, TransGen r a b → rank b < rank a := by
    intro a b hab
    induction hab with
    | single h => exact hr _ _ h
    | tail _ h ih => exact Nat.lt_trans (hr _ _ h) ih
  exact fun a ha => Nat.lt_irrefl _ (lower ha)

/-- A relation whose steps are seen in one without cycles has none. -/
theorem Acyclic.of_map {α β : Type} {r : α → α → Prop} {r' : β → β → Prop} (hr : Acyclic r)
    (f : β → α) (hf : ∀ a b, r' a b → r (f a) (f b)) : Acyclic r' :=
  fun a ha => hr (f a) (TransGen.lift f hf _ _ ha)

open Classical in
/-- How many elements of a finite set are reached from `a`. -/
noncomputable def reachedIn {α : Type} (r : α → α → Prop) (s : Finset α) (a : α) : Nat :=
  (s.filter fun b => TransGen r a b).card

open Classical in
theorem reachedIn_le {α : Type} (r : α → α → Prop) (s : Finset α) (a : α) :
    reachedIn r s a ≤ s.card :=
  Finset.card_filter_le s fun b => TransGen r a b

open Classical in
theorem Acyclic.reachedIn_lt {α : Type} {r : α → α → Prop} {s : Finset α} (hr : Acyclic r) {a b : α}
    (hab : r a b) (hb : b ∈ s) : reachedIn r s b < reachedIn r s a := by
  refine Finset.card_lt_card ⟨fun c hc => ?_, fun hs => ?_⟩
  · simp only [Finset.mem_filter] at hc ⊢
    exact ⟨hc.1, .head hab hc.2⟩
  · have ha : b ∈ s.filter fun c => TransGen r a c := Finset.mem_filter.mpr ⟨hb, .single hab⟩
    exact hr b (Finset.mem_filter.mp (hs ha)).2

/-- How many ids below `n` are reached from `a`. -/
noncomputable def reachedCount {e : Entity} (r : EntityId e → EntityId e → Prop) (n : Nat)
    (a : EntityId e) : Nat :=
  reachedIn r ((Finset.range n).image EntityId.mk) a

theorem reachedCount_le {e : Entity} (r : EntityId e → EntityId e → Prop) (n : Nat)
    (a : EntityId e) : reachedCount r n a ≤ n := by
  have h := Finset.card_image_le (s := Finset.range n) (f := EntityId.mk (e := e))
  rw [Finset.card_range] at h
  exact Nat.le_trans (reachedIn_le r _ a) h

theorem Acyclic.reachedCount_lt {e : Entity} {r : EntityId e → EntityId e → Prop} {n : Nat}
    (hr : Acyclic r) {a b : EntityId e} (hab : r a b) (hb : b.index < n) :
    reachedCount r n b < reachedCount r n a :=
  hr.reachedIn_lt hab (Finset.mem_image.mpr ⟨b.index, Finset.mem_range.mpr hb, rfl⟩)

theorem Acyclic.wellFounded {e : Entity} {r : EntityId e → EntityId e → Prop} {n : Nat}
    (hr : Acyclic r) (hn : ∀ a b, r a b → b.index < n) : WellFounded fun b a => r a b :=
  Subrelation.wf (fun {_ _} hab => hr.reachedCount_lt hab (hn _ _ hab))
    (InvImage.wf (reachedCount r n) Nat.lt_wfRel.wf)

section

variable {α : Type} {r r' : α → α → Prop} {c : α}

/-- A path to `c` does not use the new edges, unless it starts where no edge leads to. -/
theorem reflTransGen_of_newEdges
    (he : ∀ a b, r' a b → r a b ∨ a = c ∨ ∀ x, ¬ r' x a) {a : α}
    (h : ReflTransGen r' a c) (hp : ∃ x, r' x a) : ReflTransGen r a c := by
  induction h using ReflTransGen.head_induction_on with
  | refl => exact .refl
  | head hab _ ih =>
      rcases he _ _ hab with hr | rfl | hn
      · exact .head hr (ih ⟨_, hab⟩)
      · exact .refl
      · obtain ⟨x, hx⟩ := hp
        exact absurd hx (hn x)

/-- New edges from `c` to elements that do not lead to `c`, and any edges from elements that no edge
leads to, close no cycle. -/
theorem Acyclic.newEdges (hr : Acyclic r)
    (he : ∀ a b, r' a b → r a b ∨ (a = c ∧ ¬ ReflTransGen r b c) ∨ ∀ x, ¬ r' x a) :
    Acyclic r' := by
  have old : ∀ a b, r' a b → ReflTransGen r' b a → r a b := by
    intro a b hab hba
    rcases he a b hab with h | ⟨rfl, hn⟩ | hn
    · exact h
    · refine absurd (reflTransGen_of_newEdges (fun a b h => ?_) hba ⟨_, hab⟩) hn
      exact (he a b h).imp id (Or.imp And.left id)
    · rcases ReflTransGen.cases_tail hba with rfl | ⟨x, _, hx⟩
      · exact absurd hab (hn _)
      · exact absurd hx (hn x)
  intro a ha
  have key : ∀ {x}, TransGen r' x a → ReflTransGen r' a x → TransGen r x a := by
    intro x hx
    induction hx using TransGen.head_induction_on with
    | single h => exact fun hax => .single (old _ _ h hax)
    | head h hza ih =>
        intro hax
        exact .head (old _ _ h (hza.to_reflTransGen.trans hax)) (ih (hax.tail h))
  exact hr a (key ha .refl)

end

end StaticSemantics
