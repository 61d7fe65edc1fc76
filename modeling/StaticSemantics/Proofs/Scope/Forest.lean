import StaticSemantics.Proofs.Hierarchy.Subtyping
import StaticSemantics.Proofs.Scope.Bounds

/-!
Frames form a forest. A frame gets a parent when it is entered from another one for the first time,
unless that one lies inside it; nothing else changes a parent. So no frame ever lies inside itself,
in whatever order frames are entered and left, and every walk outward comes to its end.
-/

namespace StaticSemantics

open Relation

namespace SymbolTable

variable {w w' : SymbolTable}

/-! ## What an edit does to parents -/

theorem parent_modifyFrame (f : FrameId) {change : Frame → Frame}
    (hc : ∀ x, (change x).parent = x.parent) (g : FrameId) :
    ((w.modifyFrame f change).frame g).parent = (w.frame g).parent :=
  w.frames.congr_get_modify f hc g

theorem parent_bind (o : Owner) (name : String) (s : Symbol) (g : FrameId) :
    ((w.bind o name s).frame g).parent = (w.frame g).parent := by
  cases o with
  | frame f =>
      have kept (x : Frame) :
          { x with locals := x.locals.insert (w.intern name).1 s }.parent = x.parent := rfl
      exact parent_modifyFrame (w := (w.intern name).2) f kept g
  | type _ | members _ | module _ => rfl

/-- One sort of change gives parents, and the others leave them. A new frame has no parent, as an
id that is not given out. -/
theorem parent_change {c : Change} (hc : ∀ f top, c ≠ .parent f top) (g : FrameId) :
    ((w.change c).frame g).parent = (w.frame g).parent := by
  cases c with
  | parent f top => exact absurd rfl (hc f top)
  | newFrame kind => exact w.frames.congr_get_push (f := Frame.parent) (x := { kind }) rfl g
  | importModule f m =>
      exact parent_modifyFrame f (fun x => by unfold Frame.importModule; split <;> rfl) g
  | capture f s =>
      exact parent_modifyFrame f (fun x => by unfold Frame.capture; split <;> rfl) g
  | definedIn s o => cases s <;> rfl
  | name o name s => exact parent_bind o name s g
  | _ => rfl

/-- What an edit does to parents: nothing, or it gives one to a frame that has none and that does
not lie around it. -/
inductive FrameStep (w w' : SymbolTable) : Prop where
  | same (h : ∀ g, (w'.frame g).parent = (w.frame g).parent)
  | attached (f top : FrameId) (none : (w.frame f).parent = none) (outside : f ∉ w.frameChain top)
      (parent : ∀ g, (w'.frame g).parent = if g = f then some top else (w.frame g).parent)

namespace FrameStep

theorem attachFrame {f : FrameId} (hf : w.frames.Has f) (top : FrameId) :
    FrameStep w (w.attachFrame f top) := by
  unfold SymbolTable.attachFrame
  split
  · rename_i hguard
    obtain ⟨hnone, houtside⟩ : (w.frame f).parent = none ∧ f ∉ w.frameChain top := by
      simpa using hguard
    refine .attached f top hnone houtside fun g => ?_
    simp only [frame, modifyFrame, Arena.get_modify]
    by_cases hg : g = f
    · simp [hg, hf]
    · simp [hg, Ne.symm hg]
  · exact .same fun _ => rfl

/-- Every edit is such a step. -/
theorem apply {e : Edit} (he : w.Covers e.ids) : FrameStep w (w.apply e) := by
  by_cases ha : ∃ f top, e = .attachFrame f top
  · obtain ⟨f, top, rfl⟩ := ha
    simp only [Edit.ids, covers_cons] at he
    exact attachFrame he.1 top
  · refine .same fun g => ?_
    refine apply_induction (P := fun w' => (w'.frame g).parent = (w.frame g).parent)
      (fun w' c hm h => (parent_change (fun f top hc => ?_) g).trans h) rfl
    subst hc
    cases e <;> first | (cases hm; done) | exact ha ⟨_, _, rfl⟩

/-- A parent once given stays. -/
theorem parent_eq (h : FrameStep w w') {f g : FrameId} (hf : (w.frame f).parent = some g) :
    (w'.frame f).parent = some g := by
  cases h with
  | same h => exact (h f).trans hf
  | attached f' top none _ parent =>
      have hne : f ≠ f' := by
        rintro rfl
        rw [none] at hf
        cases hf
      rw [parent, if_neg hne, hf]

end FrameStep

/-! ## No frame lies inside itself -/

/-- Going from frame to parent leads back to no frame. -/
def FramesAcyclic (w : SymbolTable) : Prop := Acyclic fun f g => (w.frame f).parent = some g

theorem FramesAcyclic.mem_frameChain (h : w.FramesAcyclic) (hc : w.Closed) {f g : FrameId} :
    g ∈ w.frameChain f ↔ ReflTransGen (fun a b => (w.frame a).parent = some b) f g :=
  w.walks_frameChainAt.mem_iff h fun _ _ => hc.parent_has

theorem FramesAcyclic.step (h : w.FramesAcyclic) (hc : w.Closed) (hs : FrameStep w w') :
    w'.FramesAcyclic := by
  cases hs with
  | same hs => exact h.of_map id fun f g hg => (hs f).symm.trans hg
  | attached f top _ outside parent =>
      -- the one new edge leads to a frame from which no edge leads back
      refine Acyclic.newEdges (c := f) h fun a b hab => ?_
      rw [parent] at hab
      by_cases ha : a = f
      · rw [if_pos ha] at hab
        cases hab
        exact .inr (.inl ⟨ha, fun hr => outside ((h.mem_frameChain hc).mpr hr)⟩)
      · rw [if_neg ha] at hab
        exact .inl hab

theorem FramesAcyclic.edited (h : w.FramesAcyclic) (hc : w.Closed) {allowed : Edit → Bool}
    (he : Edited allowed w w') : w'.FramesAcyclic := by
  induction he with
  | refl => exact h
  | step e he hcov _ ih => exact ih.step (hc.edited he).1 (.apply hcov)

theorem parent_eq_of_edited {allowed : Edit → Bool} (he : Edited allowed w w') {f g : FrameId}
    (hf : (w.frame f).parent = some g) : (w'.frame f).parent = some g := by
  induction he with
  | refl => exact hf
  | step e _ hcov _ ih => exact (FrameStep.apply hcov).parent_eq ih

private theorem initial_frames (i : Interner) : (initial i).frames.size = 0 :=
  initial_induction (P := fun w => w.frames.size = 0) (fun _ _ _ h => h) (by decide +kernel) i

theorem initial_framesAcyclic (i : Interner) : (initial i).FramesAcyclic := by
  refine acyclic_of_rank (fun _ => 0) fun f g hg => ?_
  have hf : ¬ (initial i).frames.Has f := by
    rw [Arena.Has, initial_frames]
    exact Nat.not_lt_zero _
  rw [frame, Arena.get_of_not_has hf] at hg
  cases hg

/-! ## Walks outward -/

/-- Frames form a forest. The walks outward through it make no call that leads back to itself, and
answer as they would without a bound. -/
structure FrameForest (w : SymbolTable) : Prop where
  wellFounded : WellFounded fun g f => (w.frame f).parent = some g
  nodup : ∀ f, (w.frameChain f).Nodup
  mem_frameChain : ∀ f g,
    g ∈ w.frameChain f ↔ ReflTransGen (fun a b => (w.frame a).parent = some b) f g
  frameChain : ∀ f, w.frameChain f = f :: ((w.frame f).parent.map w.frameChain).getD []
  resolveInFrame : ∀ f name wanted, w.resolveInFrame? f name wanted =
    (w.resolveAtFrame? f name wanted).or
      ((w.frame f).parent.bind fun g => w.resolveInFrame? g name wanted)
  activationOf : ∀ f, w.activationOf? f =
    if (w.frame f).isActivation then some f else (w.frame f).parent.bind w.activationOf?
  withFrameOf : ∀ f, w.withFrameOf? f =
    if (w.frame f).target?.isSome then some f else (w.frame f).parent.bind w.withFrameOf?
  insideModule : ∀ f m, w.insideModule f m =
    ((w.frame f).isModule m || (w.frame f).parent.any fun g => w.insideModule g m)
  insideType : ∀ f test, w.insideType f test =
    ((w.frame f).type?.any test || (w.frame f).parent.any fun g => w.insideType g test)

theorem FramesAcyclic.forest (h : w.FramesAcyclic) (hc : w.Closed) : w.FrameForest := by
  have walks := w.walks_frameChainAt
  have has : ∀ f g, (w.frame f).parent = some g → w.frames.Has g := fun _ _ => hc.parent_has
  exact ⟨h.wellFounded has, walks.nodup h _, fun _ _ => h.mem_frameChain hc, walks.eq_cons h has,
    fun f name wanted => walks.findSome?_eq h has _ f, walks.find?_eq h has _,
    walks.find?_eq h has _, fun f m => walks.any_eq h has _ f,
    fun f test => walks.any_eq h has _ f⟩

/-- No type lies within itself if each is declared after the type that it is defined within. -/
theorem acyclic_outerType? (h : ∀ i < w.types.size, ∀ u ∈ w.outerType? ⟨i⟩, u.index < i) :
    Acyclic fun t u => w.outerType? t = some u := by
  refine acyclic_of_rank (fun t => t.index) fun t u hu => ?_
  have ht : w.types.Has t := by
    by_contra hn
    rw [outerType?, type, Arena.get_of_not_has hn] at hu
    cases hu
  exact h t.index ht u hu

end SymbolTable

namespace Session

variable {s : Session}

theorem Reachable.framesAcyclic {allowed : Operation → Bool} (h : Reachable allowed s) :
    s.table.FramesAcyclic := by
  obtain ⟨i, he⟩ := h.edited_initial
  exact (SymbolTable.initial_framesAcyclic i).edited (SymbolTable.initial_closed i) he

theorem performAll_edited (h : s.workspace.Closed) {allowed : Operation → Bool}
    {ops : List Operation} (ha : s.Admits allowed ops) :
    SymbolTable.Edited (fun _ => true) s.table (s.performAll ops).table := by
  induction ops generalizing s with
  | nil => exact .refl
  | cons op ops ih =>
      obtain ⟨hc, _, hops⟩ := ha
      exact ((perform_edited h hc).mono fun _ _ => rfl).trans (ih (perform_closed h hc) hops)

/-- In every session frames form a forest, in which no link is changed by any later operations. If
moreover no type lies above itself or within itself, all walks come to their end that a look-up from
a frame and a test of access from a frame are made of. -/
theorem frameForest_of_reachable (h : Reachable (fun _ => true) s) :
    s.table.FrameForest ∧
    (∀ ops, s.Admits (fun _ => true) ops → ∀ f g, (s.table.frame f).parent = some g →
      ((s.performAll ops).table.frame f).parent = some g) ∧
    (Acyclic s.table.DirectSuper → Acyclic (fun t u => s.table.outerType? t = some u) →
      s.table.WalksEnd) := by
  have hc : s.table.Closed := h.closed.table
  refine ⟨h.framesAcyclic.forest hc, fun ops ha f g hf => ?_, fun hs ho => ?_⟩
  · exact SymbolTable.parent_eq_of_edited (performAll_edited h.closed ha) hf
  · exact SymbolTable.walksEnd_of_acyclic hc h.paired hs ho

/-- A class within another one and below it. The body of the outer class is entered, then a function
in it, and the body once more from there; the function is then entered first, and the body after. -/
def sampleFrames : List Operation :=
  [.edit (.addClass "Outer" false), .edit (.addClass "Inner" false),
    .edit (.define (.type ⟨20⟩) "Inner" (.type ⟨21⟩)), .edit (.extendClass ⟨21⟩ ⟨20⟩),
    .edit (.addFrame (.body ⟨20⟩)), .edit (.addFrame (.activation none [])), .enter ⟨0⟩, .enter ⟨1⟩,
    .enter ⟨0⟩, .leave, .leave, .leave, .enter ⟨1⟩, .enter ⟨0⟩]

theorem frameForest_sampleFrames :
    let w := (performAll {} sampleFrames).table
    Session.Admits (fun _ => true) {} sampleFrames ∧ w.FrameForest ∧
      w.frameChain ⟨1⟩ = [⟨1⟩, ⟨0⟩] ∧ (w.frame ⟨0⟩).parent = none ∧ w.WalksEnd := by
  have facts : let w := (performAll {} sampleFrames).table
      Session.Admits (fun _ => true) {} sampleFrames ∧
        Session.Admits (fun op => !op.setsSuperType) {} sampleFrames ∧
        w.frameChain ⟨1⟩ = [⟨1⟩, ⟨0⟩] ∧ (w.frame ⟨0⟩).parent = none ∧
        ∀ i < w.types.size, ∀ u ∈ w.outerType? ⟨i⟩, u.index < i := by
    decide +kernel
  obtain ⟨h, h', hchain, hroot, hwithin⟩ := facts
  have hs := (Reachable.new.performAll h').acyclic_directSuper
  obtain ⟨hf, _, hw⟩ := frameForest_of_reachable (Reachable.new.performAll h)
  exact ⟨h, hf, hchain, hroot, hw hs (SymbolTable.acyclic_outerType? hwithin)⟩

end Session
end StaticSemantics
