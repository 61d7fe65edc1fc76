import Mathlib.Data.List.Find
import StaticSemantics.Proofs.Resolution.Outcome
import StaticSemantics.Proofs.Walk

/-!
How a resolution may change the declarations: new nullable and tuple types appear, and functions are
seen to refer to further slots of the functions around them. No other declaration is touched, and a
type that has been declared this way is found when it is asked for again.
-/

namespace StaticSemantics

namespace Frame

/-- The frame without the slots that it refers to. -/
def uncaptured (f : Frame) : Frame :=
  match f.kind with
  | .activation me _ => { f with kind := .activation me [] }
  | _ => f

@[simp] theorem uncaptured_capture (s : SlotId) (f : Frame) :
    (f.capture s).uncaptured = f.uncaptured := by
  obtain ⟨kind, _⟩ := f
  cases kind <;> rfl

@[simp] theorem parent_uncaptured (f : Frame) : f.uncaptured.parent = f.parent := by
  obtain ⟨kind, _⟩ := f
  cases kind <;> rfl

@[simp] theorem locals_uncaptured (f : Frame) : f.uncaptured.locals = f.locals := by
  obtain ⟨kind, _⟩ := f
  cases kind <;> rfl

@[simp] theorem imports_uncaptured (f : Frame) : f.uncaptured.imports = f.imports := by
  obtain ⟨kind, _⟩ := f
  cases kind <;> rfl

@[simp] theorem target?_uncaptured (f : Frame) : f.uncaptured.target? = f.target? := by
  obtain ⟨kind, _⟩ := f
  cases kind <;> rfl

@[simp] theorem isActivation_uncaptured (f : Frame) :
    f.uncaptured.isActivation = f.isActivation := by
  obtain ⟨kind, _⟩ := f
  cases kind <;> rfl

end Frame

namespace SymbolTable

/-- Frames that are the same but for captures lie in each other in the same way. -/
theorem frameChain_eq_of_uncaptured {w w' : SymbolTable} (hn : w'.frames.size = w.frames.size)
    (hf : ∀ f, (w'.frame f).uncaptured = (w.frame f).uncaptured) (f : FrameId) :
    w'.frameChain f = w.frameChain f := by
  have hnext : (fun f => (w'.frame f).parent) = fun f => (w.frame f).parent := by
    funext g
    simpa using congrArg Frame.parent (hf g)
  have hw : Walks (fun f => (w.frame f).parent) w'.frameChainAt := hnext ▸ w'.walks_frameChainAt
  unfold frameChain
  rw [w.walks_frameChainAt.congr hw, hn]

/-- `w'` is `w` with further nullable and tuple types, and further captured slots. -/
structure Grows (w w' : SymbolTable) : Prop where
  size : w.types.size ≤ w'.types.size
  types : ∀ t, w.types.Has t → w'.type t = w.type t
  enums : ∀ t, (w'.type t).enum? = (w.type t).enum?
  slots : w'.slots = w.slots
  frameCount : w'.frames.size = w.frames.size
  frames : ∀ f, (w'.frame f).uncaptured = (w.frame f).uncaptured
  nullables : ∀ t u, w.nullableOf? t = some u → w'.nullableOf? t = some u
  tuples : ∀ l u, w.tupleOf? l = some u → w'.tupleOf? l = some u

namespace Grows

variable {w w' w'' : SymbolTable}

theorem refl (w : SymbolTable) : w.Grows w :=
  ⟨Nat.le_refl _, fun _ _ => rfl, fun _ => rfl, rfl, rfl, fun _ => rfl, fun _ _ h => h,
    fun _ _ h => h⟩

theorem trans (h : w.Grows w') (h' : w'.Grows w'') : w.Grows w'' where
  size := Nat.le_trans h.size h'.size
  types t ht := (h'.types t (Nat.lt_of_lt_of_le ht h.size)).trans (h.types t ht)
  enums t := (h'.enums t).trans (h.enums t)
  slots := h'.slots.trans h.slots
  frameCount := h'.frameCount.trans h.frameCount
  frames f := (h'.frames f).trans (h.frames f)
  nullables t u hu := h'.nullables t u (h.nullables t u hu)
  tuples l u hu := h'.tuples l u (h.tuples l u hu)

theorem capture (f : FrameId) (s : SlotId) : w.Grows (w.capture f s) := by
  refine ⟨Nat.le_refl _, fun _ _ => rfl, fun _ => rfl, rfl, ?_, fun g => ?_, fun _ _ h => h,
    fun _ _ h => h⟩
  · simp [SymbolTable.capture, modifyFrame]
  · unfold SymbolTable.capture modifyFrame frame
    rw [Arena.get_modify]
    split
    · exact Frame.uncaptured_capture s _
    · rfl

/-- A new type leaves the others alone, and is no enum. -/
theorem push {d : TypeDecl} (h : w'.types = w.types.push d) (hd : d.enum? = none)
    (hs : w'.slots = w.slots) (hf : w'.frames = w.frames)
    (hn : ∀ t u, w.nullableOf? t = some u → w'.nullableOf? t = some u)
    (hl : ∀ l u, w.tupleOf? l = some u → w'.tupleOf? l = some u) : w.Grows w' := by
  refine ⟨?_, ?_, ?_, hs, by rw [hf], fun f => by rw [frame, hf]; rfl, hn, hl⟩
  · simp [h]
  · intro t ht
    unfold type
    rw [h, Arena.get_push_of_has ht]
  · intro t
    unfold type
    rw [h, Arena.get_push]
    split
    · rename_i ht
      subst ht
      have hn : ¬ w.types.Has w.types.next := Nat.lt_irrefl _
      rw [hd, Arena.get_of_not_has hn]
      rfl
    · rfl

theorem addNullable (t : TypeId) : w.Grows (w.addNullable t).2 := by
  rcases w.addNullable_cases t with ⟨_, hw⟩ | ⟨u, _, _, hw⟩ | ⟨_, hn, hw⟩
  · rw [hw]
    exact .refl w
  · rw [hw]
    exact .refl w
  · rw [hw]
    refine .push rfl rfl rfl rfl (fun x u hu => ?_) fun _ _ h => h
    rw [nullableOf?_declareNullable, if_neg]
    · exact hu
    · rintro rfl
      rw [hn] at hu
      cases hu

theorem addTuple (elements : List TypeId) : w.Grows (w.addTuple elements).2 := by
  rcases w.addTuple_cases elements with ⟨u, _, hw⟩ | ⟨hn, hw⟩
  · rw [hw]
    exact .refl w
  · rw [hw]
    refine .push rfl rfl rfl rfl (fun _ _ h => h) fun l u hu => ?_
    rw [tupleOf?_declareTuple, if_neg]
    · exact hu
    · rintro rfl
      rw [hn] at hu
      cases hu

theorem frameChain_eq (h : w.Grows w') (f : FrameId) : w'.frameChain f = w.frameChain f :=
  frameChain_eq_of_uncaptured h.frameCount h.frames f

theorem isActivation_eq (h : w.Grows w') (f : FrameId) :
    (w'.frame f).isActivation = (w.frame f).isActivation := by
  simpa using congrArg Frame.isActivation (h.frames f)

theorem target?_eq (h : w.Grows w') (f : FrameId) :
    (w'.frame f).target? = (w.frame f).target? := by
  simpa using congrArg Frame.target? (h.frames f)

theorem activationOf?_eq (h : w.Grows w') (f : FrameId) :
    w'.activationOf? f = w.activationOf? f := by
  unfold activationOf?
  rw [h.frameChain_eq]
  exact List.find?_congr fun g _ => h.isActivation_eq g

theorem withFrameOf?_eq (h : w.Grows w') (f : FrameId) :
    w'.withFrameOf? f = w.withFrameOf? f := by
  unfold withFrameOf?
  rw [h.frameChain_eq]
  exact List.find?_congr fun g _ => by rw [h.target?_eq g]

/-! ## Constants -/

theorem constantOf?_eq (h : w.Grows w') (s : Symbol) : w'.constantOf? s = w.constantOf? s := by
  have hs : w'.slot = w.slot := by
    funext i
    unfold slot
    rw [h.slots]
  unfold constantOf?
  rw [hs]

theorem enumConstant?_eq (h : w.Grows w') (t : TypeId) (name : String) :
    w'.enumConstant? t name = w.enumConstant? t name := by
  unfold enumConstant?
  rw [h.enums]

theorem binary?_eq (h : w.Grows w') (op : Operator) (v u : Value) :
    Folding.binary? w' op v u = Folding.binary? w op v u := by
  have hf : (w'.type v.type).isFlagsEnum = (w.type v.type).isFlagsEnum := by
    unfold TypeDecl.isFlagsEnum
    rw [h.enums]
  unfold Folding.binary? Folding.bitwise?
  rw [hf]

end Grows

/-! ## Types found again -/

variable {w w' : SymbolTable}

/-- A nullable type that has been declared is found again in whatever the table grows to. -/
theorem addNullable_again {t : TypeId} (ht : w.types.Has t) (h : (w.addNullable t).2.Grows w') :
    w'.addNullable t = ((w.addNullable t).1, w') := by
  have hn : w'.acceptsNull t = w.acceptsNull t := by
    have := (Grows.addNullable (w := w) t).trans h
    rw [acceptsNull, this.types t ht]
    rfl
  have found {u : TypeId} (ha : w.acceptsNull t = false) (hu : w'.nullableOf? t = some u) :
      w'.addNullable t = (u, w') := by
    simp [SymbolTable.addNullable, hn, ha, hu]
  rcases w.addNullable_cases t with ⟨ha, hw⟩ | ⟨u, ha, hu, hw⟩ | ⟨ha, _, hw⟩
  · rw [hw]
    simp [SymbolTable.addNullable, hn, ha]
  · rw [hw] at h ⊢
    exact found ha (h.nullables t u hu)
  · rw [hw] at h ⊢
    refine found ha (h.nullables t w.types.next ?_)
    rw [nullableOf?_declareNullable, if_pos rfl]

theorem addTuple_again {elements : List TypeId} (h : (w.addTuple elements).2.Grows w') :
    w'.addTuple elements = ((w.addTuple elements).1, w') := by
  have found {u : TypeId} (hu : w'.tupleOf? elements = some u) :
      w'.addTuple elements = (u, w') := by
    rcases w'.addTuple_cases elements with ⟨u', hu', hw⟩ | ⟨hn, _⟩
    · rw [hu] at hu'
      cases hu'
      exact hw
    · rw [hu] at hn
      cases hn
  rcases w.addTuple_cases elements with ⟨u, hu, hw⟩ | ⟨_, hw⟩
  · rw [hw] at h ⊢
    exact found (h.tuples elements u hu)
  · rw [hw] at h ⊢
    refine found (h.tuples elements w.types.next ?_)
    rw [tupleOf?_declareTuple, if_pos rfl]

end SymbolTable
end StaticSemantics
