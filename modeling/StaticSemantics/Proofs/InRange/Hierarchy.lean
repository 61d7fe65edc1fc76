import StaticSemantics.Proofs.Closure.Answers

/-!
Reading in range. What comes of an access with an id that has not been given out is left open; in a
closed table nothing depends on it. Here this is shown for single declarations, for the hierarchy of
types and for texts: in every memory, what is asked about covered ids has the same answer.
-/

namespace StaticSemantics

theorem findSome?_congr {α β : Type} {l : List α} {f g : α → Option β} (h : ∀ x ∈ l, f x = g x) :
    l.findSome? f = l.findSome? g := by
  induction l with
  | nil => rfl
  | cons x l ih =>
      rw [List.findSome?_cons, List.findSome?_cons, h x List.mem_cons_self,
        ih fun y hy => h y (List.mem_cons_of_mem x hy)]

theorem any_congr {α : Type} {l : List α} {p q : α → Bool} (h : ∀ x ∈ l, p x = q x) :
    l.any p = l.any q := by
  induction l with
  | nil => rfl
  | cons x l ih =>
      rw [List.any_cons, List.any_cons, h x List.mem_cons_self,
        ih fun y hy => h y (List.mem_cons_of_mem x hy)]

namespace SymbolTable

variable {w : SymbolTable} {r : OutOfRange} {t u : TypeId} {d : MemberTableId} {s : SlotId}
  {g : SignatureId} {f : FrameId}

/-! ## Declarations -/

theorem type_inRange (ht : w.types.Has t) : @type ⟨r⟩ w t = w.type t := Arena.get_inRange ht r

theorem memberTable_inRange (hd : w.memberTables.Has d) :
    @memberTable ⟨r⟩ w d = w.memberTable d :=
  Arena.get_inRange hd r

theorem module_inRange {m : ModuleId} (hm : w.modules.Has m) : @module ⟨r⟩ w m = w.module m :=
  Arena.get_inRange hm r

theorem slot_inRange (hs : w.slots.Has s) : @slot ⟨r⟩ w s = w.slot s := Arena.get_inRange hs r

theorem signature_inRange (hg : w.signatures.Has g) : @signature ⟨r⟩ w g = w.signature g :=
  Arena.get_inRange hg r

theorem frame_inRange (hf : w.frames.Has f) : @frame ⟨r⟩ w f = w.frame f := Arena.get_inRange hf r

theorem aliasDecl_inRange {a : AliasId} (ha : w.aliases.Has a) :
    @aliasDecl ⟨r⟩ w a = w.aliasDecl a :=
  Arena.get_inRange ha r

theorem declaration_inRange {i : AnyId} (hi : w.Has i) :
    @declaration ⟨r⟩ w i = w.declaration i := by
  obtain ⟨e, i⟩ := i
  cases e with
  | type => exact type_inRange hi
  | memberTable => exact memberTable_inRange hi
  | module => exact module_inRange hi
  | slot => exact slot_inRange hi
  | signature => exact signature_inRange hi
  | frame => exact frame_inRange hi
  | aliasDecl => exact aliasDecl_inRange hi

theorem methodInfo?_inRange (hs : w.slots.Has s) : @methodInfo? ⟨r⟩ w s = w.methodInfo? s := by
  simp only [methodInfo?, slot_inRange hs]

theorem acceptsNull_inRange (ht : w.types.Has t) : @acceptsNull ⟨r⟩ w t = w.acceptsNull t := by
  simp only [acceptsNull, type_inRange ht]

theorem withoutNull_inRange (ht : w.types.Has t) : @withoutNull ⟨r⟩ w t = w.withoutNull t := by
  simp only [withoutNull, type_inRange ht]

theorem subclasses_inRange (ht : w.types.Has t) : @subclasses ⟨r⟩ w t = w.subclasses t := by
  simp only [subclasses, type_inRange ht]

theorem implementors_inRange (ht : w.types.Has t) : @implementors ⟨r⟩ w t = w.implementors t := by
  simp only [implementors, type_inRange ht]

theorem subInterfaces_inRange (ht : w.types.Has t) :
    @subInterfaces ⟨r⟩ w t = w.subInterfaces t := by
  simp only [subInterfaces, type_inRange ht]

theorem enumConstant?_inRange (ht : w.types.Has t) (name : String) :
    @enumConstant? ⟨r⟩ w t name = w.enumConstant? t name := by
  simp only [enumConstant?, type_inRange ht]

namespace Closed

/-! ## Chains -/

theorem superType?_inRange (h : w.Closed) (ht : w.types.Has t) :
    @superType? ⟨r⟩ w t = w.superType? t := by
  simp only [superType?, withoutNull_inRange ht, type_inRange (h.withoutNull_has ht)]

theorem superChain_inRange (h : w.Closed) (ht : w.types.Has t) :
    @superChain ⟨r⟩ w t = w.superChain t :=
  w.walks_superChainAt.congr_of_forall (@walks_superChainAt ⟨r⟩ w)
    (fun _ _ _ hs => h.superType?_has hs) (fun _ hx => h.superType?_inRange hx) _ ht

theorem superClasses_inRange (h : w.Closed) (ht : w.types.Has t) :
    @superClasses ⟨r⟩ w t = w.superClasses t := by
  have hc : ∀ s ∈ (w.superChain t).tail, w.types.Has s :=
    fun s hs => h.superChain_has ht s (List.mem_of_mem_tail hs)
  simp only [superClasses, h.superChain_inRange ht]
  generalize (w.superChain t).tail = l at hc
  induction l with
  | nil => rfl
  | cons s l ih =>
      rw [List.takeWhile_cons, List.takeWhile_cons, type_inRange (hc s List.mem_cons_self),
        ih fun x hx => hc x (List.mem_cons_of_mem s hx)]

theorem memberChain_inRange (h : w.Closed) (hd : w.memberTables.Has d) :
    @memberChain ⟨r⟩ w d = w.memberChain d :=
  w.walks_memberChainAt.congr_of_forall (@walks_memberChainAt ⟨r⟩ w)
    (fun _ _ _ hy => h.inherits_has hy) (fun _ hx => by rw [memberTable_inRange hx]) _ hd

theorem frameChain_inRange (h : w.Closed) (hf : w.frames.Has f) :
    @frameChain ⟨r⟩ w f = w.frameChain f :=
  w.walks_frameChainAt.congr_of_forall (@walks_frameChainAt ⟨r⟩ w)
    (fun _ _ _ hy => h.parent_has hy) (fun _ hx => by rw [frame_inRange hx]) _ hf

theorem findOperator?_inRange (h : w.Closed) (hd : w.memberTables.Has d) (op : Operator) :
    @findOperator? ⟨r⟩ w d op = w.findOperator? d op := by
  simp only [findOperator?, h.memberChain_inRange hd]
  exact findSome?_congr fun e he => by rw [memberTable_inRange (h.memberChain_has hd e he)]

/-! ## Subtyping -/

theorem directSupers_has (h : w.Closed) : ∀ s ∈ w.directSupers t u, w.types.Has s := by
  intro s hs
  have hk := h.covers_kind t
  rcases List.mem_append.mp hs with hs | hs
  · exact h.superType?_has (Option.mem_toList.mp hs)
  · split at hs
    · rename_i info hi
      simp only [hi, TypeKind.ids, List.map_append, covers_append, covers_map] at hk
      split at hs
      · exact hk.1 s hs
      · cases hs
    · rename_i info hi
      simp only [hi, TypeKind.ids, List.map_append, covers_append, covers_map] at hk
      exact hk.1.1 s hs
    · cases hs

theorem directSupers_inRange (h : w.Closed) (ht : w.types.Has t) (hu : w.types.Has u) :
    @directSupers ⟨r⟩ w t u = w.directSupers t u := by
  simp only [directSupers, h.superType?_inRange ht, type_inRange ht, type_inRange hu]

theorem reaches_inRange (h : w.Closed) (n : Nat) (ht : w.types.Has t) (hu : w.types.Has u) :
    @reaches ⟨r⟩ w u n t = w.reaches u n t := by
  induction n generalizing t with
  | zero => rfl
  | succ n ih =>
      simp only [reaches, h.directSupers_inRange ht hu]
      rw [any_congr fun s hs => ih (h.directSupers_has s hs)]

theorem isSubtype_inRange (h : w.Closed) (ht : w.types.Has t) (hu : w.types.Has u) :
    @isSubtype ⟨r⟩ w t u = w.isSubtype t u := by
  simp only [isSubtype, type_inRange hu, h.reaches_inRange _ ht hu]

/-! ## Texts -/

/-- A type and what it is defined in are written the same, by induction on the bound that both
share. -/
theorem textAt_inRange (h : w.Closed) (n : Nat) :
    (∀ t, w.types.Has t → @typeTextAt ⟨r⟩ w n t = w.typeTextAt n t) ∧
    ∀ o : Option Owner, (∀ x ∈ o, w.Covers x.ids) →
      @ownerTextAt ⟨r⟩ w n o = w.ownerTextAt n o := by
  induction n with
  | zero => exact ⟨fun _ _ => rfl, fun o _ => by rcases o with _ | _ | _ | _ | _ <;> rfl⟩
  | succ n ih =>
      constructor
      · intro t ht
        have hk := h.covers_kind t
        simp only [typeTextAt, type_inRange ht, ih.2 _ (h.covers_definedIn t)]
        cases hkind : (w.type t).kind with
        | nullable u =>
            simp only [hkind, TypeKind.ids, covers_cons] at hk
            dsimp only
            rw [ih.1 u hk.1]
        | tuple elements =>
            simp only [hkind, TypeKind.ids, covers_map] at hk
            dsimp only
            rw [List.map_congr_left fun e he => ih.1 e (hk e he)]
        | _ => rfl
      · intro o ho
        rcases o with _ | m | t | _ | _
        · rfl
        · have hm : w.modules.Has m := by simpa [Owner.ids] using ho _ rfl
          have hd := (covers_append.mp (h.modules m)).1
          simp only [ownerTextAt, module_inRange hm]
          rw [ih.2 _ fun x hx => covers_flatMap.mp hd x (Option.mem_toList.mpr hx)]
        · exact ih.1 t (by simpa [Owner.ids] using ho _ rfl)
        · rfl
        · rfl

theorem typeText_inRange (h : w.Closed) (ht : w.types.Has t) :
    @typeText ⟨r⟩ w t = w.typeText t :=
  (h.textAt_inRange _).1 t ht

theorem enumText_inRange (h : w.Closed) (ht : w.types.Has t) (x : Double) :
    @enumText ⟨r⟩ w t x = w.enumText t x := by
  simp only [enumText, withoutNull_inRange ht, type_inRange (h.withoutNull_has ht)]

theorem valueText_inRange (h : w.Closed) {v : Value} (hv : w.Covers v.ids) :
    @valueText ⟨r⟩ w v = w.valueText v := by
  have ht := type_has hv
  cases v with
  | constant c t =>
      cases c with
      | enum x => exact h.enumText_inRange ht x
      | _ => rfl
  | _ => exact h.typeText_inRange ht

theorem paramText_inRange (h : w.Closed) (name : String) (ht : w.types.Has t) :
    @paramText ⟨r⟩ w name t = w.paramText name t := by
  simp only [paramText, type_inRange ht, h.typeText_inRange ht]

theorem covers_optParam (h : w.Closed) (g : SignatureId) :
    ∀ p ∈ (w.signature g).optParams, w.types.Has p.type ∧ ∀ v ∈ p.default, w.Covers v.ids := by
  intro p hp
  have hg := h.signatures g
  simp only [Signature.ids, List.cons_append, covers_cons, covers_append, covers_map,
    covers_flatMap, Option.mem_toList] at hg
  exact ⟨hg.2.1.2 p.type (List.mem_map_of_mem hp), hg.2.2 p hp⟩

theorem optParamText_inRange (h : w.Closed) {p : OptParam} (ht : w.types.Has p.type)
    (hv : ∀ v ∈ p.default, w.Covers v.ids) : @optParamText ⟨r⟩ w p = w.optParamText p := by
  simp only [optParamText, h.paramText_inRange _ ht]
  rw [Option.map_congr fun v hd => by rw [h.valueText_inRange (hv v hd)]]

theorem signatureText_inRange (h : w.Closed) (hg : w.signatures.Has g) :
    @signatureText ⟨r⟩ w g = w.signatureText g := by
  simp only [signatureText, signature_inRange hg, h.typeText_inRange (h.returns_has g)]
  rw [List.map_congr_left fun p hp => h.paramText_inRange p.name (h.param_has g p hp),
    List.map_congr_left fun p hp =>
      h.optParamText_inRange (h.covers_optParam g p hp).1 (h.covers_optParam g p hp).2]

theorem frameLabel_inRange (h : w.Closed) (hf : w.frames.Has f) :
    @frameLabel ⟨r⟩ w f = w.frameLabel f := by
  have hk := h.covers_frameKind f
  simp only [frameLabel, frame_inRange hf]
  cases hkind : (w.frame f).kind with
  | body t =>
      have ht : w.types.Has t := by simpa [hkind, FrameKind.ids] using hk
      simp only [type_inRange ht]
  | _ => rfl

end Closed
end SymbolTable
end StaticSemantics
