import Mathlib.Data.List.Basic
import Mathlib.Data.List.Find
import StaticSemantics.Proofs.InRange.Hierarchy

/-!
Look-ups in range. What a name or reference comes to in a closed table, and who may use it, is the
same in every memory.
-/

namespace StaticSemantics.SymbolTable

variable {w : SymbolTable} {r : OutOfRange} {t : TypeId} {d : MemberTableId} {s : Symbol}
  {v : Value} {o : Owner} {f : FrameId}

theorem bindings_inRange (ho : w.Covers o.ids) : @bindings ⟨r⟩ w o = w.bindings o := by
  cases o with
  | module m =>
      have hm : w.modules.Has m := ho _ List.mem_cons_self
      simp only [bindings, module_inRange hm]
  | type t =>
      have ht : w.types.Has t := ho _ List.mem_cons_self
      simp only [bindings, type_inRange ht]
  | members d =>
      have hd : w.memberTables.Has d := ho _ List.mem_cons_self
      simp only [bindings, memberTable_inRange hd]
  | frame f =>
      have hf : w.frames.Has f := ho _ List.mem_cons_self
      simp only [bindings, frame_inRange hf]

theorem bound?_inRange (ho : w.Covers o.ids) (name : String) :
    @bound? ⟨r⟩ w o name = w.bound? o name := by
  simp only [bound?, bindings_inRange ho]

theorem tupleElements?_inRange (ht : w.types.Has t) :
    @tupleElements? ⟨r⟩ w t = w.tupleElements? t := by
  simp only [tupleElements?, type_inRange ht]

theorem slotType_inRange {s : SlotId} (hs : w.slots.Has s) :
    @slotType ⟨r⟩ w s = w.slotType s := by
  simp only [slotType, slot_inRange hs]

theorem defaultValue?_inRange (ht : w.types.Has t) :
    @defaultValue? ⟨r⟩ w t = w.defaultValue? t := by
  simp only [defaultValue?, type_inRange ht]

namespace Closed

/-! ## References -/

theorem unwindAt_inRange (h : w.Closed) (n : Nat) (seen : List AliasId) (hs : w.Covers s.ids) :
    @unwindAt ⟨r⟩ w n seen s = w.unwindAt n seen s := by
  induction n generalizing seen s with
  | zero =>
      cases s with
      | aliasDecl a =>
          have ha : w.aliases.Has a := hs _ List.mem_cons_self
          simp only [unwindAt, aliasDecl_inRange ha]
      | _ => rfl
  | succ n ih =>
      cases s with
      | aliasDecl a =>
          have ha : w.aliases.Has a := hs _ List.mem_cons_self
          simp only [unwindAt, aliasDecl_inRange ha]
          rw [ih _ (covers_append.mp (h.aliases a)).1]
      | _ => rfl

theorem unwind_inRange (h : w.Closed) (hs : w.Covers s.ids) : @unwind ⟨r⟩ w s = w.unwind s :=
  h.unwindAt_inRange _ _ hs

theorem referTo_inRange (h : w.Closed) (make : SlotId → TypeId → Value) (hs : w.Covers s.ids) :
    @referTo ⟨r⟩ w make s = w.referTo make s := by
  simp only [referTo, h.unwind_inRange hs]
  cases hu : w.unwind s with
  | error e => rfl
  | ok s' =>
      cases s' with
      | slot s' =>
          have hs' : w.slots.Has s' := h.covers_unwind hs hu _ List.mem_cons_self
          simp only [slotType_inRange hs']
      | _ => rfl

theorem reference_inRange (h : w.Closed) (o : Owner) (hs : w.Covers s.ids) :
    @reference ⟨r⟩ w o s = w.reference o s :=
  h.referTo_inRange _ hs

theorem memberReference_inRange (h : w.Closed) (v : Value) (hs : w.Covers s.ids) :
    @memberReference ⟨r⟩ w v s = w.memberReference v s :=
  h.referTo_inRange _ hs

theorem operatorOf?_inRange (h : w.Closed) (ht : w.types.Has t) (op : Operator) :
    @operatorOf? ⟨r⟩ w t op = w.operatorOf? t op := by
  simp only [operatorOf?, withoutNull_inRange ht, type_inRange (h.withoutNull_has ht)]
  exact Option.bind_congr fun d hd => h.findOperator?_inRange (h.members_has hd) op

theorem operatorOf?_has (h : w.Closed) {op : Operator} {s : SlotId}
    (hs : w.operatorOf? t op = some s) : w.slots.Has s := by
  obtain ⟨d, _, hs⟩ := Option.bind_eq_some_iff.mp hs
  exact h.findOperator?_has hs

theorem indexedType?_inRange (h : w.Closed) (ht : w.types.Has t) :
    @indexedType? ⟨r⟩ w t = w.indexedType? t := by
  simp only [indexedType?, h.operatorOf?_inRange ht]
  cases hget : w.operatorOf? t .getIndex with
  | some s =>
      simp only [methodInfo?_inRange (h.operatorOf?_has hget)]
      exact Option.map_congr fun m hm => by rw [signature_inRange (h.signature_has hm)]
  | none =>
      refine Option.bind_congr fun s hs => ?_
      rw [methodInfo?_inRange (h.operatorOf?_has hs)]
      exact Option.bind_congr fun m hm => by rw [signature_inRange (h.signature_has hm)]

theorem indexReference?_inRange (h : w.Closed) (hv : w.Covers v.ids) :
    @indexReference? ⟨r⟩ w v = w.indexReference? v := by
  simp only [indexReference?, h.indexedType?_inRange (type_has hv)]

theorem tupleElement?_inRange (h : w.Closed) (hv : w.Covers v.ids) (index : Nat) :
    @tupleElement? ⟨r⟩ w v index = w.tupleElement? v index := by
  simp only [tupleElement?, withoutNull_inRange (type_has hv),
    tupleElements?_inRange (h.withoutNull_has (type_has hv))]

theorem isReadOnly_inRange (h : w.Closed) (hv : w.Covers v.ids) :
    @isReadOnly ⟨r⟩ w v = w.isReadOnly v := by
  cases v with
  | reference | memberReference =>
      simp only [isReadOnly, slot_inRange (Value.has_slot_of_covers hv rfl)]
  | indexReference object t =>
      simp only [isReadOnly, h.operatorOf?_inRange (type_has (covers_append.mp hv).1)]
  | _ => rfl

theorem isWriteOnly_inRange (h : w.Closed) (hv : w.Covers v.ids) :
    @isWriteOnly ⟨r⟩ w v = w.isWriteOnly v := by
  cases v with
  | reference | memberReference =>
      simp only [isWriteOnly, slot_inRange (Value.has_slot_of_covers hv rfl)]
  | indexReference object t =>
      simp only [isWriteOnly, h.operatorOf?_inRange (type_has (covers_append.mp hv).1)]
  | _ => rfl

/-! ## Members -/

variable (name : String) (wanted : Wanted)

theorem suits_inRange (h : w.Closed) (hs : w.Covers s.ids) :
    @suits ⟨r⟩ w wanted s = w.suits wanted s := by
  cases wanted with
  | anything => rfl
  | typeOrModule => simp only [suits, denotesTypeOrModule, h.unwind_inRange hs]

theorem find?_inRange (h : w.Closed) (ho : w.Covers o.ids) :
    @find? ⟨r⟩ w o name wanted = w.find? o name wanted := by
  simp only [find?, bound?_inRange ho]
  cases hs : w.bound? o name with
  | none => rfl
  | some s => simp only [Option.filter_some, h.suits_inRange wanted (h.covers_bound? hs)]

theorem resolveIn?_inRange (h : w.Closed) (ho : w.Covers o.ids) :
    @resolveIn? ⟨r⟩ w o name wanted = w.resolveIn? o name wanted := by
  simp only [resolveIn?, h.find?_inRange name wanted ho]
  exact Option.map_congr fun s hs => h.reference_inRange o (h.covers_find? hs)

theorem resolveInType?_inRange (h : w.Closed) (ht : w.types.Has t) :
    @resolveInType? ⟨r⟩ w t name wanted = w.resolveInType? t name wanted := by
  simp only [resolveInType?, h.superChain_inRange ht]
  refine findSome?_congr fun s hs => h.resolveIn?_inRange name wanted ?_
  simpa [Owner.ids] using h.superChain_has ht s hs

theorem resolveInMembers?_inRange (h : w.Closed) (hd : w.memberTables.Has d) :
    @resolveInMembers? ⟨r⟩ w d name wanted = w.resolveInMembers? d name wanted := by
  simp only [resolveInMembers?, h.memberChain_inRange hd]
  refine findSome?_congr fun e he => h.resolveIn?_inRange name wanted ?_
  simpa [Owner.ids] using h.memberChain_has hd e he

theorem rebase_inRange (h : w.Closed) (v : Value) (hs : w.Covers s.ids) :
    @rebase ⟨r⟩ w v s = w.rebase v s := by
  simp only [rebase]
  split
  · rename_i slot hslot
    obtain ⟨u, hu, hslot⟩ := Option.bind_eq_some_iff.mp hslot
    refine h.memberReference_inRange v ?_
    cases s with
    | value u' =>
        cases hu
        simpa [Symbol.ids] using Value.has_slot_of_covers hs hslot
    | _ => cases hu
  · rfl

theorem resolveInValue?_inRange (h : w.Closed) (hv : w.Covers v.ids) :
    @resolveInValue? ⟨r⟩ w v name wanted = w.resolveInValue? v name wanted := by
  have ht := type_has hv
  have through : ((w.type v.type).members.bind fun d =>
        @resolveInMembers? ⟨r⟩ w d name wanted).map (@rebase ⟨r⟩ w v) =
      ((w.type v.type).members.bind fun d => w.resolveInMembers? d name wanted).map
        (w.rebase v) := by
    rw [Option.bind_congr fun d hd =>
      h.resolveInMembers?_inRange name wanted (h.members_has hd)]
    refine Option.map_congr fun s hs => h.rebase_inRange v ?_
    obtain ⟨d, hd, hs⟩ := Option.bind_eq_some_iff.mp hs
    exact h.covers_resolveInMembers? (h.members_has hd) hs
  cases v with
  | staticMe cls t => exact h.resolveInType?_inRange name wanted (hv _ List.mem_cons_self)
  | _ => simp only [resolveInValue?, type_inRange ht, through]

theorem resolveInSymbol?_inRange (h : w.Closed) (hs : w.Covers s.ids) :
    @resolveInSymbol? ⟨r⟩ w s name wanted = w.resolveInSymbol? s name wanted := by
  simp only [resolveInSymbol?, h.unwind_inRange hs]
  cases hu : w.unwind s with
  | error e => rfl
  | ok target =>
      have ht := h.covers_unwind hs hu
      cases target with
      | type t => exact h.resolveInType?_inRange name wanted (ht _ List.mem_cons_self)
      | module m => exact h.resolveIn?_inRange name wanted ht
      | value v => exact h.resolveInValue?_inRange name wanted ht
      | _ => rfl

/-! ## Frames -/

theorem bodyHits_inRange (h : w.Closed) (hf : w.frames.Has f) :
    @bodyHits ⟨r⟩ w f name wanted = w.bodyHits f name wanted := by
  have hk := h.covers_frameKind f
  simp only [bodyHits, frame_inRange hf]
  cases hkind : (w.frame f).kind with
  | body t =>
      have ht : w.types.Has t := by simpa [hkind, FrameKind.ids] using hk
      simp only [h.superChain_inRange ht]
      refine List.filterMap_congr fun s hs => h.resolveIn?_inRange name wanted ?_
      simpa [Owner.ids] using h.superChain_has ht s hs
  | module m =>
      rw [hkind] at hk
      simp only [h.resolveIn?_inRange (o := .module m) name wanted hk]
  | _ => rfl

theorem importHits_inRange (h : w.Closed) (hf : w.frames.Has f) :
    @importHits ⟨r⟩ w f name wanted = w.importHits f name wanted := by
  simp only [importHits, frame_inRange hf]
  refine List.filterMap_congr fun m hm => ?_
  rw [h.resolveIn?_inRange name wanted (by simpa [Owner.ids] using h.imports_has f m hm)]

theorem resolveAtFrame?_inRange (h : w.Closed) (hf : w.frames.Has f) :
    @resolveAtFrame? ⟨r⟩ w f name wanted = w.resolveAtFrame? f name wanted := by
  have hk := h.covers_frameKind f
  have hlocal := h.resolveIn?_inRange (r := r) (o := .frame f) name wanted
    (by simpa [Owner.ids] using hf)
  simp only [resolveAtFrame?, frame_inRange hf, hlocal, h.importHits_inRange name wanted hf,
    h.bodyHits_inRange name wanted hf]
  cases hkind : (w.frame f).kind with
  | activation me captured =>
      simp only [hkind, FrameKind.ids, covers_append, covers_flatMap, Option.mem_toList] at hk
      dsimp only
      rw [Option.bind_congr fun v hv => h.resolveInValue?_inRange name wanted (hk.1 v hv)]
  | _ => rfl

theorem resolveInFrame?_inRange (h : w.Closed) (hf : w.frames.Has f) :
    @resolveInFrame? ⟨r⟩ w f name wanted = w.resolveInFrame? f name wanted := by
  simp only [resolveInFrame?, h.frameChain_inRange hf]
  exact findSome?_congr fun g hg =>
    h.resolveAtFrame?_inRange name wanted (h.frameChain_has hf g hg)

theorem activationOf?_inRange (h : w.Closed) (hf : w.frames.Has f) :
    @activationOf? ⟨r⟩ w f = w.activationOf? f := by
  simp only [activationOf?, h.frameChain_inRange hf]
  exact List.find?_congr fun g hg => by rw [frame_inRange (h.frameChain_has hf g hg)]

theorem withFrameOf?_inRange (h : w.Closed) (hf : w.frames.Has f) :
    @withFrameOf? ⟨r⟩ w f = w.withFrameOf? f := by
  simp only [withFrameOf?, h.frameChain_inRange hf]
  exact List.find?_congr fun g hg => by rw [frame_inRange (h.frameChain_has hf g hg)]

/-! ## Access -/

theorem visibility?_inRange (hs : w.Covers s.ids) : @visibility? ⟨r⟩ w s = w.visibility? s := by
  cases s with
  | slot i =>
      have hi : w.slots.Has i := hs _ List.mem_cons_self
      simp only [visibility?, slot_inRange hi]
  | type t =>
      have ht : w.types.Has t := hs _ List.mem_cons_self
      simp only [visibility?, type_inRange ht]
  | aliasDecl a =>
      have ha : w.aliases.Has a := hs _ List.mem_cons_self
      simp only [visibility?, aliasDecl_inRange ha]
  | value v =>
      exact Option.map_congr fun s hv => by rw [slot_inRange (Value.has_slot_of_covers hs hv)]
  | _ => rfl

theorem covers_visibility? (h : w.Closed) {visibility : Visibility} {owner : Option Owner}
    (hs : w.visibility? s = some (visibility, owner)) : ∀ o ∈ owner, w.Covers o.ids := by
  have slot (i : SlotId) : ∀ o ∈ (w.slot i).definedIn, w.Covers o.ids := by
    simpa using covers_flatMap.mp (covers_append.mp (h.slots i)).2
  cases s with
  | slot i =>
      cases hs
      exact slot i
  | type t =>
      cases hs
      exact h.covers_definedIn t
  | aliasDecl a =>
      cases hs
      simpa using covers_flatMap.mp (covers_append.mp (h.aliases a)).2
  | value v =>
      obtain ⟨i, _, hi⟩ := Option.map_eq_some_iff.mp hs
      cases hi
      exact slot i
  | _ => cases hs

theorem enclosingModuleAt?_inRange (h : w.Closed) (n : Nat) {owner : Option Owner}
    (ho : ∀ o ∈ owner, w.Covers o.ids) :
    @enclosingModuleAt? ⟨r⟩ w n owner = w.enclosingModuleAt? n owner := by
  induction n generalizing owner with
  | zero => rcases owner with _ | _ | _ | _ | _ <;> rfl
  | succ n ih =>
      rcases owner with _ | m | t | d | f
      · rfl
      · rfl
      · have ht : w.types.Has t := by simpa [Owner.ids] using ho _ rfl
        simp only [enclosingModuleAt?, type_inRange ht]
        exact ih (h.covers_definedIn t)
      · have hd : w.memberTables.Has d := by simpa [Owner.ids] using ho _ rfl
        simp only [enclosingModuleAt?, memberTable_inRange hd, type_inRange (h.definedIn_has d)]
        exact ih (h.covers_definedIn _)
      · rfl

theorem enclosingModule?_inRange (h : w.Closed) {owner : Option Owner}
    (ho : ∀ o ∈ owner, w.Covers o.ids) :
    @enclosingModule? ⟨r⟩ w owner = w.enclosingModule? owner :=
  h.enclosingModuleAt?_inRange _ ho

theorem insideModule_inRange (h : w.Closed) (hf : w.frames.Has f) (m : ModuleId) :
    @insideModule ⟨r⟩ w f m = w.insideModule f m := by
  simp only [insideModule, h.frameChain_inRange hf]
  exact any_congr fun g hg => by rw [frame_inRange (h.frameChain_has hf g hg)]

theorem type?_has (h : w.Closed) (ht : (w.frame f).type? = some t) : w.types.Has t := by
  have hk := h.covers_frameKind f
  unfold Frame.type? at ht
  split at ht
  · rename_i u hu
    cases ht
    simpa [hu, FrameKind.ids] using hk
  · cases ht

/-- The test has to be the same only for types whose bodies the frames are. -/
theorem insideType_inRange (h : w.Closed) (hf : w.frames.Has f) {test test' : TypeId → Bool}
    (ht : ∀ u, w.types.Has u → test u = test' u) :
    @insideType ⟨r⟩ w f test = w.insideType f test' := by
  simp only [insideType, h.frameChain_inRange hf]
  refine any_congr fun g hg => ?_
  rw [frame_inRange (h.frameChain_has hf g hg)]
  cases hu : (w.frame g).type? with
  | none => rfl
  | some u => exact ht u (h.type?_has hu)

theorem insideOwner_inRange (h : w.Closed) (hf : w.frames.Has f) (ho : w.Covers o.ids)
    {test test' : TypeId → TypeId → Bool}
    (ht : ∀ t u, w.types.Has t → w.types.Has u → test t u = test' t u) :
    @insideOwner ⟨r⟩ w f o test = w.insideOwner f o test' := by
  cases o with
  | type t =>
      exact h.insideType_inRange hf fun u hu => ht t u (ho _ List.mem_cons_self) hu
  | members d =>
      have hd : w.memberTables.Has d := ho _ List.mem_cons_self
      simp only [insideOwner, memberTable_inRange hd]
      exact h.insideType_inRange hf fun u hu => ht _ u (h.definedIn_has d) hu
  | module m => exact h.insideModule_inRange hf m
  | frame g => rfl

theorem sharesWith_inRange (h : w.Closed) {u : TypeId} (ht : w.types.Has t) (hu : w.types.Has u) :
    @sharesWith ⟨r⟩ w t u = w.sharesWith t u := by
  simp only [sharesWith, type_inRange hu, h.isSubtype_inRange hu ht]

theorem permits_inRange (h : w.Closed) (hf : w.frames.Has f) (visibility : Visibility)
    {owner : Option Owner} (ho : ∀ o ∈ owner, w.Covers o.ids) :
    @permits ⟨r⟩ w f visibility owner = w.permits f visibility owner := by
  cases owner with
  | none => cases visibility <;> rfl
  | some o =>
      have hc := ho o rfl
      have own : @insideOwner ⟨r⟩ w f o (fun t u => u = t) = w.insideOwner f o fun t u => u = t :=
        h.insideOwner_inRange hf hc fun _ _ _ _ => rfl
      have shared : @insideOwner ⟨r⟩ w f o (@sharesWith ⟨r⟩ w) = w.insideOwner f o w.sharesWith :=
        h.insideOwner_inRange hf hc fun t u ht hu => h.sharesWith_inRange ht hu
      have friends : (@enclosingModule? ⟨r⟩ w (some o)).all (@insideModule ⟨r⟩ w f) =
          (w.enclosingModule? (some o)).all (w.insideModule f) := by
        rw [h.enclosingModule?_inRange ho]
        exact congrFun (congrArg _ (funext fun m => h.insideModule_inRange hf m)) _
      cases visibility with
      | everyone => cases o <;> rfl
      | ownerOnly => cases o <;> first | rfl | exact own
      | derived => cases o <;> first | rfl | exact shared
      | friend => cases o <;> first | rfl | exact friends

theorem isAccessible_inRange (h : w.Closed) (hs : w.Covers s.ids) (hf : w.frames.Has f) :
    @isAccessible ⟨r⟩ w s f = w.isAccessible s f := by
  simp only [isAccessible, visibility?_inRange hs]
  cases hv : w.visibility? s with
  | none => rfl
  | some p => exact h.permits_inRange hf p.1 (h.covers_visibility? hv)

end Closed
end StaticSemantics.SymbolTable
