import Mathlib.Data.Option.Basic
import StaticSemantics.Proofs.Closure.Basic
import StaticSemantics.Proofs.Walk

/-!
Look-ups in a closed table. A name found among the members of a covered declaration, value or frame
stands for a covered symbol.
-/

namespace StaticSemantics

theorem Value.has_slot_of_covers {w : SymbolTable} {v : Value} {s : SlotId} (h : w.Covers v.ids)
    (hs : v.slot? = some s) : w.slots.Has s := by
  cases v <;> simp_all [Value.ids, Value.slot?]

theorem Bindings.covers_get? {w : SymbolTable} {b : Bindings} {k : Key} {s : Symbol}
    (h : w.Covers b.ids) (hs : b.get? k = some s) : w.Covers s.ids := by
  simp only [Bindings.ids, SymbolTable.covers_flatMap] at h
  exact h (k, s) (Bindings.get?_eq_some_iff.mp hs)

namespace SymbolTable

variable {w : SymbolTable}

namespace Closed

/-! ## Parts of declarations -/

theorem covers_kind (h : w.Closed) (t : TypeId) : w.Covers (w.type t).kind.ids := by
  have ht := h.types t
  simp only [TypeDecl.ids, covers_append] at ht
  exact ht.1.1.1.1

theorem covers_detail (h : w.Closed) (s : SlotId) : w.Covers (w.slot s).detail.ids :=
  (covers_append.mp (h.slots s)).1

theorem covers_frameKind (h : w.Closed) (f : FrameId) : w.Covers (w.frame f).kind.ids := by
  have hf := h.frames f
  simp only [Frame.ids, covers_append] at hf
  exact hf.1.1.1

theorem imports_has (h : w.Closed) (f : FrameId) : ∀ m ∈ (w.frame f).imports, w.modules.Has m := by
  have hf := h.frames f
  simp only [Frame.ids, covers_append, covers_map] at hf
  exact hf.1.2

/-! ## Chains -/

theorem superType_has (h : w.Closed) {t u : TypeId} (hu : (w.type t).superType = some u) :
    w.types.Has u := by
  have ht := h.types t
  simp only [TypeDecl.ids, covers_append, hu] at ht
  simpa using ht.1.2

theorem superType?_has (h : w.Closed) {t u : TypeId} (hu : w.superType? t = some u) :
    w.types.Has u := by
  unfold superType? at hu
  dsimp only at hu
  split at hu
  · cases hu
  · cases hs : (w.type (w.withoutNull t)).superType with
    | none =>
        rw [hs] at hu
        cases hu
        exact h.has_supplied (by decide)
    | some v =>
        rw [hs] at hu
        cases hu
        exact h.superType_has hs

theorem superChain_has (h : w.Closed) {t : TypeId} (ht : w.types.Has t) :
    ∀ s ∈ w.superChain t, w.types.Has s :=
  w.walks_superChainAt.forall_mem (fun _ _ _ hs => h.superType?_has hs) _ ht

theorem inherits_has (h : w.Closed) {d e : MemberTableId}
    (he : (w.memberTable d).inherits = some e) : w.memberTables.Has e := by
  have := h.memberTables d
  simp only [MemberTable.ids, List.cons_append, covers_cons, covers_append, he] at this
  simpa using this.2.1.2

theorem memberChain_has (h : w.Closed) {d : MemberTableId} (hd : w.memberTables.Has d) :
    ∀ e ∈ w.memberChain d, w.memberTables.Has e :=
  w.walks_memberChainAt.forall_mem (fun _ _ _ hy => h.inherits_has hy) _ hd

theorem parent_has (h : w.Closed) {f g : FrameId} (hg : (w.frame f).parent = some g) :
    w.frames.Has g := by
  have hf := h.frames f
  simp only [Frame.ids, covers_append, hg] at hf
  simpa using hf.2

theorem frameChain_has (h : w.Closed) {f : FrameId} (hf : w.frames.Has f) :
    ∀ g ∈ w.frameChain f, w.frames.Has g :=
  w.walks_frameChainAt.forall_mem (fun _ _ _ hy => h.parent_has hy) _ hf

theorem members_has (h : w.Closed) {t : TypeId} {d : MemberTableId}
    (hd : (w.type t).members = some d) : w.memberTables.Has d :=
  h.members_of_superType (some t) d (by simpa using hd)

theorem activationOf?_has (h : w.Closed) {f g : FrameId} (hf : w.frames.Has f)
    (hg : w.activationOf? f = some g) : w.frames.Has g :=
  h.frameChain_has hf g (List.mem_of_find?_eq_some hg)

/-! ## References -/

theorem covers_bindings (h : w.Closed) (o : Owner) : w.Covers (w.bindings o).ids := by
  cases o with
  | module m => exact (covers_append.mp (h.modules m)).2
  | type t =>
      have := h.types t
      simp only [TypeDecl.ids, covers_append] at this
      exact this.1.1.2
  | members d =>
      have := h.memberTables d
      simp only [MemberTable.ids, List.cons_append, covers_cons, covers_append] at this
      exact this.2.1.1
  | frame f =>
      have := h.frames f
      simp only [Frame.ids, covers_append] at this
      exact this.1.1.2

theorem covers_unwindAt (h : w.Closed) {n : Nat} {seen : List AliasId} {s s' : Symbol}
    (hs : w.Covers s.ids) (hu : w.unwindAt n seen s = .ok s') : w.Covers s'.ids := by
  induction n generalizing seen s with
  | zero =>
      cases s with
      | aliasDecl a => cases hu
      | _ => cases hu; exact hs
  | succ n ih =>
      cases s with
      | aliasDecl a =>
          simp only [unwindAt] at hu
          split at hu
          · cases hu
          · exact ih (covers_append.mp (h.aliases a)).1 hu
      | _ => cases hu; exact hs

theorem covers_unwind (h : w.Closed) {s s' : Symbol} (hs : w.Covers s.ids)
    (hu : w.unwind s = .ok s') : w.Covers s'.ids :=
  h.covers_unwindAt hs hu

end Closed

/-- The only way in which the search for the target of an alias fails. -/
theorem unwindAt_eq_error {n : Nat} {seen : List AliasId} {s : Symbol} {e : SymbolError}
    (hu : w.unwindAt n seen s = .error e) : ∃ name, e = .cyclicAlias name := by
  induction n generalizing seen s with
  | zero =>
      cases s with
      | aliasDecl a => cases hu; exact ⟨_, rfl⟩
      | _ => cases hu
  | succ n ih =>
      cases s with
      | aliasDecl a =>
          simp only [unwindAt] at hu
          split at hu
          · cases hu; exact ⟨_, rfl⟩
          · exact ih hu
      | _ => cases hu

theorem covers_of_unwind_eq_error {s : Symbol} {e : SymbolError} (hu : w.unwind s = .error e) :
    w.Covers (Symbol.error e).ids := by
  obtain ⟨name, rfl⟩ := unwindAt_eq_error hu
  simp [Symbol.ids, SymbolError.ids]

namespace Closed

theorem slotType_has (h : w.Closed) (s : SlotId) : w.types.Has (w.slotType s) := by
  have hs := h.covers_detail s
  unfold slotType
  cases ht : (w.slot s).type? with
  | none => exact h.has_supplied (by decide)
  | some t =>
      unfold Slot.type? at ht
      revert ht hs
      rcases (w.slot s).detail with info | info | info
      · intro hs ht
        simp only [SlotDetail.ids, covers_append, covers_map] at hs
        simpa using hs.1 t (by simpa using ht)
      · intro hs ht
        simp only [SlotDetail.ids, covers_append, covers_map] at hs
        simpa using hs.1.1 t (by simpa using ht)
      · intro _ ht
        cases ht

theorem covers_referTo (h : w.Closed) {make : SlotId → TypeId → Value} {s : Symbol}
    (hs : w.Covers s.ids)
    (hm : ∀ s t, w.slots.Has s → w.types.Has t → w.Covers (make s t).ids) :
    w.Covers (w.referTo make s).ids := by
  unfold referTo
  split
  · rename_i slot hu
    have : w.slots.Has slot := by simpa [Symbol.ids] using h.covers_unwind hs hu
    exact hm slot _ this (h.slotType_has slot)
  · rename_i hu
    exact h.covers_unwind hs hu
  · rename_i hu
    exact covers_of_unwind_eq_error hu

theorem covers_reference (h : w.Closed) {o : Owner} {s : Symbol} (ho : w.Covers o.ids)
    (hs : w.Covers s.ids) : w.Covers (w.reference o s).ids :=
  h.covers_referTo hs fun s t hs ht => by simp [Value.ids, ho, hs, ht]

theorem covers_memberReference (h : w.Closed) {v : Value} {s : Symbol} (hv : w.Covers v.ids)
    (hs : w.Covers s.ids) : w.Covers (w.memberReference v s).ids :=
  h.covers_referTo hs fun s t hs ht => by simp [Value.ids, hv, hs, ht]

/-! ## Members -/

variable {name : String} {wanted : Wanted} {s : Symbol}

theorem covers_bound? (h : w.Closed) {o : Owner} (hs : w.bound? o name = some s) :
    w.Covers s.ids := by
  obtain ⟨k, -, hg⟩ := Option.bind_eq_some_iff.mp hs
  exact Bindings.covers_get? (h.covers_bindings o) hg

theorem covers_find? (h : w.Closed) {o : Owner} (hs : w.find? o name wanted = some s) :
    w.Covers s.ids :=
  h.covers_bound? (Option.filter_eq_some_iff.mp hs).1

theorem covers_resolveIn? (h : w.Closed) {o : Owner} (ho : w.Covers o.ids)
    (hs : w.resolveIn? o name wanted = some s) : w.Covers s.ids := by
  obtain ⟨s', hs', rfl⟩ := Option.map_eq_some_iff.mp hs
  exact h.covers_reference ho (h.covers_find? hs')

theorem covers_resolveInType? (h : w.Closed) {t : TypeId} (ht : w.types.Has t)
    (hs : w.resolveInType? t name wanted = some s) : w.Covers s.ids := by
  obtain ⟨u, hu, hs⟩ := List.exists_of_findSome?_eq_some hs
  exact h.covers_resolveIn? (by simpa [Owner.ids] using h.superChain_has ht u hu) hs

theorem covers_resolveInMembers? (h : w.Closed) {d : MemberTableId} (hd : w.memberTables.Has d)
    (hs : w.resolveInMembers? d name wanted = some s) : w.Covers s.ids := by
  obtain ⟨e, he, hs⟩ := List.exists_of_findSome?_eq_some hs
  exact h.covers_resolveIn? (by simpa [Owner.ids] using h.memberChain_has hd e he) hs

theorem covers_rebase (h : w.Closed) {v : Value} (hv : w.Covers v.ids) (hs : w.Covers s.ids) :
    w.Covers (w.rebase v s).ids := by
  unfold rebase
  split
  · rename_i slot hslot
    obtain ⟨u, hu, hslot⟩ := Option.bind_eq_some_iff.mp hslot
    refine h.covers_memberReference hv ?_
    cases s with
    | value u' =>
        cases hu
        simpa [Symbol.ids] using Value.has_slot_of_covers hs hslot
    | _ => cases hu
  · exact hs

theorem covers_resolveInValue? (h : w.Closed) {v : Value} (hv : w.Covers v.ids)
    (hs : w.resolveInValue? v name wanted = some s) : w.Covers s.ids := by
  unfold resolveInValue? at hs
  split at hs
  · exact h.covers_resolveInType? (by simp_all [Value.ids]) hs
  · dsimp only at hs
    split at hs
    · cases hs
      have hany : w.types.Has .any := h.has_supplied (by decide)
      simpa [Symbol.ids, Value.ofDynamic, Value.ids] using ⟨hv, hany⟩
    · obtain ⟨s', hs', rfl⟩ := Option.map_eq_some_iff.mp hs
      obtain ⟨d, hd, hs'⟩ := Option.bind_eq_some_iff.mp hs'
      exact h.covers_rebase hv (h.covers_resolveInMembers? (h.members_has hd) hs')

theorem covers_resolveInSymbol? (h : w.Closed) {object : Symbol} (ho : w.Covers object.ids)
    (hs : w.resolveInSymbol? object name wanted = some s) : w.Covers s.ids := by
  unfold resolveInSymbol? at hs
  split at hs
  · rename_i target hu
    have ht := h.covers_unwind ho hu
    cases target with
    | type t => exact h.covers_resolveInType? (by simpa [Symbol.ids] using ht) hs
    | module m => exact h.covers_resolveIn? (by simpa [Owner.ids, Symbol.ids] using ht) hs
    | value v => exact h.covers_resolveInValue? ht hs
    | slot _ | aliasDecl _ | error _ => cases hs
  · rename_i e hu
    cases hs
    exact covers_of_unwind_eq_error hu

/-! ## Frames -/

theorem covers_settle {hits : Hits} (hh : ∀ e ∈ hits, w.Covers e.1.ids)
    (hm : ∀ e ∈ hits, ∀ m ∈ e.2, w.modules.Has m) (hs : settle name hits = some s) :
    w.Covers s.ids := by
  unfold settle at hs
  split at hs
  · cases hs
  · split at hs
    · cases hs
      exact hh _ List.mem_cons_self
    · cases hs
      simp only [Symbol.ids, SymbolError.ids, covers_map, List.mem_filterMap]
      rintro m ⟨e, he, hem⟩
      exact hm e he m hem

theorem covers_importHits (h : w.Closed) (f : FrameId) (name : String) (wanted : Wanted) :
    ∀ e ∈ w.importHits f name wanted, w.Covers e.1.ids ∧ ∀ m ∈ e.2, w.modules.Has m := by
  intro e he
  obtain ⟨m, hm, he⟩ := List.mem_filterMap.mp he
  obtain ⟨s', hs', rfl⟩ := Option.map_eq_some_iff.mp he
  have hm := h.imports_has f m hm
  exact ⟨h.covers_resolveIn? (by simpa [Owner.ids] using hm) hs', by simpa using hm⟩

theorem covers_bodyHits (h : w.Closed) {f : FrameId} :
    ∀ s ∈ w.bodyHits f name wanted, w.Covers s.ids := by
  intro s hs
  have hf := h.covers_frameKind f
  unfold bodyHits at hs
  split at hs
  · rename_i t hk
    obtain ⟨u, hu, hs⟩ := List.mem_filterMap.mp hs
    have ht : w.types.Has t := by simpa [hk, FrameKind.ids] using hf
    exact h.covers_resolveIn? (by simpa [Owner.ids] using h.superChain_has ht u hu) hs
  · rename_i m hk
    have hm : w.modules.Has m := by simpa [hk, FrameKind.ids] using hf
    exact h.covers_resolveIn? (by simpa [Owner.ids] using hm) (Option.mem_toList.mp hs)
  · simp at hs
  · simp at hs

theorem covers_resolveAtFrame? (h : w.Closed) {f : FrameId} (hf : w.frames.Has f)
    (hs : w.resolveAtFrame? f name wanted = some s) : w.Covers s.ids := by
  have hlocal : ∀ s, w.resolveIn? (.frame f) name wanted = some s → w.Covers s.ids :=
    fun s hs => h.covers_resolveIn? (by simpa [Owner.ids] using hf) hs
  have himports := h.covers_importHits f name wanted
  unfold resolveAtFrame? at hs
  dsimp only at hs
  split at hs
  · rename_i me captured hk
    rcases (Option.orElse_eq_some _ _ _).mp hs with hs | ⟨_, hs⟩
    · exact hlocal s hs
    rcases (Option.orElse_eq_some _ _ _).mp hs with hs | ⟨_, hs⟩
    · obtain ⟨v, hv, hs⟩ := Option.bind_eq_some_iff.mp hs
      have hf := h.covers_frameKind f
      simp only [hk, FrameKind.ids, covers_append, covers_flatMap] at hf
      exact h.covers_resolveInValue? (hf.1 v (by simpa using hv)) hs
    · exact covers_settle (fun e he => (himports e he).1) (fun e he => (himports e he).2) hs
  · refine covers_settle ?_ ?_ hs
    · intro e he
      rcases List.mem_append.mp he with he | he
      · obtain ⟨s', hs', rfl⟩ := List.mem_map.mp he
        rcases List.mem_append.mp hs' with hs' | hs'
        · exact h.covers_bodyHits s' hs'
        · exact hlocal s' (Option.mem_toList.mp hs')
      · exact (himports e he).1
    · intro e he
      rcases List.mem_append.mp he with he | he
      · obtain ⟨s', _, rfl⟩ := List.mem_map.mp he
        simp
      · exact (himports e he).2

theorem covers_resolveInFrame? (h : w.Closed) {f : FrameId} (hf : w.frames.Has f)
    (hs : w.resolveInFrame? f name wanted = some s) : w.Covers s.ids := by
  obtain ⟨g, hg, hs⟩ := List.exists_of_findSome?_eq_some hs
  exact h.covers_resolveAtFrame? (h.frameChain_has hf g hg) hs

theorem root?_has (h : w.Closed) {m : ModuleId} (hm : w.root? name = some m) :
    w.modules.Has m := by
  obtain ⟨e, he, rfl⟩ := Option.map_eq_some_iff.mp hm
  exact h.roots e (List.mem_of_find?_eq_some he)

end Closed
end SymbolTable
end StaticSemantics
