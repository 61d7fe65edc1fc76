import StaticSemantics.Proofs.Alias
import StaticSemantics.Proofs.Closure.Lookup

/-!
What look-ups find. A look-up ends at a symbol that stands under a name or behind an alias and is
neither an alias nor a slot, at a reference to a slot, at a member that only the running program
knows, or at an error.
-/

namespace StaticSemantics.SymbolTable

variable {w : SymbolTable} {s s' : Symbol} {name : String} {wanted : Wanted}

/-- The symbol stands under a name, or an alias stands for it. -/
inductive Stored (w : SymbolTable) (s : Symbol) : Prop where
  | name (o : Owner) (k : Key) (h : (k, s) ∈ (w.bindings o).entries)
  | target (a : AliasId) (h : (w.aliasDecl a).target = s)

/-- What a look-up may end at. -/
inductive Found (w : SymbolTable) : Symbol → Prop where
  | stored {s : Symbol} (h : w.Stored s) (ha : ∀ a, s ≠ .aliasDecl a) (hs : ∀ i, s ≠ .slot i) :
      Found w s
  | reference (o : Owner) (i : SlotId) : Found w (.value (.reference o i (w.slotType i)))
  | member (v : Value) (i : SlotId) : Found w (.value (.memberReference v i (w.slotType i)))
  | dynamic (v : Value) : Found w (.value (.ofDynamic v))
  | cyclic (name : String) : Found w (.error (.cyclicAlias name))
  | ambiguous (name : String) (modules : List ModuleId) :
      Found w (.error (.ambiguous name modules))

theorem Found.not_alias (h : w.Found s) (a : AliasId) : s ≠ .aliasDecl a := by
  cases h with
  | stored _ ha _ => exact ha a
  | _ => simp

theorem Found.not_slot (h : w.Found s) (i : SlotId) : s ≠ .slot i := by
  cases h with
  | stored _ _ hs => exact hs i
  | _ => simp

theorem LeadsTo.stored (h : w.LeadsTo s s') (hs : w.Stored s) : w.Stored s' := by
  induction h with
  | here => exact hs
  | @through a s _ ih => exact ih (.target a rfl)

theorem found_of_unwind_eq_error {e : SymbolError} (h : w.unwind s = .error e) :
    w.Found (.error e) := by
  obtain ⟨name, rfl⟩ := unwindAt_eq_error h
  exact .cyclic name

theorem found_referTo {make : SlotId → TypeId → Value}
    (hm : ∀ i, w.Found (.value (make i (w.slotType i)))) (hs : w.Stored s) :
    w.Found (w.referTo make s) := by
  unfold referTo
  split
  · exact hm _
  · rename_i s' hslot hu
    have hl := leadsTo_of_unwindAt hu
    exact .stored (hl.stored hs) hl.not_alias hslot
  · rename_i e hu
    exact found_of_unwind_eq_error hu

/-! ## Members -/

theorem found_resolveIn? {o : Owner} (hs : w.resolveIn? o name wanted = some s) : w.Found s := by
  obtain ⟨s', hs', rfl⟩ := Option.map_eq_some_iff.mp hs
  obtain ⟨k, -, hg⟩ := Option.bind_eq_some_iff.mp (Option.filter_eq_some_iff.mp hs').1
  exact found_referTo (.reference o) (.name o k (Bindings.get?_eq_some_iff.mp hg))

theorem found_resolveInType? {t : TypeId} (hs : w.resolveInType? t name wanted = some s) :
    w.Found s := by
  obtain ⟨_, _, hs⟩ := List.exists_of_findSome?_eq_some hs
  exact found_resolveIn? hs

theorem found_resolveInMembers? {d : MemberTableId}
    (hs : w.resolveInMembers? d name wanted = some s) : w.Found s := by
  obtain ⟨_, _, hs⟩ := List.exists_of_findSome?_eq_some hs
  exact found_resolveIn? hs

theorem found_rebase (v : Value) (hs : w.Found s) : w.Found (w.rebase v s) := by
  unfold rebase
  split
  · rename_i i _
    exact .member v i
  · exact hs

theorem found_resolveInValue? {v : Value} (hs : w.resolveInValue? v name wanted = some s) :
    w.Found s := by
  unfold resolveInValue? at hs
  split at hs
  · exact found_resolveInType? hs
  · dsimp only at hs
    split at hs
    · cases hs
      exact .dynamic _
    · obtain ⟨s', hs', rfl⟩ := Option.map_eq_some_iff.mp hs
      obtain ⟨d, _, hs'⟩ := Option.bind_eq_some_iff.mp hs'
      exact found_rebase _ (found_resolveInMembers? hs')

theorem found_resolveInSymbol? {object : Symbol}
    (hs : w.resolveInSymbol? object name wanted = some s) : w.Found s := by
  unfold resolveInSymbol? at hs
  split at hs
  · rename_i target _
    cases target with
    | type t => exact found_resolveInType? hs
    | module m => exact found_resolveIn? hs
    | value v => exact found_resolveInValue? hs
    | slot _ | aliasDecl _ | error _ => cases hs
  · rename_i e hu
    cases hs
    exact found_of_unwind_eq_error hu

/-! ## Frames -/

theorem found_settle {hits : Hits} (hh : ∀ e ∈ hits, w.Found e.1)
    (hs : settle name hits = some s) : w.Found s := by
  unfold settle at hs
  split at hs
  · cases hs
  · split at hs
    · cases hs
      exact hh _ List.mem_cons_self
    · cases hs
      exact .ambiguous name _

theorem found_importHits (f : FrameId) (name : String) (wanted : Wanted) :
    ∀ e ∈ w.importHits f name wanted, w.Found e.1 := by
  intro e he
  obtain ⟨m, _, he⟩ := List.mem_filterMap.mp he
  obtain ⟨s, hs, rfl⟩ := Option.map_eq_some_iff.mp he
  exact found_resolveIn? hs

theorem found_bodyHits {f : FrameId} : ∀ s ∈ w.bodyHits f name wanted, w.Found s := by
  intro s hs
  unfold bodyHits at hs
  split at hs
  · obtain ⟨_, _, hs⟩ := List.mem_filterMap.mp hs
    exact found_resolveIn? hs
  · exact found_resolveIn? (Option.mem_toList.mp hs)
  · cases hs
  · cases hs

theorem found_resolveAtFrame? {f : FrameId} (hs : w.resolveAtFrame? f name wanted = some s) :
    w.Found s := by
  have himports := found_importHits (w := w) f name wanted
  unfold resolveAtFrame? at hs
  dsimp only at hs
  split at hs
  · rcases (Option.orElse_eq_some _ _ _).mp hs with hs | ⟨_, hs⟩
    · exact found_resolveIn? hs
    rcases (Option.orElse_eq_some _ _ _).mp hs with hs | ⟨_, hs⟩
    · obtain ⟨_, _, hs⟩ := Option.bind_eq_some_iff.mp hs
      exact found_resolveInValue? hs
    · exact found_settle himports hs
  · refine found_settle (fun e he => ?_) hs
    rcases List.mem_append.mp he with he | he
    · obtain ⟨s', hs', rfl⟩ := List.mem_map.mp he
      rcases List.mem_append.mp hs' with hs' | hs'
      · exact found_bodyHits s' hs'
      · exact found_resolveIn? (Option.mem_toList.mp hs')
    · exact himports e he

theorem found_resolveInFrame? {f : FrameId} (hs : w.resolveInFrame? f name wanted = some s) :
    w.Found s := by
  obtain ⟨_, _, hs⟩ := List.exists_of_findSome?_eq_some hs
  exact found_resolveAtFrame? hs

end StaticSemantics.SymbolTable
