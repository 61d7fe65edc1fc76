import StaticSemantics.Proofs.Hierarchy.Links
import StaticSemantics.Proofs.Interning

/-!
Tables of names as maps. What a table binds after an insertion, and what two tables bind when one
is merged into the other, is stated key by key, and so for operators. In every workspace each key
that is bound has been given to a name.
-/

namespace StaticSemantics

/-! ## Insertion -/

namespace Bindings

variable {b : Bindings} {k : Key} {s : Symbol}

theorem find?_entries (b : Bindings) (k : Key) :
    (b.entries.find? (·.1 = k)).map Prod.snd = b.get? k := by
  cases hg : b.get? k with
  | none =>
      have hk : k ∉ b.keys := get?_eq_none_iff.mp hg
      have hfind : b.entries.find? (·.1 = k) = none := by
        simp only [List.find?_eq_none, decide_eq_true_eq]
        exact fun e he hek => hk (List.mem_map.mpr ⟨e, he, hek⟩)
      rw [hfind, Option.map_none]
  | some s => exact SymbolTable.Indexed.find?_of_mem b.nodup (get?_eq_some_iff.mp hg)

/-- A new key comes last. -/
theorem keys_insert (b : Bindings) (k : Key) (s : Symbol) :
    (b.insert k s).keys = SymbolTable.addLast b.keys k := by
  rw [SymbolTable.addLast]
  cases hi : b.index.lookup k with
  | some i =>
      have hk : k ∈ b.keys := List.mem_of_getElem? (lookup_index_eq_some_iff.mp hi)
      rw [if_pos (by simpa using hk), keys, (insert_of_lookup hi s).2, map_fst_modify, keys]
  | none =>
      have hk : k ∉ b.keys := lookup_index_eq_none_iff.mp hi
      rw [if_neg (by simpa using hk), keys, entries_insert (get?_eq_none_iff.mpr hk)]
      simp [keys]

end Bindings

namespace MemberTable

theorem operator?_setOperator (m : MemberTable) (op op' : Operator) (s : SlotId) :
    (m.setOperator op s).operator? op' = if op = op' then some s else m.operator? op' := by
  simp only [operator?, setOperator]
  induction m.operators with
  | nil => by_cases ho : op = op' <;> simp [setOperator.put, ho]
  | cons e l ih =>
      unfold setOperator.put
      by_cases he : e.1 = op
      · rw [if_pos he]
        by_cases ho : op = op' <;> simp [ho, he]
      · rw [if_neg he]
        split
        · by_cases ho : op = op' <;> simp [ho]
        · rw [List.find?_cons, List.find?_cons]
          by_cases ho : e.1 = op'
          · have hne : op ≠ op' := fun h => he (ho.trans h.symm)
            simp [ho, hne]
          · simpa [ho] using ih

end MemberTable

/-! ## Merging -/

/-- Entries that are put in one after the other where the key is new leave all that was there; of
several new entries with one key the first is taken. -/
theorem get_foldl_putNew {τ κ ν : Type} [DecidableEq κ] {get : τ → κ → Option ν}
    {put : τ → κ → ν → τ}
    (hput : ∀ m k v k', get (put m k v) k' = if k = k' then some v else get m k')
    (entries : List (κ × ν)) (m : τ) (k : κ) :
    get (entries.foldl (fun m e => if (get m e.1).isSome then m else put m e.1 e.2) m) k =
      (get m k).or ((entries.find? (·.1 = k)).map Prod.snd) := by
  induction entries generalizing m with
  | nil => simp
  | cons e l ih =>
      rw [List.foldl_cons, ih, List.find?_cons]
      by_cases hk : e.1 = k
      · subst hk
        cases he : get m e.1 with
        | some v => simp [he]
        | none => simp [hput]
      · cases he : get m e.1 with
        | some v => simp [hk]
        | none => simp [hk, hput]

namespace SymbolTable

/-- A merge keeps what the target binds, and takes from the source what is left. -/
theorem get?_mergeNames (source target : Bindings) (k : Key) :
    (mergeNames source target).get? k = (target.get? k).or (source.get? k) := by
  have merged := get_foldl_putNew (fun b k s k' => b.get?_insert k k' s) source.entries target k
  simp only [← Bindings.contains_eq_isSome, source.find?_entries] at merged
  exact merged

/-- The keys that are new come last, in the order of the source. -/
theorem keys_mergeNames (source target : Bindings) :
    (mergeNames source target).keys = source.keys.foldl addLast target.keys := by
  rw [mergeNames, Bindings.keys.eq_1 source, List.foldl_map]
  induction source.entries generalizing target with
  | nil => rfl
  | cons e l ih =>
      rw [List.foldl_cons, List.foldl_cons, ih]
      congr 1
      dsimp only
      split
      · rename_i he
        rw [addLast, if_pos (by simpa using Bindings.contains_iff.mp he)]
      · rw [Bindings.keys_insert]

theorem operator?_mergeOperators (source target : MemberTable) (op : Operator) :
    (mergeOperators source target).operator? op =
      (target.operator? op).or (source.operator? op) :=
  get_foldl_putNew (fun m op s op' => m.operator?_setOperator op op' s) source.operators target op

theorem names_mergeOperators (source target : MemberTable) :
    (mergeOperators source target).names = target.names := by
  unfold mergeOperators
  induction source.operators generalizing target with
  | nil => rfl
  | cons e l ih =>
      rw [List.foldl_cons, ih]
      dsimp only
      split <;> rfl

/-- A member table with what it takes over from another one. -/
def mergeMembers (source target : MemberTable) : MemberTable :=
  mergeOperators source { target with names := mergeNames source.names target.names }

theorem names_mergeMembers (source target : MemberTable) :
    (mergeMembers source target).names = mergeNames source.names target.names :=
  names_mergeOperators _ _

theorem operator?_mergeMembers (source target : MemberTable) (op : Operator) :
    (mergeMembers source target).operator? op =
      (target.operator? op).or (source.operator? op) :=
  operator?_mergeOperators _ _ op

end SymbolTable

/-! ## Names and keys -/

/-- A merge binds no key that neither table binds. -/
theorem Bindings.Known.mergeNames {b b' : Bindings} {n : NameTable} (h : b.Known n)
    (h' : b'.Known n) : (SymbolTable.mergeNames b' b).Known n := by
  intro k hk
  rw [SymbolTable.keys_mergeNames, SymbolTable.mem_foldl_addLast] at hk
  rcases hk with hk | hk
  · exact h k hk
  · exact h' k hk

/-- The change binds names or gives a name its key. -/
def Change.bindsNames : Change → Bool
  | takeOver .. | intern _ | name .. => true
  | _ => false

namespace SymbolTable

variable {w w' w'' : SymbolTable}

/-- Both tables bind the same names. -/
structure SameBindings (w w' : SymbolTable) : Prop where
  bindings : ∀ o, w'.bindings o = w.bindings o
  nameTable : w'.nameTable = w.nameTable

namespace SameBindings

theorem of_reads (ht : ∀ t, (w'.type t).statics = (w.type t).statics)
    (hm : ∀ d, (w'.memberTable d).names = (w.memberTable d).names)
    (hd : ∀ m, (w'.module m).names = (w.module m).names)
    (hf : ∀ f, (w'.frame f).locals = (w.frame f).locals) (hn : w'.nameTable = w.nameTable) :
    SameBindings w w' := by
  refine ⟨fun o => ?_, hn⟩
  cases o with
  | type t => exact ht t
  | members d => exact hm d
  | module m => exact hd m
  | frame f => exact hf f

theorem of_eq (ht : w'.types = w.types) (hm : w'.memberTables = w.memberTables)
    (hd : w'.modules = w.modules) (hf : w'.frames = w.frames) (hn : w'.nameTable = w.nameTable) :
    SameBindings w w' :=
  .of_reads (fun t => by rw [type, ht]; rfl) (fun d => by rw [memberTable, hm]; rfl)
    (fun m => by rw [module, hd]; rfl) (fun f => by rw [frame, hf]; rfl) hn

theorem refl (w : SymbolTable) : SameBindings w w := ⟨fun _ => rfl, rfl⟩

theorem trans (h : SameBindings w w') (h' : SameBindings w' w'') : SameBindings w w'' :=
  ⟨fun o => (h'.bindings o).trans (h.bindings o), h'.nameTable.trans h.nameTable⟩

theorem modifyType (t : TypeId) {change : TypeDecl → TypeDecl}
    (hc : ∀ d, (change d).statics = d.statics) : SameBindings w (w.modifyType t change) :=
  .of_reads (w.types.congr_get_modify t hc) (fun _ => rfl) (fun _ => rfl) (fun _ => rfl) rfl

theorem modifyMemberTable (d : MemberTableId) {change : MemberTable → MemberTable}
    (hc : ∀ m, (change m).names = m.names) : SameBindings w (w.modifyMemberTable d change) :=
  .of_reads (fun _ => rfl) (w.memberTables.congr_get_modify d hc) (fun _ => rfl) (fun _ => rfl) rfl

theorem modifyModule (m : ModuleId) {change : ModuleDecl → ModuleDecl}
    (hc : ∀ x, (change x).names = x.names) : SameBindings w (w.modifyModule m change) :=
  .of_reads (fun _ => rfl) (fun _ => rfl) (w.modules.congr_get_modify m hc) (fun _ => rfl) rfl

theorem modifyFrame (f : FrameId) {change : Frame → Frame}
    (hc : ∀ x, (change x).locals = x.locals) : SameBindings w (w.modifyFrame f change) :=
  .of_reads (fun _ => rfl) (fun _ => rfl) (fun _ => rfl) (w.frames.congr_get_modify f hc) rfl

theorem setDefinedIn (s : Symbol) (o : Owner) : SameBindings w (w.setDefinedIn s o) := by
  cases s with
  | type t => exact .modifyType t fun _ => rfl
  | module m => exact .modifyModule m fun _ => rfl
  | slot _ | aliasDecl _ | value _ | error _ => exact .of_eq rfl rfl rfl rfl rfl

/-- The other changes leave all tables of names as they are. -/
theorem change {c : Change} (hc : c.bindsNames = false) : SameBindings w (w.change c) := by
  cases c with
  | takeOver | intern | name => cases hc
  | newType d _ hd =>
      exact .of_reads (w.types.congr_get_push hd) (fun _ => rfl) (fun _ => rfl) (fun _ => rfl) rfl
  | newMemberTable t d =>
      exact .of_reads (fun _ => rfl) (w.memberTables.congr_get_push rfl) (fun _ => rfl)
        (fun _ => rfl) rfl
  | newModule name =>
      exact .of_reads (fun _ => rfl) (fun _ => rfl) (w.modules.congr_get_push rfl) (fun _ => rfl)
        rfl
  | newFrame kind =>
      exact .of_reads (fun _ => rfl) (fun _ => rfl) (fun _ => rfl) (w.frames.congr_get_push rfl)
        rfl
  | typeVisibility t _ | superType t _ => exact .modifyType t fun _ => rfl
  | classInfo t change =>
      exact .modifyType t fun d => by unfold TypeDecl.modifyClass; split <;> rfl
  | interfaceInfo t change =>
      exact .modifyType t fun d => by unfold TypeDecl.modifyInterface; split <;> rfl
  | enumInfo t change =>
      exact .modifyType t fun d => by unfold TypeDecl.modifyEnum; split <;> rfl
  | inherits d _ | operator d _ _ => exact .modifyMemberTable d fun _ => rfl
  | definedIn s o => exact .setDefinedIn s o
  | importModule f m => exact .modifyFrame f fun x => by unfold Frame.importModule; split <;> rfl
  | capture f s => exact .modifyFrame f fun x => by unfold Frame.capture; split <;> rfl
  | parent f top => exact .modifyFrame f fun _ => rfl
  | newAlias | newVariable | newProperty | newMethod | newSignature | aliasTarget | initialValue
  | slotVisibility | flags | overrider | ofProperty | accessors | root | nullable | room | tuple =>
      exact .of_eq rfl rfl rfl rfl rfl

end SameBindings

namespace Named

theorem of_same (h : w.Named) (hs : SameBindings w w') : w'.Named := fun o => by
  rw [hs.bindings, hs.nameTable]
  exact h o

theorem intern (h : w.Named) (name : String) : (w.intern name).2.Named := fun o => by
  rw [bindings_intern]
  exact (h o).intern name

theorem modifyBindings (h : w.Named) (o : Owner) {change : Bindings → Bindings}
    (hc : ∀ b, b.Known w.nameTable → (change b).Known w.nameTable) :
    (w.modifyBindings o change).Named := by
  intro o'
  rw [nameTable_modifyBindings]
  rcases w.bindings_modifyBindings o o' change with ho | ⟨_, ho⟩
  · rw [ho]
    exact h o'
  · rw [ho]
    exact hc _ (h o')

theorem modifyMembers (h : w.Named) (d : MemberTableId) {change : MemberTable → MemberTable}
    (hc : ∀ m, m.names.Known w.nameTable → (change m).names.Known w.nameTable) :
    (w.modifyMemberTable d change).Named := by
  intro o
  cases o with
  | members e =>
      simp only [bindings, memberTable, modifyMemberTable, Arena.get_modify]
      split
      · exact hc _ (h (.members e))
      · exact h (.members e)
  | type t => exact h (.type t)
  | module m => exact h (.module m)
  | frame f => exact h (.frame f)

theorem bind (h : w.Named) (o : Owner) (name : String) (s : Symbol) : (w.bind o name s).Named :=
  (h.intern name).modifyBindings o fun _ hb => hb.insert ⟨_, w.nameTable.lookup?_intern_self name⟩ s

/-- The keys that are taken over are known, since the source binds them. -/
theorem takeOver (h : w.Named) (source d : MemberTableId) :
    (w.change (.takeOver source d)).Named := by
  have hsource : (w.memberTable source).names.Known w.nameTable := h (.members source)
  refine h.modifyMembers d fun m hm => ?_
  rw [names_mergeOperators]
  exact hm.mergeNames hsource

theorem change (h : w.Named) (c : Change) : (w.change c).Named := by
  cases hc : c.bindsNames with
  | false => exact h.of_same (.change hc)
  | true =>
      cases c with
      | takeOver source d => exact h.takeOver source d
      | intern name => exact h.intern name
      | name o name s => exact h.bind o name s
      | _ => cases hc

theorem apply (h : w.Named) (e : Edit) : (w.apply e).Named :=
  apply_induction (fun _ c _ h => h.change c) h

theorem edited (h : w.Named) {allowed : Edit → Bool} (he : Edited allowed w w') : w'.Named := by
  induction he with
  | refl => exact h
  | step e _ _ _ ih => exact ih.apply e

end Named

private theorem initial_unbound :
    (∀ i < (initial .counting).types.size, ((initial .counting).type ⟨i⟩).statics.keys = []) ∧
    (∀ i < (initial .counting).memberTables.size,
      ((initial .counting).memberTable ⟨i⟩).names.keys = []) ∧
    ∀ i < (initial .counting).frames.size, ((initial .counting).frame ⟨i⟩).locals.keys = [] := by
  decide +kernel

/-- At the start only modules bind names. -/
theorem keys_initial (i : Interner) {o : Owner} (ho : ∀ m, o ≠ .module m) :
    ((initial i).bindings o).keys = [] := by
  revert ho
  refine initial_induction (P := fun w => (∀ m, o ≠ .module m) → (w.bindings o).keys = []) ?_ ?_ i
  · intro w modules nameTable h ho
    cases o with
    | module m => exact absurd rfl (ho m)
    | type _ | members _ | frame _ => exact h ho
  intro ho
  obtain ⟨types, members, frames⟩ := initial_unbound
  cases o with
  | type t =>
      by_cases ht : (initial .counting).types.Has t
      · exact types t.index ht
      · rw [bindings, type, Arena.get_of_not_has ht]
        rfl
  | members d =>
      by_cases hd : (initial .counting).memberTables.Has d
      · exact members d.index hd
      · rw [bindings, memberTable, Arena.get_of_not_has hd]
        rfl
  | frame f =>
      by_cases hf : (initial .counting).frames.Has f
      · exact frames f.index hf
      · rw [bindings, frame, Arena.get_of_not_has hf]
        rfl
  | module m => exact absurd rfl (ho m)

theorem initial_named (i : Interner) : (initial i).Named := by
  intro o
  cases o with
  | module m =>
      obtain ⟨modules, nameTable, hi, rekeyed⟩ := initial_alike i
      rw [hi]
      exact rekeyed.known' m
  | type _ | members _ | frame _ =>
      intro k hk
      rw [keys_initial i (by simp)] at hk
      cases hk

end SymbolTable

theorem Session.Reachable.named {allowed : Operation → Bool} {s : Session}
    (h : Reachable allowed s) : s.table.Named := by
  obtain ⟨i, he⟩ := h.edited_initial
  exact (SymbolTable.initial_named i).edited he

end StaticSemantics
