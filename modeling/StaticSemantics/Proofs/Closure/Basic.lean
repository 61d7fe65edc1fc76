import StaticSemantics.Proofs.Mention

/-!
Closed tables: every id that a table stores has been given out. Here are the changes that all edits
are made of, a declaration changed in place, a name bound and an entity added; each keeps a table
closed if what it stores is covered.
-/

namespace StaticSemantics.SymbolTable

/-- The ids that the declaration of an entity mentions. -/
def idsOf (w : SymbolTable) : AnyId → List AnyId
  | ⟨.type, t⟩ => (w.type t).ids
  | ⟨.memberTable, d⟩ => (w.memberTable d).ids
  | ⟨.module, m⟩ => (w.module m).ids
  | ⟨.slot, s⟩ => (w.slot s).ids
  | ⟨.signature, g⟩ => (w.signature g).ids
  | ⟨.frame, f⟩ => (w.frame f).ids
  | ⟨.aliasDecl, a⟩ => (w.aliasDecl a).ids

/-- The types that are stored by what they are made of. -/
def interned (w : SymbolTable) : List TypeId :=
  w.nullables.map Prod.snd ++ w.tuples.flatten.map Prod.snd

/-- The table stores no id that it has not given out, and has the types and modules that exist from
the start. -/
structure Closed (w : SymbolTable) : Prop where
  suppliedTypes : 20 ≤ w.types.size
  suppliedModules : 3 ≤ w.modules.size
  entities : ∀ i, w.Covers (w.idsOf i)
  roots : ∀ e ∈ w.roots, w.modules.Has e.2
  interned : ∀ t ∈ w.interned, w.types.Has t

variable {w : SymbolTable}

namespace Closed

theorem has_supplied (h : w.Closed) {t : TypeId} (ht : t.index < 20) : w.types.Has t :=
  Nat.lt_of_lt_of_le ht h.suppliedTypes

theorem types (h : w.Closed) (t : TypeId) : w.Covers (w.type t).ids := h.entities ⟨.type, t⟩

theorem memberTables (h : w.Closed) (d : MemberTableId) : w.Covers (w.memberTable d).ids :=
  h.entities ⟨.memberTable, d⟩

theorem definedIn_has (h : w.Closed) (d : MemberTableId) :
    w.types.Has (w.memberTable d).definedIn := by
  have hd := h.memberTables d
  simp only [MemberTable.ids, List.cons_append, covers_cons] at hd
  exact hd.1

theorem modules (h : w.Closed) (m : ModuleId) : w.Covers (w.module m).ids :=
  h.entities ⟨.module, m⟩

theorem slots (h : w.Closed) (s : SlotId) : w.Covers (w.slot s).ids := h.entities ⟨.slot, s⟩

theorem signatures (h : w.Closed) (g : SignatureId) : w.Covers (w.signature g).ids :=
  h.entities ⟨.signature, g⟩

theorem frames (h : w.Closed) (f : FrameId) : w.Covers (w.frame f).ids := h.entities ⟨.frame, f⟩

theorem aliases (h : w.Closed) (a : AliasId) : w.Covers (w.aliasDecl a).ids :=
  h.entities ⟨.aliasDecl, a⟩

/-- A table that has grown is closed if the declarations that differ are covered. -/
theorem of_within {w' : SymbolTable} (h : w.Closed) (hw : w.Within w')
    (hi : ∀ i, w'.idsOf i = w.idsOf i ∨ w'.Covers (w'.idsOf i))
    (hr : ∀ e ∈ w'.roots, e ∈ w.roots ∨ w'.modules.Has e.2)
    (ht : ∀ t ∈ w'.interned, t ∈ w.interned ∨ w'.types.Has t) : w'.Closed := by
  refine ⟨Nat.le_trans h.suppliedTypes (hw .type), Nat.le_trans h.suppliedModules (hw .module),
    ?_, ?_, ?_⟩
  · intro i
    rcases hi i with hi | hi
    · rw [hi]
      exact (h.entities i).mono hw
    · exact hi
  · intro e he
    rcases hr e he with he | he
    · exact Nat.lt_of_lt_of_le (h.roots e he) (hw .module)
    · exact he
  · intro t hi
    rcases ht t hi with hi | hi
    · exact Nat.lt_of_lt_of_le (h.interned t hi) (hw .type)
    · exact hi

end Closed

/-! ## Changes in place -/

/-- Cover depends on the numbers of entities only. -/
theorem covers_congr {w' : SymbolTable} (h : w'.count = w.count) {l : List AnyId} :
    w'.Covers l ↔ w.Covers l := by
  simp only [Covers, Has, h]

theorem has_congr {w' : SymbolTable} (h : w'.count = w.count) (i : AnyId) : w'.Has i ↔ w.Has i := by
  simp only [Has, h]

@[simp] theorem count_modifyType (t : TypeId) (change : TypeDecl → TypeDecl) :
    (w.modifyType t change).count = w.count := by
  funext e
  cases e <;> simp [count, modifyType]

@[simp] theorem count_modifyMemberTable (d : MemberTableId) (change : MemberTable → MemberTable) :
    (w.modifyMemberTable d change).count = w.count := by
  funext e
  cases e <;> simp [count, modifyMemberTable]

@[simp] theorem count_modifyModule (m : ModuleId) (change : ModuleDecl → ModuleDecl) :
    (w.modifyModule m change).count = w.count := by
  funext e
  cases e <;> simp [count, modifyModule]

@[simp] theorem count_modifySlot (s : SlotId) (change : Slot → Slot) :
    (w.modifySlot s change).count = w.count := by
  funext e
  cases e <;> simp [count, modifySlot]

@[simp] theorem count_modifyFrame (f : FrameId) (change : Frame → Frame) :
    (w.modifyFrame f change).count = w.count := by
  funext e
  cases e <;> simp [count, modifyFrame]

@[simp] theorem count_modifyAlias (a : AliasId) (change : AliasDecl → AliasDecl) :
    (w.modifyAlias a change).count = w.count := by
  funext e
  cases e <;> simp [count, modifyAlias]

@[simp] theorem count_modifyBindings (o : Owner) (change : Bindings → Bindings) :
    (w.modifyBindings o change).count = w.count := by
  cases o <;> simp [modifyBindings]

@[simp] theorem count_intern (name : String) : (w.intern name).2.count = w.count := rfl

/-- An entry after a change of one entry mentions what it did or what the changed one does. -/
theorem ids_get_modify {e : Entity} {α : Type} [Inhabited α] {f : α → List AnyId}
    (a : Arena e α) (i j : EntityId e) {change : α → α}
    (hc : w.Covers (f (a.get j)) → w.Covers (f (change (a.get j))))
    (h : w.Covers (f (a.get j))) :
    f ((a.modify i change).get j) = f (a.get j) ∨
      w.Covers (f ((a.modify i change).get j)) := by
  rw [Arena.get_modify]
  split
  · exact .inr (hc h)
  · exact .inl rfl

namespace Closed

theorem modifyType (h : w.Closed) (t : TypeId) {change : TypeDecl → TypeDecl}
    (hc : ∀ x : TypeDecl, w.Covers x.ids → w.Covers (change x).ids) :
    (w.modifyType t change).Closed := by
  have hw := count_modifyType (w := w) t change
  refine h.of_within (.of_count_eq hw) ?_ (fun e he => .inl he) (fun t ht => .inl ht)
  rintro ⟨e, i⟩
  rw [covers_congr hw]
  cases e with
  | type => exact ids_get_modify (f := TypeDecl.ids) w.types t i (hc _) (h.types i)
  | _ => exact .inl rfl

theorem modifyMemberTable (h : w.Closed) (d : MemberTableId) {change : MemberTable → MemberTable}
    (hc : ∀ x : MemberTable, w.Covers x.ids → w.Covers (change x).ids) :
    (w.modifyMemberTable d change).Closed := by
  have hw := count_modifyMemberTable (w := w) d change
  refine h.of_within (.of_count_eq hw) ?_ (fun e he => .inl he) (fun t ht => .inl ht)
  rintro ⟨e, i⟩
  rw [covers_congr hw]
  cases e with
  | memberTable =>
      exact ids_get_modify (f := MemberTable.ids) w.memberTables d i (hc _) (h.memberTables i)
  | _ => exact .inl rfl

theorem modifyModule (h : w.Closed) (m : ModuleId) {change : ModuleDecl → ModuleDecl}
    (hc : ∀ x : ModuleDecl, w.Covers x.ids → w.Covers (change x).ids) :
    (w.modifyModule m change).Closed := by
  have hw := count_modifyModule (w := w) m change
  refine h.of_within (.of_count_eq hw) ?_ (fun e he => .inl he) (fun t ht => .inl ht)
  rintro ⟨e, i⟩
  rw [covers_congr hw]
  cases e with
  | module => exact ids_get_modify (f := ModuleDecl.ids) w.modules m i (hc _) (h.modules i)
  | _ => exact .inl rfl

theorem modifySlot (h : w.Closed) (s : SlotId) {change : Slot → Slot}
    (hc : ∀ x : Slot, w.Covers x.ids → w.Covers (change x).ids) :
    (w.modifySlot s change).Closed := by
  have hw := count_modifySlot (w := w) s change
  refine h.of_within (.of_count_eq hw) ?_ (fun e he => .inl he) (fun t ht => .inl ht)
  rintro ⟨e, i⟩
  rw [covers_congr hw]
  cases e with
  | slot => exact ids_get_modify (f := Slot.ids) w.slots s i (hc _) (h.slots i)
  | _ => exact .inl rfl

theorem modifyFrame (h : w.Closed) (f : FrameId) {change : Frame → Frame}
    (hc : ∀ x : Frame, w.Covers x.ids → w.Covers (change x).ids) :
    (w.modifyFrame f change).Closed := by
  have hw := count_modifyFrame (w := w) f change
  refine h.of_within (.of_count_eq hw) ?_ (fun e he => .inl he) (fun t ht => .inl ht)
  rintro ⟨e, i⟩
  rw [covers_congr hw]
  cases e with
  | frame => exact ids_get_modify (f := Frame.ids) w.frames f i (hc _) (h.frames i)
  | _ => exact .inl rfl

theorem modifyAlias (h : w.Closed) (a : AliasId) {change : AliasDecl → AliasDecl}
    (hc : ∀ x : AliasDecl, w.Covers x.ids → w.Covers (change x).ids) :
    (w.modifyAlias a change).Closed := by
  have hw := count_modifyAlias (w := w) a change
  refine h.of_within (.of_count_eq hw) ?_ (fun e he => .inl he) (fun t ht => .inl ht)
  rintro ⟨e, i⟩
  rw [covers_congr hw]
  cases e with
  | aliasDecl => exact ids_get_modify (f := AliasDecl.ids) w.aliases a i (hc _) (h.aliases i)
  | _ => exact .inl rfl

end Closed

/-! ## Names -/

theorem covers_insert {b : Bindings} {k : Key} {s : Symbol} (hb : w.Covers b.ids)
    (hs : w.Covers s.ids) : w.Covers (b.insert k s).ids := by
  simp only [Bindings.ids, covers_flatMap] at hb ⊢
  rintro ⟨k', s'⟩ he
  have hget := Bindings.get?_eq_some_iff.mpr he
  rw [Bindings.get?_insert] at hget
  split at hget
  · cases hget
    exact hs
  · exact hb _ (Bindings.get?_eq_some_iff.mp hget)

namespace Closed

theorem modifyBindings (h : w.Closed) (o : Owner) {change : Bindings → Bindings}
    (hc : ∀ b : Bindings, w.Covers b.ids → w.Covers (change b).ids) :
    (w.modifyBindings o change).Closed := by
  cases o with
  | module m =>
      refine h.modifyModule m fun x hx => ?_
      simp only [ModuleDecl.ids, covers_append] at hx ⊢
      exact ⟨hx.1, hc _ hx.2⟩
  | type t =>
      refine h.modifyType t fun x hx => ?_
      simp only [TypeDecl.ids, covers_append] at hx ⊢
      exact ⟨⟨⟨hx.1.1.1, hc _ hx.1.1.2⟩, hx.1.2⟩, hx.2⟩
  | members d =>
      refine h.modifyMemberTable d fun x hx => ?_
      simp only [MemberTable.ids, List.cons_append, covers_cons, covers_append] at hx ⊢
      exact ⟨hx.1, ⟨hc _ hx.2.1.1, hx.2.1.2⟩, hx.2.2⟩
  | frame f =>
      refine h.modifyFrame f fun x hx => ?_
      simp only [Frame.ids, covers_append] at hx ⊢
      exact ⟨⟨⟨hx.1.1.1, hc _ hx.1.1.2⟩, hx.1.2⟩, hx.2⟩

theorem intern (h : w.Closed) (name : String) : (w.intern name).2.Closed :=
  h.of_within (.of_count_eq rfl) (fun _ => .inl rfl) (fun _ => .inl) fun _ => .inl

theorem insert (h : w.Closed) (o : Owner) (k : Key) {s : Symbol} (hs : w.Covers s.ids) :
    (w.modifyBindings o (·.insert k s)).Closed :=
  h.modifyBindings o fun _ hb => covers_insert hb hs

theorem bind (h : w.Closed) (o : Owner) (name : String) {s : Symbol} (hs : w.Covers s.ids) :
    (w.bind o name s).Closed :=
  (h.intern name).insert o _ ((covers_congr (count_intern name)).mpr hs)

theorem setDefinedIn (h : w.Closed) (s : Symbol) {o : Owner} (ho : w.Covers o.ids) :
    (w.setDefinedIn s o).Closed := by
  cases s with
  | type t =>
      refine h.modifyType t fun x hx => ?_
      simp only [TypeDecl.ids, covers_append] at hx ⊢
      exact ⟨⟨⟨⟨hx.1.1.1.1, by simpa using ho⟩, hx.1.1.2⟩, hx.1.2⟩, hx.2⟩
  | module m =>
      refine h.modifyModule m fun x hx => ?_
      simp only [ModuleDecl.ids, covers_append] at hx ⊢
      exact ⟨by simpa using ho, hx.2⟩
  | slot s =>
      refine h.modifySlot s fun x hx => ?_
      simp only [Slot.ids, covers_append] at hx ⊢
      exact ⟨hx.1, by simpa using ho⟩
  | aliasDecl a =>
      refine h.modifyAlias a fun x hx => ?_
      simp only [AliasDecl.ids, covers_append] at hx ⊢
      exact ⟨hx.1, by simpa using ho⟩
  | value _ | error _ => exact h

end Closed

@[simp] theorem count_setDefinedIn (s : Symbol) (o : Owner) :
    (w.setDefinedIn s o).count = w.count := by
  cases s <;> simp [setDefinedIn]

@[simp] theorem count_bind (o : Owner) (name : String) (s : Symbol) :
    (w.bind o name s).count = w.count := by
  simp [bind]

@[simp] theorem count_define (o : Owner) (name : String) (s : Symbol) :
    (w.define o name s).2.count = w.count := by
  unfold define
  dsimp only
  split
  · split <;> simp
  · simp

theorem Closed.define (h : w.Closed) {o : Owner} (name : String) {s : Symbol}
    (ho : w.Covers o.ids) (hs : w.Covers s.ids) : (w.define o name s).2.Closed := by
  have hw := h.intern name
  have hcount := count_intern (w := w) name
  unfold SymbolTable.define
  dsimp only
  split
  · split <;> exact hw
  · refine (hw.setDefinedIn s ((covers_congr hcount).mpr ho)).insert o _ ?_
    exact (covers_congr ((count_setDefinedIn s o).trans hcount)).mpr hs

/-! ## New entities -/

theorem within_addType (decl : TypeDecl) : w.Within (w.addType decl).2 := by
  intro e
  cases e <;> simp [count, addType]

theorem within_addTypeWithMembers (kind : TypeKind) (name : Option String)
    (superType : Option TypeId) : w.Within (w.addTypeWithMembers kind name superType).2 := by
  intro e
  cases e <;> simp [count, addTypeWithMembers]

theorem within_addModule (name : String) : w.Within (w.addModule name).2 := by
  intro e
  cases e <;> simp [count, addModule]

theorem within_addAlias (name : String) (target : Symbol) :
    w.Within (w.addAlias name target).2 := by
  intro e
  cases e <;> simp [count, addAlias]

theorem within_addSlot (name : String) (detail : SlotDetail) :
    w.Within (w.addSlot name detail).2 := by
  intro e
  cases e <;> simp [count, addSlot]

theorem within_addSignature (s : Signature) : w.Within (w.addSignature s).2 := by
  intro e
  cases e <;> simp [count, addSignature]

theorem within_addFrame (kind : FrameKind) : w.Within (w.addFrame kind).2 := by
  intro e
  cases e <;> simp [count, addFrame]

theorem within_addWithFrame (t : TypeId) : w.Within (w.addWithFrame t).2 := by
  intro e
  cases e <;> simp [count, addWithFrame]

/-- An entry after a new one has been added is an old one or the new one. -/
theorem ids_get_push {e : Entity} {α : Type} [Inhabited α] {f : α → List AnyId}
    (a : Arena e α) (j : EntityId e) {x : α} (hx : w.Covers (f x)) :
    f ((a.push x).get j) = f (a.get j) ∨ w.Covers (f ((a.push x).get j)) := by
  rw [Arena.get_push]
  split
  · exact .inr hx
  · exact .inl rfl

namespace Closed

theorem addType (h : w.Closed) {decl : TypeDecl} (hd : w.Covers decl.ids) :
    (w.addType decl).2.Closed := by
  have hw := within_addType (w := w) decl
  refine h.of_within hw ?_ (fun e he => .inl he) (fun t ht => .inl ht)
  rintro ⟨e, i⟩
  cases e with
  | type => exact ids_get_push (f := TypeDecl.ids) w.types i (hd.mono hw)
  | _ => exact .inl rfl

theorem members_of_superType (h : w.Closed) (superType : Option TypeId) :
    ∀ d ∈ superType.bind fun s => (w.type s).members, w.memberTables.Has d := by
  intro d hd
  obtain ⟨s, _, hs⟩ := Option.mem_bind_iff.mp hd
  have := h.types s
  simp only [TypeDecl.ids, covers_append, covers_map, has_memberTable] at this
  exact this.2 d (by simpa using hs)

theorem addTypeWithMembers (h : w.Closed) {kind : TypeKind} (name : Option String)
    {superType : Option TypeId} (hk : w.Covers kind.ids) (hs : ∀ s ∈ superType, w.types.Has s) :
    (w.addTypeWithMembers kind name superType).2.Closed := by
  have hw := within_addTypeWithMembers (w := w) kind name superType
  have hm := h.members_of_superType superType
  refine h.of_within hw ?_ (fun e he => .inl he) (fun t ht => .inl ht)
  rintro ⟨e, i⟩
  cases e with
  | type =>
      refine ids_get_push (f := TypeDecl.ids) w.types i ?_
      simp only [TypeDecl.ids, covers_append]
      refine ⟨⟨⟨⟨hk.mono hw, by simp⟩, by simp [Bindings.ids]⟩, ?_⟩, ?_⟩
      · simp only [covers_map, Option.mem_toList]
        exact fun s hss => (has_type.mpr (hs s hss)).mono hw
      · simp [SymbolTable.addTypeWithMembers, Arena.next, Arena.Has]
  | memberTable =>
      refine ids_get_push (f := MemberTable.ids) w.memberTables i ?_
      simp only [MemberTable.ids, List.cons_append, covers_cons, covers_append]
      refine ⟨by simp [SymbolTable.addTypeWithMembers, Arena.next, Arena.Has],
        ⟨by simp [Bindings.ids], ?_⟩, by simp⟩
      simp only [covers_map, Option.mem_toList]
      exact fun d hd => (has_memberTable.mpr (hm d hd)).mono hw
  | _ => exact .inl rfl

theorem addModule (h : w.Closed) (name : String) : (w.addModule name).2.Closed := by
  refine h.of_within (within_addModule name) ?_ (fun e he => .inl he) (fun t ht => .inl ht)
  rintro ⟨e, i⟩
  cases e with
  | module =>
      exact ids_get_push (f := ModuleDecl.ids) w.modules i (by simp [ModuleDecl.ids, Bindings.ids])
  | _ => exact .inl rfl

theorem addAlias (h : w.Closed) (name : String) {target : Symbol} (ht : w.Covers target.ids) :
    (w.addAlias name target).2.Closed := by
  have hw := within_addAlias (w := w) name target
  refine h.of_within hw ?_ (fun e he => .inl he) (fun t ht => .inl ht)
  rintro ⟨e, i⟩
  cases e with
  | aliasDecl =>
      exact ids_get_push (f := AliasDecl.ids) w.aliases i
        (by simpa [AliasDecl.ids] using ht.mono hw)
  | _ => exact .inl rfl

theorem addSlot (h : w.Closed) (name : String) {detail : SlotDetail} (hd : w.Covers detail.ids) :
    (w.addSlot name detail).2.Closed := by
  have hw := within_addSlot (w := w) name detail
  refine h.of_within hw ?_ (fun e he => .inl he) (fun t ht => .inl ht)
  rintro ⟨e, i⟩
  cases e with
  | slot =>
      exact ids_get_push (f := Slot.ids) w.slots i (by simpa [Slot.ids] using hd.mono hw)
  | _ => exact .inl rfl

theorem addSignature (h : w.Closed) {s : Signature} (hs : w.Covers s.ids) :
    (w.addSignature s).2.Closed := by
  have hw := within_addSignature (w := w) s
  refine h.of_within hw ?_ (fun e he => .inl he) (fun t ht => .inl ht)
  rintro ⟨e, i⟩
  cases e with
  | signature => exact ids_get_push (f := Signature.ids) w.signatures i (hs.mono hw)
  | _ => exact .inl rfl

theorem addFrame (h : w.Closed) {kind : FrameKind} (hk : w.Covers kind.ids) :
    (w.addFrame kind).2.Closed := by
  have hw := within_addFrame (w := w) kind
  refine h.of_within hw ?_ (fun e he => .inl he) (fun t ht => .inl ht)
  rintro ⟨e, i⟩
  cases e with
  | frame =>
      exact ids_get_push (f := Frame.ids) w.frames i
        (by simpa [Frame.ids, Bindings.ids] using hk.mono hw)
  | _ => exact .inl rfl

theorem addWithFrame (h : w.Closed) {t : TypeId} (ht : w.types.Has t) :
    (w.addWithFrame t).2.Closed := by
  have hw := within_addWithFrame (w := w) t
  have ht' : (w.addWithFrame t).2.types.Has t := ht
  have hs : (w.addWithFrame t).2.slots.Has w.slots.next := by
    simp [SymbolTable.addWithFrame, Arena.Has, Arena.next]
  have hf : (w.addWithFrame t).2.frames.Has w.frames.next := by
    simp [SymbolTable.addWithFrame, Arena.Has, Arena.next]
  refine h.of_within hw ?_ (fun e he => .inl he) (fun t ht => .inl ht)
  rintro ⟨e, i⟩
  cases e with
  | slot =>
      refine ids_get_push (f := Slot.ids) w.slots i ?_
      simp [Slot.ids, SlotDetail.ids, Owner.ids, ht', hf]
  | frame =>
      refine ids_get_push (f := Frame.ids) w.frames i ?_
      simp [Frame.ids, FrameKind.ids, Value.ids, Owner.ids, Bindings.ids, ht', hs, hf]
  | _ => exact .inl rfl

/-! ## Interned types -/

theorem nullableOf?_has (h : w.Closed) {t u : TypeId} (hu : w.nullableOf? t = some u) :
    w.types.Has u :=
  h.interned u (List.mem_append_left _ (List.mem_map_of_mem (mem_of_nullableOf? hu)))

theorem tuple_has (h : w.Closed) {e : List TypeId × TypeId} {n : Nat} (he : e ∈ w.tuplesOf n) :
    w.types.Has e.2 :=
  h.interned e.2 (List.mem_append_right _ (List.mem_map_of_mem (mem_flatten_tuples.mpr ⟨n, he⟩)))

theorem internNullable (h : w.Closed) (t : TypeId) {u : TypeId} (hu : w.types.Has u) :
    (w.internNullable t u).Closed := by
  refine h.of_within (.of_count_eq rfl) (fun i => .inl rfl) (fun e he => .inl he) fun x hx => ?_
  rcases List.mem_cons.mp hx with rfl | hx
  · exact .inr hu
  · exact .inl hx

theorem makeRoom (h : w.Closed) (arity : Nat) : (w.makeRoom arity).Closed := by
  refine h.of_within (.of_count_eq rfl) (fun i => .inl rfl) (fun e he => .inl he) fun x hx => ?_
  exact .inl (by simpa [SymbolTable.interned, SymbolTable.makeRoom] using hx)

theorem internTuple (h : w.Closed) {elements : List TypeId}
    (hn : elements.length < w.tuples.length) {u : TypeId} (hu : w.types.Has u) :
    (w.internTuple elements u).Closed := by
  refine h.of_within (.of_count_eq rfl) (fun i => .inl rfl) (fun e he => .inl he) fun x hx => ?_
  rcases List.mem_append.mp hx with hx | hx
  · exact .inl (List.mem_append_left _ hx)
  · obtain ⟨e, he, rfl⟩ := List.mem_map.mp hx
    obtain ⟨n, he⟩ := mem_flatten_tuples.mp he
    rw [tuplesOf_internTuple hn] at he
    split at he
    · rcases List.mem_cons.mp he with rfl | he
      · exact .inr hu
      · exact .inr (h.tuple_has he)
    · exact .inr (h.tuple_has he)

end Closed
end StaticSemantics.SymbolTable
