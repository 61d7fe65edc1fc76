import StaticSemantics.Proofs.Closure.Session
import StaticSemantics.Proofs.Found
import StaticSemantics.Proofs.Resolution.Captures

/-!
Types of constants. A constant belongs to the type that it has by itself, a member of an enum to an
enum type. If that is so of all constants that a workspace holds, then it is so of all that constant
expressions are folded to, and the workspace stays as it was in this respect; a constant that is
asked for at a type has that type.
-/

namespace StaticSemantics

/-- The constant belongs to the type. -/
def Constant.HasType (w : SymbolTable) (c : Constant) (t : TypeId) : Prop :=
  match c with
  | .enum _ => (w.type t).isEnum
  | c => c.ownType? = some t

instance (w : SymbolTable) (c : Constant) (t : TypeId) : Decidable (c.HasType w t) := by
  cases c <;> unfold Constant.HasType <;> infer_instance

namespace SymbolTable

/-- The value is a constant that belongs to its static type. -/
def WellTyped (w : SymbolTable) (v : Value) : Prop := ∃ c t, v = .constant c t ∧ c.HasType w t

/-- If the symbol is a constant, it belongs to its static type. -/
def Typed (w : SymbolTable) : Symbol → Prop
  | .value (.constant c t) => c.HasType w t
  | _ => True

instance (w : SymbolTable) : (s : Symbol) → Decidable (w.Typed s)
  | .value (.constant c t) => inferInstanceAs (Decidable (c.HasType w t))
  | .value (.plain _) | .value (.instanceMe _) | .value (.staticMe ..) | .value (.reference ..)
  | .value (.memberReference ..) | .value (.dynamicReference ..) | .value (.indexReference ..)
  | .value (.tupleElement ..) | .value (.functionExp ..) | .value (.conversion ..) | .type _
  | .module _ | .slot _ | .aliasDecl _ | .error _ => .isTrue trivial

/-- The constants under names, behind aliases and in read-only variables belong to their types. -/
structure ConstantsTyped (w : SymbolTable) : Prop where
  stored : ∀ s, w.Stored s → w.Typed s
  initials : ∀ i info, (w.slot i).variableInfo? = some info → info.readOnly →
    ∀ v ∈ info.initial, w.Typed (.value v)

variable {w w' : SymbolTable} {s : Symbol} {v u : Value}

/-! ## Single constants -/

theorem WellTyped.of_types (ht : w'.types = w.types) (h : w.WellTyped v) : w'.WellTyped v := by
  obtain ⟨c, t, rfl, hc⟩ := h
  refine ⟨c, t, rfl, ?_⟩
  unfold Constant.HasType type at hc ⊢
  rwa [ht]

theorem wellTyped_of_selfTyped (h : v.SelfTyped) : w.WellTyped v := by
  obtain ⟨c, t, rfl, hc⟩ := h
  refine ⟨c, t, rfl, ?_⟩
  cases c with
  | enum x => cases hc
  | _ => exact hc

theorem wellTyped_ofEnum {t : TypeId} (ht : (w.type t).isEnum) (x : Double) :
    w.WellTyped (.ofEnum x t) :=
  ⟨.enum x, t, rfl, ht⟩

theorem wellTyped_unary? {op : Operator} (hv : w.WellTyped v)
    (hu : Folding.unary? op v = some u) : w.WellTyped u := by
  rcases Folding.unary?_selfTyped op v u hu with h | rfl
  · exact wellTyped_of_selfTyped h
  · exact hv

theorem isEnum_of_enum? {d : TypeDecl} {info : EnumInfo} (h : d.enum? = some info) : d.isEnum := by
  cases hk : d.kind <;> simp_all [TypeDecl.enum?, TypeDecl.isEnum]

theorem isEnum_of_isFlagsEnum {d : TypeDecl} (h : d.isFlagsEnum) : d.isEnum := by
  cases he : d.enum? with
  | none =>
      rw [TypeDecl.isFlagsEnum, he] at h
      cases h
  | some info => exact isEnum_of_enum? he

/-- Operators on two operands yield constants of their own types, whatever the operands are, or
members of a flags enum. -/
theorem wellTyped_binary? {op : Operator} {r : Value} (hr : Folding.binary? w op v u = some r) :
    w.WellTyped r := by
  rcases Folding.binary?_selfTyped w op v u r hr with h | ⟨x, rfl, hflags⟩
  · exact wellTyped_of_selfTyped h
  · exact wellTyped_ofEnum (isEnum_of_isFlagsEnum hflags) x

theorem wellTyped_enumConstant? {t : TypeId} {name : String}
    (hv : w.enumConstant? t name = some v) : w.WellTyped v := by
  obtain ⟨x, hx, rfl⟩ := Option.map_eq_some_iff.mp hv
  obtain ⟨info, hinfo, _⟩ := Option.bind_eq_some_iff.mp hx
  exact wellTyped_ofEnum (isEnum_of_enum? hinfo) x

/-- A constant is converted to a constant of the type that was asked for. -/
theorem WellTyped.convertConstant? (hv : w.WellTyped v) {t : TypeId}
    (hu : w.convertConstant? v t = some u) : ∃ c, u = .constant c t := by
  unfold SymbolTable.convertConstant? at hu
  split at hu
  · rename_i ht
    obtain ⟨c, t', rfl, _⟩ := hv
    cases hu
    cases ht
    exact ⟨c, rfl⟩
  · obtain ⟨c, _, hu⟩ := Option.bind_eq_some_iff.mp hu
    dsimp only at hu
    split at hu
    all_goals
      obtain ⟨c', _, hu⟩ := Option.bind_eq_some_iff.mp hu
      cases hu
      exact ⟨c', rfl⟩

/-! ## Constants that are held -/

namespace ConstantsTyped

theorem typed_of_found (h : w.ConstantsTyped) (hs : w.Found s) : w.Typed s := by
  cases hs with
  | stored hs _ _ => exact h.stored s hs
  | reference | member | dynamic | cyclic | ambiguous => trivial

theorem constantOf? (h : w.ConstantsTyped) (hs : w.Typed s) (hv : w.constantOf? s = some v) :
    w.WellTyped v := by
  unfold SymbolTable.constantOf? at hv
  split at hv
  · rename_i c t
    cases hv
    exact ⟨c, t, rfl, hs⟩
  · obtain ⟨i, _, hv⟩ := Option.bind_eq_some_iff.mp hv
    obtain ⟨info, hinfo, hv⟩ := Option.bind_eq_some_iff.mp hv
    split at hv
    · rename_i hread
      obtain ⟨hinit, hconst⟩ := Option.filter_eq_some_iff.mp hv
      have htyped := h.initials i info hinfo hread v hinit
      cases v with
      | constant c t => exact ⟨c, t, rfl, htyped⟩
      | _ => cases hconst
    · cases hv
  · cases hv

/-- What names stand for does not depend on captures. -/
theorem capture (h : w.ConstantsTyped) (f : FrameId) (i : SlotId) :
    (w.capture f i).ConstantsTyped := by
  have hbindings : ∀ o, (w.capture f i).bindings o = w.bindings o := by
    intro o
    cases o with
    | frame g =>
        have hlocals := congrArg Frame.locals ((Grows.capture (w := w) f i).frames g)
        rwa [Frame.locals_uncaptured, Frame.locals_uncaptured] at hlocals
    | module | type | members => rfl
  refine ⟨fun s hs => h.stored s ?_, h.initials⟩
  cases hs with
  | name o k hk => exact .name o k (hbindings o ▸ hk)
  | target a ha => exact .target a ha

end ConstantsTyped

/-! ## Deciding what is held -/

def owners (w : SymbolTable) : List Owner :=
  w.modules.ids.map .module ++ w.types.ids.map .type ++ w.memberTables.ids.map .members ++
    w.frames.ids.map .frame

def storedSymbols (w : SymbolTable) : List Symbol :=
  w.owners.flatMap (fun o => (w.bindings o).entries.map Prod.snd) ++
    w.aliases.ids.map fun a => (w.aliasDecl a).target

/-- Only an id that has been given out has an entry in which there is something. -/
theorem has_of_mem_get {e : Entity} {α β : Type} [Inhabited α] {a : Arena e α} {i : EntityId e}
    {x : β} (read : α → List β) (hd : read default = []) (h : x ∈ read (a.get i)) : a.Has i := by
  by_contra hi
  rw [Arena.get_of_not_has hi, hd] at h
  cases h

theorem mem_owners {o : Owner} {b : Key × Symbol} (h : b ∈ (w.bindings o).entries) :
    o ∈ w.owners := by
  cases o with
  | module m =>
      have hm : w.modules.Has m := has_of_mem_get (fun x => x.names.entries) rfl h
      simp [owners, Arena.mem_ids, hm]
  | type t =>
      have ht : w.types.Has t := has_of_mem_get (fun x => x.statics.entries) rfl h
      simp [owners, Arena.mem_ids, ht]
  | members d =>
      have hd : w.memberTables.Has d := has_of_mem_get (fun x => x.names.entries) rfl h
      simp [owners, Arena.mem_ids, hd]
  | frame f =>
      have hf : w.frames.Has f := has_of_mem_get (fun x => x.locals.entries) rfl h
      simp [owners, Arena.mem_ids, hf]

/-- An alias that has not been declared stands for the default symbol. -/
theorem Stored.mem_storedSymbols (hs : w.Stored s) : s ∈ w.storedSymbols ∨ s = default := by
  cases hs with
  | name o k hk =>
      refine .inl (List.mem_append_left _ (List.mem_flatMap.mpr ⟨o, mem_owners hk, ?_⟩))
      exact List.mem_map.mpr ⟨(k, s), hk, rfl⟩
  | target a ha =>
      by_cases hd : w.aliases.Has a
      · refine .inl (List.mem_append_right _ ?_)
        exact List.mem_map.mpr ⟨a, Arena.mem_ids.mpr hd, ha⟩
      · rw [aliasDecl, Arena.get_of_not_has hd] at ha
        exact .inr ha.symm

theorem Stored.typed (h : ∀ s ∈ w.storedSymbols, w.Typed s) (hs : w.Stored s) : w.Typed s := by
  rcases hs.mem_storedSymbols with hs | rfl
  · exact h s hs
  · trivial

theorem stored_of_mem_storedSymbols (h : s ∈ w.storedSymbols) : w.Stored s := by
  rcases List.mem_append.mp h with h | h
  · obtain ⟨o, _, h⟩ := List.mem_flatMap.mp h
    obtain ⟨⟨k, _⟩, hk, rfl⟩ := List.mem_map.mp h
    exact .name o k hk
  · obtain ⟨a, _, ha⟩ := List.mem_map.mp h
    exact .target a ha

theorem constantsTyped_iff : w.ConstantsTyped ↔
    (∀ s ∈ w.storedSymbols, w.Typed s) ∧
      ∀ i ∈ w.slots.ids, ∀ info ∈ (w.slot i).variableInfo?, info.readOnly →
        ∀ v ∈ info.initial, w.Typed (.value v) := by
  refine ⟨fun h => ⟨fun s hs => ?_, fun i _ => h.initials i⟩,
    fun h => ⟨fun s => Stored.typed h.1, fun i info hinfo => ?_⟩⟩
  · exact h.stored s (stored_of_mem_storedSymbols hs)
  · by_cases hi : w.slots.Has i
    · exact h.2 i (Arena.mem_ids.mpr hi) info hinfo
    · rw [slot, Arena.get_of_not_has hi] at hinfo
      cases hinfo
      simp

instance (w : SymbolTable) : Decidable w.ConstantsTyped :=
  decidable_of_iff _ constantsTyped_iff.symm

end SymbolTable

/-- The constants that a workspace holds, answers included, belong to their types. -/
structure Workspace.ConstantsTyped (ws : Workspace) : Prop where
  table : ws.table.ConstantsTyped
  answers : ∀ a ∈ ws.answers, ws.table.Typed a.2

instance (ws : Workspace) : Decidable ws.ConstantsTyped :=
  decidable_of_iff (ws.table.ConstantsTyped ∧ ∀ a ∈ ws.answers, ws.table.Typed a.2)
    ⟨fun h => ⟨h.1, h.2⟩, fun h => ⟨h.table, h.answers⟩⟩

/-! ## Outcomes -/

/-- The outcome, started in `ws`, leaves a workspace whose constants belong to their types, leaves
the types alone, and answers with something that has the property. -/
structure Outcome.Typed {α : Type} (P : SymbolTable → α → Prop) (ws : Workspace) (o : Outcome α) :
    Prop where
  workspace : o.workspace.ConstantsTyped
  types : o.workspace.table.types = ws.table.types
  result : ∀ a ∈ o.result, P o.workspace.table a

namespace Outcome.Typed

variable {α β : Type} {P : SymbolTable → α → Prop} {Q : SymbolTable → β → Prop} {ws : Workspace}

theorem answer (h : ws.ConstantsTyped) {a : α} (ha : P ws.table a) : (ws.answer a).Typed P ws :=
  ⟨h, rfl, by simpa [Workspace.answer] using ha⟩

theorem none (h : ws.ConstantsTyped) (findings : List Finding) :
    Outcome.Typed P ws ⟨none, ws, findings⟩ :=
  ⟨h, rfl, by simp⟩

theorem before {o : Outcome α} {next : Option α → Workspace → Outcome β} (h : o.Typed P ws)
    (hn : (next o.result o.workspace).Typed Q o.workspace) : (o.before next).Typed Q ws :=
  ⟨hn.workspace, hn.types.trans h.types, hn.result⟩

theorem andThen {o : Outcome α} {next : α → Workspace → Outcome β} (h : o.Typed P ws)
    (hn : ∀ a, P o.workspace.table a → (next a o.workspace).Typed Q o.workspace) :
    (o.andThen next).Typed Q ws := by
  refine h.before ?_
  split
  · rename_i a ha
    exact hn a (h.result a ha)
  · exact none h.workspace []

end Outcome.Typed

/-! ## Names -/

namespace Workspace

variable {ws : Workspace}

theorem ConstantsTyped.answer? (h : ws.ConstantsTyped) {node : Nat} {wanted : Wanted} {s : Symbol}
    (hs : ws.answer? node wanted = some s) : ws.table.Typed s := by
  obtain ⟨a, ha, rfl⟩ := Option.map_eq_some_iff.mp hs
  exact h.answers a (List.mem_of_find?_eq_some ha)

theorem ConstantsTyped.nameInScope? (h : ws.ConstantsTyped) {name : String} {wanted : Wanted}
    {s : Symbol} (hs : ws.nameInScope? name wanted = some s) : ws.table.Typed s := by
  rcases (Option.orElse_eq_some _ _ _).mp hs with hs | ⟨_, hs⟩
  · obtain ⟨f, _, hs⟩ := Option.bind_eq_some_iff.mp hs
    exact h.table.typed_of_found (SymbolTable.found_resolveInFrame? hs)
  · obtain ⟨m, _, rfl⟩ := Option.map_eq_some_iff.mp hs
    trivial

theorem conclude_typed (h : ws.ConstantsTyped) (e : Expr) (wanted : Wanted) {s : Symbol}
    (through : Option TypeId) (hs : ws.table.Typed s) :
    (ws.conclude e wanted s through).Typed SymbolTable.Typed ws := by
  rcases ws.conclude_cases e wanted s through with ⟨findings, _, _, hc⟩ | ⟨findings, _, hc⟩
  · rw [hc]
    refine ⟨⟨h.table, fun a ha => ?_⟩, rfl, by simpa [remember] using hs⟩
    rcases List.mem_cons.mp ha with rfl | ha
    · exact hs
    · exact h.answers a ha
  · rw [hc]
    exact .none h findings

theorem resolveLexical_typed (h : ws.ConstantsTyped) (e : Expr) (wanted : Wanted) :
    (ws.resolveLexical e wanted).Typed SymbolTable.Typed ws := by
  cases ha : ws.answer? e.node.id wanted with
  | some s =>
      rw [ws.resolveLexical_of_answer e wanted ha]
      exact .answer h (h.answer? ha)
  | none =>
      rcases ws.resolveLexical_cases e wanted ha with ⟨findings, _, hr⟩ | ⟨name, s, _, hs, hr⟩
      · rw [hr]
        exact .none h findings
      · have hs := h.nameInScope? hs
        rw [hr]
        rcases ws.noteCapture_cases s with hn | ⟨_, i, _, f, _, _, _, hn⟩
        · rw [hn]
          exact conclude_typed h e wanted none hs
        · have h' : { ws with table := ws.table.capture f i }.ConstantsTyped :=
            ⟨h.table.capture f i, h.answers⟩
          have hc := conclude_typed h' e wanted none hs
          rw [hn]
          exact ⟨hc.workspace, hc.types, hc.result⟩

/-- What is found in an object is typed even if the object is not. -/
theorem resolveReference_typed (h : ws.ConstantsTyped) (object : Symbol) (e : Expr)
    (wanted : Wanted) : (ws.resolveReference object e wanted).Typed SymbolTable.Typed ws := by
  cases ha : ws.answer? e.node.id wanted with
  | some s =>
      rw [ws.resolveReference_of_answer e wanted object ha]
      exact .answer h (h.answer? ha)
  | none =>
      cases ho : object.isError with
      | true =>
          rw [ws.resolveReference_of_isError e wanted object ha ho]
          cases object with
          | error err => exact .answer h trivial
          | _ => cases ho
      | false =>
          rcases ws.resolveReference_cases e wanted object ha ho with
            ⟨findings, _, hr⟩ | ⟨name, s, through, hs, hr⟩
          · rw [hr]
            exact .none h findings
          · rw [hr]
            refine conclude_typed h e wanted through ?_
            exact h.table.typed_of_found (SymbolTable.found_resolveInSymbol? hs)

theorem resolveWithMember_typed (h : ws.ConstantsTyped) (e : Expr) :
    (ws.resolveWithMember e).Typed SymbolTable.Typed ws := by
  cases hv : ws.withTarget? with
  | none =>
      obtain ⟨findings, _, hr⟩ := ws.resolveWithMember_of_none e hv
      rw [hr]
      exact .none h findings
  | some v =>
      rw [ws.resolveWithMember_of_target e hv]
      exact resolveReference_typed h _ e _

theorem resolveMember_typed (h : ws.ConstantsTyped) (wanted : Wanted) (e : Expr) :
    (ws.resolveMember wanted e).Typed SymbolTable.Typed ws := by
  induction e generalizing wanted with
  | ident node name => exact resolveLexical_typed h _ wanted
  | member node base name ih =>
      exact (ih .anything).andThen fun object _ =>
        resolveReference_typed (ih .anything).workspace object _ wanted
  | withMember node name => exact resolveWithMember_typed h _
  | parens node inner ih => exact ih wanted
  | literal | unary | binary | nullable | tuple => exact .none h []

/-! ## Constant expressions -/

theorem answerConstant_typed (h : ws.ConstantsTyped) (e : Expr) {v : Option Value}
    (hv : ∀ u ∈ v, ws.table.WellTyped u) :
    (ws.answerConstant e v).Typed SymbolTable.WellTyped ws := by
  cases v with
  | none => exact .none h _
  | some v => exact .answer h (hv v rfl)

theorem resolveConstantName_typed (h : ws.ConstantsTyped) (e : Expr) :
    (ws.resolveConstantName e).Typed SymbolTable.WellTyped ws := by
  have hm := resolveMember_typed h .anything e
  refine hm.andThen fun s hs => answerConstant_typed hm.workspace e fun v hv => ?_
  exact hm.workspace.table.constantOf? hs hv

theorem resolveConstantMember_typed (h : ws.ConstantsTyped) (e base : Expr) (name : String) :
    (ws.resolveConstantMember e base name).Typed SymbolTable.WellTyped ws := by
  have hm := resolveMember_typed h .anything base
  refine hm.before ?_
  split
  · rename_i v hv
    obtain ⟨t, _, hv⟩ := Option.bind_eq_some_iff.mp hv
    exact .answer hm.workspace (SymbolTable.wellTyped_enumConstant? hv)
  · exact resolveConstantName_typed hm.workspace _

theorem resolveConstant_typed (h : ws.ConstantsTyped) (e : Expr) :
    (ws.resolveConstant e).Typed SymbolTable.WellTyped ws := by
  induction e generalizing ws with
  | ident | withMember => exact resolveConstantName_typed h _
  | member node base name => exact resolveConstantMember_typed h _ base name
  | literal node l => exact .answer h (SymbolTable.wellTyped_of_selfTyped (.literal l))
  | parens node inner ih => exact ih h
  | unary node op operand ih =>
      refine (ih h).andThen fun v hv => answerConstant_typed (ih h).workspace _ fun u hu => ?_
      exact SymbolTable.wellTyped_unary? hv hu
  | binary node op left right ihl ihr =>
      refine (ihl h).andThen fun v _ => ?_
      have hr := ihr (ihl h).workspace
      refine hr.andThen fun u _ => answerConstant_typed hr.workspace _ fun r hr => ?_
      exact SymbolTable.wellTyped_binary? hr
  | nullable | tuple => exact .none h _

theorem resolveConstantAs_typed (h : ws.ConstantsTyped) (e : Expr) (t : TypeId) :
    (ws.resolveConstantAs e t).Typed (fun _ v => ∃ c, v = .constant c t) ws := by
  have hc := resolveConstant_typed h e
  refine hc.andThen fun v hv => ?_
  split
  · rename_i u hu
    exact .answer hc.workspace (hv.convertConstant? hu)
  · exact .none hc.workspace _

/-- A constant can be asked for at the type that it is folded to. -/
theorem resolveConstantAs_type {e : Expr} {v : Value}
    (hv : (ws.resolveConstant e).result = some v) :
    (ws.resolveConstantAs e v.type).result = some v := by
  have hconvert : ∀ w : SymbolTable, w.convertConstant? v v.type = some v := fun w => if_pos rfl
  simp [resolveConstantAs, Outcome.andThen, Outcome.before, hv, hconvert, answer]

end Workspace

namespace Session

/-- In a session whose constants belong to their types, constant expressions are folded to constants
that belong to their types, and those asked for at a type to constants of that type. -/
theorem constantTyping (s : Session) (h : s.workspace.ConstantsTyped) (ctx : Context) (e : Expr) :
    (s.resolveConstant ctx e).2.workspace.ConstantsTyped ∧
      (∀ v, (s.resolveConstant ctx e).1 = some v →
        s.table.WellTyped v ∧ (s.resolveConstantAs ctx e v.type).1 = some v) ∧
      ∀ t, (s.resolveConstantAs ctx e t).2.workspace.ConstantsTyped ∧
        ∀ v, (s.resolveConstantAs ctx e t).1 = some v → ∃ c, v = .constant c t := by
  have hc := Workspace.resolveConstant_typed h e
  simp only [resolveConstant_eq_accept, resolveConstantAs_eq_accept, workspace_accept]
  refine ⟨hc.workspace, fun v hv => ⟨?_, Workspace.resolveConstantAs_type hv⟩, fun t => ⟨?_, ?_⟩⟩
  · exact (hc.result v hv).of_types hc.types.symm
  · exact (Workspace.resolveConstantAs_typed h e t).workspace
  · exact (Workspace.resolveConstantAs_typed h e t).result

/-- A function that sees an enum of flags, a constant and a read-only variable. -/
def sampleConstants : List Operation :=
  [.edit (.addEnum "Style" true), .edit (.setEnumMember ⟨20⟩ "Bold" (.ofInt 1)),
    .edit (.setEnumMember ⟨20⟩ "Thin" (.ofInt 2)), .edit (.addVariable "limit" true (some .byte)),
    .edit (.setInitial ⟨0⟩ (.constant (.byte 7) .byte)), .edit (.addFrame (.activation none [])),
    .edit (.define (.frame ⟨0⟩) "Style" (.type ⟨20⟩)),
    .edit (.define (.frame ⟨0⟩) "unit" (.value (.constant (.integer 1) .integer))),
    .edit (.define (.frame ⟨0⟩) "limit" (.slot ⟨0⟩)), .enter ⟨0⟩]

/-- The flags are joined to a value of the enum. The negated variable, a number that its own kind
cannot hold, is added to the constant and asked for as another kind of number. -/
theorem constantTyping_sampleConstants :
    let s := performAll {} sampleConstants
    let flag (id : Nat) (name : String) : Expr :=
      .member { id } (.ident { id := id + 1 } "Style") name
    let both : Expr := .binary { id := 1 } .or (flag 2 "Bold") (flag 4 "Thin")
    let sum : Expr := .binary { id := 1 } .add
      (.unary { id := 2 } .negate (.ident { id := 3 } "limit")) (.ident { id := 4 } "unit")
    s.workspace.ConstantsTyped ∧
      (∃ v, (s.resolveConstant {} both).1 = some v ∧ v.type = ⟨20⟩ ∧ s.table.WellTyped v) ∧
      ∃ v c, (s.resolveConstantAs {} sum .double).1 = some v ∧ v = .constant c .double := by
  intro s flag both sum
  have facts : s.workspace.ConstantsTyped ∧
      ((s.resolveConstant {} both).1.map Value.type) = some ⟨20⟩ ∧
      (s.resolveConstantAs {} sum .double).1.isSome := by
    decide +kernel
  obtain ⟨h, hboth, hsum⟩ := facts
  obtain ⟨v, hv, hvt⟩ := Option.map_eq_some_iff.mp hboth
  obtain ⟨u, hu⟩ := Option.isSome_iff_exists.mp hsum
  obtain ⟨c, hc⟩ := ((constantTyping s h {} sum).2.2 .double).2 u hu
  exact ⟨h, ⟨v, hv, hvt, ((constantTyping s h {} both).2.1 v hv).1⟩, u, c, hu, hc⟩

end Session
end StaticSemantics
