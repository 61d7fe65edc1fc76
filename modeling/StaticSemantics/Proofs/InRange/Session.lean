import StaticSemantics.Proofs.InRange.Initial
import StaticSemantics.Proofs.InRange.Values

/-!
Sessions in range. In a closed session, admitted operations lead to the same session in every memory
and hand back the same, and questions have the same answers. Parts of an expression are resolved one
after the other, each in the closed session that the part before has left.
-/

namespace StaticSemantics

open SymbolTable (covers_cons covers_append)

variable {r : OutOfRange}

/-! ## Workspaces -/

namespace Workspace.Closed

variable {ws : Workspace} {found : Symbol}

theorem enter_inRange (h : ws.Closed) {f : FrameId} (hf : ws.table.frames.Has f) :
    @Workspace.enter ⟨r⟩ ws f = ws.enter f := by
  simp only [Workspace.enter]
  cases hc : ws.current? with
  | none => rfl
  | some top => simp only [h.table.attachFrame_inRange hf (h.current?_has hc)]

theorem resolveInScope?_inRange (h : ws.Closed) (name : String) (wanted : Wanted) :
    @Workspace.resolveInScope? ⟨r⟩ ws name wanted = ws.resolveInScope? name wanted :=
  Option.bind_congr fun _ hf => h.table.resolveInFrame?_inRange name wanted (h.current?_has hf)

theorem nameInScope?_inRange (h : ws.Closed) (name : String) (wanted : Wanted) :
    @Workspace.nameInScope? ⟨r⟩ ws name wanted = ws.nameInScope? name wanted := by
  simp only [Workspace.nameInScope?, h.resolveInScope?_inRange name wanted]

theorem withTarget?_inRange (h : ws.Closed) : @Workspace.withTarget? ⟨r⟩ ws = ws.withTarget? := by
  refine Option.bind_congr fun f hf => ?_
  rw [h.table.withFrameOf?_inRange (h.current?_has hf)]
  refine Option.bind_congr fun g hg => ?_
  have hg := h.table.frameChain_has (h.current?_has hf) g (List.mem_of_find?_eq_some hg)
  rw [SymbolTable.frame_inRange hg]

theorem nameProblem_inRange (h : ws.Closed) (bare through : ProblemId) (e : Expr) (name : String)
    {type : Option TypeId} (ht : ∀ t ∈ type, ws.table.types.Has t) :
    @Workspace.nameProblem ⟨r⟩ ws bare through e name type =
      ws.nameProblem bare through e name type := by
  cases type with
  | none => rfl
  | some t => simp only [Workspace.nameProblem, h.table.typeText_inRange (ht t rfl)]

theorem mayUse_inRange (h : ws.Closed) (hs : ws.table.Covers found.ids) :
    @Workspace.mayUse ⟨r⟩ ws found = ws.mayUse found := by
  simp only [Workspace.mayUse]
  cases hc : ws.current? with
  | none => rfl
  | some f => exact h.table.isAccessible_inRange hs (h.current?_has hc)

theorem noteCapture_inRange (h : ws.Closed) (hs : ws.table.Covers found.ids) :
    @Workspace.noteCapture ⟨r⟩ ws found = ws.noteCapture found := by
  have hinner : ws.current?.bind (@SymbolTable.activationOf? ⟨r⟩ ws.table) =
      ws.current?.bind ws.table.activationOf? :=
    Option.bind_congr fun f hf => h.table.activationOf?_inRange (h.current?_has hf)
  unfold Workspace.noteCapture
  rw [hinner]
  split
  · rename_i owner slot t inner hi
    obtain ⟨f, hf, hi⟩ := Option.bind_eq_some_iff.mp hi
    have hi := h.table.activationOf?_has (h.current?_has hf) hi
    have ho : ws.table.frames.Has owner := hs _ List.mem_cons_self
    simp only [SymbolTable.frame_inRange ho, SymbolTable.capture,
      SymbolTable.modifyFrame_inRange hi]
  · rfl

theorem noteCapture (h : ws.Closed) (hs : ws.table.Covers found.ids) :
    (ws.noteCapture found).Closed ∧ (ws.noteCapture found).table.Covers found.ids := by
  obtain ⟨he, hc⟩ := edited_noteCapture h hs
  exact ⟨hc ▸ h.edited he, hs.mono (h.table.edited he).2⟩

theorem lookup?_inRange (h : ws.Closed) {place : Place} (hp : ws.table.Covers place.ids)
    (name : String) (wanted : Wanted) :
    @Workspace.lookup? ⟨r⟩ ws place name wanted = ws.lookup? place name wanted := by
  cases place with
  | owner o => exact h.table.resolveIn?_inRange name wanted hp
  | type t => exact h.table.resolveInType?_inRange name wanted (hp _ List.mem_cons_self)
  | members d => exact h.table.resolveInMembers?_inRange name wanted (hp _ List.mem_cons_self)
  | value v => exact h.table.resolveInValue?_inRange name wanted hp
  | symbol s => exact h.table.resolveInSymbol?_inRange name wanted hp
  | frame f => exact h.table.resolveInFrame?_inRange name wanted (hp _ List.mem_cons_self)
  | scope => exact h.resolveInScope?_inRange name wanted

/-- A question about covered ids has the same answer in every memory. -/
theorem ask_inRange (h : ws.Closed) (q : Question) (hq : ws.table.Covers q.ids) :
    @Question.ask ⟨r⟩ ws q = q.ask ws := by
  have hw := h.table
  cases q with
  | declaration i => exact SymbolTable.declaration_inRange (hq _ List.mem_cons_self)
  | superType t => exact hw.superType?_inRange (hq _ List.mem_cons_self)
  | superChain t => exact hw.superChain_inRange (hq _ List.mem_cons_self)
  | superClasses t => exact hw.superClasses_inRange (hq _ List.mem_cons_self)
  | isSubtype t u =>
      simp only [Question.ids, covers_cons] at hq
      exact hw.isSubtype_inRange hq.1 hq.2.1
  | acceptsNull t => exact SymbolTable.acceptsNull_inRange (hq _ List.mem_cons_self)
  | withoutNull t => exact SymbolTable.withoutNull_inRange (hq _ List.mem_cons_self)
  | wrapped t => exact congrArg TypeDecl.wraps? (SymbolTable.type_inRange (hq _ List.mem_cons_self))
  | elements t => exact SymbolTable.tupleElements?_inRange (hq _ List.mem_cons_self)
  | subclasses t => exact SymbolTable.subclasses_inRange (hq _ List.mem_cons_self)
  | implementors t => exact SymbolTable.implementors_inRange (hq _ List.mem_cons_self)
  | subInterfaces t => exact SymbolTable.subInterfaces_inRange (hq _ List.mem_cons_self)
  | enumConstant t name => exact SymbolTable.enumConstant?_inRange (hq _ List.mem_cons_self) name
  | defaultValue t => exact SymbolTable.defaultValue?_inRange (hq _ List.mem_cons_self)
  | typeText t => exact hw.typeText_inRange (hq _ List.mem_cons_self)
  | memberChain d => exact hw.memberChain_inRange (hq _ List.mem_cons_self)
  | operator d op => exact hw.findOperator?_inRange (hq _ List.mem_cons_self) op
  | overrider s t =>
      exact congrArg (Option.bind · _) (SymbolTable.methodInfo?_inRange (hq _ List.mem_cons_self))
  | overridden candidate d =>
      simp only [Question.ids, covers_cons] at hq
      exact hw.overridden_inRange hq.1 hq.2.1
  | sameShape g g' =>
      simp only [Question.ids, covers_cons] at hq
      exact SymbolTable.sameShape_inRange (.inr ⟨hq.1, hq.2.1⟩)
  | canOverride base candidate =>
      simp only [Question.ids, covers_cons] at hq
      exact hw.canOverride_inRange hq.1 hq.2.1
  | signatureText g => exact hw.signatureText_inRange (hq _ List.mem_cons_self)
  | issues cls => exact hw.conformanceIssues_inRange (hq _ List.mem_cons_self)
  | enclosingModule o =>
      simp only [Question.ids, SymbolTable.covers_flatMap, Option.mem_toList] at hq
      exact hw.enclosingModule?_inRange hq
  | frameChain f => exact hw.frameChain_inRange (hq _ List.mem_cons_self)
  | frameLabel f => exact hw.frameLabel_inRange (hq _ List.mem_cons_self)
  | activation f => exact hw.activationOf?_inRange (hq _ List.mem_cons_self)
  | withFrame f => exact hw.withFrameOf?_inRange (hq _ List.mem_cons_self)
  | withTarget => exact h.withTarget?_inRange
  | isAccessible s f =>
      simp only [Question.ids, covers_append, covers_cons] at hq
      exact hw.isAccessible_inRange hq.1 hq.2.1
  | mayUse s => exact h.mayUse_inRange hq
  | unwound s => exact hw.unwind_inRange hq
  | bound o name wanted => exact hw.find?_inRange name wanted hq
  | lookup place name wanted => exact h.lookup?_inRange hq name wanted
  | constant s => exact SymbolTable.constantOf?_inRange hq
  | reference o s => exact hw.reference_inRange o (covers_append.mp hq).2
  | memberReference v s => exact hw.memberReference_inRange v (covers_append.mp hq).2
  | indexReference v => exact hw.indexReference?_inRange hq
  | tupleElement v index => exact hw.tupleElement?_inRange hq index
  | convert how v t =>
      simp only [Question.ids, covers_append, covers_cons] at hq
      exact hw.convert?_inRange how hq.1 hq.2.1
  | isReadOnly v => exact hw.isReadOnly_inRange hq
  | isWriteOnly v => exact hw.isWriteOnly_inRange hq
  | valueText v => exact hw.valueText_inRange hq
  | nullable | tuple | tupleTypes | numericType | root | roots | current | answered | staticMe
  | dynamic | method | withType => rfl

end Workspace.Closed

/-! ## Resolutions -/

/-- A resolution that was started in `s` has left a closed session that covers what it answers with
and all that was covered before. -/
structure Resolved.Sound {α : Type} (ids : α → List AnyId) (s : Session) (x : Resolved α) :
    Prop where
  closed : x.2.workspace.Closed
  within : s.table.Within x.2.table
  answer : ∀ a ∈ x.1, x.2.table.Covers (ids a)

theorem Outcome.Sound.accept {α : Type} {ids : α → List AnyId} {s : Session} {o : Outcome α}
    (h : o.Sound ids s.workspace) (hs : s.workspace.Closed) (ctx : Context) :
    (s.accept ctx o).Sound ids s := by
  have hw : (s.accept ctx o).2.table = o.workspace.table :=
    congrArg Workspace.table (s.workspace_accept ctx o)
  refine ⟨?_, ?_, fun a ha => ?_⟩
  · rw [Session.workspace_accept]
    exact h.closed
  · rw [hw]
    exact (hs.table.edited h.edited).2
  · rw [hw]
    exact h.result a ha

/-- Steps that come to the same in closed sessions may follow a resolution. -/
theorem Resolved.Sound.andThen_congr {α β : Type} {ids : α → List AnyId} {s : Session}
    {x : Resolved α} (h : x.Sound ids s) {next next' : α → Session → Resolved β}
    (hn : ∀ a s', s'.workspace.Closed → s.table.Within s'.table → s'.table.Covers (ids a) →
      next a s' = next' a s') : x.andThen next = x.andThen next' := by
  obtain ⟨_ | a, s'⟩ := x
  · rfl
  · exact hn a s' h.closed h.within (h.answer a rfl)

namespace Session

variable {s : Session} {found : Symbol} (ctx : Context) (e : Expr) (wanted : Wanted)

theorem conclude_inRange (h : s.workspace.Closed) (hs : s.table.Covers found.ids)
    {through : Option TypeId} (ht : ∀ t ∈ through, s.table.types.Has t) :
    @conclude ⟨r⟩ s ctx e wanted found through = s.conclude ctx e wanted found through := by
  cases found with
  | error err => rfl
  | _ => simp only [conclude, h.mayUse_inRange hs, h.nameProblem_inRange _ _ _ _ ht]

theorem resolveLexical_inRange (h : s.workspace.Closed) :
    @resolveLexical ⟨r⟩ s ctx e wanted = s.resolveLexical ctx e wanted := by
  simp only [resolveLexical, h.nameInScope?_inRange]
  cases s.workspace.answer? e.node.id wanted with
  | some found => rfl
  | none =>
      cases e.name? with
      | none => rfl
      | some name =>
          dsimp only
          cases hs : s.workspace.nameInScope? name wanted with
          | none => rfl
          | some found =>
              have hc := h.covers_nameInScope? hs
              have hn : (s.noteCapture found).workspace.Closed ∧
                  (s.noteCapture found).table.Covers found.ids := h.noteCapture hc
              have hnone : ∀ t ∈ (none : Option TypeId), (s.noteCapture found).table.types.Has t :=
                by simp
              have hnote : @noteCapture ⟨r⟩ s found = s.noteCapture found := by
                simp only [noteCapture, h.noteCapture_inRange hc]
              simp only [hnote, conclude_inRange ctx e wanted hn.1 hn.2 hnone]

theorem resolveReference_inRange (h : s.workspace.Closed) (ho : s.table.Covers found.ids) :
    @resolveReference ⟨r⟩ s ctx found e wanted = s.resolveReference ctx found e wanted := by
  have ht : ∀ t ∈ found.value?.map Value.type, s.table.types.Has t := by
    intro t ht
    obtain ⟨v, hv, rfl⟩ := Option.map_eq_some_iff.mp ht
    cases found with
    | value u =>
        cases hv
        exact SymbolTable.Closed.type_has ho
    | _ => cases hv
  have hw : s.table.Closed := h.table
  simp only [resolveReference, hw.resolveInSymbol?_inRange _ _ ho,
    h.nameProblem_inRange _ _ _ _ ht]
  cases s.workspace.answer? e.node.id wanted with
  | some _ => rfl
  | none =>
      cases e.name? with
      | none => rfl
      | some name =>
          dsimp only
          cases hs : s.table.resolveInSymbol? found name wanted with
          | none => rfl
          | some member =>
              have hc := hw.covers_resolveInSymbol? ho hs
              simp only [conclude_inRange ctx e wanted h hc ht]

theorem resolveWithMember_inRange (h : s.workspace.Closed) :
    @resolveWithMember ⟨r⟩ s ctx e = s.resolveWithMember ctx e := by
  simp only [resolveWithMember, h.withTarget?_inRange]
  cases hv : s.workspace.withTarget? with
  | none => rfl
  | some target => exact resolveReference_inRange ctx e _ h (h.covers_withTarget? hv)

theorem resolveMember_sound (h : s.workspace.Closed) :
    (s.resolveMember ctx e wanted).Sound Symbol.ids s := by
  rw [resolveMember_eq_accept]
  exact (Workspace.resolveMember_sound h wanted e).accept h ctx

theorem resolveMember_inRange (h : s.workspace.Closed) :
    @resolveMember ⟨r⟩ s ctx e wanted = s.resolveMember ctx e wanted := by
  induction e generalizing ctx wanted with
  | ident node name => exact resolveLexical_inRange ctx _ wanted h
  | member node base name ih =>
      simp only [resolveMember, ih]
      exact (resolveMember_sound ctx.child base .anything h).andThen_congr fun object s' h' _ ho =>
        resolveReference_inRange ctx _ wanted h' ho
  | withMember node name => exact resolveWithMember_inRange ctx _ h
  | parens node inner ih => exact ih ctx wanted
  | literal | unary | binary | nullable | tuple => rfl

/-! ## Types -/

theorem resolveTypeName_inRange (h : s.workspace.Closed) :
    @resolveTypeName ⟨r⟩ s ctx e = s.resolveTypeName ctx e := by
  simp only [resolveTypeName, resolveMember_inRange ctx e _ h]

theorem resolveType_sound (h : s.workspace.Closed) :
    (s.resolveType ctx e).Sound (fun t => [t.tagged]) s := by
  rw [resolveType_eq_accept]
  exact (Workspace.resolveType_sound h e).accept h ctx

theorem resolveTypes_sound (h : s.workspace.Closed) (l : List Expr) :
    (s.resolveTypes ctx l).Sound (fun ts => ts.map EntityId.tagged) s := by
  rw [resolveTypes_eq_accept]
  exact (Workspace.resolveTypes_sound h fun e _ _ hw => Workspace.resolveType_sound hw e).accept h
    ctx

theorem resolveTypes_inRange (h : s.workspace.Closed) {l : List Expr}
    (hl : ∀ e ∈ l, ∀ s : Session, s.workspace.Closed →
      @resolveType ⟨r⟩ s ctx e = s.resolveType ctx e) :
    @resolveTypes ⟨r⟩ s ctx l = s.resolveTypes ctx l := by
  induction l generalizing s with
  | nil => rfl
  | cons e rest ih =>
      simp only [resolveTypes, hl e List.mem_cons_self s h]
      refine (resolveType_sound ctx e h).andThen_congr fun t s' h' _ _ => ?_
      rw [ih h' fun e' he' => hl e' (List.mem_cons_of_mem e he')]

theorem resolveType_inRange (h : s.workspace.Closed) :
    @resolveType ⟨r⟩ s ctx e = s.resolveType ctx e := by
  induction e generalizing s with
  | ident | member => exact resolveTypeName_inRange ctx _ h
  | nullable node inner ih =>
      simp only [resolveType, ih h]
      refine (resolveType_sound ctx inner h).andThen_congr fun t s' _ _ ht => ?_
      have ht : s'.table.types.Has t := ht _ List.mem_cons_self
      simp only [SymbolTable.addNullable_inRange ht]
  | tuple node elements ih =>
      simp only [resolveType, resolveTypes_inRange ctx h fun e he s hs => ih e he hs]
      refine (resolveTypes_sound ctx h elements).andThen_congr fun ts s' h' _ _ => ?_
      have hobject : s'.table.types.Has .object := h'.table.object_has
      simp only [SymbolTable.addTuple_inRange hobject]
  | parens node inner ih => exact ih h
  | withMember | literal | unary | binary => rfl

/-! ## Constants -/

theorem resolveConstantName_inRange (h : s.workspace.Closed) :
    @resolveConstantName ⟨r⟩ s ctx e = s.resolveConstantName ctx e := by
  simp only [resolveConstantName, resolveMember_inRange ctx e _ h]
  refine (resolveMember_sound ctx e .anything h).andThen_congr fun found s' _ _ hs => ?_
  rw [SymbolTable.constantOf?_inRange hs]

theorem resolveConstantMember_inRange (base : Expr) (name : String) (h : s.workspace.Closed) :
    @resolveConstantMember ⟨r⟩ s ctx e base name = s.resolveConstantMember ctx e base name := by
  have hb := resolveMember_sound ctx.child base .anything h
  simp only [resolveConstantMember, resolveMember_inRange ctx.child base _ h]
  generalize s.resolveMember ctx.child base .anything = x at hb
  obtain ⟨object, s'⟩ := x
  have hconst : ((object.bind Symbol.type?).bind fun t =>
        @SymbolTable.enumConstant? ⟨r⟩ s'.table t name) =
      (object.bind Symbol.type?).bind fun t => s'.table.enumConstant? t name := by
    refine Option.bind_congr fun t ht => SymbolTable.enumConstant?_inRange ?_ name
    obtain ⟨found, hf, ht⟩ := Option.bind_eq_some_iff.mp ht
    have hc := hb.answer found hf
    cases found with
    | type t' =>
        cases ht
        exact hc _ List.mem_cons_self
    | _ => cases ht
  simp only [hconst, resolveConstantName_inRange ctx e hb.closed]

theorem resolveConstant_sound (h : s.workspace.Closed) :
    (s.resolveConstant ctx e).Sound Value.ids s := by
  rw [resolveConstant_eq_accept]
  exact (Workspace.resolveConstant_sound h e).accept h ctx

theorem resolveConstant_inRange (h : s.workspace.Closed) :
    @resolveConstant ⟨r⟩ s ctx e = s.resolveConstant ctx e := by
  induction e generalizing s with
  | ident | withMember => exact resolveConstantName_inRange ctx _ h
  | member node base name => exact resolveConstantMember_inRange ctx _ base name h
  | parens node inner ih => exact ih h
  | unary node op operand ih => simp only [resolveConstant, ih h]
  | binary node op left right ihl ihr =>
      simp only [resolveConstant, ihl h]
      refine (resolveConstant_sound ctx left h).andThen_congr fun v s' h' _ hv => ?_
      rw [ihr h']
      refine (resolveConstant_sound ctx right h').andThen_congr fun u s'' _ hw _ => ?_
      rw [Folding.binary?_inRange op (hv.mono hw)]
  | literal | nullable | tuple => rfl

theorem resolveConstantAs_inRange {t : TypeId} (h : s.workspace.Closed)
    (ht : s.table.types.Has t) :
    @resolveConstantAs ⟨r⟩ s ctx e t = s.resolveConstantAs ctx e t := by
  simp only [resolveConstantAs, resolveConstant_inRange ctx e h]
  refine (resolveConstant_sound ctx e h).andThen_congr fun v s' h' hw hv => ?_
  have hc : s'.table.Closed := h'.table
  have ht : s'.table.types.Has t := (SymbolTable.has_type.mpr ht).mono hw
  rw [hc.convertConstant?_inRange hv ht, hc.typeText_inRange ht]

/-! ## Operations -/

theorem run_inRange (h : s.workspace.Closed) (q : Query) (hq : s.table.Covers q.ids) :
    @Query.run ⟨r⟩ q s ctx = q.run s ctx := by
  cases q with
  | lexical e wanted => exact resolveLexical_inRange ctx e wanted h
  | reference object e wanted => exact resolveReference_inRange ctx e wanted h hq
  | member e wanted => exact resolveMember_inRange ctx e wanted h
  | withMember e => exact resolveWithMember_inRange ctx e h
  | type e => exact resolveType_inRange ctx e h
  | constant e => exact resolveConstant_inRange ctx e h
  | constantAs e t => exact resolveConstantAs_inRange ctx e h (hq _ List.mem_cons_self)

/-- An admitted operation comes to the same in every memory. -/
theorem perform_inRange (h : s.workspace.Closed) {op : Operation} (hc : s.table.Covers op.ids) :
    @perform ⟨r⟩ s op = s.perform op ∧ @reply ⟨r⟩ s op = s.reply op := by
  cases op with
  | edit e =>
      have hw : s.table.Closed := h.table
      obtain ⟨happly, hresult⟩ := hw.apply_inRange (r := r) hc
      exact ⟨congrArg s.withTable happly, hresult⟩
  | enter f =>
      have hf : s.table.frames.Has f := hc _ List.mem_cons_self
      have henter : @enter ⟨r⟩ s f = s.enter f := by simp only [enter, h.enter_inRange hf]
      have hf' : (s.enter f).table.frames.Has f :=
        (enter_closed h hf).1.entered f List.mem_cons_self
      refine ⟨henter, ?_⟩
      have hframe : @SymbolTable.frame ⟨r⟩ (@enter ⟨r⟩ s f).table f =
          (s.enter f).table.frame f := by
        rw [henter, SymbolTable.frame_inRange hf']
      exact congrArg Frame.parent hframe
  | query q ctx =>
      have hq := run_inRange (r := r) ctx h q hc
      exact ⟨congrArg Prod.snd hq, congrArg Prod.fst hq⟩
  | leave | takeProblems => exact ⟨rfl, rfl⟩

theorem performAll_inRange {allowed : Operation → Bool} (h : s.workspace.Closed)
    {ops : List Operation} (ha : s.Admits allowed ops) :
    @performAll ⟨r⟩ s ops = s.performAll ops := by
  induction ops generalizing s with
  | nil => rfl
  | cons op ops ih =>
      have hstep : @perform ⟨r⟩ s op = s.perform op := (perform_inRange h ha.1).1
      simp only [performAll, List.foldl_cons, hstep]
      exact ih (perform_closed h ha.1) ha.2.2

end Session
end StaticSemantics
