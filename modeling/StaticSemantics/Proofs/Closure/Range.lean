import StaticSemantics.Proofs.Change
import StaticSemantics.Proofs.InRange.Session

/-!
Ids in range. In every session, what is stored and what operations and questions hand back are ids
that have been given out, and nothing depends on what would come of an access with any other id.
-/

namespace StaticSemantics

/-! ## What edits hand back -/

namespace Edit

/-- The ids in what the edit hands back: the new one, those in the reasons for a refusal, and those
of the symbol that a name stood for before. -/
def mentioned : (e : Edit) → e.Result → List AnyId
  | addClass .. | addStruct _ | addEnum .. | addInterface _ | addNullable _ | addTuple _ =>
    fun t : TypeId => [t.tagged]
  | addModule _ => fun m : ModuleId => [m.tagged]
  | addAlias .. => fun a : AliasId => [a.tagged]
  | addVariable .. | addProperty .. | addMethod .. => fun s : SlotId => [s.tagged]
  | addSignature _ => fun g : SignatureId => [g.tagged]
  | addFrame _ | addWithFrame _ => fun f : FrameId => [f.tagged]
  | extendInterface .. => fun problems : Except HierarchyError (List SymbolError) =>
    problems.toOption.toList.flatMap (·.flatMap SymbolError.ids)
  | declareEnumHelpers _ | addOperator .. | override .. | define .. => refusal
  | bind .. => fun s : Option Symbol => s.toList.flatMap Symbol.ids
  | extendClass .. | implement .. | intern _ | setTypeVisibility .. | setSuperType ..
  | setEnumMember .. | setRoot .. | setAliasTarget .. | setInitial .. | setAccessors ..
  | setSlotVisibility .. | setMethodFlags .. | importModule .. | capture .. | attachFrame .. =>
    fun _ => []
where
  refusal {α : Type} : Except SymbolError α → List AnyId
    | .error e => e.ids
    | .ok _ => []

end Edit

namespace SymbolTable

variable {w : SymbolTable}

theorem covers_refusal {α : Type} {r : Except SymbolError α}
    (h : ∀ e, r = .error e → w.Covers e.ids) : w.Covers (Edit.mentioned.refusal r) := by
  cases r with
  | error e => exact h e rfl
  | ok _ => exact covers_nil w

theorem define_eq_error {o : Owner} {name : String} {s : Symbol} {e : SymbolError}
    (he : (w.define o name s).1 = .error e) :
    (w.define o name s).2 = (w.intern name).2 ∧
      ∃ existing, (w.bindings o).get? (w.intern name).1 = some existing ∧
        e = .duplicate name existing := by
  rw [← w.bindings_intern name]
  revert he
  unfold define
  dsimp only
  cases hx : ((w.intern name).2.bindings o).get? (w.intern name).1 with
  | none => exact nofun
  | some existing =>
      dsimp only
      split
      · exact nofun
      · rintro ⟨⟩
        exact ⟨rfl, existing, rfl, rfl⟩

namespace Closed

theorem covers_define_error (h : w.Closed) {o : Owner} {name : String} {s : Symbol}
    {e : SymbolError} (he : (w.define o name s).1 = .error e) : w.Covers e.ids := by
  obtain ⟨_, existing, hx, rfl⟩ := define_eq_error he
  exact Bindings.covers_get? (h.covers_bindings o) hx

theorem covers_conflicts (h : w.Closed) (source : Bindings) (d : MemberTableId) :
    ∀ e ∈ w.conflicts source (w.memberTable d).names, w.Covers e.ids := by
  intro e he
  obtain ⟨⟨k, s⟩, _, he⟩ := List.mem_filterMap.mp he
  dsimp only at he
  split at he
  · rename_i existing hx
    split_ifs at he
    cases he
    exact Bindings.covers_get? (h.covers_bindings (.members d)) hx
  · cases he

theorem covers_extendInterface (h : w.Closed) {interface base : TypeId}
    {problems : List SymbolError} (hr : (w.extendInterface interface base).1 = .ok problems) :
    ∀ e ∈ problems, w.Covers e.ids := by
  unfold SymbolTable.extendInterface at hr
  split at hr
  · cases hr
  · split_ifs at hr
    · cases hr
      simp
    · dsimp only at hr
      split at hr
      · cases hr
        exact h.covers_conflicts _ _
      · cases hr
        simp

theorem covers_override_error (h : w.Closed) {candidate : SlotId} {d : MemberTableId}
    {e : SymbolError} (he : (w.override candidate d).1 = .error e) : w.Covers e.ids := by
  unfold SymbolTable.override at he
  split at he
  · rename_i ho
    cases he
    exact h.covers_overridden_error ho
  · cases he

/-- The refusal names a symbol of the table as it is left, new methods included. -/
theorem covers_declareNative_error {d : MemberTableId} {name : String} {s : Signature}
    {e : SymbolError} (h : (w.declareNative d name s).2.Closed)
    (he : (w.declareNative d name s).1 = .error e) : (w.declareNative d name s).2.Covers e.ids := by
  unfold SymbolTable.declareNative at h he ⊢
  dsimp only at h he ⊢
  split at he
  · cases he
  · rename_i hd
    cases he
    simp only [hd] at h ⊢
    obtain ⟨hw, existing, hx, rfl⟩ := define_eq_error (congrArg Prod.fst hd)
    rw [hd] at hw
    dsimp only at hw
    subst hw
    rw [← bindings_intern] at hx
    exact Bindings.covers_get? (h.covers_bindings _) hx

theorem covers_declareNatives_error (h : w.Closed) {d : MemberTableId}
    {l : List (String × Signature)} {e : SymbolError} (hd : w.memberTables.Has d)
    (hl : ∀ x ∈ l, w.Covers x.2.ids) (he : (w.declareNatives d l).1 = .error e) :
    (w.declareNatives d l).2.Covers e.ids := by
  induction l generalizing w with
  | nil => cases he
  | cons x l ih =>
      have hn := h.declareNative x.1 hd (hl x (by simp))
      have hx := covers_declareNative_error (e := e) hn.1
      simp only [SymbolTable.declareNatives] at he ⊢
      generalize w.declareNative d x.1 x.2 = r at hn hx he
      obtain ⟨_ | slot, w1⟩ := r
      · cases he
        exact hx rfl
      · have hr := ih hn.1 ((has_memberTable.mpr hd).mono hn.2)
          fun y hy => (hl y (by simp [hy])).mono hn.2
        dsimp only at he ⊢
        generalize w1.declareNatives d l = r at hr he
        obtain ⟨_ | slots, w2⟩ := r
        · cases he
          exact hr rfl
        · cases he

theorem covers_declareEnumHelpers_error (h : w.Closed) {t : TypeId} {e : SymbolError}
    (ht : w.types.Has t) (he : (w.declareEnumHelpers t).1 = .error e) :
    (w.declareEnumHelpers t).2.Covers e.ids := by
  unfold SymbolTable.declareEnumHelpers at he ⊢
  split at he
  · rename_i info d _ hm
    have hn := h.covers_declareNatives_error (e := e) (h.members_has hm)
      (h.covers_helperSignatures ht info.isFlags)
    generalize w.declareNatives d (helperSignatures t info.isFlags) = r at hn he
    obtain ⟨_ | slots, w1⟩ := r
    · cases he
      exact hn rfl
    · cases he
  · cases he

/-- An admitted edit hands back ids that the table has given out when it is done. -/
theorem covers_result (h : w.Closed) (e : Edit) (he : w.Covers e.ids) :
    (w.apply e).Covers (e.mentioned (w.result e)) := by
  have kept {l : List AnyId} (hl : w.Covers l) : (w.apply e).Covers l := hl.mono (h.apply he).2
  have new {e : Entity} {α : Type} (a : Arena e α) (x : α) : (a.push x).Has a.next :=
    Arena.has_push.mpr (.inl rfl)
  cases e with
  | addClass | addStruct | addEnum | addInterface =>
      exact covers_cons.mpr ⟨new w.types _, covers_nil _⟩
  | addModule => exact covers_cons.mpr ⟨new w.modules _, covers_nil _⟩
  | addAlias => exact covers_cons.mpr ⟨new w.aliases _, covers_nil _⟩
  | addVariable | addProperty | addMethod => exact covers_cons.mpr ⟨new w.slots _, covers_nil _⟩
  | addSignature => exact covers_cons.mpr ⟨new w.signatures _, covers_nil _⟩
  | addFrame | addWithFrame => exact covers_cons.mpr ⟨new w.frames _, covers_nil _⟩
  | addNullable t =>
      exact covers_cons.mpr ⟨has_addNullable h (by simpa [Edit.ids] using he), covers_nil _⟩
  | addTuple elements => exact covers_cons.mpr ⟨has_addTuple h elements, covers_nil _⟩
  | extendInterface interface base =>
      refine kept ?_
      simp only [Edit.mentioned, result]
      cases hr : (w.extendInterface interface base).1 with
      | error _ => simp [Except.toOption]
      | ok r => simpa [Except.toOption] using h.covers_extendInterface hr
  | declareEnumHelpers t =>
      refine covers_refusal fun e hr => ?_
      exact h.covers_declareEnumHelpers_error (by simpa [Edit.ids] using he) hr
  | addOperator t op method =>
      refine kept (covers_refusal fun e hr => ?_)
      replace hr : (w.addOperator t op method).1 = .error e := hr
      unfold SymbolTable.addOperator at hr
      dsimp only at hr
      split_ifs at hr
      · split at hr <;> cases hr
      · cases hr
        simp [SymbolError.ids]
  | override candidate d => exact kept (covers_refusal fun e hr => h.covers_override_error hr)
  | define o name s => exact kept (covers_refusal fun e hr => h.covers_define_error hr)
  | bind o name s =>
      exact kept (covers_flatMap.mpr fun s' hs' => h.covers_bound? (Option.mem_toList.mp hs'))
  | _ => exact covers_nil _

end Closed
end SymbolTable

/-! ## Sessions -/

/-- The ids in what an operation hands back. -/
def Operation.mentioned : (op : Operation) → op.Reply → List AnyId
  | edit e => e.mentioned
  | enter _ | leave => fun f : Option FrameId => f.toList.map EntityId.tagged
  | query q _ => fun a : Option q.Answer => a.toList.flatMap q.answerIds
  | takeProblems => fun _ => []

namespace Session

theorem covers_reply {s : Session} (h : s.workspace.Closed) {op : Operation}
    (hc : s.table.Covers op.ids) : (s.perform op).table.Covers (op.mentioned (s.reply op)) := by
  have hp := (perform_closed h hc).table
  cases op with
  | edit e => exact h.table.covers_result e hc
  | enter f =>
      have hf := hp.frames f
      simp only [Frame.ids, SymbolTable.covers_append] at hf
      exact hf.2
  | leave =>
      simp only [Operation.mentioned, reply, SymbolTable.covers_map, Option.mem_toList]
      exact fun f hf => h.current?_has hf
  | query q ctx =>
      simp only [Operation.mentioned, reply, SymbolTable.covers_flatMap, Option.mem_toList,
        q.run_eq_accept]
      intro a ha
      have hr := (q.outcome_sound h hc).result a ha
      rwa [← workspace_run q s ctx] at hr
  | takeProblems => exact SymbolTable.covers_nil _

theorem Admits.append {allowed : Operation → Bool} {s : Session} {ops ops' : List Operation}
    (h : s.Admits allowed ops) (h' : (s.performAll ops).Admits allowed ops') :
    s.Admits allowed (ops ++ ops') := by
  induction ops generalizing s with
  | nil => exact h'
  | cons op ops ih => exact ⟨h.1, h.2.1, ih h.2.2 h'⟩

/-- Every session comes from a fresh one by a list of admitted operations. -/
theorem Reachable.exists_run {allowed : Operation → Bool} {s : Session} (h : Reachable allowed s) :
    ∃ reporting verbose interner ops,
      (start (.initial interner) reporting verbose).Admits allowed ops ∧
      (start (.initial interner) reporting verbose).performAll ops = s := by
  induction h with
  | fresh reporting verbose interner => exact ⟨reporting, verbose, interner, [], trivial, rfl⟩
  | step op _ hc ha ih =>
      obtain ⟨reporting, verbose, interner, ops, hops, rfl⟩ := ih
      refine ⟨reporting, verbose, interner, ops ++ [op], hops.append ⟨hc, ha, trivial⟩, ?_⟩
      simp only [Session.performAll, List.foldl_append, List.foldl_cons, List.foldl_nil]

/-- A run from a fresh session is the same in every memory. -/
theorem run_of_start_inRange {allowed : Operation → Bool} {reporting verbose : Bool}
    {interner : Interner} {ops : List Operation} (r : OutOfRange)
    (h : (start (.initial interner) reporting verbose).Admits allowed ops) :
    @performAll ⟨r⟩ (start (@SymbolTable.initial ⟨r⟩ interner) reporting verbose) ops =
      (start (.initial interner) reporting verbose).performAll ops := by
  have hfresh : Reachable allowed (start (.initial interner) reporting verbose) :=
    .fresh reporting verbose interner
  rw [SymbolTable.initial_inRange]
  exact performAll_inRange hfresh.closed h

/-- A class and an interface that declare the same property. The getter asked for is a variable, so
that the first signature stands in for it; the one that is there is a method with another one. The
body of the class is then entered, a name in it resolved, and the same name defined once more. -/
def sampleAccessors : List Operation :=
  [.edit (.addInterface "Shape"), .edit (.addClass "Square" false),
    .edit (.addSignature { returns := .integer }), .edit (.addSignature { returns := .double }),
    .edit (.addProperty "Area" none), .edit (.addVariable "total" true (some .double)),
    .edit (.setAccessors ⟨0⟩ (some ⟨1⟩) none), .edit (.define (.members ⟨16⟩) "Area" (.slot ⟨0⟩)),
    .edit (.addProperty "Area" none), .edit (.addMethod "get" ⟨1⟩),
    .edit (.setAccessors ⟨2⟩ (some ⟨3⟩) none), .edit (.define (.members ⟨17⟩) "area" (.slot ⟨2⟩)),
    .edit (.implement ⟨21⟩ ⟨20⟩), .edit (.define (.type ⟨21⟩) "Total" (.slot ⟨1⟩)),
    .edit (.addFrame (.body ⟨21⟩)), .enter ⟨0⟩,
    .query (.lexical (.ident { id := 1 } "total") .anything) {}]

/-- A memory that hands out the last entry in place of one that is not there, and loses all entries
if such a one is written. -/
def faulty : OutOfRange where
  read a _ := a.entries.back?.getD default
  write _ _ _ := {}

end Session
end StaticSemantics
