import StaticSemantics.Proofs.Closure.Edits
import StaticSemantics.Proofs.Closure.Lookup
import StaticSemantics.Proofs.Closure.Values
import StaticSemantics.Proofs.Expression
import StaticSemantics.Proofs.Resolution.Inversion

/-!
Closed workspaces: the table is closed, and the frames entered and the answers given are covered by
it. Resolutions keep a workspace closed and change its table by edits only, so that every session
that operations lead to is closed.
-/

namespace StaticSemantics

open SymbolTable (Edited)

/-- The edits that a resolution makes. -/
def Edit.byResolution : Edit → Bool
  | .capture .. | .addNullable _ | .addTuple _ => true
  | _ => false

/-- The edits that are made by operations which are no edits themselves. -/
def Edit.inPassing : Edit → Bool
  | .attachFrame .. => true
  | e => e.byResolution

namespace Workspace

structure Closed (ws : Workspace) : Prop where
  table : ws.table.Closed
  entered : ∀ f ∈ ws.entered, ws.table.frames.Has f
  answers : ∀ a ∈ ws.answers, ws.table.Covers a.2.ids

namespace Closed

variable {ws : Workspace}

theorem start {w : SymbolTable} (h : w.Closed) : Workspace.Closed { table := w } :=
  ⟨h, List.forall_mem_nil _, List.forall_mem_nil _⟩

theorem edited (h : ws.Closed) {allowed : Edit → Bool} {table : SymbolTable}
    (he : Edited allowed ws.table table) : { ws with table }.Closed := by
  obtain ⟨hc, hw⟩ := h.table.edited he
  refine ⟨hc, fun f hf => ?_, fun a ha => (h.answers a ha).mono hw⟩
  exact Nat.lt_of_lt_of_le (h.entered f hf) (hw .frame)

theorem remember (h : ws.Closed) (node : Nat) (wanted : Wanted) {s : Symbol}
    (hs : ws.table.Covers s.ids) : (ws.remember node wanted s).Closed := by
  refine ⟨h.table, h.entered, fun a ha => ?_⟩
  rcases List.mem_cons.mp ha with rfl | ha
  · exact hs
  · exact h.answers a ha

theorem covers_answer? (h : ws.Closed) {node : Nat} {wanted : Wanted} {s : Symbol}
    (hs : ws.answer? node wanted = some s) : ws.table.Covers s.ids := by
  obtain ⟨a, ha, rfl⟩ := Option.map_eq_some_iff.mp hs
  exact h.answers a (List.mem_of_find?_eq_some ha)

theorem current?_has (h : ws.Closed) {f : FrameId} (hf : ws.current? = some f) :
    ws.table.frames.Has f :=
  h.entered f (List.mem_of_head? hf)

theorem covers_nameInScope? (h : ws.Closed) {name : String} {wanted : Wanted} {s : Symbol}
    (hs : ws.nameInScope? name wanted = some s) : ws.table.Covers s.ids := by
  rcases (Option.orElse_eq_some _ _ _).mp hs with hs | ⟨_, hs⟩
  · obtain ⟨f, hf, hs⟩ := Option.bind_eq_some_iff.mp hs
    exact h.table.covers_resolveInFrame? (h.current?_has hf) hs
  · obtain ⟨m, hm, rfl⟩ := Option.map_eq_some_iff.mp hs
    simpa [Symbol.ids] using h.table.root?_has hm

theorem covers_withTarget? (h : ws.Closed) {v : Value} (hv : ws.withTarget? = some v) :
    ws.table.Covers v.ids := by
  obtain ⟨f, _, hv⟩ := Option.bind_eq_some_iff.mp hv
  obtain ⟨g, _, hv⟩ := Option.bind_eq_some_iff.mp hv
  have hg := h.table.covers_frameKind g
  unfold Frame.target? at hv
  split at hv
  · rename_i hk
    cases hv
    rwa [hk] at hg
  · cases hv

end Closed

theorem edited_noteCapture {ws : Workspace} (h : ws.Closed) {s : Symbol}
    (hs : ws.table.Covers s.ids) :
    Edited Edit.byResolution ws.table (ws.noteCapture s).table ∧
      ws.noteCapture s = { ws with table := (ws.noteCapture s).table } := by
  unfold noteCapture
  split
  · rename_i owner slot t inner hi
    split
    · obtain ⟨f, hf, hi⟩ := Option.bind_eq_some_iff.mp hi
      have hf := h.table.activationOf?_has (h.current?_has hf) hi
      refine ⟨.single (.capture inner slot) ?_ rfl, rfl⟩
      simp_all [Edit.ids, Symbol.ids, Value.ids]
    · exact ⟨.refl, rfl⟩
  · exact ⟨.refl, rfl⟩

end Workspace

/-! ## Outcomes -/

/-- The outcome, started in `ws`, leaves a closed workspace, changes the table by edits only, and
answers with something that mentions covered ids. -/
structure Outcome.Sound {α : Type} (ids : α → List AnyId) (ws : Workspace) (o : Outcome α) :
    Prop where
  closed : o.workspace.Closed
  edited : Edited Edit.byResolution ws.table o.workspace.table
  result : ∀ a ∈ o.result, o.workspace.table.Covers (ids a)

namespace Outcome.Sound

variable {α β : Type} {ids : α → List AnyId} {ids' : β → List AnyId} {ws : Workspace}

theorem answer (h : ws.Closed) {a : α} (ha : ws.table.Covers (ids a)) :
    (ws.answer a).Sound ids ws :=
  ⟨h, .refl, by simpa [Workspace.answer] using ha⟩

theorem none (h : ws.Closed) (findings : List Finding) :
    Outcome.Sound ids ws ⟨none, ws, findings⟩ :=
  ⟨h, .refl, by simp⟩

theorem refuse (h : ws.Closed) : (ws.refuse : Outcome α).Sound ids ws := .none h []

theorem fail (h : ws.Closed) (e : Expr) (p : Problem) :
    (ws.fail e p : Outcome α).Sound ids ws :=
  .none h _

theorem before {o : Outcome α} {next : Option α → Workspace → Outcome β} (h : o.Sound ids ws)
    (hn : (next o.result o.workspace).Sound ids' o.workspace) : (o.before next).Sound ids' ws :=
  ⟨hn.closed, h.edited.trans hn.edited, hn.result⟩

theorem andThen {o : Outcome α} {next : α → Workspace → Outcome β} (h : o.Sound ids ws)
    (hn : ∀ a, o.workspace.table.Covers (ids a) →
      (next a o.workspace).Sound ids' o.workspace) : (o.andThen next).Sound ids' ws := by
  refine h.before ?_
  split
  · rename_i a ha
    exact hn a (h.result a ha)
  · exact refuse h.closed

end Outcome.Sound

namespace Workspace

variable {ws : Workspace}

theorem conclude_sound (h : ws.Closed) (e : Expr) (wanted : Wanted) {s : Symbol}
    (through : Option TypeId) (hs : ws.table.Covers s.ids) :
    (ws.conclude e wanted s through).Sound Symbol.ids ws := by
  rcases ws.conclude_cases e wanted s through with ⟨findings, _, _, hc⟩ | ⟨findings, _, hc⟩
  · rw [hc]
    exact ⟨h.remember _ _ hs, .refl, by simpa [remember] using hs⟩
  · rw [hc]
    exact .none h findings

theorem resolveLexical_sound (h : ws.Closed) (e : Expr) (wanted : Wanted) :
    (ws.resolveLexical e wanted).Sound Symbol.ids ws := by
  cases ha : ws.answer? e.node.id wanted with
  | some s =>
      rw [ws.resolveLexical_of_answer e wanted ha]
      exact .answer h (h.covers_answer? ha)
  | none =>
      rcases ws.resolveLexical_cases e wanted ha with ⟨findings, _, hr⟩ | ⟨name, s, _, hs, hr⟩
      · rw [hr]
        exact .none h findings
      · have hs := h.covers_nameInScope? hs
        obtain ⟨he, hc⟩ := edited_noteCapture h hs
        have hw := (h.table.edited he).2
        have h' : (ws.noteCapture s).Closed := hc ▸ h.edited he
        have := conclude_sound h' e wanted none (hs.mono hw)
        rw [hr]
        exact ⟨this.closed, he.trans this.edited, this.result⟩

theorem resolveReference_sound (h : ws.Closed) {object : Symbol} (e : Expr) (wanted : Wanted)
    (ho : ws.table.Covers object.ids) :
    (ws.resolveReference object e wanted).Sound Symbol.ids ws := by
  cases ha : ws.answer? e.node.id wanted with
  | some s =>
      rw [ws.resolveReference_of_answer e wanted object ha]
      exact .answer h (h.covers_answer? ha)
  | none =>
      cases hoe : object.isError with
      | true =>
          rw [ws.resolveReference_of_isError e wanted object ha hoe]
          exact .answer h ho
      | false =>
          rcases ws.resolveReference_cases e wanted object ha hoe with
            ⟨findings, _, hr⟩ | ⟨name, s, through, hs, hr⟩
          · rw [hr]
            exact .none h findings
          · rw [hr]
            exact conclude_sound h e wanted through (h.table.covers_resolveInSymbol? ho hs)

theorem resolveWithMember_sound (h : ws.Closed) (e : Expr) :
    (ws.resolveWithMember e).Sound Symbol.ids ws := by
  cases hv : ws.withTarget? with
  | none =>
      obtain ⟨findings, _, hr⟩ := ws.resolveWithMember_of_none e hv
      rw [hr]
      exact .none h findings
  | some v =>
      rw [ws.resolveWithMember_of_target e hv]
      exact resolveReference_sound h e _ (h.covers_withTarget? hv)

theorem resolveMember_sound (h : ws.Closed) (wanted : Wanted) (e : Expr) :
    (ws.resolveMember wanted e).Sound Symbol.ids ws := by
  induction e generalizing wanted with
  | ident node name => exact resolveLexical_sound h _ wanted
  | member node base name ih =>
      refine (ih .anything).andThen fun object ho => ?_
      exact resolveReference_sound (ih .anything).closed _ wanted ho
  | withMember node name => exact resolveWithMember_sound h _
  | parens node inner ih => exact ih wanted
  | literal | unary | binary | nullable | tuple => exact .refuse h

theorem resolveTypeName_sound (h : ws.Closed) (e : Expr) :
    (ws.resolveTypeName e).Sound (fun t => [t.tagged]) ws := by
  have hm := resolveMember_sound h .typeOrModule e
  refine hm.andThen fun s hs => ?_
  split
  · exact .answer hm.closed (by simpa [Symbol.ids] using hs)
  · exact .refuse hm.closed
  · exact .fail hm.closed _ _

/-- Goes on with a type that an edit yields. -/
theorem Closed.edit_sound (h : ws.Closed) (e : Edit) {t : TypeId} (hc : ws.table.Covers e.ids)
    (ha : e.byResolution) (ht : (ws.table.apply e).types.Has t) :
    ({ ws with table := ws.table.apply e }.answer t).Sound (fun t : TypeId => [t.tagged]) ws := by
  have he := Edited.single e hc ha
  exact ⟨h.edited he, he, by simpa [answer] using ht⟩

theorem resolveTypes_sound {l : List Expr} (h : ws.Closed)
    (hl : ∀ e ∈ l, ∀ ws : Workspace, ws.Closed →
      (ws.resolveType e).Sound (fun t => [t.tagged]) ws) :
    (ws.resolveTypes l).Sound (fun ts => ts.map EntityId.tagged) ws := by
  induction l generalizing ws with
  | nil => exact .answer h (by simp)
  | cons e rest ih =>
      have he := hl e List.mem_cons_self ws h
      refine he.andThen fun t ht => ?_
      have hr := ih he.closed fun e' he' => hl e' (List.mem_cons_of_mem _ he')
      refine hr.andThen fun ts hts => ?_
      have ht := ht.mono (he.closed.table.edited hr.edited).2
      exact .answer hr.closed (by simpa using ⟨by simpa using ht, by simpa using hts⟩)

theorem resolveType_sound (h : ws.Closed) (e : Expr) :
    (ws.resolveType e).Sound (fun t => [t.tagged]) ws := by
  induction e generalizing ws with
  | ident | member => exact resolveTypeName_sound h _
  | nullable node inner ih =>
      refine (ih h).andThen fun t ht => ?_
      have ht : (ws.resolveType inner).workspace.table.types.Has t := by simpa using ht
      exact (ih h).closed.edit_sound (.addNullable t) (by simpa [Edit.ids] using ht) rfl
        (SymbolTable.has_addNullable (ih h).closed.table ht)
  | tuple node elements ih =>
      have hr := resolveTypes_sound h fun e he ws hw => ih e he hw
      refine hr.andThen fun ts hts => ?_
      exact hr.closed.edit_sound (.addTuple ts) (by simpa [Edit.ids] using hts) rfl
        (SymbolTable.has_addTuple hr.closed.table ts)
  | parens node inner ih => exact ih h
  | withMember | literal | unary | binary => exact .fail h _ _

/-! ## Constants -/

theorem answerConstant_sound (h : ws.Closed) (e : Expr) {v : Option Value}
    (hv : ∀ u ∈ v, ws.table.Covers u.ids) : (ws.answerConstant e v).Sound Value.ids ws := by
  cases v with
  | none => exact .fail h _ _
  | some v => exact .answer h (hv v rfl)

theorem resolveConstantName_sound (h : ws.Closed) (e : Expr) :
    (ws.resolveConstantName e).Sound Value.ids ws := by
  have hm := resolveMember_sound h .anything e
  refine hm.andThen fun s hs => answerConstant_sound hm.closed e fun v hv => ?_
  exact hm.closed.table.covers_constantOf? hs hv

theorem resolveConstantMember_sound (h : ws.Closed) (e base : Expr) (name : String) :
    (ws.resolveConstantMember e base name).Sound Value.ids ws := by
  have hm := resolveMember_sound h .anything base
  refine hm.before ?_
  split
  · rename_i v hv
    obtain ⟨t, ht, hv⟩ := Option.bind_eq_some_iff.mp hv
    obtain ⟨object, ho, ht⟩ := Option.bind_eq_some_iff.mp ht
    have ho := hm.result object ho
    refine .answer hm.closed (SymbolTable.Closed.covers_enumConstant? ?_ hv)
    cases object with
    | type t' =>
        cases ht
        simpa [Symbol.ids] using ho
    | _ => cases ht
  · exact resolveConstantName_sound hm.closed _

theorem resolveConstant_sound (h : ws.Closed) (e : Expr) :
    (ws.resolveConstant e).Sound Value.ids ws := by
  induction e generalizing ws with
  | ident | withMember => exact resolveConstantName_sound h _
  | member node base name => exact resolveConstantMember_sound h _ base name
  | literal node l => exact .answer h (h.table.covers_selfTyped (.literal l))
  | parens node inner ih => exact ih h
  | unary node op operand ih =>
      refine (ih h).andThen fun v hv => answerConstant_sound (ih h).closed _ fun u hu => ?_
      exact (ih h).closed.table.covers_unary? hv hu
  | binary node op left right ihl ihr =>
      refine (ihl h).andThen fun v hv => ?_
      have hr := ihr (ihl h).closed
      have hv := hv.mono ((ihl h).closed.table.edited hr.edited).2
      refine hr.andThen fun u _ => answerConstant_sound hr.closed _ fun r hr' => ?_
      exact hr.closed.table.covers_binary? hv hr'
  | nullable | tuple => exact .fail h _ _

theorem resolveConstantAs_sound (h : ws.Closed) (e : Expr) {t : TypeId}
    (ht : ws.table.types.Has t) : (ws.resolveConstantAs e t).Sound Value.ids ws := by
  have hc := resolveConstant_sound h e
  have ht : (ws.resolveConstant e).workspace.table.types.Has t :=
    SymbolTable.Has.mono (i := t.tagged) ht (h.table.edited hc.edited).2
  refine hc.andThen fun v hv => ?_
  split
  · rename_i u hu
    exact .answer hc.closed (SymbolTable.Closed.covers_convertConstant? hv ht hu)
  · exact .fail hc.closed _ _

end Workspace

/-! ## Sessions -/

/-- The ids that an answer mentions. -/
def Query.answerIds : (q : Query) → q.Answer → List AnyId
  | .lexical .. | .reference .. | .member .. | .withMember _ => Symbol.ids
  | .type _ => fun t => [EntityId.tagged t]
  | .constant _ | .constantAs .. => Value.ids

/-- A query keeps a workspace closed, changes the table by edits only, and answers with covered
ids. -/
theorem Query.outcome_sound (q : Query) {ws : Workspace} (h : ws.Closed)
    (hq : ws.table.Covers q.ids) : (q.outcome ws).Sound q.answerIds ws := by
  cases q with
  | lexical e wanted => exact Workspace.resolveLexical_sound h e wanted
  | reference object e wanted => exact Workspace.resolveReference_sound h e wanted hq
  | member e wanted => exact Workspace.resolveMember_sound h wanted e
  | withMember e => exact Workspace.resolveWithMember_sound h e
  | type e => exact Workspace.resolveType_sound h e
  | constant e => exact Workspace.resolveConstant_sound h e
  | constantAs e t => exact Workspace.resolveConstantAs_sound h e (by simpa [Query.ids] using hq)

namespace Session

variable {s : Session}

theorem workspace_run (q : Query) (s : Session) (ctx : Context) :
    (q.run s ctx).2.workspace = (q.outcome s.workspace).workspace := by
  rw [q.run_eq_accept, workspace_accept]

theorem enter_closed (h : s.workspace.Closed) {f : FrameId} (hf : s.table.frames.Has f) :
    (s.enter f).workspace.Closed ∧ Edited Edit.inPassing s.table (s.enter f).table := by
  have he : Edited Edit.inPassing s.table (s.enter f).table := by
    unfold enter Workspace.enter table
    cases hc : s.workspace.current? with
    | none => exact .refl
    | some top =>
        refine .single (.attachFrame f top) ?_ rfl
        simpa [Edit.ids] using ⟨hf, h.current?_has hc⟩
  have hw := h.edited he
  refine ⟨⟨hw.table, fun g hg => ?_, hw.answers⟩, he⟩
  rcases List.mem_cons.mp hg with rfl | hg
  · exact Nat.lt_of_lt_of_le hf ((h.table.edited he).2 .frame)
  · exact hw.entered g hg

/-- An admitted operation keeps a session closed. -/
theorem perform_closed (h : s.workspace.Closed) {op : Operation} (hc : s.table.Covers op.ids) :
    (s.perform op).workspace.Closed := by
  cases op with
  | edit e =>
      have he : Edited (fun _ => true) s.table (s.table.apply e) := .single e hc rfl
      exact h.edited he
  | enter f => exact (enter_closed h (by simpa [Operation.ids] using hc)).1
  | leave =>
      exact ⟨h.table, fun f hf => h.entered f (List.mem_of_mem_tail hf), h.answers⟩
  | query q ctx =>
      simp only [perform, workspace_run]
      exact (q.outcome_sound h hc).closed
  | takeProblems => exact h

/-- What an operation that is no edit does to the table. -/
theorem perform_inPassing (h : s.workspace.Closed) {op : Operation} (hc : s.table.Covers op.ids)
    (hop : ∀ e, op ≠ .edit e) : Edited Edit.inPassing s.table (s.perform op).table := by
  cases op with
  | edit e => exact absurd rfl (hop e)
  | enter f => exact (enter_closed h (by simpa [Operation.ids] using hc)).2
  | leave | takeProblems => exact .refl
  | query q ctx =>
      simp only [perform, table, workspace_run]
      refine (q.outcome_sound h hc).edited.mono fun e he => ?_
      cases e <;> first | rfl | cases he

/-- An admitted operation changes the table by edits, which set a super type only if it does. -/
theorem perform_edited (h : s.workspace.Closed) {op : Operation}
    (hc : s.table.Covers op.ids) :
    Edited (fun e => op.setsSuperType || !e.setsSuperType) s.table (s.perform op).table := by
  cases op with
  | edit e => exact .single e hc (Bool.or_not_self e.setsSuperType)
  | enter | leave | query | takeProblems =>
      refine (perform_inPassing h hc nofun).mono fun e he => ?_
      cases e <;> first | rfl | cases he

theorem Reachable.closed {allowed : Operation → Bool} (h : Reachable allowed s) :
    s.workspace.Closed := by
  induction h with
  | fresh _ _ interner => exact .start (SymbolTable.initial_closed interner)
  | step op _ hc _ ih => exact perform_closed ih hc

/-- Sessions change their table by edits, which set a super type only if operations do. -/
theorem Reachable.edited {allowed : Operation → Bool} {allowed' : Edit → Bool}
    (h : Reachable allowed s)
    (ha : ∀ op, allowed op → ∀ e, op.setsSuperType || !e.setsSuperType → allowed' e) :
    ∃ interner, Edited allowed' (.initial interner) s.table := by
  induction h with
  | fresh reporting verbose interner =>
      rw [table_start]
      exact ⟨interner, .refl⟩
  | step op h hc hop ih =>
      obtain ⟨interner, he⟩ := ih
      exact ⟨interner, he.trans ((perform_edited h.closed hc).mono (ha op hop))⟩

theorem Reachable.edited_initial {allowed : Operation → Bool} (h : Reachable allowed s) :
    ∃ interner, Edited (fun _ => true) (.initial interner) s.table :=
  h.edited fun _ _ _ _ => rfl

end Session
end StaticSemantics
