import Mathlib.Data.List.Nodup
import StaticSemantics.Proofs.Closure.Session
import StaticSemantics.Proofs.Resolution.Captures
import StaticSemantics.Proofs.Resolution.Evolution

/-!
Resolving an expression again. A resolution that gave an answer gives it again, changes nothing and
finds nothing, as long as the answers at the nodes of its expression stay as they are; one that gave
none fails again, and finds again what did not stem from an error symbol.
-/

namespace StaticSemantics

namespace Workspace

/-- `ws'` has the answers of `ws` at the given nodes, and declarations that have grown from its. -/
structure Agrees (nodes : List Nat) (ws ws' : Workspace) : Prop where
  entered : ws'.entered = ws.entered
  table : ws.table.Grows ws'.table
  answers : ∀ n ∈ nodes, ∀ m, ws'.answer? n m = ws.answer? n m

namespace Agrees

variable {nodes nodes' : List Nat} {ws ws' ws'' : Workspace}

theorem refl (nodes : List Nat) (ws : Workspace) : ws.Agrees nodes ws :=
  ⟨rfl, .refl _, fun _ _ _ => rfl⟩

theorem mono (h : ws.Agrees nodes' ws') (hn : nodes ⊆ nodes') : ws.Agrees nodes ws' :=
  ⟨h.entered, h.table, fun n hm => h.answers n (hn hm)⟩

theorem trans (h : ws.Agrees nodes ws') (h' : ws'.Agrees nodes ws'') : ws.Agrees nodes ws'' :=
  ⟨h'.entered.trans h.entered, h.table.trans h'.table,
    fun n hn m => (h'.answers n hn m).trans (h.answers n hn m)⟩

/-- Answers at other nodes do not matter. -/
theorem of_evolves (h : ws.Evolves nodes' ws') (hd : nodes.Disjoint nodes') :
    ws.Agrees nodes ws' :=
  ⟨h.entered, h.table, fun n hn m => h.outside n (fun hn' => hd hn hn') m⟩

theorem withTarget?_eq (h : ws.Agrees nodes ws') : ws'.withTarget? = ws.withTarget? := by
  unfold withTarget? current?
  rw [h.entered]
  simp only [h.table.withFrameOf?_eq, h.table.target?_eq]

end Agrees
end Workspace

/-! ## Replays -/

/-- What is left of the findings when the resolution is made again. -/
def Repeats {α : Type} (run : Workspace → Outcome α) (ws : Workspace) (plain : List Finding) :
    Prop :=
  (∃ errors, (run ws).findings = errors ++ plain ∧ ∀ f ∈ errors, f.ofError) ∧
    Plain plain ∧
    run (run ws).workspace = ⟨(run ws).result, (run ws).workspace, plain⟩

structure Replays {α : Type} (nodes : List Nat) (run : Workspace → Outcome α) (ws : Workspace) :
    Prop where
  success : ∀ a, (run ws).result = some a → (∀ f ∈ (run ws).findings, f.ofError) ∧
    ∀ ws', (run ws).workspace.Agrees nodes ws' → run ws' = ws'.answer a
  failure : (run ws).result = none → ∃ plain, Repeats run ws plain

theorem Outcome.andThen_of_none {α β : Type} {o : Outcome α} (h : o.result = none)
    (next : α → Workspace → Outcome β) : o.andThen next = ⟨none, o.workspace, o.findings⟩ := by
  simp [andThen, before, h]

theorem Outcome.andThen_of_some {α β : Type} {o : Outcome α} {a : α} (h : o.result = some a)
    (next : α → Workspace → Outcome β) :
    o.andThen next =
      { next a o.workspace with findings := o.findings ++ (next a o.workspace).findings } := by
  simp [andThen, before, h]

theorem Outcome.none_andThen {α β : Type} (ws : Workspace) (findings : List Finding)
    (next : α → Workspace → Outcome β) :
    (⟨none, ws, findings⟩ : Outcome α).andThen next = ⟨none, ws, findings⟩ :=
  andThen_of_none rfl next

@[simp] theorem Workspace.answer_andThen {α β : Type} (ws : Workspace) (a : α)
    (next : α → Workspace → Outcome β) : (ws.answer a).andThen next = next a ws := rfl

namespace Replays

variable {α β : Type} {nodes nodes' : List Nat} {run : Workspace → Outcome α} {ws : Workspace}

theorem mono (h : Replays nodes run ws) (hn : nodes ⊆ nodes') : Replays nodes' run ws :=
  ⟨fun a ha => ⟨(h.success a ha).1, fun ws' hw => (h.success a ha).2 ws' (hw.mono hn)⟩, h.failure⟩

/-- A failure that leaves the workspace alone repeats itself. -/
theorem of_fail {findings : List Finding} (h : run ws = ⟨none, ws, findings⟩)
    (hf : Plain findings) : Replays nodes run ws := by
  refine ⟨fun a ha => ?_, fun _ => ⟨findings, ⟨[], ?_, by simp⟩, hf, ?_⟩⟩
  · rw [h] at ha
    cases ha
  · rw [h]
    rfl
  · rw [h]
    exact h

/-- An answer that is remembered is given again. -/
theorem of_remembered {run : Workspace → Outcome Symbol} {node : Nat} {wanted : Wanted}
    {s : Symbol} {ws₁ : Workspace} {findings : List Finding}
    (hrun : ∀ ws', ws'.answer? node wanted = some s → run ws' = ws'.answer s)
    (h : run ws = ⟨some s, ws₁, findings⟩) (ha : ws₁.answer? node wanted = some s)
    (hf : ∀ f ∈ findings, f.ofError) : Replays [node] run ws := by
  refine ⟨fun a hra => ?_, fun hn => ?_⟩
  · rw [h] at hra ⊢
    cases hra
    exact ⟨hf, fun ws' hw => hrun ws' ((hw.answers node (by simp) wanted).trans ha)⟩
  · rw [h] at hn
    cases hn

theorem repeats (h : Replays nodes run ws) : ∃ plain, Repeats run ws plain := by
  cases hr : (run ws).result with
  | none => exact h.failure hr
  | some a =>
      obtain ⟨he, hs⟩ := h.success a hr
      refine ⟨[], ⟨(run ws).findings, by simp, he⟩, plain_nil, ?_⟩
      rw [hs _ (.refl _ _), hr]
      rfl

/-- A resolution replays if it does what another one does that replays. -/
theorem congr {run' : Workspace → Outcome α} (h : Replays nodes run' ws) (hr : run ws = run' ws)
    (hw : ∀ ws', (run' ws).workspace.Agrees nodes ws' → run ws' = run' ws') :
    Replays nodes run ws := by
  constructor
  · intro a ha
    rw [hr] at ha ⊢
    obtain ⟨he, hs⟩ := h.success a ha
    exact ⟨he, fun ws' hws => (hw ws' hws).trans (hs ws' hws)⟩
  · intro ha
    rw [hr] at ha
    obtain ⟨plain, he, hp, hs⟩ := h.failure ha
    refine ⟨plain, ?_⟩
    unfold Repeats
    rw [hr]
    exact ⟨he, hp, (hw _ (.refl _ _)).trans hs⟩

/-- One resolution after another replays if the second does not write where the first reads. -/
theorem andThen {next : α → Workspace → Outcome β} (h : Replays nodes run ws)
    (hn : ∀ a, (run ws).result = some a → Replays nodes' (next a) (run ws).workspace)
    (ht : ∀ a, (run ws).workspace.Evolves nodes' (next a (run ws).workspace).workspace)
    (hd : nodes.Disjoint nodes') :
    Replays (nodes ++ nodes') (fun ws => (run ws).andThen next) ws := by
  cases hr : (run ws).result with
  | none =>
      have hrun := Outcome.andThen_of_none hr next
      obtain ⟨plain, ⟨errors, hf, he⟩, hp, hs⟩ := h.failure hr
      constructor
      · intro b hb
        rw [hrun] at hb
        cases hb
      · intro _
        refine ⟨plain, ?_⟩
        unfold Repeats
        dsimp only
        rw [hrun, hs, hr]
        exact ⟨⟨errors, hf, he⟩, hp, Outcome.andThen_of_none rfl next⟩
  | some a =>
      have hrun := Outcome.andThen_of_some hr next
      obtain ⟨hfe, hs⟩ := h.success a hr
      have again : ∀ ws', (next a (run ws).workspace).workspace.Agrees (nodes ++ nodes') ws' →
          (run ws').andThen next = next a ws' := by
        intro ws' hw
        have hfirst : (run ws).workspace.Agrees nodes ws' :=
          (Workspace.Agrees.of_evolves (ht a) hd).trans (hw.mono (List.subset_append_left _ _))
        rw [hs ws' hfirst, Workspace.answer_andThen]
      have hn := hn a hr
      constructor
      · intro b hb
        rw [hrun] at hb ⊢
        obtain ⟨hne, hns⟩ := hn.success b hb
        refine ⟨fun f hf => ?_, fun ws' hw => ?_⟩
        · rcases List.mem_append.mp hf with hf | hf
          · exact hfe f hf
          · exact hne f hf
        · rw [again ws' hw]
          exact hns ws' (hw.mono (List.subset_append_right _ _))
      · intro hb
        rw [hrun] at hb
        obtain ⟨plain, ⟨errors, hf, he⟩, hp, hns⟩ := hn.failure hb
        refine ⟨plain, ?_⟩
        unfold Repeats
        dsimp only
        rw [hrun]
        refine ⟨⟨(run ws).findings ++ errors, ?_, fun f hfm => ?_⟩, hp, ?_⟩
        · simp [hf]
        · rcases List.mem_append.mp hfm with hfm | hfm
          · exact hfe f hfm
          · exact he f hfm
        · rw [again _ (.refl _ _)]
          exact hns

/-- The second resolution writes nowhere. -/
theorem andThen_here {next : α → Workspace → Outcome β} (h : Replays nodes run ws)
    (hn : ∀ a, (run ws).result = some a → Replays [] (next a) (run ws).workspace)
    (ht : ∀ a, (run ws).workspace.Evolves [] (next a (run ws).workspace).workspace) :
    Replays nodes (fun ws => (run ws).andThen next) ws :=
  (h.andThen hn ht (List.disjoint_nil_right _)).mono (by simp)

/-- The second step only looks at the workspace. -/
theorem repeats_andThen {next : α → Workspace → Outcome β} (h : Replays nodes run ws)
    (hn : ∀ a, ∃ r findings, Plain findings ∧
      next a (run ws).workspace = ⟨r, (run ws).workspace, findings⟩) :
    ∃ plain, Repeats (fun ws => (run ws).andThen next) ws plain := by
  unfold Repeats
  dsimp only
  cases hr : (run ws).result with
  | none =>
      obtain ⟨plain, he, hp, ha⟩ := h.failure hr
      refine ⟨plain, ?_⟩
      rw [Outcome.andThen_of_none hr, ha, hr, Outcome.none_andThen]
      exact ⟨he, hp, rfl⟩
  | some a =>
      obtain ⟨hf, hs⟩ := h.success a hr
      obtain ⟨r, findings, hp, hnext⟩ := hn a
      refine ⟨findings, ?_⟩
      rw [Outcome.andThen_of_some hr, hnext, hs _ (.refl _ _), Workspace.answer_andThen, hnext]
      exact ⟨⟨_, rfl, hf⟩, hp, rfl⟩

theorem answer (nodes : List Nat) (ws : Workspace) (a : α) : Replays nodes (·.answer a) ws := by
  refine ⟨fun b hb => ⟨List.forall_mem_nil _, fun ws' _ => ?_⟩, fun hn => ?_⟩
  · cases hb
    rfl
  · cases hn

end Replays

/-! ## Names -/

namespace Workspace

variable {ws : Workspace}

theorem resolveLexical_replays (ws : Workspace) (e : Expr) (wanted : Wanted) :
    Replays [e.node.id] (·.resolveLexical e wanted) ws := by
  cases ha : ws.answer? e.node.id wanted with
  | some s =>
      refine .of_remembered (fun ws' h => ws'.resolveLexical_of_answer e wanted h)
        (ws.resolveLexical_of_answer e wanted ha) ha (List.forall_mem_nil _)
  | none =>
      rcases ws.resolveLexical_cases e wanted ha with ⟨findings, hf, hr⟩ | ⟨name, s, hn, hs, hr⟩
      · exact .of_fail hr hf
      rcases (ws.noteCapture s).conclude_cases e wanted s none with
        ⟨findings, hf, _, hc⟩ | ⟨findings, hf, hc⟩
      · refine .of_remembered (fun ws' h => ws'.resolveLexical_of_answer e wanted h)
          (hr.trans hc) (by simp [answer?_remember]) fun f hm => (hf f hm).2
      · -- the capture that was noted is noted again
        have hr' : (ws.noteCapture s).resolveLexical e wanted =
            (ws.noteCapture s).conclude e wanted s none := by
          simp [resolveLexical, ha, hn, hs, nameInScope?_noteCapture, noteCapture_noteCapture]
        refine ⟨fun a ha => ?_, fun _ => ⟨findings, ?_⟩⟩
        · rw [hr, hc] at ha
          cases ha
        · unfold Repeats
          dsimp only
          rw [hr, hc]
          exact ⟨⟨[], rfl, by simp⟩, hf, hr'.trans hc⟩

theorem resolveReference_replays (ws : Workspace) (object : Symbol) (e : Expr) (wanted : Wanted) :
    Replays [e.node.id] (·.resolveReference object e wanted) ws := by
  cases ha : ws.answer? e.node.id wanted with
  | some s =>
      exact .of_remembered (fun ws' h => ws'.resolveReference_of_answer e wanted object h)
        (ws.resolveReference_of_answer e wanted object ha) ha (List.forall_mem_nil _)
  | none =>
      cases ho : object.isError with
      | true =>
          -- the failed object is handed on, and nothing is remembered
          have hr := ws.resolveReference_of_isError e wanted object ha ho
          refine ⟨fun a hra => ?_, fun hn => ?_⟩
          · rw [hr] at hra ⊢
            cases hra
            refine ⟨List.forall_mem_nil _, fun ws' hw => ?_⟩
            have ha' := (hw.answers e.node.id (by simp) wanted).trans ha
            exact ws'.resolveReference_of_isError e wanted object ha' ho
          · rw [hr] at hn
            cases hn
      | false =>
          rcases ws.resolveReference_cases e wanted object ha ho with
            ⟨findings, hf, hr⟩ | ⟨name, s, through, _, hr⟩
          · exact .of_fail hr hf
          rcases ws.conclude_cases e wanted s through with
            ⟨findings, hf, _, hc⟩ | ⟨findings, hf, hc⟩
          · exact .of_remembered (fun ws' h => ws'.resolveReference_of_answer e wanted object h)
              (hr.trans hc) (by simp [answer?_remember]) fun f hm => (hf f hm).2
          · exact .of_fail (hr.trans hc) hf

theorem resolveWithMember_replays (ws : Workspace) (e : Expr) :
    Replays [e.node.id] (·.resolveWithMember e) ws := by
  cases hv : ws.withTarget? with
  | none =>
      obtain ⟨findings, hf, hr⟩ := ws.resolveWithMember_of_none e hv
      exact .of_fail hr hf
  | some v =>
      refine (ws.resolveReference_replays (.value v) e .anything).congr
        (ws.resolveWithMember_of_target e hv) fun ws' hw => ?_
      have hev := (ws.resolveReference_traces (.value v) e .anything).evolves
      have hag : ws.Agrees [] ws' :=
        (Agrees.of_evolves hev (List.disjoint_nil_left _)).trans (hw.mono (by simp))
      exact ws'.resolveWithMember_of_target e (hag.withTarget?_eq.trans hv)

theorem resolveMember_replays (ws : Workspace) (wanted : Wanted) (e : Expr) (hn : e.nodes.Nodup) :
    Replays e.nodes (·.resolveMember wanted e) ws := by
  induction e generalizing wanted with
  | ident node name => exact ws.resolveLexical_replays (.ident node name) wanted
  | member node base name ih =>
      have hn := List.nodup_cons.mp hn
      have hr := (ih .anything hn.2).andThen
        (fun object _ => resolveReference_replays _ object (.member node base name) wanted)
        (fun object => (resolveReference_traces _ object _ wanted).evolves)
        (List.disjoint_singleton.mpr hn.1)
      exact hr.mono (by simp [Expr.nodes, Expr.node])
  | withMember node name => exact ws.resolveWithMember_replays (.withMember node name)
  | parens node inner ih =>
      exact (ih wanted (List.nodup_cons.mp hn).2).mono (by simp [Expr.nodes])
  | literal | unary | binary | nullable | tuple => exact .of_fail rfl plain_nil

/-! ## Types -/

theorem resolveTypeName_replays (ws : Workspace) (e : Expr) (hn : e.nodes.Nodup) :
    Replays e.nodes (·.resolveTypeName e) ws := by
  refine (ws.resolveMember_replays .typeOrModule e hn).andThen_here (fun s _ => ?_) fun s => ?_
  · cases s with
    | type t => exact .answer [] _ t
    | error err => exact .of_fail rfl plain_nil
    | module _ | slot _ | aliasDecl _ | value _ => exact .of_fail rfl (plain_singleton rfl)
  · cases s <;> exact .refl [] _

theorem addNullable_replays {t : TypeId} (ht : ws.table.types.Has t) :
    Replays [] (fun ws => { ws with table := (ws.table.addNullable t).2 }.answer
      (ws.table.addNullable t).1) ws := by
  refine ⟨fun u hu => ⟨List.forall_mem_nil _, fun ws' hw => ?_⟩, fun hn => by cases hn⟩
  cases hu
  simp only [SymbolTable.addNullable_again ht hw.table]

theorem addTuple_replays (ws : Workspace) (ts : List TypeId) :
    Replays [] (fun ws => { ws with table := (ws.table.addTuple ts).2 }.answer
      (ws.table.addTuple ts).1) ws := by
  refine ⟨fun u hu => ⟨List.forall_mem_nil _, fun ws' hw => ?_⟩, fun hn => by cases hn⟩
  cases hu
  simp only [SymbolTable.addTuple_again hw.table]

theorem resolveTypes_replays {l : List Expr} (h : ws.Closed) (hn : (Expr.listNodes l).Nodup)
    (hl : ∀ e ∈ l, ∀ ws : Workspace, ws.Closed → e.nodes.Nodup →
      Replays e.nodes (·.resolveType e) ws) :
    Replays (Expr.listNodes l) (·.resolveTypes l) ws := by
  induction l generalizing ws with
  | nil => exact .answer _ ws []
  | cons e rest ih =>
      obtain ⟨hne, hnr, hd⟩ := List.nodup_append'.mp hn
      refine (hl e List.mem_cons_self ws h hne).andThen (fun t _ => ?_) (fun t => ?_) hd
      · have hr := ih (resolveType_sound h e).closed hnr fun e' he' =>
          hl e' (List.mem_cons_of_mem _ he')
        exact hr.andThen_here (fun ts _ => .answer [] _ _) fun ts => .refl [] _
      · have ht := resolveTypes_traces (l := rest) (ws.resolveType e).workspace
          fun e' _ ws => ws.resolveType_traces e'
        exact (ht.andThen fun ts => .answer _ _ (t :: ts)).evolves

theorem resolveType_replays (h : ws.Closed) (e : Expr) (hn : e.nodes.Nodup) :
    Replays e.nodes (·.resolveType e) ws := by
  induction e generalizing ws with
  | ident | member => exact ws.resolveTypeName_replays _ hn
  | nullable node inner ih =>
      refine Replays.mono ((ih h (List.nodup_cons.mp hn).2).andThen_here (fun t ht => ?_)
        fun t => .of_table [] (.addNullable t)) (by simp [Expr.nodes])
      have hs := (resolveType_sound h inner).result t ht
      exact addNullable_replays (by simpa using hs)
  | tuple node elements ih =>
      have hr := resolveTypes_replays h (List.nodup_cons.mp hn).2 fun e he ws hw hne =>
        ih e he hw hne
      refine Replays.mono (hr.andThen_here (fun ts _ => addTuple_replays _ ts)
        fun ts => .of_table [] (.addTuple ts)) (by simp [Expr.nodes])
  | parens node inner ih =>
      exact (ih h (List.nodup_cons.mp hn).2).mono (by simp [Expr.nodes])
  | withMember | literal | unary | binary => exact .of_fail rfl (plain_singleton rfl)

/-! ## Constants -/

/-- A folded value is the same in whatever the table grows to. -/
theorem answerConstant_replays (e : Expr) (fold : SymbolTable → Option Value)
    (hf : ∀ w', ws.table.Grows w' → fold w' = fold ws.table) :
    Replays [] (fun ws => ws.answerConstant e (fold ws.table)) ws := by
  cases hv : fold ws.table with
  | none =>
      have h : ws.answerConstant e (fold ws.table) =
          ⟨none, ws, [⟨e.node.id, .atNode .notAConstant e.node⟩]⟩ := by
        rw [hv]
        rfl
      exact .of_fail h (plain_singleton rfl)
  | some v =>
      refine (Replays.answer [] ws v).congr ?_ fun ws' hw => ?_
      · rw [hv]
        rfl
      · rw [hf ws'.table hw.table, hv]
        rfl

theorem answerConstant_evolves (ws : Workspace) (e : Expr) (v : Option Value) :
    ws.Evolves [] (ws.answerConstant e v).workspace :=
  (answerConstant_traces [] ws e v).evolves

theorem resolveConstantName_replays (ws : Workspace) (e : Expr) (hn : e.nodes.Nodup) :
    Replays e.nodes (·.resolveConstantName e) ws :=
  (ws.resolveMember_replays .anything e hn).andThen_here
    (fun s _ => answerConstant_replays e _ fun _ hw => hw.constantOf?_eq s)
    fun _ => answerConstant_evolves _ e _

/-- The constant that a member of an object stands for: one of an enum, or else a read-only slot. -/
def resolveConstantOf (ws : Workspace) (e : Expr) (name : String) (object : Symbol) :
    Outcome Value :=
  match object.type?.bind fun t => ws.table.enumConstant? t name with
  | some v => ws.answer v
  | none => (ws.resolveReference object e .anything).andThen fun s ws =>
      ws.answerConstant e (ws.table.constantOf? s)

theorem resolveConstantOf_traces (ws : Workspace) (e : Expr) (name : String) (object : Symbol) :
    (ws.resolveConstantOf e name object).Traces [e.node.id] ws := by
  unfold resolveConstantOf
  split
  · exact .answer _ ws _
  · exact (ws.resolveReference_traces object e .anything).andThen
      fun s => answerConstant_traces _ _ e _

theorem resolveConstantOf_replays (ws : Workspace) (e : Expr) (name : String) (object : Symbol) :
    Replays [e.node.id] (·.resolveConstantOf e name object) ws := by
  have same : ∀ w', ws.table.Grows w' →
      (object.type?.bind fun t => w'.enumConstant? t name) =
        object.type?.bind fun t => ws.table.enumConstant? t name :=
    fun w' hw => congrArg _ (funext fun t => hw.enumConstant?_eq t name)
  cases hv : object.type?.bind fun t => ws.table.enumConstant? t name with
  | some v =>
      refine (Replays.answer _ ws v).congr ?_ fun ws' hw => ?_
      · simp only [resolveConstantOf, hv]
      · simp only [resolveConstantOf, same ws'.table hw.table, hv]
  | none =>
      have hr := (ws.resolveReference_replays object e .anything).andThen_here
        (fun s _ => answerConstant_replays e _ fun _ hw => hw.constantOf?_eq s)
        fun _ => answerConstant_evolves _ e _
      have hrun : ws.resolveConstantOf e name object =
          (ws.resolveReference object e .anything).andThen fun s ws =>
            ws.answerConstant e (ws.table.constantOf? s) := by
        simp only [resolveConstantOf, hv]
      refine hr.congr hrun fun ws' hw => ?_
      have ht := (ws.resolveConstantOf_traces e name object).evolves.table
      rw [hrun] at ht
      simp only [resolveConstantOf, same ws'.table (ht.trans hw.table), hv]

/-- If resolving the base again gives the same object, a member that must stand for a constant is
looked up in that object. -/
theorem resolveConstantMember_of_some (node : Node) {base : Expr} (name : String) {object : Symbol}
    (hr : (ws.resolveMember .anything base).result = some object)
    (ha : (ws.resolveMember .anything base).workspace.resolveMember .anything base =
      (ws.resolveMember .anything base).workspace.answer object) :
    ws.resolveConstantMember (.member node base name) base name =
      (ws.resolveMember .anything base).andThen fun object ws =>
        ws.resolveConstantOf (.member node base name) name object := by
  rw [Outcome.andThen_of_some hr]
  unfold resolveConstantMember Outcome.before resolveConstantOf
  dsimp only
  rw [hr, Option.bind_some]
  cases object.type?.bind fun t =>
      (ws.resolveMember .anything base).workspace.table.enumConstant? t name with
  | some v => rfl
  | none => simp only [resolveConstantName, resolveMember, ha, answer_andThen]

/-- If the base fails, it is resolved and fails a second time. -/
theorem resolveConstantMember_of_none (node : Node) {base : Expr} (name : String)
    {plain : List Finding} (hr : (ws.resolveMember .anything base).result = none)
    (ha : (ws.resolveMember .anything base).workspace.resolveMember .anything base =
      ⟨none, (ws.resolveMember .anything base).workspace, plain⟩) :
    ws.resolveConstantMember (.member node base name) base name =
      ⟨none, (ws.resolveMember .anything base).workspace,
        (ws.resolveMember .anything base).findings ++ plain⟩ := by
  unfold resolveConstantMember Outcome.before
  simp only [hr, Option.bind_none, resolveConstantName, resolveMember, ha, Outcome.none_andThen]

theorem resolveConstantMember_replays (ws : Workspace) (node : Node) (base : Expr) (name : String)
    (hn : (Expr.member node base name).nodes.Nodup) :
    Replays (Expr.member node base name).nodes
      (·.resolveConstantMember (.member node base name) base name) ws := by
  have hn := List.nodup_cons.mp hn
  have hb := ws.resolveMember_replays .anything base hn.2
  cases hr : (ws.resolveMember .anything base).result with
  | none =>
      obtain ⟨plain, ⟨errors, hf, he⟩, hp, ha⟩ := hb.failure hr
      dsimp only at hf ha
      rw [hr] at ha
      have hrun := resolveConstantMember_of_none node name hr ha
      have hagain := resolveConstantMember_of_none node name (by rw [ha]) (by rw [ha]; exact ha)
      rw [ha] at hagain
      refine ⟨fun v hv => ?_, fun _ => ⟨plain ++ plain, ?_⟩⟩
      · rw [hrun] at hv
        cases hv
      · unfold Repeats
        dsimp only
        rw [hrun]
        refine ⟨⟨errors, by simp [hf], he⟩, fun f hm => ?_, hagain⟩
        rcases List.mem_append.mp hm with hm | hm <;> exact hp f hm
  | some object =>
      obtain ⟨_, hs⟩ := hb.success object hr
      have hd : base.nodes.Disjoint [(Expr.member node base name).node.id] :=
        List.disjoint_singleton.mpr hn.1
      have hof := fun object => resolveConstantOf_traces
        (ws.resolveMember .anything base).workspace (.member node base name) name object
      have hchain := hb.andThen (fun object _ => resolveConstantOf_replays _ _ name object)
        (fun object => (hof object).evolves) hd
      refine (hchain.congr ?_ fun ws' hw => ?_).mono (by simp [Expr.nodes, Expr.node])
      · exact resolveConstantMember_of_some node name hr (hs _ (.refl _ _))
      · rw [Outcome.andThen_of_some hr] at hw
        have hag : (ws.resolveMember .anything base).workspace.Agrees base.nodes ws' :=
          (Agrees.of_evolves (hof object).evolves hd).trans
            (hw.mono (List.subset_append_left _ _))
        have hws : ws'.resolveMember .anything base = ws'.answer object := hs ws' hag
        exact resolveConstantMember_of_some node name (by rw [hws]; rfl) (by rw [hws]; exact hws)

theorem resolveConstant_replays (ws : Workspace) (e : Expr) (hn : e.nodes.Nodup) :
    Replays e.nodes (·.resolveConstant e) ws := by
  induction e generalizing ws with
  | ident | withMember => exact ws.resolveConstantName_replays _ hn
  | member node base name => exact ws.resolveConstantMember_replays node base name hn
  | literal node l => exact .answer _ ws l.value
  | parens node inner ih =>
      exact (ih ws (List.nodup_cons.mp hn).2).mono (by simp [Expr.nodes])
  | unary node op operand ih =>
      refine Replays.mono ((ih ws (List.nodup_cons.mp hn).2).andThen_here (fun v _ => ?_)
        fun v => answerConstant_evolves _ _ _) (by simp [Expr.nodes])
      exact answerConstant_replays _ (fun _ => Folding.unary? op v) fun _ _ => rfl
  | binary node op left right ihl ihr =>
      obtain ⟨hnl, hnr, hd⟩ := List.nodup_append'.mp (List.nodup_cons.mp hn).2
      refine Replays.mono ((ihl ws hnl).andThen (fun v _ => ?_) (fun v => ?_) hd)
        (by simp [Expr.nodes])
      · exact (ihr _ hnr).andThen_here
          (fun u _ => answerConstant_replays _ _ fun _ hw => hw.binary?_eq op v u)
          fun u => answerConstant_evolves _ _ _
      · exact ((resolveConstant_traces _ right).andThen fun u =>
          answerConstant_traces _ _ (.binary node op left right) _).evolves
  | nullable | tuple => exact .of_fail rfl (plain_singleton rfl)

end Workspace

/-! ## Queries -/

/-- A query made again answers as before, changes nothing and finds again what did not stem from an
error symbol. -/
theorem Query.outcome_repeats (q : Query) {ws : Workspace} (h : ws.Closed)
    (hn : q.expr.nodes.Nodup) : ∃ plain, Repeats q.outcome ws plain := by
  cases q with
  | lexical e wanted => exact (ws.resolveLexical_replays e wanted).repeats
  | reference object e wanted => exact (ws.resolveReference_replays object e wanted).repeats
  | member e wanted => exact (ws.resolveMember_replays wanted e hn).repeats
  | withMember e => exact (ws.resolveWithMember_replays e).repeats
  | type e => exact (Workspace.resolveType_replays h e hn).repeats
  | constant e => exact (ws.resolveConstant_replays e hn).repeats
  | constantAs e t =>
      refine (ws.resolveConstant_replays e hn).repeats_andThen fun v => ?_
      split
      · exact ⟨_, [], plain_nil, rfl⟩
      · exact ⟨none, _, plain_singleton rfl, rfl⟩

end StaticSemantics
