import StaticSemantics.Proofs.Access
import StaticSemantics.Proofs.Resolution.Evolution
import StaticSemantics.Proofs.Scope.Locals

/-!
What resolving an expression does to the declarations: the innermost function is seen to refer to
the locals of functions around it that identifiers are found to mean, and nothing else changes. An
identifier counts when it is looked up, that is when it has no answer yet, and it counts even if the
current frame may not use what is found.
-/

namespace StaticSemantics

open Relation

/-! ## Captured slots -/

namespace Frame

theorem mem_insertSlot {s t : SlotId} {l : List SlotId} :
    t ∈ insertSlot s l ↔ t = s ∨ t ∈ l := by
  induction l with
  | nil => simp [insertSlot]
  | cons u rest ih =>
      unfold insertSlot
      split
      · simp_all
      · split
        · simp
        · simp only [List.mem_cons, ih]
          exact or_left_comm

/-- The body of a function with other captured slots. -/
def withCaptured (slots : List SlotId) (f : Frame) : Frame :=
  match f.kind with
  | .activation me _ => { f with kind := .activation me slots }
  | _ => f

@[simp] theorem uncaptured_withCaptured (slots : List SlotId) (f : Frame) :
    (f.withCaptured slots).uncaptured = f.uncaptured := by
  obtain ⟨kind, _⟩ := f
  cases kind <;> rfl

theorem withCaptured_withCaptured (slots slots' : List SlotId) (f : Frame) :
    (f.withCaptured slots).withCaptured slots' = f.withCaptured slots' := by
  obtain ⟨kind, _⟩ := f
  cases kind <;> rfl

theorem withCaptured_captured (f : Frame) : f.withCaptured f.captured = f := by
  obtain ⟨kind, _⟩ := f
  cases kind <;> rfl

theorem captured_withCaptured {f : Frame} (h : f.isActivation) (slots : List SlotId) :
    (f.withCaptured slots).captured = slots := by
  obtain ⟨kind, _⟩ := f
  cases kind <;> first | rfl | cases h

theorem capture_eq (s : SlotId) (f : Frame) :
    f.capture s = f.withCaptured (insertSlot s f.captured) := by
  obtain ⟨kind, _⟩ := f
  cases kind <;> rfl

end Frame

namespace SymbolTable

variable {w : SymbolTable} {inner : FrameId} {slots slots' : List SlotId}

/-- The table with other captured slots for a function. -/
def withCaptured (w : SymbolTable) (inner : FrameId) (slots : List SlotId) : SymbolTable :=
  w.modifyFrame inner (Frame.withCaptured slots)

theorem withCaptured_withCaptured : (w.withCaptured inner slots).withCaptured inner slots' =
    w.withCaptured inner slots' := by
  unfold withCaptured modifyFrame
  dsimp only
  rw [Arena.modify_modify]
  congr 2
  funext f
  exact f.withCaptured_withCaptured slots slots'

theorem withCaptured_captured (w : SymbolTable) (inner : FrameId) :
    w.withCaptured inner (w.frame inner).captured = w := by
  have hf := Arena.modify_eq_self (a := w.frames) (w.frame inner).withCaptured_captured
  rw [withCaptured, modifyFrame, hf]

theorem capture_eq (w : SymbolTable) (inner : FrameId) (s : SlotId) :
    w.capture inner s =
      w.withCaptured inner (Frame.insertSlot s (w.frame inner).captured) := by
  rw [capture, withCaptured, modifyFrame, modifyFrame,
    Arena.modify_congr ((w.frame inner).capture_eq s)]

theorem has_of_isActivation (h : (w.frame inner).isActivation) : w.frames.Has inner := by
  by_contra hn
  rw [frame, Arena.get_of_not_has hn] at h
  cases h

theorem captured_withCaptured (h : (w.frame inner).isActivation) (slots : List SlotId) :
    ((w.withCaptured inner slots).frame inner).captured = slots := by
  rw [frame, withCaptured, modifyFrame, Arena.get_modify_self (has_of_isActivation h)]
  exact Frame.captured_withCaptured h slots

/-- The symbol is a reference to a local of a function other than the inner one. -/
def IsOuter (w : SymbolTable) (inner : FrameId) (s : Symbol) (i : SlotId) : Prop :=
  ∃ f, s.local? = some (f, i) ∧ f ≠ inner ∧ (w.frame f).isActivation

theorem Grows.withCaptured (w : SymbolTable) (inner : FrameId) (slots : List SlotId) :
    w.Grows (w.withCaptured inner slots) := by
  refine ⟨Nat.le_refl _, fun _ _ => rfl, fun _ => rfl, rfl, ?_, fun g => ?_, fun _ _ h => h,
    fun _ _ h => h⟩
  · simp [SymbolTable.withCaptured, modifyFrame]
  · unfold SymbolTable.withCaptured modifyFrame frame
    rw [Arena.get_modify]
    split
    · exact Frame.uncaptured_withCaptured slots _
    · rfl

end SymbolTable

/-! ## Look-ups -/

/-- The identifier stands in the expression. -/
inductive Expr.Mentions (node : Node) (name : String) : Expr → Prop where
  | ident : Mentions node name (.ident node name)
  | member {n : Node} {base : Expr} {m : String} (h : Mentions node name base) :
      Mentions node name (.member n base m)
  | parens {n : Node} {inner : Expr} (h : Mentions node name inner) :
      Mentions node name (.parens n inner)
  | unary {n : Node} {op : Operator} {operand : Expr} (h : Mentions node name operand) :
      Mentions node name (.unary n op operand)
  | left {n : Node} {op : Operator} {l r : Expr} (h : Mentions node name l) :
      Mentions node name (.binary n op l r)
  | right {n : Node} {op : Operator} {l r : Expr} (h : Mentions node name r) :
      Mentions node name (.binary n op l r)

/-- The nodes of the expression that are looked up through an object. -/
def Expr.memberNodes : Expr → List Nat
  | .member node base _ => node.id :: base.memberNodes
  | .withMember node _ => [node.id]
  | .parens _ inner | .unary _ _ inner => inner.memberNodes
  | .binary _ _ left right => left.memberNodes ++ right.memberNodes
  | _ => []

/-- An identifier that is looked up in scope, and what is found. -/
structure Lookup where
  node : Node
  name : String
  wanted : Wanted
  found : Symbol

namespace Workspace

/-- The look-up that resolves a chain of members: that of the identifier it starts with, if this has
no answer yet and means anything. -/
def memberLookups (ws : Workspace) (wanted : Wanted) : Expr → List Lookup
  | .ident node name =>
    match ws.answer? node.id wanted with
    | some _ => []
    | none => ((ws.nameInScope? name wanted).map (⟨node, name, wanted, ·⟩)).toList
  | .member _ base _ => ws.memberLookups .anything base
  | .parens _ inner => ws.memberLookups wanted inner
  | _ => []

/-- The look-ups that fold an expression, one after the other. -/
def constantLookups (ws : Workspace) : Expr → List Lookup
  | .parens _ inner | .unary _ _ inner => ws.constantLookups inner
  | .binary _ _ left right =>
    let o := ws.resolveConstant left
    ws.constantLookups left ++ if o.result.isSome then o.workspace.constantLookups right else []
  | .ident node name => ws.memberLookups .anything (.ident node name)
  | .member node base name =>
    let o := ws.resolveMember .anything base
    ws.memberLookups .anything base ++
      match (o.result.bind Symbol.type?).bind fun t => o.workspace.table.enumConstant? t name with
      | some _ => []
      | none => o.workspace.memberLookups .anything (.member node base name)
  | _ => []

/-- The innermost function around the current frame. -/
def function? (ws : Workspace) : Option FrameId := ws.current?.bind ws.table.activationOf?

/-- `ws'` comes from `ws` by look-ups: the innermost function captures what they find outside of it,
and the nodes are answered if they may be. Only members are answered besides. -/
structure Noted (members : List Nat) (ws : Workspace) (lookups : List Lookup) (ws' : Workspace) :
    Prop where
  entered : ws'.entered = ws.entered
  kept : ∀ n m s, ws.answer? n m = some s → ws'.answer? n m = some s
  fresh : ∀ l ∈ lookups, ws.answer? l.node.id l.wanted = none
  meaning : ∀ l ∈ lookups, ws.nameInScope? l.name l.wanted = some l.found
  answered : ∀ l ∈ lookups, ws.mayUse l.found → ws'.answer? l.node.id l.wanted = some l.found
  complete : ∀ n ∉ members, ∀ m s, ws.answer? n m = none → ws'.answer? n m = some s →
    ∃ l ∈ lookups, l.node.id = n ∧ l.wanted = m ∧ l.found = s
  unchanged : ws.function? = none → ws'.table = ws.table
  table : ∀ inner, ws.function? = some inner →
    ws'.table = ws.table.withCaptured inner (ws'.table.frame inner).captured
  captured : ∀ inner, ws.function? = some inner → ∀ i,
    i ∈ (ws'.table.frame inner).captured ↔ i ∈ (ws.table.frame inner).captured ∨
      ∃ l ∈ lookups, ws.table.IsOuter inner l.found i

theorem isActivation_of_function? {ws : Workspace} {inner : FrameId}
    (h : ws.function? = some inner) : (ws.table.frame inner).isActivation := by
  obtain ⟨f, _, hf⟩ := Option.bind_eq_some_iff.mp h
  exact List.find?_some (p := fun g => (ws.table.frame g).isActivation) hf

namespace Noted

variable {ws ws' ws'' : Workspace} {lookups lookups' : List Lookup} {members members' : List Nat}

theorem mono (h : ws.Noted members lookups ws') (hm : members ⊆ members') :
    ws.Noted members' lookups ws' :=
  { h with complete := fun n hn => h.complete n fun hn' => hn (hm hn') }

theorem frames_eq (h : ws.Noted members lookups ws') :
    ws'.table = { ws.table with frames := ws'.table.frames } ∧ ws.table.Grows ws'.table := by
  cases hf : ws.function? with
  | none =>
      rw [h.unchanged hf]
      exact ⟨rfl, .refl _⟩
  | some inner =>
      rw [h.table inner hf]
      exact ⟨rfl, .withCaptured ..⟩

theorem function?_eq (h : ws.Noted members lookups ws') : ws'.function? = ws.function? := by
  have ha : ws'.table.activationOf? = ws.table.activationOf? :=
    funext h.frames_eq.2.activationOf?_eq
  rw [function?, function?, current?, current?, h.entered, ha]

theorem nameInScope?_eq (h : ws.Noted members lookups ws') (name : String) (wanted : Wanted) :
    ws'.nameInScope? name wanted = ws.nameInScope? name wanted := by
  obtain ⟨hframes, hg⟩ := h.frames_eq
  rw [hframes] at hg
  have hr : ws'.table.resolveInFrame? = ws.table.resolveInFrame? := by
    funext f name wanted
    rw [hframes]
    exact SymbolTable.resolveInFrame?_frames hg f name wanted
  have hroot : ws'.table.root? name = ws.table.root? name := by
    rw [hframes]
    rfl
  rw [nameInScope?, nameInScope?, resolveInScope?, resolveInScope?, current?, current?, h.entered,
    hr, hroot]

theorem mayUse_eq (h : ws.Noted members lookups ws') (s : Symbol) : ws'.mayUse s = ws.mayUse s := by
  obtain ⟨hframes, hg⟩ := h.frames_eq
  have hscopes : SymbolTable.SameScopes ws.table ws'.table :=
    ⟨by rw [hframes], by rw [hframes], hg.frameCount, hg.frames⟩
  have hvisibility : ws'.table.visibility? s = ws.table.visibility? s := by
    rw [hframes]
    rfl
  have ha : ws'.table.isAccessible s = ws.table.isAccessible s :=
    funext (hscopes.isAccessible_eq hvisibility)
  rw [mayUse, mayUse, current?, current?, h.entered, ha]

theorem answer?_eq_none (h : ws.Noted members lookups ws') {n : Nat} {m : Wanted}
    (hn : ws'.answer? n m = none) : ws.answer? n m = none := by
  cases ha : ws.answer? n m with
  | none => rfl
  | some s =>
      rw [h.kept n m s ha] at hn
      cases hn

/-- Look-ups one after the other. -/
theorem trans (h : ws.Noted members lookups ws') (h' : ws'.Noted members lookups' ws'') :
    ws.Noted members (lookups ++ lookups') ws'' where
  entered := h'.entered.trans h.entered
  kept n m s hs := h'.kept n m s (h.kept n m s hs)
  fresh l hl := by
    rcases List.mem_append.mp hl with hl | hl
    · exact h.fresh l hl
    · exact h.answer?_eq_none (h'.fresh l hl)
  meaning l hl := by
    rcases List.mem_append.mp hl with hl | hl
    · exact h.meaning l hl
    · exact (h.nameInScope?_eq _ _).symm.trans (h'.meaning l hl)
  answered l hl hu := by
    rcases List.mem_append.mp hl with hl | hl
    · exact h'.kept _ _ _ (h.answered l hl hu)
    · exact h'.answered l hl ((h.mayUse_eq _).trans hu)
  complete n hn m s ha hs := by
    cases hw : ws'.answer? n m with
    | some s' =>
        rw [h'.kept n m s' hw] at hs
        cases hs
        obtain ⟨l, hl, hls⟩ := h.complete n hn m _ ha hw
        exact ⟨l, List.mem_append_left _ hl, hls⟩
    | none =>
        obtain ⟨l, hl, hls⟩ := h'.complete n hn m s hw hs
        exact ⟨l, List.mem_append_right _ hl, hls⟩
  unchanged hf := (h'.unchanged (h.function?_eq.trans hf)).trans (h.unchanged hf)
  table inner hf := by
    have h1 := h.table inner hf
    have h2 := h'.table inner (h.function?_eq.trans hf)
    rw [h1, SymbolTable.withCaptured_withCaptured] at h2
    exact h2
  captured inner hf i := by
    -- Captures do not move frames, so that the second look-ups find functions where the first did.
    have houter : ∀ s, ws'.table.IsOuter inner s i ↔ ws.table.IsOuter inner s i := by
      intro s
      simp only [SymbolTable.IsOuter, h.frames_eq.2.isActivation_eq]
    rw [h'.captured inner (h.function?_eq.trans hf), h.captured inner hf]
    simp only [houter, List.mem_append, or_and_right, exists_or, or_assoc]

/-- Members are answered without look-ups. -/
theorem of_table_eq (he : ws.Evolves members ws') (ht : ws'.table = ws.table) :
    ws.Noted members [] ws' where
  entered := he.entered
  kept := he.kept
  fresh := List.forall_mem_nil _
  meaning := List.forall_mem_nil _
  answered := List.forall_mem_nil _
  complete n hn m s ha hs := by
    rw [he.outside n hn, ha] at hs
    cases hs
  unchanged _ := ht
  table inner _ := by
    rw [ht]
    exact (ws.table.withCaptured_captured inner).symm
  captured inner _ i := by simp [ht]

theorem refl (members : List Nat) (ws : Workspace) : ws.Noted members [] ws :=
  .of_table_eq (.refl members ws) rfl

end Noted

/-! ## Single names -/

variable {ws : Workspace}

theorem mayUse_of_isError {s : Symbol} (hs : s.isError) : ws.mayUse s := by
  rw [mayUse, Option.all_eq_true]
  exact fun f _ => SymbolTable.isAccessible_of_isError hs f

/-- A node is answered if the symbol may be used. -/
theorem workspace_conclude (ws : Workspace) (e : Expr) (wanted : Wanted) (s : Symbol)
    (through : Option TypeId) : (ws.conclude e wanted s through).workspace =
      if ws.mayUse s then ws.remember e.node.id wanted s else ws := by
  cases s with
  | error err =>
      rw [mayUse_of_isError rfl]
      rfl
  | slot _ | type _ | module _ | aliasDecl _ | value _ =>
      unfold conclude
      dsimp only
      split <;> rfl

theorem noteCapture_of_outer {s : Symbol} {inner : FrameId} {i : SlotId}
    (hf : ws.function? = some inner) (ho : ws.table.IsOuter inner s i) :
    ws.noteCapture s = { ws with table := ws.table.capture inner i } := by
  obtain ⟨f, hl, hne, ha⟩ := ho
  unfold Symbol.local? at hl
  split at hl
  · cases hl
    rw [function?] at hf
    simp only [noteCapture, hf]
    exact if_pos ⟨hne, ha⟩
  · cases hl

theorem noteCapture_of_not_outer {s : Symbol}
    (h : ∀ inner, ws.function? = some inner → ∀ i, ¬ ws.table.IsOuter inner s i) :
    ws.noteCapture s = ws := by
  rcases ws.noteCapture_cases s with hs | ⟨f, i, t, inner, rfl, hf, ho, _⟩
  · exact hs
  · exact absurd ⟨f, rfl, ho⟩ (h inner hf i)

theorem table_noteCapture (ws : Workspace) (s : Symbol) {inner : FrameId}
    (hf : ws.function? = some inner) :
    (ws.noteCapture s).table = ws.table.withCaptured inner
        ((ws.noteCapture s).table.frame inner).captured ∧
      ∀ i, i ∈ ((ws.noteCapture s).table.frame inner).captured ↔
        i ∈ (ws.table.frame inner).captured ∨ ws.table.IsOuter inner s i := by
  have ha := isActivation_of_function? hf
  by_cases ho : ∃ i, ws.table.IsOuter inner s i
  · obtain ⟨i, ho⟩ := ho
    have htable : (ws.noteCapture s).table = ws.table.withCaptured inner
        (Frame.insertSlot i (ws.table.frame inner).captured) := by
      rw [noteCapture_of_outer hf ho]
      exact ws.table.capture_eq inner i
    rw [htable, SymbolTable.captured_withCaptured ha]
    refine ⟨rfl, fun j => ?_⟩
    have hj : ws.table.IsOuter inner s j ↔ j = i := by
      obtain ⟨f, hl, hne, hact⟩ := ho
      refine ⟨fun ⟨f', hl', _⟩ => ?_, fun hj => hj ▸ ⟨f, hl, hne, hact⟩⟩
      rw [hl] at hl'
      cases hl'
      rfl
    rw [Frame.mem_insertSlot, hj, or_comm]
  · have hs : ws.noteCapture s = ws := noteCapture_of_not_outer fun inner' hf' i hi => by
      rw [hf] at hf'
      cases hf'
      exact ho ⟨i, hi⟩
    rw [hs]
    exact ⟨(ws.table.withCaptured_captured inner).symm, fun i => by
      simp [show ¬ ws.table.IsOuter inner s i from fun hi => ho ⟨i, hi⟩]⟩

theorem entered_noteCapture (ws : Workspace) (s : Symbol) :
    (ws.noteCapture s).entered = ws.entered :=
  (ws.evolves_noteCapture s []).entered

theorem mayUse_noteCapture (ws : Workspace) (s x : Symbol) :
    (ws.noteCapture s).mayUse x = ws.mayUse x := by
  have ha : (ws.noteCapture s).table.isAccessible x = ws.table.isAccessible x :=
    funext (ws.isAccessible_noteCapture s x)
  rw [mayUse, mayUse, current?, current?, entered_noteCapture, ha]

/-- A look-up is noted before its node is answered, whether it is answered or not. -/
theorem Noted.of_noteCapture {ws' : Workspace} {l : Lookup}
    (hl : ws.answer? l.node.id l.wanted = none)
    (hs : ws.nameInScope? l.name l.wanted = some l.found) (he : ws'.entered = ws.entered)
    (ht : ws'.table = (ws.noteCapture l.found).table)
    (ha : ∀ n m, ws'.answer? n m = if (n = l.node.id ∧ m = l.wanted) ∧ ws.mayUse l.found then
      some l.found else ws.answer? n m) : ws.Noted [] [l] ws' where
  entered := he
  kept n m x hx := by
    rw [ha, if_neg, hx]
    rintro ⟨⟨rfl, rfl⟩, _⟩
    rw [hl] at hx
    cases hx
  fresh := by simpa using hl
  meaning := by simpa using hs
  answered := by
    rw [List.forall_mem_singleton]
    exact fun hu => (ha _ _).trans (if_pos ⟨⟨rfl, rfl⟩, hu⟩)
  complete n _ m x hn hx := by
    rw [ha] at hx
    split at hx
    · rename_i hc
      exact ⟨l, List.mem_singleton_self l, hc.1.1.symm, hc.1.2.symm, Option.some.inj hx⟩
    · rw [hn] at hx
      cases hx
  unchanged hf := by
    rw [ht, noteCapture_of_not_outer fun inner hinner => by rw [hf] at hinner; cases hinner]
  table inner hf := by
    rw [ht]
    exact (ws.table_noteCapture l.found hf).1
  captured inner hf i := by
    rw [ht, (ws.table_noteCapture l.found hf).2]
    simp

/-- An identifier without an answer is looked up. -/
theorem noted_lookup {node : Node} {name : String} {wanted : Wanted} {s : Symbol}
    (ha : ws.answer? node.id wanted = none) (hs : ws.nameInScope? name wanted = some s) :
    ws.Noted [] [⟨node, name, wanted, s⟩]
      ((ws.noteCapture s).conclude (.ident node name) wanted s none).workspace := by
  rw [workspace_conclude, mayUse_noteCapture]
  cases hu : ws.mayUse s with
  | true =>
      refine .of_noteCapture ha hs (ws.entered_noteCapture s) rfl fun n m => ?_
      rw [if_pos rfl, answer?_remember, answer?_noteCapture]
      exact if_congr (by simp [hu, Expr.node]) rfl rfl
  | false =>
      refine .of_noteCapture ha hs (ws.entered_noteCapture s) rfl fun n m => ?_
      rw [if_neg Bool.false_ne_true, answer?_noteCapture]
      simp [hu]

theorem resolveLexical_noted (ws : Workspace) (node : Node) (name : String) (wanted : Wanted) :
    ws.Noted [] (ws.memberLookups wanted (.ident node name))
      (ws.resolveLexical (.ident node name) wanted).workspace := by
  have hnode : (Expr.ident node name).node = node := rfl
  unfold memberLookups resolveLexical
  rw [hnode]
  cases ha : ws.answer? node.id wanted with
  | some s => exact .refl _ ws
  | none =>
      simp only [Expr.name?]
      cases hs : ws.nameInScope? name wanted with
      | none => exact .refl _ ws
      | some s => exact noted_lookup ha hs

/-- A member is found without a look-up in scope. -/
theorem resolveReference_noted (ws : Workspace) (object : Symbol) (e : Expr) (wanted : Wanted) :
    ws.Noted [e.node.id] [] (ws.resolveReference object e wanted).workspace := by
  have hevolves := (ws.resolveReference_traces object e wanted).evolves
  refine .of_table_eq hevolves ?_
  cases ha : ws.answer? e.node.id wanted with
  | some s => rw [ws.resolveReference_of_answer e wanted object ha, answer]
  | none =>
      cases ho : object.isError with
      | true => rw [ws.resolveReference_of_isError e wanted object ha ho, answer]
      | false =>
          rcases ws.resolveReference_cases e wanted object ha ho with
            ⟨findings, _, hr⟩ | ⟨name, s, through, _, hr⟩
          · rw [hr]
          · rw [hr, workspace_conclude]
            split <;> rfl

theorem resolveWithMember_noted (ws : Workspace) (e : Expr) :
    ws.Noted [e.node.id] [] (ws.resolveWithMember e).workspace := by
  cases hv : ws.withTarget? with
  | none =>
      obtain ⟨findings, _, hr⟩ := ws.resolveWithMember_of_none e hv
      rw [hr]
      exact .refl _ ws
  | some v =>
      rw [ws.resolveWithMember_of_target e hv]
      exact ws.resolveReference_noted _ e _

/-! ## Expressions -/

theorem Noted.andThen {α β : Type} {o : Outcome α} {next : α → Workspace → Outcome β}
    {lookups lookups' : List Lookup} {members : List Nat}
    (h : ws.Noted members lookups o.workspace)
    (hn : ∀ a, o.result = some a →
      o.workspace.Noted members lookups' (next a o.workspace).workspace) :
    ws.Noted members (lookups ++ if o.result.isSome then lookups' else [])
      (o.andThen next).workspace := by
  unfold Outcome.andThen Outcome.before
  dsimp only
  cases ho : o.result with
  | none => exact h.trans (.refl _ _)
  | some a => exact h.trans (hn a ho)

theorem Noted.andThen_nil {α β : Type} {o : Outcome α} {next : α → Workspace → Outcome β}
    {lookups : List Lookup} {members : List Nat} (h : ws.Noted members lookups o.workspace)
    (hn : ∀ a, o.workspace.Noted members [] (next a o.workspace).workspace) :
    ws.Noted members lookups (o.andThen next).workspace := by
  simpa using h.andThen fun a _ => hn a

theorem resolveMember_noted (ws : Workspace) (wanted : Wanted) (e : Expr) :
    ws.Noted e.memberNodes (ws.memberLookups wanted e) (ws.resolveMember wanted e).workspace := by
  induction e generalizing wanted with
  | ident node name => exact ws.resolveLexical_noted node name wanted
  | member node base name ih =>
      refine ((ih .anything).mono (List.subset_cons_self _ _)).andThen_nil fun object => ?_
      exact (resolveReference_noted _ object _ wanted).mono (by simp [Expr.node])
  | withMember node name => exact ws.resolveWithMember_noted (.withMember node name)
  | parens node inner ih => exact ih wanted
  | literal | unary | binary | nullable | tuple => exact .refl _ ws

theorem answerConstant_noted (members : List Nat) (ws : Workspace) (e : Expr) (v : Option Value) :
    ws.Noted members [] (ws.answerConstant e v).workspace := by
  cases v <;> exact .refl _ ws

theorem resolveConstantName_noted (ws : Workspace) (e : Expr) :
    ws.Noted e.memberNodes (ws.memberLookups .anything e) (ws.resolveConstantName e).workspace :=
  (ws.resolveMember_noted .anything e).andThen_nil fun _ => answerConstant_noted _ _ e _

theorem resolveConstant_noted (ws : Workspace) (e : Expr) :
    ws.Noted e.memberNodes (ws.constantLookups e) (ws.resolveConstant e).workspace := by
  induction e generalizing ws with
  | ident node name => exact ws.resolveConstantName_noted (.ident node name)
  | withMember node name => exact ws.resolveConstantName_noted (.withMember node name)
  | member node base name =>
      have hbase := (ws.resolveMember_noted .anything base).mono
        (List.subset_cons_self node.id base.memberNodes)
      unfold constantLookups resolveConstant resolveConstantMember Outcome.before
      dsimp only
      cases ((ws.resolveMember .anything base).result.bind Symbol.type?).bind fun t =>
          (ws.resolveMember .anything base).workspace.table.enumConstant? t name with
      | some v => exact hbase.trans (.refl _ _)
      | none => exact hbase.trans (resolveConstantName_noted _ (.member node base name))
  | parens node inner ih => exact ih ws
  | unary node op operand ih => exact (ih ws).andThen_nil fun _ => answerConstant_noted _ _ _ _
  | binary node op left right ihl ihr =>
      have hleft := (ihl ws).mono (List.subset_append_left _ right.memberNodes)
      refine hleft.andThen fun _ _ => ?_
      have hright := (ihr (ws.resolveConstant left).workspace).mono
        (List.subset_append_right left.memberNodes _)
      exact hright.andThen_nil fun _ => answerConstant_noted _ _ _ _
  | literal | nullable | tuple => exact .refl _ ws

theorem mentions_of_mem_memberLookups {wanted : Wanted} {e : Expr} {l : Lookup}
    (hl : l ∈ ws.memberLookups wanted e) : e.Mentions l.node l.name := by
  induction e generalizing wanted with
  | ident node name =>
      unfold memberLookups at hl
      split at hl
      · cases hl
      · obtain ⟨s, _, rfl⟩ := Option.map_eq_some_iff.mp (Option.mem_toList.mp hl)
        exact .ident
  | member node base name ih => exact .member (ih hl)
  | parens node inner ih => exact .parens (ih hl)
  | withMember | literal | unary | binary | nullable | tuple => cases hl

theorem mentions_of_mem_constantLookups {e : Expr} {l : Lookup}
    (hl : l ∈ ws.constantLookups e) : e.Mentions l.node l.name := by
  induction e generalizing ws with
  | ident => exact mentions_of_mem_memberLookups hl
  | member node base name =>
      unfold constantLookups at hl
      rcases List.mem_append.mp hl with hl | hl
      · exact .member (mentions_of_mem_memberLookups hl)
      · split at hl
        · cases hl
        · exact mentions_of_mem_memberLookups hl
  | parens node inner ih => exact .parens (ih hl)
  | unary node op operand ih => exact .unary (ih hl)
  | binary node op left right ihl ihr =>
      unfold constantLookups at hl
      rcases List.mem_append.mp hl with hl | hl
      · exact .left (ihl hl)
      · split at hl
        · exact .right (ihr hl)
        · cases hl
  | withMember | literal | nullable | tuple => cases hl

/-- What resolving an expression by look-ups does to the declarations. -/
structure CaptureEffect (ws : Workspace) (e : Expr) (lookups : List Lookup) (ws' : Workspace) :
    Prop where
  /-- The look-ups are those of identifiers in the expression that had no answer. -/
  mentioned : ∀ l ∈ lookups, e.Mentions l.node l.name
  fresh : ∀ l ∈ lookups, ws.answer? l.node.id l.wanted = none
  meaning : ∀ l ∈ lookups, ws.nameInScope? l.name l.wanted = some l.found
  /-- They are answered then, unless the current frame may not use what is found. -/
  answered : ∀ l ∈ lookups, ws.mayUse l.found → ws'.answer? l.node.id l.wanted = some l.found
  /-- No other node of the expression is answered, but for members. -/
  complete : ∀ n ∉ e.memberNodes, ∀ m s, ws.answer? n m = none → ws'.answer? n m = some s →
    ∃ l ∈ lookups, l.node.id = n ∧ l.wanted = m ∧ l.found = s
  /-- Outside of functions nothing changes. -/
  unchanged : ws.function? = none → ws'.table = ws.table
  /-- In a function nothing changes but the captured slots of the innermost one, -/
  table : ∀ inner, ws.function? = some inner →
    ws'.table = ws.table.withCaptured inner (ws'.table.frame inner).captured
  /-- which captures what is found among the locals of other functions -/
  captured : ∀ inner, ws.function? = some inner → ∀ i,
    i ∈ (ws'.table.frame inner).captured ↔ i ∈ (ws.table.frame inner).captured ∨
      ∃ l ∈ lookups, ws.table.IsOuter inner l.found i
  /-- and these functions lie around it. -/
  around : ∀ inner, ws.function? = some inner → ∀ l ∈ lookups, ∀ f i,
    l.found.local? = some (f, i) → f ≠ inner → (ws.table.frame f).isActivation →
      TransGen (fun a b => (ws.table.frame a).parent = some b) inner f

/-- Root modules are no locals. -/
theorem resolveInScope?_of_local {name : String} {wanted : Wanted} {s : Symbol}
    {l : FrameId × SlotId} (hs : ws.nameInScope? name wanted = some s) (hl : s.local? = some l) :
    ∃ f, ws.current? = some f ∧ ws.table.resolveInFrame? f name wanted = some s := by
  rcases (Option.orElse_eq_some _ _ _).mp hs with hs | ⟨_, hs⟩
  · exact Option.bind_eq_some_iff.mp hs
  · obtain ⟨m, _, rfl⟩ := Option.map_eq_some_iff.mp hs
    cases hl

theorem Noted.captureEffect {e : Expr} {lookups : List Lookup} {ws' : Workspace}
    (h : ws.Noted e.memberNodes lookups ws') (hfree : ws.table.LocalFree)
    (hm : ∀ l ∈ lookups, e.Mentions l.node l.name) : ws.CaptureEffect e lookups ws' := by
  refine ⟨hm, h.fresh, h.meaning, h.answered, h.complete, h.unchanged, h.table, h.captured, ?_⟩
  intro inner hinner l hl f i hlocal hne hf
  obtain ⟨g, hg, hs⟩ := resolveInScope?_of_local (h.meaning l hl) hlocal
  rw [function?, hg, Option.bind_some] at hinner
  exact hfree.outer hs hlocal hinner hne hf

end Workspace

namespace Session

/-- To resolve a chain of members, or to fold an expression, makes the innermost function capture
what is looked up outside of it, and changes no declaration in any other way. -/
theorem captures_exact (s : Session) (ctx : Context) (hfree : s.table.LocalFree) (e : Expr) :
    (∀ wanted, s.workspace.CaptureEffect e (s.workspace.memberLookups wanted e)
      (s.resolveMember ctx e wanted).2.workspace) ∧
    s.workspace.CaptureEffect e (s.workspace.constantLookups e)
      (s.resolveConstant ctx e).2.workspace := by
  refine ⟨fun wanted => ?_, ?_⟩
  · have hrun := workspace_run (.member e wanted) s ctx
    have h := s.workspace.resolveMember_noted wanted e
    rw [show (s.resolveMember ctx e wanted).2.workspace = _ from hrun]
    exact h.captureEffect hfree fun l => Workspace.mentions_of_mem_memberLookups
  · have hrun := workspace_run (.constant e) s ctx
    have h := s.workspace.resolveConstant_noted e
    rw [show (s.resolveConstant ctx e).2.workspace = _ from hrun]
    exact h.captureEffect hfree fun l => Workspace.mentions_of_mem_constantLookups

/-- A function in a function, each with a constant of its own. -/
def sampleClosure : List Operation :=
  [.edit (.addVariable "Count" true (some .integer)),
    .edit (.setInitial ⟨0⟩ (.constant (.integer 2) .integer)),
    .edit (.addVariable "Step" true (some .integer)),
    .edit (.setInitial ⟨1⟩ (.constant (.integer 3) .integer)),
    .edit (.addFrame (.activation none [])), .edit (.addFrame (.activation none [])),
    .edit (.define (.frame ⟨0⟩) "Count" (.slot ⟨0⟩)),
    .edit (.define (.frame ⟨1⟩) "Step" (.slot ⟨1⟩)), .enter ⟨0⟩, .enter ⟨1⟩]

/-- To fold the sum of both constants in the inner function makes it capture that of the outer one,
and not its own. -/
theorem captures_sampleClosure :
    let s := performAll {} sampleClosure
    let e := Expr.binary ⟨3, {}⟩ .add (.ident ⟨1, {}⟩ "Count") (.ident ⟨2, {}⟩ "Step")
    let s' := (s.resolveConstant {} e).2
    Session.Admits (fun _ => true) {} sampleClosure ∧ s.table.LocalFree ∧
      s.workspace.function? = some ⟨1⟩ ∧
      s.workspace.CaptureEffect e (s.workspace.constantLookups e) s'.workspace ∧
      (s.workspace.constantLookups e).map (fun l => (l.name, l.found.local?)) =
        [("Count", some (⟨0⟩, ⟨0⟩)), ("Step", some (⟨1⟩, ⟨1⟩))] ∧
      (s.table.frame ⟨1⟩).captured = [] ∧ (s'.table.frame ⟨1⟩).captured = [⟨0⟩] := by
  intro s e s'
  have facts : Session.Admits (fun _ => true) {} sampleClosure ∧ s.table.LocalFree ∧
      s.workspace.function? = some ⟨1⟩ ∧
      (s.workspace.constantLookups e).map (fun l => (l.name, l.found.local?)) =
        [("Count", some (⟨0⟩, ⟨0⟩)), ("Step", some (⟨1⟩, ⟨1⟩))] ∧
      (s.table.frame ⟨1⟩).captured = [] ∧ (s'.table.frame ⟨1⟩).captured = [⟨0⟩] := by
    decide +kernel
  obtain ⟨hadmits, hfree, hfunction, hrest⟩ := facts
  exact ⟨hadmits, hfree, hfunction, (captures_exact s {} hfree e).2, hrest⟩

/-- A function in a function, the outer one with a local that is also the own member of a class. -/
def sampleOwnLocal : List Operation :=
  [.edit (.addClass "Counter" false), .edit (.addVariable "Count" false (some .integer)),
    .edit (.setSlotVisibility ⟨0⟩ .ownerOnly),
    .edit (.addFrame (.activation none [])), .edit (.addFrame (.activation none [])),
    .edit (.define (.frame ⟨0⟩) "Count" (.slot ⟨0⟩)),
    .edit (.define (.members ⟨16⟩) "Count" (.slot ⟨0⟩)), .enter ⟨0⟩, .enter ⟨1⟩]

/-- The inner function may not use the local, so that no identifier is resolved; but the local is
captured. -/
theorem unresolved_sampleOwnLocal :
    let s := performAll {} sampleOwnLocal
    let e := Expr.ident ⟨1, {}⟩ "Count"
    let r := s.resolveMember {} e .anything
    Session.Admits (fun _ => true) {} sampleOwnLocal ∧ s.table.LocalFree ∧
      s.workspace.function? = some ⟨1⟩ ∧ r.1 = none ∧ r.2.workspace.answers = [] ∧
      (s.table.frame ⟨1⟩).captured = [] ∧ (r.2.table.frame ⟨1⟩).captured = [⟨0⟩] := by
  decide +kernel

end Session
end StaticSemantics
