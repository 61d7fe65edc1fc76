import StaticSemantics.Proofs.Closure.Answers
import StaticSemantics.Proofs.Members.Names
import StaticSemantics.Proofs.Overriding.Methods
import StaticSemantics.Proofs.Overriding.Signatures

/-!
Index operators and the references that they type. Every method that is installed as an operator can
be called with as many arguments as the operator has operands, but its parameters for them may be
optional. A reference through an operator that only writes has the type of the last parameter that
must be passed. That is the type of the value that is written only if the value has to be passed:
where it is optional the reference has the type of the index, and where the index is optional too
there is no reference at all.
-/

namespace StaticSemantics

namespace Signature

/-- Of two arguments, the last one that must be passed is the second if both must be. -/
theorem second_eq_last_iff {g : Signature} (h : g.accepts 2) :
    (∃ t, g.params.getLast?.map Param.type = some t ∧ g.positional[1]? = some t) ↔
      g.params.length = 2 ∨ ∃ t, g.paramTypes = [t] ∧ g.positional[1]? = some t := by
  have hle : g.params.length ≤ 2 := by
    simp only [accepts, Bool.and_eq_true, decide_eq_true_eq] at h
    exact h.1
  rcases hp : g.params with _ | ⟨i, _ | ⟨x, _ | ⟨y, rest⟩⟩⟩
  · simp [paramTypes, hp]
  · simp [paramTypes, hp]
  · simp [positional, paramTypes, hp]
  · simp [hp] at hle

end Signature

namespace SymbolTable

variable {w w' w'' : SymbolTable} {d : MemberTableId} {op : Operator} {q : SlotId} {t : TypeId}

/-- The method that defines an operator for values of a type, null aside: the nearest member table
that has the operator decides. -/
def Operates (w : SymbolTable) (t : TypeId) (op : Operator) (q : SlotId) : Prop :=
  ∃ d, (w.type (w.withoutNull t)).members = some d ∧
    FirstFound w.inherited? (fun e => (w.memberTable e).operator? op) d q

/-- The slot holds a method with the signature. -/
def HasSignature (w : SymbolTable) (q : SlotId) (g : Signature) : Prop :=
  ∃ m, w.methodInfo? q = some m ∧ w.signature m.signature = g

/-- Only methods are installed as operators. -/
def OperatorMethods (w : SymbolTable) : Prop :=
  ∀ d, ∀ e ∈ (w.memberTable d).operators, (w.methodInfo? e.2).isSome

theorem operatorMethods_iff : w.OperatorMethods ↔
    ∀ d ∈ w.memberTables.ids, ∀ e ∈ (w.memberTable d).operators, (w.methodInfo? e.2).isSome := by
  refine ⟨fun h d _ => h d, fun h d e he => ?_⟩
  by_cases hd : w.memberTables.Has d
  · exact h d (Arena.mem_ids.mpr hd) e he
  · rw [memberTable, Arena.get_of_not_has hd] at he
    cases he

instance (w : SymbolTable) : Decidable w.OperatorMethods := decidable_of_iff' _ operatorMethods_iff

/-- The methods among the operators take as many arguments as the operators have operands. -/
def OperatorsFit (w : SymbolTable) : Prop :=
  ∀ d op q g, (w.memberTable d).operator? op = some q → w.HasSignature q g → g.accepts op.operands

theorem Closed.operatorOf?_eq_some_iff (h : w.Closed) :
    w.operatorOf? t op = some q ↔ w.Operates t op q := by
  simp only [operatorOf?, findOperator?, Operates, Option.bind_eq_some_iff,
    h.findSome?_memberChain]

theorem Closed.operatorOf?_eq_none_iff (h : w.Closed) :
    w.operatorOf? t op = none ↔ ∀ q, ¬ w.Operates t op q := by
  simp only [← h.operatorOf?_eq_some_iff, Option.eq_none_iff_forall_ne_some, ne_eq]

theorem Operates.installed (h : w.Operates t op q) :
    ∃ d, (w.memberTable d).operator? op = some q := by
  obtain ⟨d, -, hf⟩ := h
  induction hf with
  | @here d _ ht => exact ⟨d, ht⟩
  | later _ _ _ ih => exact ih

theorem Closed.operator_has (h : w.Closed) (hq : (w.memberTable d).operator? op = some q) :
    w.slots.Has q := by
  obtain ⟨x, hx, rfl⟩ := Option.map_eq_some_iff.mp hq
  have hd := h.memberTables d
  simp only [MemberTable.ids, List.cons_append, covers_cons, covers_append, covers_map] at hd
  exact hd.2.2 x (List.mem_of_find?_eq_some hx)

/-! ## Edits -/

/-- The signature that the method in a slot was declared with. -/
def signatureOf? (w : SymbolTable) (q : SlotId) : Option SignatureId :=
  (w.methodInfo? q).map MethodInfo.signature

/-- Methods keep their signatures, and every operator was installed before, if not where it is. -/
structure KeepsOperators (w w' : SymbolTable) : Prop where
  slots : ∀ q, w.slots.Has q → w'.slots.Has q ∧ w'.signatureOf? q = w.signatureOf? q
  signatures : ∀ g, w.signatures.Has g → w'.signatures.Has g ∧ w'.signature g = w.signature g
  operators : ∀ d op q, (w'.memberTable d).operator? op = some q →
    ∃ e, (w.memberTable e).operator? op = some q

namespace KeepsOperators

theorem of_eq (hs : w'.slots = w.slots) (hg : w'.signatures = w.signatures)
    (hm : w'.memberTables = w.memberTables) : KeepsOperators w w' := by
  refine ⟨fun q hq => ⟨hs ▸ hq, ?_⟩, fun g hg' => ⟨hg ▸ hg', ?_⟩, fun d op q hq => ⟨d, ?_⟩⟩
  · rw [signatureOf?, methodInfo?, slot, hs]
    rfl
  · rw [signature, hg]
    rfl
  · rwa [memberTable, hm] at hq

theorem refl (w : SymbolTable) : KeepsOperators w w := .of_eq rfl rfl rfl

theorem trans (h : KeepsOperators w w') (h' : KeepsOperators w' w'') : KeepsOperators w w'' := by
  refine ⟨fun q hq => ?_, fun g hg => ?_, fun d op q hq => ?_⟩
  · obtain ⟨hq', he⟩ := h.slots q hq
    obtain ⟨hq'', he'⟩ := h'.slots q hq'
    exact ⟨hq'', he'.trans he⟩
  · obtain ⟨hg', he⟩ := h.signatures g hg
    obtain ⟨hg'', he'⟩ := h'.signatures g hg'
    exact ⟨hg'', he'.trans he⟩
  · obtain ⟨e, he⟩ := h'.operators d op q hq
    exact h.operators e op q he

theorem modifySlot (i : SlotId) {change : Slot → Slot}
    (hc : ∀ x, (change x).methodInfo?.map MethodInfo.signature =
      x.methodInfo?.map MethodInfo.signature) : KeepsOperators w (w.modifySlot i change) := by
  refine ⟨fun q hq => ⟨?_, ?_⟩, fun g hg => ⟨hg, rfl⟩, fun d op q hq => ⟨d, hq⟩⟩
  · simpa [SymbolTable.modifySlot, Arena.Has] using hq
  · exact w.slots.congr_get_modify (f := fun x => x.methodInfo?.map MethodInfo.signature) i hc q

theorem modifyMethod (i : SlotId) {change : MethodInfo → MethodInfo}
    (hc : ∀ m, (change m).signature = m.signature) :
    KeepsOperators w (w.modifySlot i (Slot.modifyMethod change)) := by
  refine .modifySlot i fun x => ?_
  rw [Slot.methodInfo?_modifyMethod, Option.map_map]
  exact Option.map_congr fun m _ => hc m

theorem modifyMemberTable (d : MemberTableId) {change : MemberTable → MemberTable}
    (hc : ∀ op q, (change (w.memberTable d)).operator? op = some q →
      ∃ e, (w.memberTable e).operator? op = some q) :
    KeepsOperators w (w.modifyMemberTable d change) := by
  refine ⟨fun q hq => ⟨hq, rfl⟩, fun g hg => ⟨hg, rfl⟩, fun e op q hq => ?_⟩
  rw [memberTable, SymbolTable.modifyMemberTable, Arena.get_modify] at hq
  split at hq
  · rename_i he
    obtain ⟨rfl, _⟩ := he
    exact hc op q hq
  · exact ⟨e, hq⟩

theorem pushSlot {x : Slot} (hs : w'.slots = w.slots.push x) (hg : w'.signatures = w.signatures)
    (hm : w'.memberTables = w.memberTables) : KeepsOperators w w' := by
  have rest : KeepsOperators { w with slots := w'.slots } w' := .of_eq rfl hg hm
  refine ⟨fun q hq => ⟨hs ▸ Arena.has_push.mpr (.inr hq), ?_⟩, rest.signatures, rest.operators⟩
  rw [signatureOf?, methodInfo?, slot, hs, Arena.get_push_of_has hq]
  rfl

theorem addSignature (g : Signature) : KeepsOperators w (w.addSignature g).2 :=
  ⟨fun _ hq => ⟨hq, rfl⟩,
    fun _ hg => ⟨Arena.has_push.mpr (.inr hg), Arena.get_push_of_has hg _⟩, fun d _ _ hq => ⟨d, hq⟩⟩

/-- An operator that a table takes over was installed in the other one. -/
theorem takeOver (source d : MemberTableId) :
    KeepsOperators w (w.change (.takeOver source d)) := by
  refine .modifyMemberTable d fun op q hq => ?_
  rw [operator?_mergeOperators, Option.or_eq_some_iff] at hq
  rcases hq with hq | ⟨_, hq⟩
  · exact ⟨d, hq⟩
  · exact ⟨source, hq⟩

theorem bind (o : Owner) (name : String) (s : Symbol) : KeepsOperators w (w.bind o name s) := by
  have interned : KeepsOperators w (w.intern name).2 := .of_eq rfl rfl rfl
  refine interned.trans ?_
  cases o with
  | members d => exact .modifyMemberTable d fun op q hq => ⟨d, hq⟩
  | type _ | module _ | frame _ => exact .of_eq rfl rfl rfl

/-- Only one sort of change installs operators. -/
theorem change {c : Change} (hc : ∀ d op q, c ≠ .operator d op q) :
    KeepsOperators w (w.change c) := by
  cases c with
  | operator d op q => exact absurd rfl (hc d op q)
  | newMemberTable t d =>
      refine ⟨fun _ hq => ⟨hq, rfl⟩, fun _ hg => ⟨hg, rfl⟩, fun e op q hq => ⟨e, ?_⟩⟩
      have same := w.memberTables.congr_get_push (f := (·.operator? op))
        (x := { definedIn := t, inherits := d }) rfl e
      exact same.symm.trans hq
  | inherits d above => exact .modifyMemberTable d fun op q hq => ⟨d, hq⟩
  | takeOver source d => exact .takeOver source d
  | newSignature g => exact .addSignature g
  | newVariable | newProperty | newMethod => exact .pushSlot rfl rfl rfl
  | initialValue s v =>
      refine .modifySlot s fun x => ?_
      cases hd : x.detail <;> simp [Slot.modifyVariable, Slot.methodInfo?, hd]
  | slotVisibility s _ => exact .modifySlot s fun _ => rfl
  | flags s change => exact .modifyMethod s fun _ => rfl
  | overrider s t method => exact .modifyMethod s fun _ => rfl
  | ofProperty s property => exact .modifyMethod s fun _ => rfl
  | accessors s getter setter =>
      refine .modifySlot s fun x => ?_
      cases hd : x.detail <;> simp [Slot.modifyProperty, Slot.methodInfo?, hd]
  | definedIn s o =>
      cases s with
      | slot i => exact .modifySlot i fun _ => rfl
      | type _ | module _ | aliasDecl _ | value _ | error _ => exact .of_eq rfl rfl rfl
  | name o name s => exact .bind o name s
  | _ => exact .of_eq rfl rfl rfl

/-- Only the edit that installs an operator adds one. -/
theorem apply {e : Edit} (he : ∀ t op q, e ≠ .addOperator t op q) :
    KeepsOperators w (w.apply e) := by
  refine apply_induction (fun w' c hm h => h.trans (.change fun d op q hc => ?_)) (.refl w)
  subst hc
  cases e <;> first | (cases hm; done) | exact he _ _ _ rfl

end KeepsOperators

theorem hasSignature_iff {g : Signature} :
    w.HasSignature q g ↔ ∃ i, w.signatureOf? q = some i ∧ w.signature i = g := by
  simp [HasSignature, signatureOf?]

namespace OperatorsFit

theorem step (h : w.OperatorsFit) (hc : w.Closed) (hk : KeepsOperators w w') : w'.OperatorsFit := by
  intro d op q g hq hg
  obtain ⟨e, he⟩ := hk.operators d op q hq
  obtain ⟨i, hi, rfl⟩ := hasSignature_iff.mp hg
  rw [(hk.slots q (hc.operator_has he)).2] at hi
  have hhas : w.signatures.Has i := by
    obtain ⟨m, hm, rfl⟩ := Option.map_eq_some_iff.mp hi
    exact hc.signature_has hm
  rw [(hk.signatures i hhas).2]
  exact h e op q _ he (hasSignature_iff.mpr ⟨i, hi, rfl⟩)

/-- What is installed has been tested. -/
theorem addOperator (h : w.OperatorsFit) (t : TypeId) (op : Operator) (method : SlotId) :
    (w.addOperator t op method).2.OperatorsFit := by
  unfold SymbolTable.addOperator
  dsimp only
  split
  · rename_i hfits
    split
    · intro e op' q g hq hg
      rw [memberTable, modifyMemberTable, Arena.get_modify] at hq
      split at hq
      · rw [MemberTable.operator?_setOperator] at hq
        split at hq
        · rename_i ho
          cases hq
          obtain ⟨m, hm, rfl⟩ := hg
          have hm' : w.methodInfo? method = some m := hm
          rw [hm'] at hfits
          exact ho ▸ hfits
        · exact h e op' q g hq hg
      · exact h e op' q g hq hg
    · exact h
  · exact h

theorem apply (h : w.OperatorsFit) (hc : w.Closed) (e : Edit) : (w.apply e).OperatorsFit := by
  cases e with
  | addOperator t op method => exact h.addOperator t op method
  | _ => exact h.step hc (.apply (by rintro _ _ _ ⟨⟩))

theorem edited (h : w.OperatorsFit) (hc : w.Closed) {allowed : Edit → Bool}
    (he : Edited allowed w w') : w'.OperatorsFit := by
  induction he with
  | refl => exact h
  | step e he _ _ ih => exact ih.apply (hc.edited he).1 e

end OperatorsFit

private theorem initial_operators (i : Interner) :
    ∀ d ∈ (initial i).memberTables.ids, ((initial i).memberTable d).operators = [] :=
  initial_induction
    (P := fun w => ∀ d ∈ w.memberTables.ids, (w.memberTable d).operators = [])
    (fun _ _ _ h => h) (by decide +kernel) i

theorem initial_operatorsFit (i : Interner) : (initial i).OperatorsFit := by
  intro d op q g hq
  have hnil : ((initial i).memberTable d).operators = [] := by
    by_cases hd : (initial i).memberTables.Has d
    · exact initial_operators i d (Arena.mem_ids.mpr hd)
    · rw [memberTable, Arena.get_of_not_has hd]
      rfl
  rw [MemberTable.operator?, hnil] at hq
  cases hq

/-! ## References -/

/-- How the operators of a value's type decide on references to its elements. -/
structure IndexTyping (w : SymbolTable) (v : Value) : Prop where
  /-- Every operator is a method that can be called with the operands. -/
  signature : ∀ op q, w.Operates v.type op q → ∃ g, w.HasSignature q g ∧ g.accepts op.operands
  /-- An operator that writes is enough only if some parameter of it must be passed. -/
  defined_iff : (w.indexReference? v).isSome ↔ (∃ get, w.Operates v.type .getIndex get) ∨
    ∃ set g, w.Operates v.type .setIndex set ∧ w.HasSignature set g ∧ g.params ≠ []
  read : ∀ get g, w.Operates v.type .getIndex get → w.HasSignature get g →
    w.indexReference? v = some (.indexReference v g.returns)
  write : ∀ set g, (∀ get, ¬ w.Operates v.type .getIndex get) → w.Operates v.type .setIndex set →
    w.HasSignature set g →
    w.indexReference? v = (g.params.getLast?.map Param.type).map (.indexReference v)
  /-- The reference has the type of the value that is written if the value must be passed, or if
  only the index must be and both have one type. -/
  value_iff : ∀ set g, (∀ get, ¬ w.Operates v.type .getIndex get) →
    w.Operates v.type .setIndex set → w.HasSignature set g →
    ((∃ t, w.indexReference? v = some (.indexReference v t) ∧ g.positional[1]? = some t) ↔
      g.params.length = 2 ∨ ∃ t, g.paramTypes = [t] ∧ g.positional[1]? = some t)
  /-- A reference can be read or assigned to. -/
  usable : ∀ r, w.indexReference? v = some r → ¬ (w.isReadOnly r ∧ w.isWriteOnly r)

section

variable {v : Value} {g : Signature}

theorem indexedType?_of_get (hq : w.operatorOf? t .getIndex = some q) (hg : w.HasSignature q g) :
    w.indexedType? t = some g.returns := by
  obtain ⟨m, hm, rfl⟩ := hg
  simp [indexedType?, hq, hm]

theorem indexedType?_of_set (hn : w.operatorOf? t .getIndex = none)
    (hq : w.operatorOf? t .setIndex = some q) (hg : w.HasSignature q g) :
    w.indexedType? t = g.params.getLast?.map Param.type := by
  obtain ⟨m, hm, rfl⟩ := hg
  simp [indexedType?, hn, hq, hm]

theorem indexedType?_of_neither (hn : w.operatorOf? t .getIndex = none)
    (hn' : w.operatorOf? t .setIndex = none) : w.indexedType? t = none := by
  simp [indexedType?, hn, hn']

theorem OperatorMethods.hasSignature (h : w.OperatorMethods) (hq : w.Operates t op q) :
    ∃ g, w.HasSignature q g := by
  obtain ⟨d, hd⟩ := hq.installed
  obtain ⟨x, hx, rfl⟩ := Option.map_eq_some_iff.mp hd
  obtain ⟨m, hm⟩ := Option.isSome_iff_exists.mp (h d x (List.mem_of_find?_eq_some hx))
  exact ⟨_, m, hm, rfl⟩

namespace Closed

theorem indexReference?_of_get (h : w.Closed) (hq : w.Operates v.type .getIndex q)
    (hg : w.HasSignature q g) : w.indexReference? v = some (.indexReference v g.returns) := by
  rw [indexReference?, indexedType?_of_get (h.operatorOf?_eq_some_iff.mpr hq) hg]
  rfl

theorem indexReference?_of_set (h : w.Closed) (hn : ∀ get, ¬ w.Operates v.type .getIndex get)
    (hq : w.Operates v.type .setIndex q) (hg : w.HasSignature q g) :
    w.indexReference? v = (g.params.getLast?.map Param.type).map (.indexReference v) := by
  rw [indexReference?, indexedType?_of_set (h.operatorOf?_eq_none_iff.mpr hn)
    (h.operatorOf?_eq_some_iff.mpr hq) hg]

theorem indexReference?_of_neither (h : w.Closed) (hn : ∀ get, ¬ w.Operates v.type .getIndex get)
    (hn' : ∀ set, ¬ w.Operates v.type .setIndex set) : w.indexReference? v = none := by
  rw [indexReference?, indexedType?_of_neither (h.operatorOf?_eq_none_iff.mpr hn)
    (h.operatorOf?_eq_none_iff.mpr hn')]
  rfl

theorem isSome_indexReference?_iff (h : w.Closed) (hm : w.OperatorMethods) :
    (w.indexReference? v).isSome ↔ (∃ get, w.Operates v.type .getIndex get) ∨
      ∃ set g, w.Operates v.type .setIndex set ∧ w.HasSignature set g ∧ g.params ≠ [] := by
  by_cases hget : ∃ get, w.Operates v.type .getIndex get
  · obtain ⟨get, hq⟩ := hget
    obtain ⟨g, hg⟩ := hm.hasSignature hq
    rw [h.indexReference?_of_get hq hg]
    exact iff_of_true rfl (.inl ⟨get, hq⟩)
  · have hn := not_exists.mp hget
    rw [or_iff_right hget]
    constructor
    · intro hsome
      by_cases hset : ∃ set, w.Operates v.type .setIndex set
      · obtain ⟨set, hq⟩ := hset
        obtain ⟨g, hg⟩ := hm.hasSignature hq
        refine ⟨set, g, hq, hg, fun hnil => ?_⟩
        rw [h.indexReference?_of_set hn hq hg, hnil] at hsome
        cases hsome
      · rw [h.indexReference?_of_neither hn (not_exists.mp hset)] at hsome
        cases hsome
    · rintro ⟨set, g, hq, hg, hne⟩
      rw [h.indexReference?_of_set hn hq hg]
      simpa using hne

end Closed

theorem not_readOnly_and_writeOnly {r : Value} (hr : w.indexReference? v = some r) :
    ¬ (w.isReadOnly r ∧ w.isWriteOnly r) := by
  obtain ⟨t, ht, rfl⟩ := Option.map_eq_some_iff.mp hr
  rintro ⟨hread, hwrite⟩
  simp only [isReadOnly, isWriteOnly, Option.isNone_iff_eq_none] at hread hwrite
  rw [indexedType?_of_neither hwrite hread] at ht
  cases ht

theorem indexTyping (hc : w.Closed) (hm : w.OperatorMethods) (hf : w.OperatorsFit) (v : Value) :
    w.IndexTyping v := by
  have fits : ∀ op q g, w.Operates v.type op q → w.HasSignature q g → g.accepts op.operands := by
    intro op q g hq hg
    obtain ⟨d, hd⟩ := hq.installed
    exact hf d op q g hd hg
  refine ⟨fun op q hq => ?_, hc.isSome_indexReference?_iff hm,
    fun get g => hc.indexReference?_of_get, fun set g => hc.indexReference?_of_set,
    fun set g hn hq hg => ?_, fun r => not_readOnly_and_writeOnly⟩
  · obtain ⟨g, hg⟩ := hm.hasSignature hq
    exact ⟨g, hg, fits op q g hq hg⟩
  · rw [hc.indexReference?_of_set hn hq hg, ← Signature.second_eq_last_iff
      (fits .setIndex set g hq hg)]
    simp

end
end SymbolTable

namespace Session

theorem Reachable.operatorsFit {allowed : Operation → Bool} {s : Session}
    (h : Reachable allowed s) : s.table.OperatorsFit := by
  obtain ⟨i, he⟩ := h.edited_initial
  exact (SymbolTable.initial_operatorsFit i).edited (SymbolTable.initial_closed i) he

/-- In a session in which only methods are operators, and in which no type lies above itself, the
search for an operator comes to its end. An operator that reads gives a reference its result type.
One that only writes gives it the type of the last parameter that must be passed, which need not be
the value. -/
theorem indexTyping_of_reachable {s : Session} (h : Reachable (fun _ => true) s)
    (hs : Acyclic s.table.DirectSuper) (hm : s.table.OperatorMethods) (v : Value) :
    s.table.UpwardWalksEnd ∧ s.table.IndexTyping v :=
  ⟨h.upwardWalksEnd hs, SymbolTable.indexTyping h.closed.table hm h.operatorsFit v⟩

/-- Three classes with an operator that writes a string at an integer. In the first both must be
passed, in the second the string is optional and in the third both are. A fourth class extends the
first and adds an operator that reads, with a nullable type over it. -/
def sampleShelves : List Operation :=
  [.edit (.addClass "Shelf" false), .edit (.addClass "Rack" false), .edit (.addClass "Box" false),
    .edit (.addClass "Drawer" false), .edit (.extendClass ⟨23⟩ ⟨20⟩), .edit (.addNullable ⟨23⟩),
    .edit (.addSignature { params := [⟨"at", .integer⟩, ⟨"value", .string⟩], returns := .nothing }),
    .edit (.addSignature
      { params := [⟨"at", .integer⟩], optParams := [⟨"value", .string, none⟩],
        returns := .nothing }),
    .edit (.addSignature
      { optParams := [⟨"at", .integer, none⟩, ⟨"value", .string, none⟩], returns := .nothing }),
    .edit (.addSignature { params := [⟨"at", .integer⟩], returns := .double }),
    .edit (.addMethod "Put" ⟨0⟩), .edit (.addMethod "Put" ⟨1⟩), .edit (.addMethod "Put" ⟨2⟩),
    .edit (.addMethod "Take" ⟨3⟩), .edit (.addOperator ⟨20⟩ .setIndex ⟨0⟩),
    .edit (.addOperator ⟨21⟩ .setIndex ⟨1⟩), .edit (.addOperator ⟨22⟩ .setIndex ⟨2⟩),
    .edit (.addOperator ⟨23⟩ .getIndex ⟨3⟩)]

theorem indexTyping_sampleShelves :
    let w := (performAll {} sampleShelves).table
    Session.Admits (fun _ => true) {} sampleShelves ∧ Acyclic w.DirectSuper ∧ w.OperatorMethods ∧
      (w.indexReference? (.plain ⟨20⟩)).map Value.type = some .string ∧
      (w.indexReference? (.plain ⟨21⟩)).map Value.type = some .integer ∧
      w.indexReference? (.plain ⟨22⟩) = none ∧
      (w.indexReference? (.plain ⟨24⟩)).map Value.type = some .double ∧
      w.Operates ⟨24⟩ .setIndex ⟨0⟩ ∧
      ∀ t, w.UpwardWalksEnd ∧ w.IndexTyping (.plain t) := by
  have facts : let w := (performAll {} sampleShelves).table
      Session.Admits (fun _ => true) {} sampleShelves ∧
        Session.Admits (fun op => !op.setsSuperType) {} sampleShelves ∧ w.OperatorMethods ∧
        (w.indexReference? (.plain ⟨20⟩)).map Value.type = some .string ∧
        (w.indexReference? (.plain ⟨21⟩)).map Value.type = some .integer ∧
        w.indexReference? (.plain ⟨22⟩) = none ∧
        (w.indexReference? (.plain ⟨24⟩)).map Value.type = some .double ∧
        w.operatorOf? ⟨24⟩ .setIndex = some ⟨0⟩ := by
    decide +kernel
  obtain ⟨h, h', hm, hshelf, hrack, hbox, hdrawer, hset⟩ := facts
  have hr := Reachable.new.performAll h
  have hs := (Reachable.new.performAll h').acyclic_directSuper
  exact ⟨h, hs, hm, hshelf, hrack, hbox, hdrawer, hr.closed.table.operatorOf?_eq_some_iff.mp hset,
    fun t => indexTyping_of_reachable hr hs hm (.plain t)⟩

end Session
end StaticSemantics
