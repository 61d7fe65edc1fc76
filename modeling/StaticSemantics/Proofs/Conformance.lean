import StaticSemantics.Conformance
import StaticSemantics.Proofs.Alias
import StaticSemantics.Proofs.Scope.Bounds

/-!
Conformance of classes to interfaces. What an interface asks of a class is stated without the check:
through the search for a member along the tables that the class inherits from, and through what
aliases lead to. The check reports nothing exactly if the class conforms to all interfaces that it
lists, and what such a class has to supply is what a look-up in its values finds.
-/

namespace StaticSemantics

namespace SymbolTable

/-- The slot that a name denotes among the members of a type: the nearest table that binds the name
decides. -/
def Denotes (w : SymbolTable) (t : TypeId) (name : String) (q : SlotId) : Prop :=
  ∃ d s, (w.type t).members = some d ∧
    FirstFound w.inherited? (fun e => w.bound? (.members e) name) d s ∧
    w.LeadsTo s (.slot q)

/-- A type supplies a slot under a name if everyone can see it. -/
def Supplies (w : SymbolTable) (t : TypeId) (name : String) (q : SlotId) : Prop :=
  w.Denotes t name q ∧ (w.slot q).visibility = .everyone

/-- The method that defines an operator for a type. -/
def Defines (w : SymbolTable) (t : TypeId) (op : Operator) (q : SlotId) : Prop :=
  ∃ d, (w.type t).members = some d ∧ w.findOperator? d op = some q

/-- The slots are methods that are related as the relation says for their signatures. -/
def Methods (w : SymbolTable) (r : Signature → Signature → Prop) (p q : SlotId) : Prop :=
  ∃ m n, w.methodInfo? p = some m ∧ w.methodInfo? q = some n ∧
    r (w.signature m.signature) (w.signature n.signature)

def SameShape (w : SymbolTable) : SlotId → SlotId → Prop :=
  w.Methods fun g h => g.sameShape h

def SameResult (w : SymbolTable) : SlotId → SlotId → Prop :=
  w.Methods fun g h => g.returns = h.returns

/-- The slot is a native method, which an implementor cannot leave out. -/
def Native (w : SymbolTable) (p : SlotId) : Prop :=
  ∃ m, w.methodInfo? p = some m ∧ m.flags.native

/-- What is found fits; nothing may be found only if it can be left out. -/
def FitsOrOptional (found fits : SlotId → Prop) (optional : Prop) : Prop :=
  (∃ q, found q ∧ fits q) ∨ ((∀ q, ¬ found q) ∧ optional)

/-- An accessor that is asked for is there with the same shape, or can be left out. -/
def AccessorFits (w : SymbolTable) (asked present : Option SlotId) : Prop :=
  ∀ p ∈ asked, FitsOrOptional (· ∈ present) (w.SameShape p) (¬ w.Native p)

/-- A property with both accessors that are asked for. -/
def PropertyFits (w : SymbolTable) (asked : PropertyInfo) (q : SlotId) : Prop :=
  ∃ present, (w.slot q).propertyInfo? = some present ∧
    w.AccessorFits asked.getter present.getter ∧ w.AccessorFits asked.setter present.setter

/-- The class supplies what the member table of an interface asks for. -/
structure Conforms (w : SymbolTable) (cls : TypeId) (d : MemberTableId) : Prop where
  operators : ∀ op p, (op, p) ∈ (w.memberTable d).operators →
    FitsOrOptional (w.Defines cls op) (w.SameResult p) (¬ w.Native p)
  methods : ∀ k p m, (k, .slot p) ∈ (w.memberTable d).names.entries → w.methodInfo? p = some m →
    FitsOrOptional (w.Supplies cls (w.slot p).name) (w.SameShape p) (¬ w.Native p)
  properties : ∀ k p asked, (k, .slot p) ∈ (w.memberTable d).names.entries →
    (w.slot p).propertyInfo? = some asked →
    FitsOrOptional (w.Supplies cls (w.slot p).name) (w.PropertyFits asked)
      (∀ a, asked.getter = some a ∨ asked.setter = some a → ¬ w.Native a)

/-- Operators and accessors are methods. -/
structure MethodSlots (w : SymbolTable) : Prop where
  operators : ∀ d, ∀ e ∈ (w.memberTable d).operators, (w.methodInfo? e.2).isSome
  accessors : ∀ s info, (w.slot s).propertyInfo? = some info →
    ∀ a, info.getter = some a ∨ info.setter = some a → (w.methodInfo? a).isSome

variable {w : SymbolTable} {cls : TypeId} {d : MemberTableId} {p q : SlotId} {name : String}

/-! ## What is found -/

theorem FitsOrOptional.iff_of_some {found fits : SlotId → Prop} {optional : Prop} {q : SlotId}
    (hq : ∀ q', found q' ↔ q' = q) : FitsOrOptional found fits optional ↔ fits q := by
  simp [FitsOrOptional, hq]

theorem FitsOrOptional.iff_of_none {found fits : SlotId → Prop} {optional : Prop}
    (hq : ∀ q, ¬ found q) : FitsOrOptional found fits optional ↔ optional := by
  simp [FitsOrOptional, hq]

theorem slotNamed?_eq (w : SymbolTable) (chain : List MemberTableId) (name : String) :
    w.slotNamed? chain name =
      (chain.findSome? fun d => w.bound? (.members d) name).bind fun s =>
        match w.unwind s with
        | .ok s => s.slot?
        | .error _ => none := by
  unfold slotNamed? bound?
  cases w.nameTable.lookup? name with
  | none =>
      have unbound : (chain.findSome? fun _ => (none : Option Symbol)) = none := by simp
      simp only [Option.bind_none, unbound]
      rfl
  | some k => rfl

theorem slotNamed?_nil (w : SymbolTable) (name : String) : w.slotNamed? [] name = none := by
  simp [slotNamed?_eq]

theorem Closed.slotNamed?_memberChain (h : w.Closed) :
    w.slotNamed? (w.memberChain d) name = some q ↔ ∃ s,
      FirstFound w.inherited? (fun e => w.bound? (.members e) name) d s ∧
        w.LeadsTo s (.slot q) := by
  simp only [slotNamed?_eq, Option.bind_eq_some_iff, h.findSome?_memberChain]
  refine exists_congr fun s => and_congr_right fun _ => ?_
  rw [← unwind_eq_ok_iff]
  cases hu : w.unwind s with
  | error e => simp
  | ok s' => cases s' <;> simp [Symbol.slot?]

/-- The check takes for the implementation what the class supplies. -/
theorem Closed.implementation?_eq_some_iff (h : w.Closed) :
    w.implementation? cls name = some q ↔ w.Supplies cls name q := by
  unfold implementation? classChain Supplies Denotes
  simp only [Option.filter_eq_some_iff, decide_eq_true_eq]
  refine and_congr_left fun _ => ?_
  cases (w.type cls).members with
  | none => simp [slotNamed?_nil]
  | some d => simp [h.slotNamed?_memberChain]

theorem defines_iff {op : Operator} :
    ((w.type cls).members.bind fun d => w.findOperator? d op) = some q ↔ w.Defines cls op q :=
  Option.bind_eq_some_iff

theorem isRequired_iff : w.isRequired p = true ↔ w.Native p := by
  unfold isRequired Native
  cases w.methodInfo? p with
  | none => simp
  | some m => simp

theorem sameShape_eq (w : SymbolTable) (g k : SignatureId) :
    w.sameShape g k = (w.signature g).sameShape (w.signature k) := by
  unfold sameShape
  by_cases hg : g = k
  · subst hg
    simp [Signature.sameShape]
  · simp [hg]

theorem sameShape_iff {m n : MethodInfo} (hp : w.methodInfo? p = some m)
    (hq : w.methodInfo? q = some n) :
    w.sameShape m.signature n.signature ↔ w.SameShape p q := by
  simp [sameShape_eq, SameShape, Methods, hp, hq]

/-! ## One member -/

theorem methodInfo?_of_defines (hm : w.MethodSlots) {op : Operator} (hq : w.Defines cls op q) :
    ∃ n, w.methodInfo? q = some n := by
  obtain ⟨d, _, hq⟩ := hq
  obtain ⟨e, _, he⟩ := List.exists_of_findSome?_eq_some hq
  obtain ⟨x, hx, rfl⟩ := Option.map_eq_some_iff.mp he
  exact Option.isSome_iff_exists.mp (hm.operators e x (List.mem_of_find?_eq_some hx))

theorem sameResult_iff {m n : MethodInfo} (hp : w.methodInfo? p = some m)
    (hq : w.methodInfo? q = some n) :
    w.resultType? q = w.resultType? p ↔ w.SameResult p q := by
  simp [resultType?, SameResult, Methods, hp, hq, eq_comm]

theorem operatorIssue?_eq_none_iff (hm : w.MethodSlots) {op : Operator} {m : MethodInfo}
    (hp : w.methodInfo? p = some m) :
    w.operatorIssue? cls op p = none ↔
      FitsOrOptional (w.Defines cls op) (w.SameResult p) (¬ w.Native p) := by
  unfold operatorIssue?
  cases hf : (w.type cls).members.bind fun d => w.findOperator? d op with
  | none =>
      have hno : ∀ q, ¬ w.Defines cls op q := by
        intro q hq
        rw [defines_iff.mpr hq] at hf
        cases hf
      rw [FitsOrOptional.iff_of_none hno, ← isRequired_iff]
      simp
  | some q =>
      have hq : ∀ q', w.Defines cls op q' ↔ q' = q := by
        intro q'
        rw [← defines_iff, hf, Option.some.injEq, eq_comm]
      obtain ⟨n, hn⟩ := methodInfo?_of_defines hm ((hq q).mpr rfl)
      rw [FitsOrOptional.iff_of_some hq, ← sameResult_iff hp hn]
      simp

theorem accessorIssue?_eq_none_iff {part : MemberPart} {asked present : Option SlotId}
    (ha : ∀ p ∈ asked, (w.methodInfo? p).isSome) (hb : ∀ q ∈ present, (w.methodInfo? q).isSome) :
    w.accessorIssue? part name asked present = none ↔ w.AccessorFits asked present := by
  cases asked with
  | none => simp [accessorIssue?, AccessorFits]
  | some p =>
      obtain ⟨m, hp⟩ := Option.isSome_iff_exists.mp (ha p rfl)
      have hall : w.AccessorFits (some p) present ↔
          FitsOrOptional (· ∈ present) (w.SameShape p) (¬ w.Native p) := by
        simp [AccessorFits]
      rw [hall]
      cases present with
      | none =>
          rw [FitsOrOptional.iff_of_none (by simp), ← isRequired_iff]
          simp [accessorIssue?]
      | some q =>
          obtain ⟨n, hq⟩ := Option.isSome_iff_exists.mp (hb q rfl)
          rw [FitsOrOptional.iff_of_some (q := q) (by simp [eq_comm]), ← sameShape_iff hp hq]
          simp [accessorIssue?, slotSignature, hp, hq]

theorem methodIssues_eq_nil_iff {m : MethodInfo} (hp : w.methodInfo? p = some m)
    {found : SlotId → Prop} {implemented : Option SlotId}
    (hf : ∀ q, implemented = some q ↔ found q) :
    w.methodIssues name m implemented = [] ↔
      FitsOrOptional found (w.SameShape p) (¬ w.Native p) := by
  cases implemented with
  | none =>
      rw [FitsOrOptional.iff_of_none fun q hq => by simpa using (hf q).mpr hq]
      simp [methodIssues, Native, hp]
  | some q =>
      rw [FitsOrOptional.iff_of_some (q := q) fun q' => by rw [← hf, Option.some.injEq, eq_comm]]
      cases hd : (w.slot q).detail with
      | method n =>
          rw [← sameShape_iff hp (Slot.methodInfo?_eq_some.mpr hd)]
          simp [methodIssues, hd]
      | _ =>
          have hq : w.methodInfo? q = none := by simp [methodInfo?, Slot.methodInfo?, hd]
          simp [methodIssues, hd, SameShape, Methods, hq]

theorem propertyIssues_eq_nil_iff (hm : w.MethodSlots) {asked : PropertyInfo}
    (hp : (w.slot p).propertyInfo? = some asked) {found : SlotId → Prop}
    {implemented : Option SlotId} (hf : ∀ q, implemented = some q ↔ found q) :
    w.propertyIssues name asked implemented = [] ↔
      FitsOrOptional found (w.PropertyFits asked)
        (∀ a, asked.getter = some a ∨ asked.setter = some a → ¬ w.Native a) := by
  have hget : ∀ a ∈ asked.getter, (w.methodInfo? a).isSome :=
    fun a ha => hm.accessors p asked hp a (.inl ha)
  have hset : ∀ a ∈ asked.setter, (w.methodInfo? a).isSome :=
    fun a ha => hm.accessors p asked hp a (.inr ha)
  cases implemented with
  | none =>
      have hnone : ∀ asked : Option SlotId,
          w.AccessorFits asked none ↔ ∀ a, asked = some a → ¬ w.Native a := by
        intro asked
        simp [AccessorFits, FitsOrOptional]
      have habsent : ∀ q ∈ (none : Option SlotId), (w.methodInfo? q).isSome := by simp
      rw [FitsOrOptional.iff_of_none fun q hq => by simpa using (hf q).mpr hq]
      simp only [propertyIssues, Option.map_none, List.filterMap_eq_nil_iff, List.forall_mem_cons,
        accessorIssue?_eq_none_iff hget habsent, accessorIssue?_eq_none_iff hset habsent, hnone]
      simp [or_imp, forall_and]
  | some q =>
      rw [FitsOrOptional.iff_of_some (q := q) fun q' => by rw [← hf, Option.some.injEq, eq_comm]]
      cases hd : (w.slot q).detail with
      | property present =>
          have hq : (w.slot q).propertyInfo? = some present := by simp [Slot.propertyInfo?, hd]
          simp only [propertyIssues, Option.map_some, hd, List.filterMap_eq_nil_iff,
            List.forall_mem_cons,
            accessorIssue?_eq_none_iff hget fun a ha => hm.accessors q present hq a (.inl ha),
            accessorIssue?_eq_none_iff hset fun a ha => hm.accessors q present hq a (.inr ha)]
          simp [PropertyFits, hq]
      | _ => simp [propertyIssues, hd, PropertyFits, Slot.propertyInfo?]

/-! ## All members -/

/-- A member raises no issue if it fits, as a method or as a property. -/
theorem memberIssues_eq_nil_iff (h : w.Closed) (hm : w.MethodSlots) :
    w.memberIssues cls p = [] ↔
      (∀ m, w.methodInfo? p = some m →
        FitsOrOptional (w.Supplies cls (w.slot p).name) (w.SameShape p) (¬ w.Native p)) ∧
      ∀ asked, (w.slot p).propertyInfo? = some asked →
        FitsOrOptional (w.Supplies cls (w.slot p).name) (w.PropertyFits asked)
          (∀ a, asked.getter = some a ∨ asked.setter = some a → ¬ w.Native a) := by
  have hf : ∀ q, w.implementation? cls (w.slot p).name = some q ↔
      w.Supplies cls (w.slot p).name q := fun q => h.implementation?_eq_some_iff
  cases hd : (w.slot p).detail with
  | «variable» info =>
      simp [memberIssues, methodInfo?, Slot.methodInfo?, Slot.propertyInfo?, hd]
  | property asked =>
      have hp : (w.slot p).propertyInfo? = some asked := by simp [Slot.propertyInfo?, hd]
      have hn : w.methodInfo? p = none := by simp [methodInfo?, Slot.methodInfo?, hd]
      have hi : w.memberIssues cls p = w.propertyIssues (w.slot p).name asked
          (w.implementation? cls (w.slot p).name) := by simp [memberIssues, hd]
      rw [hi, propertyIssues_eq_nil_iff hm hp hf]
      simp [hp, hn]
  | method m =>
      have hp : w.methodInfo? p = some m := Slot.methodInfo?_eq_some.mpr hd
      have hn : (w.slot p).propertyInfo? = none := by simp [Slot.propertyInfo?, hd]
      have hi : w.memberIssues cls p = w.methodIssues (w.slot p).name m
          (w.implementation? cls (w.slot p).name) := by simp [memberIssues, hd]
      rw [hi, methodIssues_eq_nil_iff hp hf]
      simp [hp, hn]

theorem interfaceIssues_eq_nil_iff (h : w.Closed) (hm : w.MethodSlots) {interface : TypeId} :
    w.interfaceIssues cls interface = [] ↔
      ∀ d, (w.type interface).members = some d → w.Conforms cls d := by
  unfold interfaceIssues
  cases hd : (w.type interface).members with
  | none => simp
  | some d =>
      simp only [List.append_eq_nil_iff, List.filterMap_eq_nil_iff, List.flatMap_eq_nil_iff,
        List.mem_filterMap, memberIssues_eq_nil_iff h hm, Option.some.injEq, forall_eq']
      constructor
      · rintro ⟨hop, hmem⟩
        have slot : ∀ {k p}, (k, Symbol.slot p) ∈ (w.memberTable d).names.entries → _ :=
          fun {k p} hp => hmem p ⟨(k, .slot p), hp, rfl⟩
        refine ⟨fun op p hp => ?_, fun k p m hp => (slot hp).1 m, fun k p a hp => (slot hp).2 a⟩
        obtain ⟨m, hmp⟩ := Option.isSome_iff_exists.mp (hm.operators d (op, p) hp)
        exact (operatorIssue?_eq_none_iff hm hmp).mp (hop (op, p) hp)
      · intro hc
        refine ⟨fun e he => ?_, ?_⟩
        · obtain ⟨m, hmp⟩ := Option.isSome_iff_exists.mp (hm.operators d e he)
          exact (operatorIssue?_eq_none_iff hm hmp).mpr (hc.operators e.1 e.2 he)
        · rintro p ⟨⟨k, s⟩, he, hs⟩
          cases s with
          | slot p' =>
              cases hs
              exact ⟨fun m => hc.methods k p m he, fun a => hc.properties k p a he⟩
          | _ => cases hs

theorem conformanceIssues_eq_nil_iff (h : w.Closed) (hm : w.MethodSlots) {info : ClassInfo}
    (hc : (w.type cls).class? = some info) :
    w.conformanceIssues cls = [] ↔ ∀ i ∈ info.implements, ∀ d,
      (w.type i).members = some d → w.Conforms cls d := by
  simp only [conformanceIssues, hc, List.flatMap_eq_nil_iff, interfaceIssues_eq_nil_iff h hm]

/-! ## Looking up what a class supplies -/

theorem resolveIn?_anything (o : Owner) (name : String) :
    w.resolveIn? o name .anything = (w.bound? o name).map (w.reference o) := by
  unfold resolveIn? find?
  cases w.bound? o name <;> rfl

theorem slotType_of_method {m : MethodInfo} (hq : w.methodInfo? q = some m) :
    w.slotType q = .callable := by
  simp [slotType, Slot.type?, Slot.methodInfo?_eq_some.mp hq]

/-- The search of the check and the look-up in a value go the same way. -/
theorem Closed.resolveInValue?_of_denotes (h : w.Closed) (hc : (w.type cls).isClass)
    (hd : w.Denotes cls name q) {m : MethodInfo} (hq : w.methodInfo? q = some m) :
    w.resolveInValue? (.plain cls) name .anything =
      some (.value (.memberReference (.plain cls) q .callable)) := by
  obtain ⟨d, s, hmem, hf, hs⟩ := hd
  obtain ⟨info, hk⟩ := exists_of_isClass hc
  have hany : (w.type cls).isAny = false := by simp [TypeDecl.isAny, hk]
  obtain ⟨e, _, hf⟩ := hf.map fun e => w.reference (.members e)
  have hfound : w.resolveInMembers? d name .anything = some (w.reference (.members e) s) := by
    refine h.findSome?_memberChain.mpr ?_
    simp only [resolveIn?_anything]
    exact hf
  have href : w.reference (.members e) s = .value (.reference (.members e) q .callable) := by
    simp [reference, referTo, unwind_eq_ok_iff.mpr hs, slotType_of_method hq]
  have hslot : w.unwind (.slot q) = .ok (.slot q) := unwindAt_of_not_alias (by simp) _ _
  simp [resolveInValue?, Value.type, hany, hmem, hfound, href, rebase, Symbol.value?, Value.slot?,
    memberReference, referTo, hslot, slotType_of_method hq]

/-- A native method that a conforming class must supply is what its values have under the name. -/
theorem Conforms.resolveInValue?_of_native (hconf : w.Conforms cls d) (h : w.Closed)
    (hc : (w.type cls).isClass) {k : Key} (hp : (k, .slot p) ∈ (w.memberTable d).names.entries)
    (hn : w.Native p) :
    ∃ q, w.Supplies cls (w.slot p).name q ∧ w.SameShape p q ∧
      w.resolveInValue? (.plain cls) (w.slot p).name .anything =
        some (.value (.memberReference (.plain cls) q .callable)) := by
  obtain ⟨m, hm, _⟩ := id hn
  rcases hconf.methods k p m hp hm with ⟨q, hq, hs⟩ | ⟨_, hno⟩
  · obtain ⟨_, n, _, hqn, _⟩ := id hs
    exact ⟨q, hq, hs, h.resolveInValue?_of_denotes hc hq.1 hqn⟩
  · exact absurd hn hno

/-! ## Checking that operators and accessors are methods -/

theorem methodSlots_iff : w.MethodSlots ↔
    (∀ d ∈ w.memberTables.ids, ∀ e ∈ (w.memberTable d).operators, (w.methodInfo? e.2).isSome) ∧
      ∀ s ∈ w.slots.ids, ∀ info ∈ (w.slot s).propertyInfo?.toList,
        ∀ a ∈ info.getter.toList ++ info.setter.toList, (w.methodInfo? a).isSome := by
  constructor
  · intro h
    refine ⟨fun d _ => h.operators d, fun s _ info hi a ha => ?_⟩
    exact h.accessors s info (by simpa using hi) a (by simpa using ha)
  · rintro ⟨hop, hacc⟩
    refine ⟨fun d e he => ?_, fun s info hi a ha => ?_⟩
    · by_cases hd : w.memberTables.Has d
      · exact hop d (Arena.mem_ids.mpr hd) e he
      · rw [memberTable, Arena.get_of_not_has hd] at he
        cases he
    · by_cases hs : w.slots.Has s
      · exact hacc s (Arena.mem_ids.mpr hs) info (by simpa using hi) a (by simpa using ha)
      · rw [slot, Arena.get_of_not_has hs] at hi
        cases hi

instance : Decidable w.MethodSlots := decidable_of_iff' _ methodSlots_iff

end SymbolTable

namespace Session

/-- An interface with a native method, a native operator and a property with a native getter, and a
class that supplies the method and the operator through its super class, the method under an alias,
and the property by itself. -/
def sampleConformance : List Operation :=
  [.edit (.addInterface "Shelf"), .edit (.addClass "Store" false),
    .edit (.addClass "Library" false), .edit (.addSignature { returns := .string }),
    .edit (.addSignature { returns := .string }),
    .edit (.addSignature { params := [⟨"other", ⟨20⟩⟩], returns := .boolean }),
    .edit (.addMethod "Title" ⟨0⟩), .edit (.setMethodFlags ⟨0⟩ { native := true }),
    .edit (.define (.members ⟨16⟩) "Title" (.slot ⟨0⟩)),
    .edit (.addMethod "Caption" ⟨1⟩), .edit (.addAlias "Title" (.slot ⟨1⟩)),
    .edit (.define (.members ⟨17⟩) "title" (.aliasDecl ⟨0⟩)),
    .edit (.addMethod "Merge" ⟨2⟩), .edit (.setMethodFlags ⟨2⟩ { native := true }),
    .edit (.addOperator ⟨20⟩ .add ⟨2⟩),
    .edit (.addMethod "Join" ⟨2⟩), .edit (.addOperator ⟨21⟩ .add ⟨3⟩),
    .edit (.addProperty "Size" none), .edit (.addMethod "get" ⟨0⟩),
    .edit (.setMethodFlags ⟨5⟩ { native := true }),
    .edit (.setAccessors ⟨4⟩ (some ⟨5⟩) none), .edit (.define (.members ⟨16⟩) "Size" (.slot ⟨4⟩)),
    .edit (.addProperty "size" none), .edit (.addMethod "get" ⟨1⟩),
    .edit (.setAccessors ⟨6⟩ (some ⟨7⟩) none), .edit (.define (.members ⟨18⟩) "size" (.slot ⟨6⟩)),
    .edit (.extendClass ⟨22⟩ ⟨21⟩), .edit (.implement ⟨22⟩ ⟨20⟩)]

end Session
end StaticSemantics
