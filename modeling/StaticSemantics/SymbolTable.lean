import StaticSemantics.Arena
import StaticSemantics.Declaration.Type
import StaticSemantics.Declaration.Slot
import StaticSemantics.Declaration.Scope

/-!
The symbol table: everything that a program has declared so far. Declarations are added and changed
in place; nothing is ever removed, and nullable and tuple types are never declared twice.
-/

namespace StaticSemantics

structure SymbolTable where
  types : Arena .type TypeDecl := {}
  memberTables : Arena .memberTable MemberTable := {}
  modules : Arena .module ModuleDecl := {}
  slots : Arena .slot Slot := {}
  signatures : Arena .signature Signature := {}
  frames : Arena .frame Frame := {}
  aliases : Arena .aliasDecl AliasDecl := {}
  /-- The keys that names have been given. -/
  nameTable : NameTable := {}
  /-- The modules that can be named from anywhere, by their names in lower case and in their
  order. -/
  roots : List (String × ModuleId) := []
  /-- The nullable types by the types they wrap. -/
  nullables : List (TypeId × TypeId) := []
  /-- The tuple types by their elements, in one list for each number of elements. -/
  tuples : List (List (List TypeId × TypeId)) := []

namespace SymbolTable

section

variable [Memory]

/-! ## Reading -/

def type (w : SymbolTable) (t : TypeId) : TypeDecl := w.types.get t

def memberTable (w : SymbolTable) (d : MemberTableId) : MemberTable := w.memberTables.get d

def module (w : SymbolTable) (m : ModuleId) : ModuleDecl := w.modules.get m

def slot (w : SymbolTable) (s : SlotId) : Slot := w.slots.get s

def signature (w : SymbolTable) (g : SignatureId) : Signature := w.signatures.get g

def frame (w : SymbolTable) (f : FrameId) : Frame := w.frames.get f

def aliasDecl (w : SymbolTable) (a : AliasId) : AliasDecl := w.aliases.get a

/-- The method that a slot holds. -/
def methodInfo? (w : SymbolTable) (s : SlotId) : Option MethodInfo := (w.slot s).methodInfo?

/-! ## Changing -/

def modifyType (w : SymbolTable) (t : TypeId) (change : TypeDecl → TypeDecl) : SymbolTable :=
  { w with types := w.types.modify t change }

def modifyMemberTable (w : SymbolTable) (d : MemberTableId) (change : MemberTable → MemberTable) :
    SymbolTable :=
  { w with memberTables := w.memberTables.modify d change }

def modifyModule (w : SymbolTable) (m : ModuleId) (change : ModuleDecl → ModuleDecl) :
    SymbolTable :=
  { w with modules := w.modules.modify m change }

def modifySlot (w : SymbolTable) (s : SlotId) (change : Slot → Slot) : SymbolTable :=
  { w with slots := w.slots.modify s change }

def modifyFrame (w : SymbolTable) (f : FrameId) (change : Frame → Frame) : SymbolTable :=
  { w with frames := w.frames.modify f change }

def modifyAlias (w : SymbolTable) (a : AliasId) (change : AliasDecl → AliasDecl) : SymbolTable :=
  { w with aliases := w.aliases.modify a change }

/-! ## Types -/

def addType (w : SymbolTable) (decl : TypeDecl) : TypeId × SymbolTable :=
  (w.types.next, { w with types := w.types.push decl })

/-- Adds a type together with its member table, which inherits from that of the super type. -/
def addTypeWithMembers (w : SymbolTable) (kind : TypeKind) (name : Option String)
    (superType : Option TypeId) : TypeId × SymbolTable :=
  let decl : TypeDecl := { kind, name, superType, members := some w.memberTables.next }
  let table : MemberTable :=
    { definedIn := w.types.next, inherits := superType.bind fun s => (w.type s).members }
  (w.types.next,
    { w with types := w.types.push decl, memberTables := w.memberTables.push table })

def addClass (w : SymbolTable) (name : String) (isSealed : Bool) : TypeId × SymbolTable :=
  w.addTypeWithMembers (.cls { sealed := isSealed }) (some name) (some .object)

def addStruct (w : SymbolTable) (name : String) : TypeId × SymbolTable :=
  w.addTypeWithMembers .struct (some name) (some .object)

def addEnum (w : SymbolTable) (name : String) (isFlags : Bool) : TypeId × SymbolTable :=
  w.addTypeWithMembers (.enum { isFlags }) (some name) (some .object)

def addInterface (w : SymbolTable) (name : String) : TypeId × SymbolTable :=
  w.addTypeWithMembers (.interface {}) (some name) none

def acceptsNull (w : SymbolTable) (t : TypeId) : Bool := (w.type t).acceptsNull

/-- The nullable type declared over a type. -/
def nullableOf? (w : SymbolTable) (t : TypeId) : Option TypeId :=
  (w.nullables.find? (·.1 = t)).map Prod.snd

/-- Notes that `u` is the nullable type over `t`. -/
def internNullable (w : SymbolTable) (t u : TypeId) : SymbolTable :=
  { w with nullables := (t, u) :: w.nullables }

/-- Adds the nullable type over a type. -/
def declareNullable (w : SymbolTable) (t : TypeId) : SymbolTable :=
  (w.addType { kind := .nullable t }).2.internNullable t w.types.next

/-- The nullable type over a type. A type that accepts null already is its own. -/
def addNullable (w : SymbolTable) (t : TypeId) : TypeId × SymbolTable :=
  if w.acceptsNull t then (t, w)
  else
    match w.nullableOf? t with
    | some u => (u, w)
    | none => (w.types.next, w.declareNullable t)

/-- Makes room for tuple types of so many elements. -/
def makeRoom (w : SymbolTable) (arity : Nat) : SymbolTable :=
  { w with tuples := w.tuples ++ List.replicate (arity + 1 - w.tuples.length) [] }

/-- The tuple types of so many elements, by their elements. -/
def tuplesOf (w : SymbolTable) (arity : Nat) : List (List TypeId × TypeId) :=
  w.tuples.getD arity []

/-- The tuple type declared over a list of element types. -/
def tupleOf? (w : SymbolTable) (elements : List TypeId) : Option TypeId :=
  ((w.tuplesOf elements.length).find? (·.1 = elements)).map Prod.snd

/-- Notes that `u` is the tuple type over the elements. -/
def internTuple (w : SymbolTable) (elements : List TypeId) (u : TypeId) : SymbolTable :=
  { w with tuples := w.tuples.modify elements.length ((elements, u) :: ·) }

/-- Adds the tuple type over the elements, for whose number there must be room. -/
def declareTuple (w : SymbolTable) (elements : List TypeId) : SymbolTable :=
  (w.addTypeWithMembers (.tuple elements) none (some .object)).2.internTuple elements w.types.next

/-- The tuple type over a list of element types. -/
def addTuple (w : SymbolTable) (elements : List TypeId) : TypeId × SymbolTable :=
  let w := w.makeRoom elements.length
  match w.tupleOf? elements with
  | some u => (u, w)
  | none => (w.types.next, w.declareTuple elements)

/-- All tuple types, in the order of their ids. -/
def tupleTypes (w : SymbolTable) : List TypeId :=
  (w.tuples.flatten.map Prod.snd).mergeSort fun t u => t.index ≤ u.index

end

section

variable {w : SymbolTable} {t u : TypeId} {elements : List TypeId}

theorem mem_of_nullableOf? (h : w.nullableOf? t = some u) : (t, u) ∈ w.nullables := by
  obtain ⟨e, he, rfl⟩ := Option.map_eq_some_iff.mp h
  obtain rfl : e.1 = t := by simpa using List.find?_some he
  exact List.mem_of_find?_eq_some he

theorem mem_of_tupleOf? (h : w.tupleOf? elements = some u) :
    (elements, u) ∈ w.tuplesOf elements.length := by
  obtain ⟨e, he, rfl⟩ := Option.map_eq_some_iff.mp h
  obtain rfl : e.1 = elements := by simpa using List.find?_some he
  exact List.mem_of_find?_eq_some he

theorem nullableOf?_declareNullable (w : SymbolTable) (t x : TypeId) :
    (w.declareNullable t).nullableOf? x =
      if t = x then some w.types.next else w.nullableOf? x := by
  simp only [nullableOf?, declareNullable, internNullable, addType, List.find?_cons]
  by_cases hx : t = x <;> simp [hx]

theorem tuplesOf_makeRoom (w : SymbolTable) (arity n : Nat) :
    (w.makeRoom arity).tuplesOf n = w.tuplesOf n := by
  simp only [tuplesOf, makeRoom, List.getD_eq_getElem?_getD, List.getElem?_append,
    List.getElem?_replicate]
  split
  · rfl
  · rename_i hn
    rw [List.getElem?_eq_none (Nat.le_of_not_lt hn)]
    split <;> rfl

theorem lt_length_makeRoom (w : SymbolTable) (arity : Nat) :
    arity < (w.makeRoom arity).tuples.length := by
  simp only [makeRoom, List.length_append, List.length_replicate]
  omega

theorem makeRoom_of_lt {arity : Nat} (h : arity < w.tuples.length) : w.makeRoom arity = w := by
  have hn : arity + 1 - w.tuples.length = 0 := by omega
  simp [makeRoom, hn]

theorem tuplesOf_internTuple (h : elements.length < w.tuples.length) (u : TypeId) (n : Nat) :
    (w.internTuple elements u).tuplesOf n =
      if elements.length = n then (elements, u) :: w.tuplesOf n else w.tuplesOf n := by
  simp only [tuplesOf, internTuple, List.getD_eq_getElem?_getD, List.getElem?_modify]
  split
  · rename_i hn
    subst hn
    rw [List.getElem?_eq_getElem h]
    rfl
  · cases w.tuples[n]? <;> rfl

theorem tuplesOf_declareTuple (w : SymbolTable) (elements : List TypeId) (n : Nat) :
    ((w.makeRoom elements.length).declareTuple elements).tuplesOf n =
      if elements.length = n then (elements, w.types.next) :: w.tuplesOf n else w.tuplesOf n := by
  have hn : elements.length < ((w.makeRoom elements.length).addTypeWithMembers (.tuple elements)
      none (some .object)).2.tuples.length := w.lt_length_makeRoom elements.length
  rw [declareTuple, tuplesOf_internTuple hn, ← w.tuplesOf_makeRoom elements.length n]
  rfl

theorem tupleOf?_declareTuple (w : SymbolTable) (elements l : List TypeId) :
    ((w.makeRoom elements.length).declareTuple elements).tupleOf? l =
      if elements = l then some w.types.next else w.tupleOf? l := by
  unfold tupleOf?
  rw [tuplesOf_declareTuple]
  by_cases hl : elements = l
  · simp [hl]
  · rw [if_neg hl]
    split
    · simp [hl]
    · rfl

theorem mem_flatten_tuples {e : List TypeId × TypeId} :
    e ∈ w.tuples.flatten ↔ ∃ n, e ∈ w.tuplesOf n := by
  simp only [List.mem_flatten, tuplesOf, List.getD_eq_getElem?_getD]
  constructor
  · rintro ⟨l, hl, he⟩
    obtain ⟨n, hn⟩ := List.mem_iff_getElem?.mp hl
    exact ⟨n, by rwa [hn]⟩
  · rintro ⟨n, he⟩
    cases hn : w.tuples[n]? with
    | none =>
        rw [hn] at he
        cases he
    | some l =>
        rw [hn] at he
        exact ⟨l, List.mem_of_getElem? hn, he⟩

theorem lt_length_of_mem_tuplesOf {e : List TypeId × TypeId} {n : Nat} (h : e ∈ w.tuplesOf n) :
    n < w.tuples.length := by
  refine Nat.lt_of_not_le fun hn => ?_
  rw [tuplesOf, List.getD_eq_getElem?_getD, List.getElem?_eq_none hn] at h
  cases h

/-- What becomes of a table when a nullable type is asked for. -/
theorem addNullable_cases (w : SymbolTable) (t : TypeId) :
    (w.acceptsNull t ∧ w.addNullable t = (t, w)) ∨
    (∃ u, w.acceptsNull t = false ∧ w.nullableOf? t = some u ∧ w.addNullable t = (u, w)) ∨
    (w.acceptsNull t = false ∧ w.nullableOf? t = none ∧
      w.addNullable t = (w.types.next, w.declareNullable t)) := by
  unfold addNullable
  cases ha : w.acceptsNull t with
  | true => exact .inl ⟨rfl, rfl⟩
  | false =>
      cases hu : w.nullableOf? t with
      | some u => exact .inr (.inl ⟨u, rfl, rfl, rfl⟩)
      | none => exact .inr (.inr ⟨rfl, rfl, rfl⟩)

/-- What becomes of a table when a tuple type is asked for. -/
theorem addTuple_cases (w : SymbolTable) (elements : List TypeId) :
    (∃ u, w.tupleOf? elements = some u ∧ w.addTuple elements = (u, w)) ∨
    (w.tupleOf? elements = none ∧ w.addTuple elements =
      (w.types.next, (w.makeRoom elements.length).declareTuple elements)) := by
  have hr : (w.makeRoom elements.length).tupleOf? elements = w.tupleOf? elements := by
    unfold tupleOf?
    rw [tuplesOf_makeRoom]
  unfold addTuple
  dsimp only
  rw [hr]
  cases hu : w.tupleOf? elements with
  | some u =>
      have hn := lt_length_of_mem_tuplesOf (mem_of_tupleOf? hu)
      exact .inl ⟨u, rfl, by rw [makeRoom_of_lt hn]⟩
  | none => exact .inr ⟨rfl, rfl⟩

end

variable [Memory]

/-! ## Modules and aliases -/

def addModule (w : SymbolTable) (name : String) : ModuleId × SymbolTable :=
  (w.modules.next, { w with modules := w.modules.push { name } })

def root? (w : SymbolTable) (name : String) : Option ModuleId :=
  (w.roots.find? (·.1 = Text.lowerCase name)).map Prod.snd

/-- Makes a module nameable from anywhere, in place of an earlier one of that name. -/
def setRoot (w : SymbolTable) (name : String) (m : ModuleId) : SymbolTable :=
  { w with roots := put (Text.lowerCase name) w.roots }
where
  put (text : String) : List (String × ModuleId) → List (String × ModuleId)
    | [] => [(text, m)]
    | e :: rest =>
      if e.1 = text then (text, m) :: rest
      else if text < e.1 then (text, m) :: e :: rest
      else e :: put text rest

def addAlias (w : SymbolTable) (name : String) (target : Symbol) : AliasId × SymbolTable :=
  (w.aliases.next, { w with aliases := w.aliases.push { name, target } })

def setAliasTarget (w : SymbolTable) (a : AliasId) (target : Symbol) : SymbolTable :=
  w.modifyAlias a ({ · with target })

/-! ## Slots and signatures -/

def addSlot (w : SymbolTable) (name : String) (detail : SlotDetail) : SlotId × SymbolTable :=
  (w.slots.next, { w with slots := w.slots.push { name, detail } })

def addVariable (w : SymbolTable) (name : String) (readOnly : Bool) (type : Option TypeId) :
    SlotId × SymbolTable :=
  w.addSlot name (.variable { readOnly, type })

def addProperty (w : SymbolTable) (name : String) (type : Option TypeId) : SlotId × SymbolTable :=
  w.addSlot name (.property { type })

def addMethod (w : SymbolTable) (name : String) (signature : SignatureId) : SlotId × SymbolTable :=
  w.addSlot name (.method { signature })

def addSignature (w : SymbolTable) (s : Signature) : SignatureId × SymbolTable :=
  (w.signatures.next, { w with signatures := w.signatures.push s })

def setInitial (w : SymbolTable) (s : SlotId) (v : Value) : SymbolTable :=
  w.modifySlot s (Slot.modifyVariable ({ · with initial := some v }))

def setSlotVisibility (w : SymbolTable) (s : SlotId) (visibility : Visibility) : SymbolTable :=
  w.modifySlot s ({ · with visibility })

def setTypeVisibility (w : SymbolTable) (t : TypeId) (visibility : Visibility) : SymbolTable :=
  w.modifyType t ({ · with visibility })

def setMethodFlags (w : SymbolTable) (s : SlotId) (flags : MethodFlags) : SymbolTable :=
  w.modifySlot s (Slot.modifyMethod ({ · with flags }))

/-- Makes a method, if one is given, point back to the property it serves. -/
def linkAccessor (w : SymbolTable) (property : SlotId) : Option SlotId → SymbolTable
  | some a => w.modifySlot a (Slot.modifyMethod ({ · with ofProperty := some property }))
  | none => w

/-- Gives a property its getter and setter, and links both back to it. -/
def setAccessors (w : SymbolTable) (property : SlotId) (getter setter : Option SlotId) :
    SymbolTable :=
  ((w.linkAccessor property getter).linkAccessor property setter).modifySlot property
    (Slot.modifyProperty ({ · with getter, setter }))

/-! ## Frames -/

def addFrame (w : SymbolTable) (kind : FrameKind) : FrameId × SymbolTable :=
  (w.frames.next, { w with frames := w.frames.push { kind } })

/-- Adds the frame of a block over a target of the given type. A hidden read-only slot of the frame
holds the target. -/
def addWithFrame (w : SymbolTable) (t : TypeId) : FrameId × SymbolTable :=
  let f := w.frames.next
  let hidden : Slot :=
    { name := "", detail := .variable { readOnly := true, type := some t },
      definedIn := some (.frame f) }
  let target := Value.reference (.frame f) w.slots.next t
  (f,
    { w with
      slots := w.slots.push hidden
      frames := w.frames.push { kind := .withBlock target } })

/-! ## Names -/

/-- The table of names of a declaration. -/
def bindings (w : SymbolTable) : Owner → Bindings
  | .module m => (w.module m).names
  | .type t => (w.type t).statics
  | .members d => (w.memberTable d).names
  | .frame f => (w.frame f).locals

def modifyBindings (w : SymbolTable) (o : Owner) (change : Bindings → Bindings) : SymbolTable :=
  match o with
  | .module m => w.modifyModule m fun x => { x with names := change x.names }
  | .type t => w.modifyType t fun x => { x with statics := change x.statics }
  | .members d => w.modifyMemberTable d fun x => { x with names := change x.names }
  | .frame f => w.modifyFrame f fun x => { x with locals := change x.locals }

/-- What a name stands for in the table of a declaration. -/
def bound? (w : SymbolTable) (o : Owner) (name : String) : Option Symbol :=
  (w.nameTable.lookup? name).bind (w.bindings o).get?

/-- The key of a name, which is given one if it has none. -/
def intern (w : SymbolTable) (name : String) : Key × SymbolTable :=
  let (k, nameTable) := w.nameTable.intern name
  (k, { w with nameTable })

/-- Binds a name, in place of what it stood for. -/
def bind (w : SymbolTable) (o : Owner) (name : String) (s : Symbol) : SymbolTable :=
  let (k, w) := w.intern name
  w.modifyBindings o (·.insert k s)

/-- Records where a symbol is defined; values and errors are defined nowhere. -/
def setDefinedIn (w : SymbolTable) (s : Symbol) (o : Owner) : SymbolTable :=
  match s with
  | .type t => w.modifyType t ({ · with definedIn := some o })
  | .module m => w.modifyModule m ({ · with definedIn := some o })
  | .slot s => w.modifySlot s ({ · with definedIn := some o })
  | .aliasDecl a => w.modifyAlias a ({ · with definedIn := some o })
  | .value _ | .error _ => w

/-- Defines a name that does not stand for anything else. Defining it again for the same symbol has
no effect. -/
def define (w : SymbolTable) (o : Owner) (name : String) (s : Symbol) :
    Except SymbolError Unit × SymbolTable :=
  let (k, w) := w.intern name
  match (w.bindings o).get? k with
  | some existing =>
    if existing.same s then (.ok (), w) else (.error (.duplicate name existing), w)
  | none => (.ok (), (w.setDefinedIn s o).modifyBindings o (·.insert k s))

end SymbolTable
end StaticSemantics
