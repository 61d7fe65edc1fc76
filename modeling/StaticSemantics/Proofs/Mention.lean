import StaticSemantics.SymbolTable

/-!
The ids that declarations, values and symbols mention, and tables that cover them. A table covers a
list of ids if it has given out every one of them. Tables only grow, so that what is covered once
stays covered; what the operations store and return is a matter of the closure theorems.
-/

namespace StaticSemantics

/-- An id of any kind of entity. -/
abbrev AnyId := (e : Entity) × EntityId e

def EntityId.tagged {e : Entity} (i : EntityId e) : AnyId := ⟨e, i⟩

/-! ## Mentioned ids -/

def Owner.ids : Owner → List AnyId
  | .module m => [m.tagged]
  | .type t => [t.tagged]
  | .members d => [d.tagged]
  | .frame f => [f.tagged]

def Value.ids : Value → List AnyId
  | .plain t | .constant _ t | .instanceMe t => [t.tagged]
  | .staticMe cls t => [cls.tagged, t.tagged]
  | .reference o s t => o.ids ++ [s.tagged, t.tagged]
  | .memberReference v s t => v.ids ++ [s.tagged, t.tagged]
  | .dynamicReference v t | .indexReference v t | .tupleElement v _ t
  | .conversion v _ _ _ t => v.ids ++ [t.tagged]
  | .functionExp s t => [s.tagged, t.tagged]

mutual

def Symbol.ids : Symbol → List AnyId
  | .type t => [t.tagged]
  | .module m => [m.tagged]
  | .slot s => [s.tagged]
  | .aliasDecl a => [a.tagged]
  | .value v => v.ids
  | .error e => e.ids

def SymbolError.ids : SymbolError → List AnyId
  | .ambiguous _ modules => modules.map EntityId.tagged
  | .duplicate _ existing => existing.ids
  | .incompatibleOverride g => [g.tagged]
  | .wrongArgumentCount _ | .nothingToOverride | .notOverridable | .overridesHidden
  | .overridesVisibility | .cyclicAlias _ => []

end

def Bindings.ids (b : Bindings) : List AnyId := b.entries.flatMap fun e => e.2.ids

def TypeKind.ids : TypeKind → List AnyId
  | .cls info => (info.implements ++ info.subclasses).map EntityId.tagged
  | .enum info => (info.helpers.toList.filterMap id).map EntityId.tagged
  | .interface info => (info.supers ++ info.subs ++ info.implementors).map EntityId.tagged
  | .nullable t => [t.tagged]
  | .tuple elements => elements.map EntityId.tagged
  | .any | .empty | .nothing | .null | .struct => []

def TypeDecl.ids (t : TypeDecl) : List AnyId :=
  t.kind.ids ++ t.definedIn.toList.flatMap Owner.ids ++ t.statics.ids ++
    t.superType.toList.map EntityId.tagged ++ t.members.toList.map EntityId.tagged

def MemberTable.ids (m : MemberTable) : List AnyId :=
  m.definedIn.tagged :: m.names.ids ++ m.inherits.toList.map EntityId.tagged ++
    m.operators.map fun e => e.2.tagged

def ModuleDecl.ids (m : ModuleDecl) : List AnyId :=
  m.definedIn.toList.flatMap Owner.ids ++ m.names.ids

def AliasDecl.ids (a : AliasDecl) : List AnyId :=
  a.target.ids ++ a.definedIn.toList.flatMap Owner.ids

def Signature.ids (s : Signature) : List AnyId :=
  s.returns.tagged :: s.paramTypes.map EntityId.tagged ++ s.optParamTypes.map EntityId.tagged ++
    s.optParams.flatMap fun p => p.default.toList.flatMap Value.ids

def SlotDetail.ids : SlotDetail → List AnyId
  | .variable info =>
    info.type.toList.map EntityId.tagged ++ info.initial.toList.flatMap Value.ids
  | .property info =>
    info.type.toList.map EntityId.tagged ++ info.getter.toList.map EntityId.tagged ++
      info.setter.toList.map EntityId.tagged
  | .method info =>
    info.signature.tagged :: info.ofProperty.toList.map EntityId.tagged ++
      info.overriders.flatMap fun e => [e.1.tagged, e.2.tagged]

def Slot.ids (s : Slot) : List AnyId := s.detail.ids ++ s.definedIn.toList.flatMap Owner.ids

def FrameKind.ids : FrameKind → List AnyId
  | .module m => [m.tagged]
  | .body t => [t.tagged]
  | .activation me captured => me.toList.flatMap Value.ids ++ captured.map EntityId.tagged
  | .withBlock v => v.ids

def Frame.ids (f : Frame) : List AnyId :=
  f.kind.ids ++ f.locals.ids ++ f.imports.map EntityId.tagged ++
    f.parent.toList.map EntityId.tagged

/-! ## Cover -/

namespace SymbolTable

/-- The number of entities of a kind. -/
def count (w : SymbolTable) : Entity → Nat
  | .type => w.types.size
  | .memberTable => w.memberTables.size
  | .module => w.modules.size
  | .slot => w.slots.size
  | .signature => w.signatures.size
  | .frame => w.frames.size
  | .aliasDecl => w.aliases.size

/-- The id has been given out. -/
def Has (w : SymbolTable) (i : AnyId) : Prop := i.2.index < w.count i.1

instance (w : SymbolTable) (i : AnyId) : Decidable (w.Has i) :=
  inferInstanceAs (Decidable (i.2.index < w.count i.1))

/-- Every id of the list has been given out. -/
def Covers (w : SymbolTable) (l : List AnyId) : Prop := ∀ i ∈ l, w.Has i

instance (w : SymbolTable) (l : List AnyId) : Decidable (w.Covers l) :=
  inferInstanceAs (Decidable (∀ i ∈ l, w.Has i))

/-- Every id that the first table has given out, the second has too. -/
def Within (w w' : SymbolTable) : Prop := ∀ e, w.count e ≤ w'.count e

theorem Within.refl (w : SymbolTable) : w.Within w := fun _ => Nat.le_refl _

theorem Within.trans {w w' w'' : SymbolTable} (h : w.Within w') (h' : w'.Within w'') :
    w.Within w'' :=
  fun e => Nat.le_trans (h e) (h' e)

theorem Within.of_count_eq {w w' : SymbolTable} (h : w'.count = w.count) : w.Within w' :=
  fun e => Nat.le_of_eq (by rw [h])

theorem Has.mono {w w' : SymbolTable} {i : AnyId} (h : w.Has i) (hw : w.Within w') : w'.Has i :=
  Nat.lt_of_lt_of_le h (hw i.1)

theorem Covers.mono {w w' : SymbolTable} {l : List AnyId} (h : w.Covers l) (hw : w.Within w') :
    w'.Covers l :=
  fun i hi => (h i hi).mono hw

@[simp] theorem covers_nil (w : SymbolTable) : w.Covers [] := by simp [Covers]

@[simp] theorem covers_cons {w : SymbolTable} {i : AnyId} {l : List AnyId} :
    w.Covers (i :: l) ↔ w.Has i ∧ w.Covers l := by
  simp [Covers]

@[simp] theorem covers_append {w : SymbolTable} {l l' : List AnyId} :
    w.Covers (l ++ l') ↔ w.Covers l ∧ w.Covers l' := by
  simp only [Covers, List.mem_append]
  exact ⟨fun h => ⟨fun i hi => h i (.inl hi), fun i hi => h i (.inr hi)⟩,
    fun h i hi => hi.elim (h.1 i) (h.2 i)⟩

@[simp] theorem covers_map {α : Type} {w : SymbolTable} {f : α → AnyId} {l : List α} :
    w.Covers (l.map f) ↔ ∀ x ∈ l, w.Has (f x) := by
  simp [Covers]

@[simp] theorem covers_flatMap {α : Type} {w : SymbolTable} {f : α → List AnyId} {l : List α} :
    w.Covers (l.flatMap f) ↔ ∀ x ∈ l, w.Covers (f x) := by
  simp only [Covers, List.mem_flatMap]
  exact ⟨fun h x hx i hi => h i ⟨x, hx, hi⟩, fun h i ⟨x, hx, hi⟩ => h x hx i hi⟩

@[simp] theorem has_type {w : SymbolTable} {t : TypeId} : w.Has t.tagged ↔ w.types.Has t := .rfl

@[simp] theorem has_memberTable {w : SymbolTable} {d : MemberTableId} :
    w.Has d.tagged ↔ w.memberTables.Has d := .rfl

@[simp] theorem has_module {w : SymbolTable} {m : ModuleId} :
    w.Has m.tagged ↔ w.modules.Has m := .rfl

@[simp] theorem has_slot {w : SymbolTable} {s : SlotId} : w.Has s.tagged ↔ w.slots.Has s := .rfl

@[simp] theorem has_signature {w : SymbolTable} {g : SignatureId} :
    w.Has g.tagged ↔ w.signatures.Has g := .rfl

@[simp] theorem has_frame {w : SymbolTable} {f : FrameId} :
    w.Has f.tagged ↔ w.frames.Has f := .rfl

@[simp] theorem has_aliasDecl {w : SymbolTable} {a : AliasId} :
    w.Has a.tagged ↔ w.aliases.Has a := .rfl

end SymbolTable
end StaticSemantics
