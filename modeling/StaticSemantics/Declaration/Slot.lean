import StaticSemantics.Symbol

/-!
Signatures, and the slots that hold variables, properties and methods.
-/

namespace StaticSemantics

/-- The names of the members of a set of flags, as they are listed. -/
def flagSetText (names : List String) : String :=
  "\x7b" ++ ", ".intercalate (names.map fun n => "\"" ++ n ++ "\"") ++ "\x7d"

structure MethodFlags where
  /-- Supplied from outside; in an interface, required of its implementors. -/
  native : Bool := false
  overriding : Bool := false
  notOverridable : Bool := false
  async : Bool := false
  generator : Bool := false
  deriving DecidableEq, Inhabited

namespace MethodFlags

def toList (s : MethodFlags) : List Bool :=
  [s.native, s.overriding, s.notOverridable, s.async, s.generator]

def union (s t : MethodFlags) : MethodFlags where
  native := s.native || t.native
  overriding := s.overriding || t.overriding
  notOverridable := s.notOverridable || t.notOverridable
  async := s.async || t.async
  generator := s.generator || t.generator

def without (s t : MethodFlags) : MethodFlags where
  native := s.native && !t.native
  overriding := s.overriding && !t.overriding
  notOverridable := s.notOverridable && !t.notOverridable
  async := s.async && !t.async
  generator := s.generator && !t.generator

/-- Every flag of `t` is set in `s`. -/
def includes (s t : MethodFlags) : Bool := s.union t = s

/-- The flags as a number, the first one weighing 1. -/
def bits (s : MethodFlags) : Nat := s.toList.foldr (fun b n => b.toNat + 2 * n) 0

def text (s : MethodFlags) : String :=
  let names := ["NATIVE", "OVERRIDE", "NOT_OVERRIDABLE", "ASYNC", "GENERATOR"]
  flagSetText ((s.toList.zip names).filterMap fun (isSet, name) =>
    if isSet then some name else none)

end MethodFlags

structure Param where
  name : String
  type : TypeId
  deriving DecidableEq

structure OptParam where
  name : String
  type : TypeId
  default : Option Value
  deriving DecidableEq

structure Signature where
  params : List Param := []
  optParams : List OptParam := []
  /-- The label of the parameter that takes all further arguments. -/
  rest : Option String := none
  returns : TypeId
  deriving DecidableEq, Inhabited

namespace Signature

def paramTypes (s : Signature) : List TypeId := s.params.map Param.type

def optParamTypes (s : Signature) : List TypeId := s.optParams.map OptParam.type

/-- The same types in the same places; labels and defaults do not matter. -/
def sameShape (s t : Signature) : Bool :=
  s.returns = t.returns && s.rest.isSome = t.rest.isSome && s.paramTypes = t.paramTypes &&
    s.optParamTypes = t.optParamTypes

/-- The least number of arguments. -/
def minArity (s : Signature) : Nat := s.params.length

/-- The greatest number of arguments, if there is one. -/
def maxArity (s : Signature) : Option Nat :=
  if s.rest.isSome then none else some (s.minArity + s.optParams.length)

/-- A call may pass `n` arguments. -/
def accepts (s : Signature) (n : Nat) : Bool := s.minArity ≤ n && s.maxArity.all (n ≤ ·)

end Signature

structure MethodInfo where
  signature : SignatureId
  flags : MethodFlags := {}
  /-- The property that the method reads or writes. -/
  ofProperty : Option SlotId := none
  /-- The methods that override this one, by the type that they belong to. -/
  overriders : List (TypeId × SlotId) := []
  deriving DecidableEq

namespace MethodInfo

def overriderIn? (m : MethodInfo) (t : TypeId) : Option SlotId :=
  (m.overriders.find? (·.1 = t)).map Prod.snd

/-- Records the overriding method of a type, in place of an earlier one. -/
def setOverrider (m : MethodInfo) (t : TypeId) (method : SlotId) : MethodInfo :=
  { m with overriders := put m.overriders }
where
  put : List (TypeId × SlotId) → List (TypeId × SlotId)
    | [] => [(t, method)]
    | e :: rest => if e.1 = t then (t, method) :: rest else e :: put rest

section

variable (m : MethodInfo) (t : TypeId) (method : SlotId)

theorem overriderIn?_setOverrider (u : TypeId) :
    (m.setOverrider t method).overriderIn? u =
      if u = t then some method else m.overriderIn? u := by
  have put : ∀ l : List (TypeId × SlotId),
      ((setOverrider.put t method l).find? (·.1 = u)).map Prod.snd =
        if u = t then some method else (l.find? (·.1 = u)).map Prod.snd := by
    intro l
    induction l with
    | nil => by_cases hu : u = t <;> simp [setOverrider.put, hu, eq_comm]
    | cons e l ih =>
        by_cases he : e.1 = t
        · by_cases hu : u = t <;> simp [setOverrider.put, he, hu, eq_comm]
        · by_cases hu : e.1 = u
          · simp [setOverrider.put, hu, hu ▸ he]
          · simpa [setOverrider.put, he, hu] using ih
  exact put m.overriders

/-- The overriders of other types stay. -/
theorem filter_setOverrider :
    (m.setOverrider t method).overriders.filter (·.1 ≠ t) = m.overriders.filter (·.1 ≠ t) := by
  have put : ∀ l : List (TypeId × SlotId),
      (setOverrider.put t method l).filter (·.1 ≠ t) = l.filter (·.1 ≠ t) := by
    intro l
    induction l with
    | nil => simp [setOverrider.put]
    | cons e l ih => by_cases he : e.1 = t <;> simp_all [setOverrider.put]
  exact put m.overriders

theorem setOverrider_setOverrider :
    (m.setOverrider t method).setOverrider t method = m.setOverrider t method := by
  have put : ∀ l : List (TypeId × SlotId),
      setOverrider.put t method (setOverrider.put t method l) = setOverrider.put t method l := by
    intro l
    induction l with
    | nil => simp [setOverrider.put]
    | cons e l ih => by_cases he : e.1 = t <;> simp [setOverrider.put, he, ih]
  simp [setOverrider, put]

end

end MethodInfo

structure PropertyInfo where
  type : Option TypeId := none
  getter : Option SlotId := none
  setter : Option SlotId := none
  deriving DecidableEq

structure VariableInfo where
  readOnly : Bool := false
  type : Option TypeId := none
  initial : Option Value := none
  deriving DecidableEq

inductive SlotDetail where
  | variable (info : VariableInfo)
  | property (info : PropertyInfo)
  | method (info : MethodInfo)
  deriving DecidableEq

structure Slot where
  name : String
  detail : SlotDetail
  visibility : Visibility := .everyone
  definedIn : Option Owner := none
  deriving DecidableEq

namespace Slot

instance : Inhabited Slot := ⟨{ name := "", detail := .variable {} }⟩

def variableInfo? (s : Slot) : Option VariableInfo :=
  match s.detail with
  | .variable info => some info
  | _ => none

def propertyInfo? (s : Slot) : Option PropertyInfo :=
  match s.detail with
  | .property info => some info
  | _ => none

def methodInfo? (s : Slot) : Option MethodInfo :=
  match s.detail with
  | .method info => some info
  | _ => none

/-- The declared type of what the slot holds. -/
def type? (s : Slot) : Option TypeId :=
  match s.detail with
  | .variable info => info.type
  | .property info => info.type
  | .method _ => none

def readOnly (s : Slot) : Bool :=
  match s.detail with
  | .variable info => info.readOnly
  | .property info => info.setter.isNone
  | .method _ => true

def writeOnly (s : Slot) : Bool :=
  match s.detail with
  | .property info => info.getter.isNone
  | _ => false

def modifyVariable (change : VariableInfo → VariableInfo) (s : Slot) : Slot :=
  match s.detail with
  | .variable info => { s with detail := .variable (change info) }
  | _ => s

def modifyProperty (change : PropertyInfo → PropertyInfo) (s : Slot) : Slot :=
  match s.detail with
  | .property info => { s with detail := .property (change info) }
  | _ => s

def modifyMethod (change : MethodInfo → MethodInfo) (s : Slot) : Slot :=
  match s.detail with
  | .method info => { s with detail := .method (change info) }
  | _ => s

variable {s : Slot}

theorem variableInfo?_eq_some {info : VariableInfo} :
    s.variableInfo? = some info ↔ s.detail = .variable info := by
  cases h : s.detail <;> simp [variableInfo?, h]

theorem propertyInfo?_eq_some {info : PropertyInfo} :
    s.propertyInfo? = some info ↔ s.detail = .property info := by
  cases h : s.detail <;> simp [propertyInfo?, h]

theorem methodInfo?_eq_some {info : MethodInfo} :
    s.methodInfo? = some info ↔ s.detail = .method info := by
  cases h : s.detail <;> simp [methodInfo?, h]

@[simp] theorem name_modifyMethod (change : MethodInfo → MethodInfo) :
    (s.modifyMethod change).name = s.name := by
  cases h : s.detail <;> simp [modifyMethod, h]

@[simp] theorem visibility_modifyMethod (change : MethodInfo → MethodInfo) :
    (s.modifyMethod change).visibility = s.visibility := by
  cases h : s.detail <;> simp [modifyMethod, h]

@[simp] theorem propertyInfo?_modifyMethod (change : MethodInfo → MethodInfo) :
    (s.modifyMethod change).propertyInfo? = s.propertyInfo? := by
  cases h : s.detail <;> simp [modifyMethod, propertyInfo?, h]

@[simp] theorem methodInfo?_modifyMethod (change : MethodInfo → MethodInfo) :
    (s.modifyMethod change).methodInfo? = s.methodInfo?.map change := by
  cases h : s.detail <;> simp [modifyMethod, methodInfo?, h]

theorem modifyMethod_modifyMethod (change change' : MethodInfo → MethodInfo) :
    (s.modifyMethod change).modifyMethod change' = s.modifyMethod (change' ∘ change) := by
  cases h : s.detail <;> simp [modifyMethod, h]

theorem modifyMethod_id (s : Slot) : s.modifyMethod id = s := by
  obtain ⟨name, detail, visibility, definedIn⟩ := s
  cases detail <;> rfl

end Slot
end StaticSemantics
