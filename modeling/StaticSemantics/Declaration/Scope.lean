import StaticSemantics.Bindings

/-!
Modules, aliases and scope frames.
-/

namespace StaticSemantics

structure ModuleDecl where
  name : String
  definedIn : Option Owner := none
  names : Bindings := .empty

instance : Inhabited ModuleDecl := ⟨{ name := "" }⟩

/-- Another name for a symbol, which may itself be an alias. -/
structure AliasDecl where
  name : String
  target : Symbol
  visibility : Visibility := .everyone
  definedIn : Option Owner := none

instance : Inhabited AliasDecl := ⟨{ name := "", target := default }⟩

inductive FrameKind where
  | module (m : ModuleId)
  /-- The body of a type. -/
  | body (t : TypeId)
  /-- The body of a function: the object it runs on, and the slots of enclosing functions that it
  refers to, in the order of their ids. -/
  | activation (me : Option Value) (captured : List SlotId)
  /-- A block whose members are looked up in a target value. -/
  | withBlock (target : Value)

structure Frame where
  kind : FrameKind
  locals : Bindings := .empty
  imports : List ModuleId := []
  parent : Option FrameId := none

namespace Frame

instance : Inhabited Frame := ⟨{ kind := .module default }⟩

/-- The type or module that the frame is the body of. -/
def symbol? (f : Frame) : Option Symbol :=
  match f.kind with
  | .module m => some (.module m)
  | .body t => some (.type t)
  | _ => none

/-- The type that the frame is the body of. -/
def type? (f : Frame) : Option TypeId :=
  match f.kind with
  | .body t => some t
  | _ => none

/-- The frame is the body of the module. -/
def isModule (f : Frame) (m : ModuleId) : Bool :=
  match f.kind with
  | .module n => n = m
  | _ => false

def isActivation (f : Frame) : Bool := f.kind matches .activation ..

def me? (f : Frame) : Option Value :=
  match f.kind with
  | .activation me _ => me
  | _ => none

/-- The target of a `With` block. -/
def target? (f : Frame) : Option Value :=
  match f.kind with
  | .withBlock v => some v
  | _ => none

def captured (f : Frame) : List SlotId :=
  match f.kind with
  | .activation _ slots => slots
  | _ => []

/-- Adds a slot to a list that is ordered by id, unless it is there. -/
def insertSlot (s : SlotId) : List SlotId → List SlotId
  | [] => [s]
  | t :: rest =>
    if s = t then t :: rest
    else if s.index < t.index then s :: t :: rest
    else t :: insertSlot s rest

/-- Notes that an activation refers to a slot of an enclosing one. -/
def capture (s : SlotId) (f : Frame) : Frame :=
  match f.kind with
  | .activation me slots => { f with kind := .activation me (insertSlot s slots) }
  | _ => f

/-- Brings the names of a module into the frame, unless they are there already. -/
def importModule (m : ModuleId) (f : Frame) : Frame :=
  if f.isModule m || f.imports.contains m then f else { f with imports := f.imports ++ [m] }

end Frame
end StaticSemantics
