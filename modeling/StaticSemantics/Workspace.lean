import StaticSemantics.Access
import StaticSemantics.Problem

/-!
Workspaces: the declarations, the frames that have been entered and the answers given so far. All
that a resolution reads and changes is here, except for the record of problems.
-/

namespace StaticSemantics

structure Workspace where
  table : SymbolTable := {}
  /-- The frames that have been entered and not left, innermost first. -/
  entered : List FrameId := []
  /-- The symbols that nodes were resolved to, by what was wanted of them. -/
  answers : List ((Nat × Wanted) × Symbol) := []

namespace Workspace

variable [Memory]

/-! ## Frames -/

/-- The innermost frame that has been entered. -/
def current? (ws : Workspace) : Option FrameId := ws.entered.head?

/-- The innermost frame that has been entered; there must be one. -/
def current (ws : Workspace) : Except ScopeError FrameId :=
  match ws.current? with
  | some f => .ok f
  | none => .error .noFrame

/-- Enters a frame from the current one. -/
def enter (ws : Workspace) (f : FrameId) : Workspace :=
  let table :=
    match ws.current? with
    | some top => ws.table.attachFrame f top
    | none => ws.table
  { ws with table, entered := f :: ws.entered }

/-- Leaves the current frame. -/
def leave (ws : Workspace) : Workspace := { ws with entered := ws.entered.tail }

/-- What a name means in the current frame. -/
def resolveInScope? (ws : Workspace) (name : String) (wanted : Wanted) : Option Symbol :=
  ws.current?.bind fun f => ws.table.resolveInFrame? f name wanted

/-! ## Answers -/

def answer? (ws : Workspace) (node : Nat) (wanted : Wanted) : Option Symbol :=
  (ws.answers.find? (·.1 = (node, wanted))).map Prod.snd

/-- The node has been resolved for one purpose or another. -/
def isResolved (ws : Workspace) (node : Nat) : Bool :=
  (ws.answer? node .anything).isSome || (ws.answer? node .typeOrModule).isSome

def remember (ws : Workspace) (node : Nat) (wanted : Wanted) (s : Symbol) : Workspace :=
  { ws with answers := ((node, wanted), s) :: ws.answers }

/-! ## Names -/

/-- The problem that a failed look-up amounts to. -/
def errorProblem? (node : Node) : SymbolError → Option Problem
  | .ambiguous name _ => some ((Problem.atNode .ambiguousReference node).withVar "name" name)
  | .cyclicAlias name => some ((Problem.atNode .cyclicAlias node).withVar "name" name)
  | .duplicate name _ => some ((Problem.atNode .duplicateDefinition node).withVar "name" name)
  | _ => none

/-- A problem with a name, and with the type of the value it is looked up in, if there is one. -/
def nameProblem (ws : Workspace) (bare through : ProblemId) (e : Expr) (name : String)
    (type : Option TypeId) : Problem :=
  match type with
  | some t =>
    ((Problem.atNode through e.node).withVar "name" name).withVar "type" (ws.table.typeText t)
  | none => (Problem.atNode bare e.node).withVar "name" name

/-- Code in the current frame may use the symbol. -/
def mayUse (ws : Workspace) (s : Symbol) : Bool := ws.current?.all (ws.table.isAccessible s)

/-- Notes that the innermost function refers to a local of a function around it. -/
def noteCapture (ws : Workspace) (s : Symbol) : Workspace :=
  match s, ws.current?.bind ws.table.activationOf? with
  | .value (.reference (.frame owner) slot _), some inner =>
    if owner ≠ inner ∧ (ws.table.frame owner).isActivation then
      { ws with table := ws.table.capture inner slot }
    else ws
  | _, _ => ws

/-- What a name means in the current frame or else among the root modules. -/
def nameInScope? (ws : Workspace) (name : String) (wanted : Wanted) : Option Symbol :=
  ws.resolveInScope? name wanted <|> (ws.table.root? name).map .module

/-- The target of the innermost `With` block around the current frame. -/
def withTarget? (ws : Workspace) : Option Value := do
  let f ← ws.current?
  let g ← ws.table.withFrameOf? f
  (ws.table.frame g).target?

end Workspace
end StaticSemantics
