import StaticSemantics.Context
import StaticSemantics.SymbolTable.Initial
import StaticSemantics.Workspace

/-!
Sessions: a workspace together with the problems recorded in it. A problem is recorded at most once
for each node, and not at all under a silent context.
-/

namespace StaticSemantics

structure Session where
  workspace : Workspace := { table := .initial .counting }
  problems : List Problem := []
  /-- The nodes for which a problem has been recorded. -/
  reported : List Nat := []
  /-- Resolutions record problems unless their context says otherwise. -/
  reporting : Bool := true
  /-- The session tells of every resolution. -/
  verbose : Bool := false

namespace Session

variable [Memory]

def table (s : Session) : SymbolTable := s.workspace.table

def withTable (s : Session) (table : SymbolTable) : Session :=
  { s with workspace := { s.workspace with table } }

/-- The context in which a resolution starts. -/
def context (s : Session) : Context := { report := s.reporting }

def enter (s : Session) (f : FrameId) : Session := { s with workspace := s.workspace.enter f }

def leave (s : Session) : Session := { s with workspace := s.workspace.leave }

/-! ## Problems -/

/-- Records a problem at a node, unless the context is silent or the node has a problem already. -/
def report (s : Session) (ctx : Context) (e : Expr) (p : Problem) : Session :=
  if !ctx.report || s.reported.contains e.node.id then s
  else { s with problems := s.problems ++ [p], reported := e.node.id :: s.reported }

/-- Empties the list of problems. Their nodes stay reported. -/
def takeProblems (s : Session) : List Problem × Session := (s.problems, { s with problems := [] })

end Session
end StaticSemantics
