import StaticSemantics.Declaration.Slot

/-!
The phases in which a program is resolved, and the context of a resolution.
-/

namespace StaticSemantics

/-- The passes over a program, in their order. Each is finished before the next begins. -/
inductive Phase where
  | declaration1
  | declaration2
  | declaration3
  | declaration4
  | interfaces
  | declaration5
  | interfaceOperators
  | omega
  deriving DecidableEq, Repr

namespace Phase

def all : List Phase :=
  [declaration1, declaration2, declaration3, declaration4, interfaces, declaration5,
    interfaceOperators, omega]

/-- The phase and those after it. -/
def onward (p : Phase) : List Phase := all.dropWhile (· ≠ p)

def next? (p : Phase) : Option Phase := p.onward[1]?

def text : Phase → String
  | declaration1 => "Declaration1"
  | declaration2 => "Declaration2"
  | declaration3 => "Declaration3"
  | declaration4 => "Declaration4"
  | interfaces => "Interfaces"
  | declaration5 => "Declaration5"
  | interfaceOperators => "InterfaceOperators"
  | omega => "Omega"

end Phase

structure Context where
  /-- The expression is assigned to. -/
  updateTarget : Bool := false
  /-- The expression is called. -/
  callBase : Bool := false
  phase : Option Phase := none
  /-- The type that the surroundings expect. -/
  expected : Option TypeId := none
  /-- Problems are recorded. -/
  report : Bool := true
  deriving DecidableEq

namespace Context

/-- The context of a part of the expression: in the same phase, and as silent. -/
def child (c : Context) : Context := { phase := c.phase, report := c.report }

def flagsText (c : Context) : String :=
  flagSetText ((if c.updateTarget then ["UPDATE_TARGET"] else []) ++
    if c.callBase then ["CALL_BASE_REFERENCE"] else [])

end Context
end StaticSemantics
