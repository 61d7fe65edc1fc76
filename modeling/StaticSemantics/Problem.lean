import StaticSemantics.Expr

/-!
Problems found in a program. The message of a problem is a template whose holes are filled from the
variables of the problem.
-/

namespace StaticSemantics

inductive Severity where
  | warning
  | syntaxError
  | verifyError
  | securityError
  deriving DecidableEq, Repr

namespace Severity

def text : Severity → String
  | warning => "warning"
  | syntaxError => "syntaxError"
  | verifyError => "verifyError"
  | securityError => "securityError"

/-- The severity at the head of a message. -/
def title : Severity → String
  | warning => "Warning"
  | syntaxError => "SyntaxError"
  | verifyError => "VerifyError"
  | securityError => "SecurityError"

def isError (s : Severity) : Bool := s ≠ warning

end Severity

inductive ProblemId where
  | cannotAccessPropertyOfNull
  | ambiguousReference
  | undefinedProperty
  | undefinedPropertyThroughReference
  | inaccessibleProperty
  | inaccessiblePropertyThroughReference
  | failedToResolveStaticType
  | cyclicAlias
  | notAConstant
  | incompatibleConstant
  | duplicateDefinition
  deriving DecidableEq, Repr

/-- A part of a template: text, or the name of the variable that stands there. -/
inductive Piece where
  | text (s : String)
  | hole (name : String)
  deriving DecidableEq, Repr

namespace ProblemId

/-- The code under which the problem is known. -/
def code : ProblemId → String
  | cannotAccessPropertyOfNull => "verifyErrors.cannotAccessPropertyOfNull"
  | ambiguousReference => "verifyErrors.ambiguousReference"
  | undefinedProperty => "verifyErrors.undefinedProperty"
  | undefinedPropertyThroughReference => "verifyErrors.undefinedPropertyThroughReference"
  | inaccessibleProperty => "verifyErrors.inaccessibleProperty"
  | inaccessiblePropertyThroughReference => "verifyErrors.inaccessiblePropertyThroughReference"
  | failedToResolveStaticType => "verifyErrors.failedToResolveStaticType"
  | cyclicAlias => "verifyErrors.cyclicAlias"
  | notAConstant => "verifyErrors.notAConstant"
  | incompatibleConstant => "verifyErrors.incompatibleConstant"
  | duplicateDefinition => "verifyErrors.duplicateDefinition"

def template : ProblemId → List Piece
  | cannotAccessPropertyOfNull => [.text "Cannot access property of null."]
  | ambiguousReference => [.text "Ambiguous reference to ", .hole "name", .text "."]
  | undefinedProperty => [.text "Access of undefined property ", .hole "name", .text "."]
  | undefinedPropertyThroughReference =>
    [.text "Access of undefined property ", .hole "name",
      .text " through reference with static type ", .hole "type", .text "."]
  | inaccessibleProperty =>
    [.text "Attempted access of inaccessible property ", .hole "name", .text "."]
  | inaccessiblePropertyThroughReference =>
    [.text "Attempted access of inaccessible property ", .hole "name",
      .text " through reference with static type ", .hole "type", .text "."]
  | failedToResolveStaticType =>
    [.text "Failed to resolve static type of ", .hole "name", .text "."]
  | cyclicAlias => [.text "Alias ", .hole "name", .text " refers to itself."]
  | notAConstant => [.text "Expression is not a compile-time constant."]
  | incompatibleConstant => [.text "Constant cannot be converted to ", .hole "type", .text "."]
  | duplicateDefinition => [.text "Duplicate definition of ", .hole "name", .text "."]

end ProblemId

structure Problem where
  id : ProblemId
  severity : Severity
  span : Span
  /-- Variables in the order of their names. -/
  vars : List (String × String) := []
  deriving DecidableEq

namespace Problem

def var? (p : Problem) (name : String) : Option String :=
  (p.vars.find? (·.1 = name)).map Prod.snd

/-- Sets a variable, in place of an earlier value. -/
def withVar (p : Problem) (name value : String) : Problem :=
  { p with vars := put p.vars }
where
  put : List (String × String) → List (String × String)
    | [] => [(name, value)]
    | e :: rest =>
      if e.1 = name then (name, value) :: rest
      else if name < e.1 then (name, value) :: e :: rest
      else e :: put rest

/-- The text of a piece. A hole without a variable shows its name. -/
def fill (p : Problem) : Piece → String
  | .text s => s
  | .hole name => (p.var? name).getD ("$" ++ name)

def message (p : Problem) : String := String.join (p.id.template.map p.fill)

/-- A problem that makes the program invalid. -/
def atNode (id : ProblemId) (node : Node) : Problem :=
  { id, severity := .verifyError, span := node.span }

end Problem
end StaticSemantics
