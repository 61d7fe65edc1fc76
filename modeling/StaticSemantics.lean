import StaticSemantics.Access
import StaticSemantics.Arena
import StaticSemantics.Bindings
import StaticSemantics.Conformance
import StaticSemantics.Constant
import StaticSemantics.ConstantExpr
import StaticSemantics.Context
import StaticSemantics.Conversion
import StaticSemantics.Declaration.Scope
import StaticSemantics.Declaration.Slot
import StaticSemantics.Declaration.Type
import StaticSemantics.Enumeration
import StaticSemantics.Expr
import StaticSemantics.Folding
import StaticSemantics.Hierarchy
import StaticSemantics.Id
import StaticSemantics.Lookup
import StaticSemantics.NameTable
import StaticSemantics.Numeric.Binary
import StaticSemantics.Numeric.Shortest
import StaticSemantics.Operator
import StaticSemantics.Overriding
import StaticSemantics.Problem
import StaticSemantics.Reference
import StaticSemantics.Rendering.SignatureText
import StaticSemantics.Rendering.TypeText
import StaticSemantics.Report
import StaticSemantics.Resolution
import StaticSemantics.Schedule
import StaticSemantics.Scope
import StaticSemantics.Session
import StaticSemantics.Symbol
import StaticSemantics.SymbolTable
import StaticSemantics.SymbolTable.Initial
import StaticSemantics.Text.CaseData
import StaticSemantics.Text.LowerCase
import StaticSemantics.Value
import StaticSemantics.Workspace
import StaticSemantics.Proofs.Access
import StaticSemantics.Proofs.Alias
import StaticSemantics.Proofs.Chain
import StaticSemantics.Proofs.Change
import StaticSemantics.Proofs.Closure.Answers
import StaticSemantics.Proofs.Closure.Basic
import StaticSemantics.Proofs.Closure.Edits
import StaticSemantics.Proofs.Closure.Lookup
import StaticSemantics.Proofs.Closure.Range
import StaticSemantics.Proofs.Closure.Session
import StaticSemantics.Proofs.Closure.Values
import StaticSemantics.Proofs.Conformance
import StaticSemantics.Proofs.Constant.Typing
import StaticSemantics.Proofs.Conversion.Tiers
import StaticSemantics.Proofs.Found
import StaticSemantics.Proofs.Hierarchy.Acyclic
import StaticSemantics.Proofs.Hierarchy.BackLinks
import StaticSemantics.Proofs.Hierarchy.Edits
import StaticSemantics.Proofs.Hierarchy.Links
import StaticSemantics.Proofs.Hierarchy.Order
import StaticSemantics.Proofs.Hierarchy.Reach
import StaticSemantics.Proofs.Hierarchy.Subtyping
import StaticSemantics.Proofs.InRange.Edits
import StaticSemantics.Proofs.InRange.Hierarchy
import StaticSemantics.Proofs.InRange.Initial
import StaticSemantics.Proofs.InRange.Lookup
import StaticSemantics.Proofs.InRange.Members
import StaticSemantics.Proofs.InRange.Session
import StaticSemantics.Proofs.InRange.Values
import StaticSemantics.Proofs.Initial
import StaticSemantics.Proofs.Interning
import StaticSemantics.Proofs.Members.Flattening
import StaticSemantics.Proofs.Members.Inheritance
import StaticSemantics.Proofs.Members.Ownership
import StaticSemantics.Proofs.Mention
import StaticSemantics.Proofs.Naming
import StaticSemantics.Proofs.NullSafety
import StaticSemantics.Proofs.Operation
import StaticSemantics.Proofs.Reporting.Recording
import StaticSemantics.Proofs.Reporting.Rerun
import StaticSemantics.Proofs.Reporting.SilentPass
import StaticSemantics.Proofs.Resolution.Captures
import StaticSemantics.Proofs.Resolution.Evolution
import StaticSemantics.Proofs.Resolution.Outcome
import StaticSemantics.Proofs.Resolution.Replay
import StaticSemantics.Proofs.Scope.Bounds
import StaticSemantics.Proofs.Scope.Forest
import StaticSemantics.Proofs.Search
import StaticSemantics.Proofs.View
import StaticSemantics.Proofs.Conversion.Casts
import StaticSemantics.Proofs.Overriding.Methods
import StaticSemantics.Proofs.Overriding.Signatures
import StaticSemantics.Proofs.Constant.Diagnosis
import StaticSemantics.Proofs.Scope.Hits
import StaticSemantics.Proofs.Scope.Target
import StaticSemantics.Proofs.Scope.Ambiguity
import StaticSemantics.Proofs.Scope.Modes
import StaticSemantics.Proofs.Numeric.Reading
import StaticSemantics.Proofs.Numeric.Exact
import StaticSemantics.Proofs.Numeric.TwosComplement
import StaticSemantics.Proofs.Constant.Whole
import StaticSemantics.Proofs.Constant.Arithmetic
import StaticSemantics.Proofs.Constant.Quotient
import StaticSemantics.Proofs.Constant.Words
import StaticSemantics.Proofs.Constant.Coercion
import StaticSemantics.Proofs.Constant.Characters
import StaticSemantics.Proofs.Conversion.Constants
import StaticSemantics.Proofs.Members.Names
import StaticSemantics.Proofs.Members.Merging
import StaticSemantics.Proofs.Members.EnumMethods
import StaticSemantics.Proofs.Overriding.Accessors
import StaticSemantics.Proofs.Scope.Locals
import StaticSemantics.Proofs.Resolution.Effect
import StaticSemantics.Proofs.Members.Indexing
import StaticSemantics.Proofs.Members.Definitions
import StaticSemantics.Proofs.Rendering.Literals
import StaticSemantics.Proofs.Schedule
