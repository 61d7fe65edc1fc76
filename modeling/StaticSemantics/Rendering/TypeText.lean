import StaticSemantics.SymbolTable

/-!
Types as they are written. A type defined directly in the module of global names goes by its own
name; any other is preceded by the modules and types that it is defined in.
-/

namespace StaticSemantics.SymbolTable

variable [Memory]

/-- A name after the text of what it is defined in. -/
def qualified (owner name : String) : String :=
  if owner.isEmpty then name else owner ++ "." ++ name

mutual

def typeTextAt (w : SymbolTable) : Nat → TypeId → String
  | 0, _ => ""
  | n + 1, t =>
    let decl := w.type t
    match decl.kind with
    | .any => "Any"
    | .empty => "Empty"
    | .nothing => "Nothing"
    | .null => "Null"
    | .nullable u => w.typeTextAt n u ++ "?"
    | .tuple elements => "(" ++ ", ".intercalate (elements.map fun e => w.typeTextAt n e) ++ ")"
    | .cls _ | .struct | .enum _ | .interface _ =>
      let name := decl.name.getD ""
      if decl.definedIn = some (.module .globalModule) then name
      else qualified (w.ownerTextAt n decl.definedIn) name

/-- The text before a name; member tables and frames contribute none. -/
def ownerTextAt (w : SymbolTable) : Nat → Option Owner → String
  | 0, _ => ""
  | n + 1, some (.module m) =>
    qualified (w.ownerTextAt n (w.module m).definedIn) (w.module m).name
  | n + 1, some (.type t) => w.typeTextAt n t
  | _ + 1, _ => ""

end

/-- The text of a type. Every declaration on the way is passed at most once, as long as none is
defined inside itself. -/
def typeText (w : SymbolTable) (t : TypeId) : String :=
  w.typeTextAt (2 * (w.types.size + w.modules.size) + 2) t

end StaticSemantics.SymbolTable
