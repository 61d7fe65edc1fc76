import StaticSemantics.Value

/-!
Symbols: what a name can stand for, failures included. A failed look-up is itself a symbol, so that
it can be kept and handed on.
-/

namespace StaticSemantics

/-- Who may use a member. -/
inductive Visibility where
  | everyone
  /-- Only the declaration that owns the member. -/
  | ownerOnly
  /-- The owner and the classes derived from it. -/
  | derived
  /-- The module that encloses the owner. -/
  | friend
  deriving DecidableEq, Repr, Inhabited

def Visibility.text : Visibility → String
  | everyone => "Public"
  | ownerOnly => "Private"
  | derived => "Protected"
  | friend => "Friend"

mutual

inductive Symbol where
  | type (t : TypeId)
  | module (m : ModuleId)
  | slot (s : SlotId)
  | aliasDecl (a : AliasId)
  | value (v : Value)
  | error (e : SymbolError)
  deriving DecidableEq

/-- Causes of failure that concern a symbol. -/
inductive SymbolError where
  /-- Different targets are in scope under the name; the modules are those that brought one in. -/
  | ambiguous (name : String) (modules : List ModuleId)
  | duplicate (name : String) (existing : Symbol)
  | wrongArgumentCount (expected : Nat)
  | incompatibleOverride (expected : SignatureId)
  | nothingToOverride
  | notOverridable
  | overridesHidden
  | overridesVisibility
  | cyclicAlias (name : String)
  deriving DecidableEq

end

def SymbolError.message : SymbolError → String
  | ambiguous name _ => s!"ambiguous reference to {name}"
  | duplicate name _ => s!"duplicate definition of {name}"
  | wrongArgumentCount expected => s!"wrong number of arguments: expected {expected}"
  | incompatibleOverride _ => "override signature is incompatible with the overridden method"
  | nothingToOverride => "no inherited method to override"
  | notOverridable => "inherited method is not overridable"
  | overridesHidden => "cannot override a private method"
  | overridesVisibility => "override must keep the visibility of the overridden method"
  | cyclicAlias name => s!"alias {name} refers to itself"

mutual

/-- Equality of symbols, numerical on floating-point constants. -/
def Symbol.same : Symbol → Symbol → Bool
  | .value v, .value w => v.same w
  | .error e, .error e' => e.same e'
  | s, s' => decide (s = s')

def SymbolError.same : SymbolError → SymbolError → Bool
  | .duplicate name s, .duplicate name' s' => decide (name = name') && s.same s'
  | e, e' => decide (e = e')

end

namespace Symbol

instance : Inhabited Symbol := ⟨.type default⟩

def type? : Symbol → Option TypeId
  | type t => some t
  | _ => none

def module? : Symbol → Option ModuleId
  | module m => some m
  | _ => none

def slot? : Symbol → Option SlotId
  | slot s => some s
  | _ => none

def value? : Symbol → Option Value
  | value v => some v
  | _ => none

def isTypeOrModule : Symbol → Bool
  | type _ | module _ => true
  | _ => false

def isError : Symbol → Bool
  | error _ => true
  | _ => false

end Symbol
end StaticSemantics
