import StaticSemantics.Reference

/-!
Conversions of a value to a type. Implicit conversions are tried in a fixed order, explicit ones add
casts toward derived types and to text, and constants may be turned into constants of the new type.
A value that has the type already is left as it is.
-/

namespace StaticSemantics

/-- Uses a value at another type. -/
def Value.convertedBy (v : Value) (r : Relationship) (dest : TypeId) : Value :=
  .conversion v r false false dest

namespace SymbolTable

variable [Memory]

/-! ## Constants -/

/-- A constant that stands for no value, at a type that has such values. -/
def adaptNullish? (w : SymbolTable) (c : Constant) (dest : TypeId) : Option Constant :=
  let bare := w.withoutNull dest
  if w.acceptsNull dest || dest = .any || bare = .empty || bare = .nothing then some c else none

/-- A constant at a type that is not numeric, or a constant that is not numeric at any type. -/
def adaptConstant? (w : SymbolTable) (c : Constant) (source dest : TypeId) : Option Constant :=
  let bare := w.withoutNull dest
  let loose : Bool := dest = .any || bare = .object
  match c with
  | .byte _ | .integer _ | .long _ | .single _ | .double _ | .decimal _ =>
    if loose then some c else none
  | .char x => if bare = .string then some (.string x.toString) else if loose then some c else none
  | .string s =>
    if bare = .char then s.toList.head?.map .char
    else if loose || bare = w.withoutNull source then some c else none
  | .boolean _ | .enum _ => if loose || bare = w.withoutNull source then some c else none
  | .empty =>
    if (w.type bare).isFlagsEnum && !w.acceptsNull dest then some (.enum (.zero false))
    else w.adaptNullish? c dest
  | .nothing | .null => w.adaptNullish? c dest

/-- A constant as a constant of another type. -/
def convertConstant? (w : SymbolTable) (v : Value) (dest : TypeId) : Option Value :=
  if v.type = dest then some v
  else do
    let c ← v.constant?
    let c' ←
      match c.kind?, NumericKind.ofType? (w.withoutNull dest) with
      | some _, some k => c.coerce? k
      | _, _ => w.adaptConstant? c v.type dest
    some (.constant c' dest)

/-! ## Implicit conversions -/

/-- The conversions that are tried before null is considered. -/
def widen? (w : SymbolTable) (v : Value) (dest : TypeId) : Option Value :=
  let source := w.type v.type
  let target := w.type dest
  if dest = .any then some (v.convertedBy .toAny dest)
  else if (NumericKind.ofType? v.type).isSome && (NumericKind.ofType? dest).isSome then
    some (v.convertedBy .numeric dest)
  else if source.isClass && !target.isInterface && w.isSubtype v.type dest then
    some (v.convertedBy .toSuperClass dest)
  else if (source.kind matches .empty) && (w.type (w.withoutNull dest)).isFlagsEnum then
    some (.ofEnum (.zero false) dest)
  else if target.isInterface && w.isSubtype v.type dest then
    some (v.convertedBy
      (if source.isInterface then .toSuperInterface else .toImplementedInterface) dest)
  else none

/-- Converts into a nullable type by way of the type it wraps, and out of one if the wrapped type
can be converted. -/
def throughNull? (w : SymbolTable) (convert : Value → TypeId → Option Value) (v : Value)
    (dest : TypeId) : Option Value :=
  match (w.type dest).wraps?, (w.type v.type).wraps? with
  | some inner, _ => (convert v inner).map (·.convertedBy .toNullable dest)
  | none, some inner =>
    if !w.acceptsNull dest && (convert (.plain inner) dest).isSome then
      some (v.convertedBy .fromNullable dest)
    else none
  | none, none => none

/-- The conversions that are tried last. -/
def settleFor? (w : SymbolTable) (v : Value) (dest : TypeId) : Option Value :=
  if (w.type v.type).isAny then some (v.convertedBy .fromAny dest)
  else if v.type = .char && dest = .string then some (v.convertedBy .toString dest)
  else w.convertConstant? v dest

/-- Implicit conversion that looks through at most `n` layers of null, less one. -/
def convertImplicitAt? (w : SymbolTable) : Nat → Value → TypeId → Option Value
  | 0, _, _ => none
  | n + 1, v, dest =>
    if v.type = dest then some v
    else w.widen? v dest <|> w.throughNull? (w.convertImplicitAt? n) v dest <|> w.settleFor? v dest

/-- Implicit conversion. A nullable type never wraps another, so that there is at most one layer of
null on either side. -/
def convertImplicit? (w : SymbolTable) (v : Value) (dest : TypeId) : Option Value :=
  w.convertImplicitAt? 3 v dest

/-! ## Explicit conversions -/

/-- Casts down the hierarchy. -/
def narrow? (w : SymbolTable) (v : Value) (dest : TypeId) : Option Value :=
  let source := w.type v.type
  let target := w.type dest
  if source.isClass && target.isClass && w.isSubtype dest v.type then
    some (v.convertedBy .toSubclass dest)
  else if source.isInterface && target.isClass && w.isSubtype dest v.type then
    some (v.convertedBy .toImplementor dest)
  else if source.isInterface && target.isInterface && w.isSubtype dest v.type then
    some (v.convertedBy .toSubInterface dest)
  else none

/-- Explicit conversion that looks through at most `n` layers of null, less one. -/
def convertExplicitAt? (w : SymbolTable) : Nat → Value → TypeId → Option Value
  | 0, _, _ => none
  | n + 1, v, dest =>
    if v.type = dest then some v
    else
      w.convertImplicit? v dest <|> w.narrow? v dest <|>
        w.throughNull? (w.convertExplicitAt? n) v dest <|>
        if dest = .string then some (v.convertedBy .toString dest) else none

def convertExplicit? (w : SymbolTable) (v : Value) (dest : TypeId) : Option Value :=
  w.convertExplicitAt? 3 v dest

/-- Marks a converted value as the result of a cast. -/
def markCast : Value → Value
  | .conversion v r _ byTryCast t => .conversion v r true byTryCast t
  | v => v

/-- Marks a converted value as the result of a cast that gives null when it fails. -/
def markTryCast : Value → Value
  | .conversion v r byCast _ t => .conversion v r byCast true t
  | v => v

def convertByCast? (w : SymbolTable) (v : Value) (dest : TypeId) : Option Value :=
  (w.convertExplicit? v dest).map markCast

def convertByTryCast? (w : SymbolTable) (v : Value) (dest : TypeId) : Option Value :=
  (w.convertExplicit? v dest).map markTryCast

end SymbolTable
end StaticSemantics
