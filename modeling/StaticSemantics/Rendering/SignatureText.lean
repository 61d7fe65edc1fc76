import StaticSemantics.Numeric.Shortest
import StaticSemantics.Hierarchy

/-!
Constants and signatures as they are written. A quote inside a text literal is doubled, and a
character literal is a text literal of one character with a `c` after it.
-/

namespace StaticSemantics

/-- The text between quotes. -/
def quoted (s : String) : String :=
  "\"" ++ String.ofList (s.toList.flatMap fun c => if c = '"' then ['"', '"'] else [c]) ++ "\""

namespace EnumInfo

/-- The bits of a member or value of a flags enum. -/
def bitsOf (x : Double) : Int64 := Int64.ofInt (x.clampToInt longMin longMax)

/-- The members whose bits are all set in a value. -/
def membersIn (e : EnumInfo) (x : Double) : List String :=
  (e.members.filter fun m =>
    let mask := bitsOf m.value
    mask ≠ 0 && bitsOf x &&& mask = mask).map EnumMember.name

/-- A value by the names of its members, or as a number if no member fits. -/
def text (e : EnumInfo) (x : Double) : String :=
  if e.isFlags then
    if bitsOf x = 0 then "Empty"
    else
      match e.membersIn x with
      | [] => x.toText
      | [name] => name
      | names => "\x7b" ++ ", ".intercalate names ++ "\x7d"
  else ((e.members.find? fun m => m.value.equal x).map EnumMember.name).getD x.toText

end EnumInfo

namespace SymbolTable

variable [Memory]

def enumText (w : SymbolTable) (t : TypeId) (x : Double) : String :=
  match (w.type (w.withoutNull t)).enum? with
  | some e => e.text x
  | none => x.toText

/-- A constant as a literal; any other value as its type. -/
def valueText (w : SymbolTable) : Value → String
  | .constant c t =>
    match c with
    | .empty => "Empty"
    | .nothing => "Nothing"
    | .null => "Null"
    | .string s => quoted s
    | .boolean b => if b then "True" else "False"
    | .char x => quoted x.toString ++ "c"
    | .single x => x.toText
    | .double x => x.toText
    | .decimal x => x.toText
    | .byte n => toString n.toNat
    | .integer n => toString n.toInt
    | .long n => toString n.toInt
    | .enum x => w.enumText t x
  | v => w.typeText v.type

/-- A parameter with its type; the type `Any` is left out. -/
def paramText (w : SymbolTable) (name : String) (t : TypeId) : String :=
  if (w.type t).isAny then name else name ++ " As " ++ w.typeText t

def optParamText (w : SymbolTable) (p : OptParam) : String :=
  w.paramText p.name p.type ++ ((p.default.map fun v => " = " ++ w.valueText v).getD "")

def signatureText (w : SymbolTable) (g : SignatureId) : String :=
  let s := w.signature g
  let params := s.params.map (fun p => w.paramText p.name p.type) ++
    s.optParams.map w.optParamText ++ (s.rest.map fun label => "..." ++ label).toList
  let list := "(" ++ ", ".intercalate params ++ ")"
  if s.returns = .nothing then "Sub" ++ list
  else "Function" ++ list ++ " As " ++ w.typeText s.returns

end SymbolTable
end StaticSemantics
