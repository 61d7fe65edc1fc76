import StaticSemantics.SymbolTable

/-!
Enum types: their members, and the methods that every enum offers.
-/

namespace StaticSemantics

/-- The helpers from the list of their slots. -/
def EnumHelpers.ofList (slots : List SlotId) : EnumHelpers where
  valueOf := slots[0]?
  toDebugString := slots[1]?
  has := slots[2]?
  filter := slots[3]?
  add := slots[4]?
  remove := slots[5]?
  toggle := slots[6]?

namespace SymbolTable

variable [Memory]

/-- Gives a member of an enum its value. Other types have no members. -/
def setEnumMember (w : SymbolTable) (t : TypeId) (name : String) (value : Double) : SymbolTable :=
  w.modifyType t (TypeDecl.modifyEnum (·.setMember name value))

def enumConstant? (w : SymbolTable) (t : TypeId) (name : String) : Option Value :=
  ((w.type t).enum?.bind (·.member? name)).map (Value.ofEnum · t)

/-- Names and signatures of the helpers of an enum. -/
def helperSignatures (t : TypeId) (isFlags : Bool) : List (String × Signature) :=
  let ofMember (result : TypeId) : Signature := { params := [⟨"v", t⟩], returns := result }
  [("ValueOf", { returns := .double }), ("ToDebugString", { returns := .string })] ++
    if isFlags then
      [("Has", ofMember .boolean), ("Filter", ofMember t), ("Add", ofMember t),
        ("Remove", ofMember t), ("Toggle", ofMember t)]
    else []

/-- Adds a native method and defines it under its name. The method and its signature stay even if
the name is taken. -/
def declareNative (w : SymbolTable) (d : MemberTableId) (name : String) (s : Signature) :
    Except SymbolError SlotId × SymbolTable :=
  let (g, w) := w.addSignature s
  let (slot, w) := w.addMethod name g
  let w := w.setMethodFlags slot { native := true }
  match w.define (.members d) name (.slot slot) with
  | (.ok _, w) => (.ok slot, w)
  | (.error e, w) => (.error e, w)

/-- Declares native methods one after the other, up to the first whose name is taken. -/
def declareNatives (w : SymbolTable) (d : MemberTableId) :
    List (String × Signature) → Except SymbolError (List SlotId) × SymbolTable
  | [] => (.ok [], w)
  | (name, s) :: rest =>
    match w.declareNative d name s with
    | (.error e, w) => (.error e, w)
    | (.ok slot, w) =>
      match w.declareNatives d rest with
      | (.error e, w) => (.error e, w)
      | (.ok slots, w) => (.ok (slot :: slots), w)

/-- Declares the helpers of an enum and records them. Other types have none. -/
def declareEnumHelpers (w : SymbolTable) (t : TypeId) : Except SymbolError Unit × SymbolTable :=
  match (w.type t).enum?, (w.type t).members with
  | some info, some d =>
    match w.declareNatives d (helperSignatures t info.isFlags) with
    | (.error e, w) => (.error e, w)
    | (.ok slots, w) =>
      (.ok (), w.modifyType t
        (TypeDecl.modifyEnum ({ · with helpers := EnumHelpers.ofList slots })))
  | _, _ => (.ok (), w)

end SymbolTable
end StaticSemantics
