import StaticSemantics.Reference

/-!
Overriding of inherited methods. A method must fit the signature it overrides; an accessor of a
property overrides the same accessor of the inherited property and must keep its signature.
-/

namespace StaticSemantics.SymbolTable

variable [Memory]

/-- The slot that a name denotes in the nearest table of a chain that binds it. -/
def slotNamed? (w : SymbolTable) (chain : List MemberTableId) (name : String) : Option SlotId := do
  let k ← w.nameTable.lookup? name
  let s ← chain.findSome? fun d => (w.memberTable d).names.get? k
  match w.unwind s with
  | .ok s => s.slot?
  | .error _ => none

/-- The slot that a name denotes among the members that a table inherits. -/
def inheritedSlot? (w : SymbolTable) (d : MemberTableId) (name : String) : Option SlotId :=
  w.slotNamed? ((w.memberTable d).inherits.elim [] w.memberChain) name

def sameShape (w : SymbolTable) (g h : SignatureId) : Bool :=
  g = h || (w.signature g).sameShape (w.signature h)

/-- A method with signature `candidate` can take the place of one with signature `base`. Required
parameters stay the same; optional ones may be added at the end, unless the base takes any number
of arguments, which the candidate then must take too. The result may be of a subtype. -/
def canOverride (w : SymbolTable) (base candidate : SignatureId) : Bool :=
  let b := w.signature base
  let c := w.signature candidate
  b.paramTypes = c.paramTypes &&
    b.optParamTypes.isPrefixOf c.optParamTypes &&
    !(b.optParams.length < c.optParams.length && b.rest.isSome) &&
    !(b.rest.isSome && c.rest.isNone) &&
    (c.returns = b.returns || w.isSubtype c.returns b.returns)

/-- The signature of a method; any other slot counts as having the first one. -/
def slotSignature (w : SymbolTable) (s : SlotId) : SignatureId :=
  ((w.methodInfo? s).map MethodInfo.signature).getD default

/-- The method that an accessor `candidate` of `property` overrides in the inherited property. -/
def overriddenAccessor (w : SymbolTable) (candidate property : SlotId) (inherited : PropertyInfo) :
    Except SymbolError SlotId :=
  let isGetter := ((w.slot property).propertyInfo?.bind PropertyInfo.getter) = some candidate
  match if isGetter then inherited.getter else inherited.setter with
  | none => .error .nothingToOverride
  | some accessor =>
    match w.methodInfo? accessor with
    | none => .error .nothingToOverride
    | some m =>
      if w.sameShape m.signature (w.slotSignature candidate) then .ok accessor
      else .error (.incompatibleOverride m.signature)

/-- The method that `candidate` overrides, given the inherited slot of its name. -/
def overriddenMethod (w : SymbolTable) (candidate : SlotId) (property : Option SlotId)
    (inherited : SlotId) : Except SymbolError SlotId :=
  match property, (w.slot inherited).detail with
  | some property, .property info => w.overriddenAccessor candidate property info
  | none, .method info =>
    if w.canOverride info.signature (w.slotSignature candidate) then .ok inherited
    else .error (.incompatibleOverride info.signature)
  | _, _ => .error .nothingToOverride

/-- The method that `candidate` overrides when it is a member of the table. -/
def overridden (w : SymbolTable) (candidate : SlotId) (d : MemberTableId) :
    Except SymbolError SlotId :=
  match w.methodInfo? candidate with
  | none => .error .nothingToOverride
  | some m =>
    let named := w.slot (m.ofProperty.getD candidate)
    match w.inheritedSlot? d named.name with
    | none => .error .nothingToOverride
    | some inherited =>
      let visibility := (w.slot inherited).visibility
      if visibility = .ownerOnly then .error .overridesHidden
      else if visibility ≠ named.visibility then .error .overridesVisibility
      else
        match w.overriddenMethod candidate m.ofProperty inherited with
        | .error e => .error e
        | .ok target =>
          if (w.methodInfo? target).any fun t => t.flags.notOverridable then .error .notOverridable
          else .ok target

/-- Records that `candidate`, a member of the table, overrides the inherited method of its name. -/
def override (w : SymbolTable) (candidate : SlotId) (d : MemberTableId) :
    Except SymbolError Unit × SymbolTable :=
  match w.overridden candidate d with
  | .error e => (.error e, w)
  | .ok target =>
    let w' := w.modifySlot target
      (Slot.modifyMethod (·.setOverrider (w.memberTable d).definedIn candidate))
    (.ok (), w'.modifySlot candidate
      (Slot.modifyMethod fun m => { m with flags := { m.flags with overriding := true } }))

end StaticSemantics.SymbolTable
