import StaticSemantics.Proofs.Members.Names
import StaticSemantics.Proofs.Overriding.Methods

/-!
Properties and their accessors, which are linked both ways. A property has the accessors that it was
last given, and these point back to it. A method that was its accessor before keeps its link, so
that the links agree only as long as no property loses an accessor. Overriding tells a getter from a
setter by what the property has now: a method that has been replaced counts as a setter.
-/

namespace StaticSemantics

/-- What a slot stores about accessors: the accessors of a property, or the property of a method. -/
structure AccessorLinks where
  getter : Option SlotId := none
  setter : Option SlotId := none
  ofProperty : Option SlotId := none

/-- The accessors that a property is given at one time. -/
structure Attachment where
  property : SlotId
  getter : Option SlotId
  setter : Option SlotId

namespace Attachment

def methods (c : Attachment) : List SlotId := c.getter.toList ++ c.setter.toList

/-- No method is given to two properties. -/
def Exclusive (calls : List Attachment) : Prop :=
  ∀ c ∈ calls, ∀ c' ∈ calls, ∀ m ∈ c.methods, m ∈ c'.methods → c.property = c'.property

instance (calls : List Attachment) : Decidable (Exclusive calls) :=
  inferInstanceAs (Decidable (∀ c ∈ calls, ∀ c' ∈ calls, ∀ m ∈ c.methods,
    m ∈ c'.methods → c.property = c'.property))

theorem Exclusive.of_append {calls calls' : List Attachment} (h : Exclusive (calls ++ calls')) :
    Exclusive calls :=
  fun c hc c' hc' => h c (List.mem_append_left _ hc) c' (List.mem_append_left _ hc')

/-- The accessors that a property was last given. -/
def last? (calls : List Attachment) (property : SlotId) : Option Attachment :=
  calls.reverse.find? (·.property = property)

/-- Every property was last given all the accessors that it ever had. -/
def Kept (calls : List Attachment) : Prop :=
  ∀ c ∈ calls, ∀ m ∈ c.methods, ∃ c' ∈ last? calls c.property, m ∈ c'.methods

instance (calls : List Attachment) : Decidable (Kept calls) :=
  inferInstanceAs (Decidable (∀ c ∈ calls, ∀ m ∈ c.methods,
    ∃ c' ∈ last? calls c.property, m ∈ c'.methods))

variable {calls : List Attachment} {c : Attachment} {v : SlotId}

theorem last?_append_single : last? (calls ++ [c]) v =
    if c.property = v then some c else last? calls v := by
  rw [last?, List.reverse_append, List.reverse_singleton, List.singleton_append, List.find?_cons]
  split <;> simp_all [last?]

theorem mem_of_last? (h : last? calls v = some c) : c ∈ calls ∧ c.property = v :=
  ⟨List.mem_reverse.mp (List.mem_of_find?_eq_some h), by simpa using List.find?_some h⟩

/-- The links follow the calls: a property has what it was given last, and a method points to the
property that it was given to. -/
structure Follow (links : SlotId → AccessorLinks) (calls : List Attachment) : Prop where
  getter : ∀ v, (links v).getter = (last? calls v).bind Attachment.getter
  setter : ∀ v, (links v).setter = (last? calls v).bind Attachment.setter
  ofProperty : ∀ m v, (links m).ofProperty = some v ↔
    ∃ c ∈ calls, c.property = v ∧ m ∈ c.methods

/-- What giving accessors to a property, itself no method, makes of the links. -/
def attach (c : Attachment) (links : SlotId → AccessorLinks) (i : SlotId) : AccessorLinks :=
  if i = c.property then { getter := c.getter, setter := c.setter }
  else if i ∈ c.methods then { ofProperty := some c.property }
  else links i

theorem Follow.attach {links : SlotId → AccessorLinks} (h : Follow links calls)
    (hx : Exclusive (calls ++ [c])) (hc : c.property ∉ c.methods)
    (hp : (links c.property).ofProperty = none)
    (hm : ∀ m ∈ c.methods, (links m).getter = none ∧ (links m).setter = none) :
    Follow (c.attach links) (calls ++ [c]) := by
  refine ⟨fun v => ?_, fun v => ?_, fun m v => ?_⟩
  · rw [last?_append_single, Attachment.attach]
    by_cases hv : v = c.property
    · simp [hv]
    · rw [if_neg hv, if_neg (Ne.symm hv), ← h.getter]
      split
      · rename_i hmem
        exact (hm v hmem).1.symm
      · rfl
  · rw [last?_append_single, Attachment.attach]
    by_cases hv : v = c.property
    · simp [hv]
    · rw [if_neg hv, if_neg (Ne.symm hv), ← h.setter]
      split
      · rename_i hmem
        exact (hm v hmem).2.symm
      · rfl
  · have hcalls : (∃ c' ∈ calls ++ [c], c'.property = v ∧ m ∈ c'.methods) ↔
        (links m).ofProperty = some v ∨ c.property = v ∧ m ∈ c.methods := by
      simp [h.ofProperty, or_and_right, exists_or]
    rw [hcalls, Attachment.attach]
    split
    · rename_i hv
      simp [hv, hp, hc]
    · split
      · rename_i hmem
        simp only [Option.some.injEq, hmem, and_true]
        -- a property that the method was given to before is this one
        refine ⟨.inr, Or.rec (fun hold => ?_) id⟩
        obtain ⟨c', hc', rfl, hm'⟩ := (h.ofProperty m v).mp hold
        exact hx c (by simp) c' (by simp [hc']) m hmem hm'
      · rename_i hmem
        simp [hmem]

end Attachment

/-- The accessors that an edit gives to a property. -/
def Edit.attachment? : Edit → Option Attachment
  | setAccessors property getter setter => some ⟨property, getter, setter⟩
  | _ => none

/-- The change belongs to the linking of a property and its accessors. -/
def Change.linksAccessors : Change → Bool
  | ofProperty .. | accessors .. => true
  | _ => false

theorem Change.linksAccessors_eq_false {c : Change} {e : Edit} (h : e.makes c)
    (he : e.attachment? = none) : c.linksAccessors = false := by
  cases c <;> first | rfl | (cases e <;> first | (cases he; done) | cases h)

/-- The accessors that an operation gives to a property. -/
def Operation.attachment? : Operation → Option Attachment
  | edit e => e.attachment?
  | _ => none

theorem Operation.eq_of_attachment? {op : Operation} {c : Attachment}
    (h : op.attachment? = some c) :
    op = .edit (.setAccessors c.property c.getter c.setter) := by
  unfold attachment? Edit.attachment? at h
  split at h
  · split at h
    · cases h
      rfl
    · cases h
  · cases h

namespace Slot

variable {s : Slot}

def accessorLinks (s : Slot) : AccessorLinks where
  getter := s.propertyInfo?.bind PropertyInfo.getter
  setter := s.propertyInfo?.bind PropertyInfo.setter
  ofProperty := s.methodInfo?.bind MethodInfo.ofProperty

theorem propertyInfo?_of_method (h : s.methodInfo?.isSome) : s.propertyInfo? = none := by
  cases hd : s.detail <;> simp_all [methodInfo?, propertyInfo?]

theorem methodInfo?_of_property (h : s.propertyInfo?.isSome) : s.methodInfo? = none := by
  cases hd : s.detail <;> simp_all [methodInfo?, propertyInfo?]

theorem accessorLinks_modifyMethod (h : s.methodInfo?.isSome) (property : SlotId) :
    (s.modifyMethod ({ · with ofProperty := some property })).accessorLinks =
      { ofProperty := some property } := by
  obtain ⟨m, hm⟩ := Option.isSome_iff_exists.mp h
  simp [accessorLinks, propertyInfo?_of_method h, hm]

theorem accessorLinks_modifyProperty (h : s.propertyInfo?.isSome) (getter setter : Option SlotId) :
    (s.modifyProperty ({ · with getter, setter })).accessorLinks = { getter, setter } := by
  obtain ⟨info, hi⟩ := Option.isSome_iff_exists.mp h
  simp [accessorLinks, modifyProperty, propertyInfo?_eq_some.mp hi, propertyInfo?, methodInfo?]

end Slot

namespace SymbolTable

variable {w w' : SymbolTable}

def accessorLinks (w : SymbolTable) (i : SlotId) : AccessorLinks := (w.slot i).accessorLinks

/-- The accessor of the property that writes it. -/
def setter? (w : SymbolTable) (property : SlotId) : Option SlotId :=
  (w.slot property).propertyInfo?.bind PropertyInfo.setter

def accessors (w : SymbolTable) (property : SlotId) : List SlotId :=
  (w.getter? property).toList ++ (w.setter? property).toList

/-- The property that a method points to as its accessor. -/
def propertyOf? (w : SymbolTable) (method : SlotId) : Option SlotId :=
  (w.methodInfo? method).bind MethodInfo.ofProperty

/-! ## Edits -/

theorem accessorLinks_push {x : Slot} (hx : x.accessorLinks = {}) (i : SlotId) :
    ((w.slots.push x).get i).accessorLinks = w.accessorLinks i :=
  w.slots.congr_get_push hx i

theorem accessorLinks_modifySlot (s : SlotId) {change : Slot → Slot}
    (hc : ∀ x, (change x).accessorLinks = x.accessorLinks) :
    (w.modifySlot s change).accessorLinks = w.accessorLinks :=
  funext (w.slots.congr_get_modify s hc)

theorem accessorLinks_modifyMethod (s : SlotId) {change : MethodInfo → MethodInfo}
    (hc : ∀ m, (change m).ofProperty = m.ofProperty) :
    (w.modifySlot s (Slot.modifyMethod change)).accessorLinks = w.accessorLinks := by
  refine accessorLinks_modifySlot s fun x => ?_
  have hmethod : (x.methodInfo?.map change).bind MethodInfo.ofProperty =
      x.methodInfo?.bind MethodInfo.ofProperty := by
    cases x.methodInfo? with
    | none => rfl
    | some m => exact hc m
  simp [Slot.accessorLinks, hmethod]

theorem accessorLinks_bind (o : Owner) (name : String) (s : Symbol) :
    (w.bind o name s).accessorLinks = w.accessorLinks := by
  cases o <;> rfl

/-- The other changes leave the links as they are. A new slot has none. -/
theorem accessorLinks_change {c : Change} (hc : c.linksAccessors = false) :
    (w.change c).accessorLinks = w.accessorLinks := by
  cases c with
  | ofProperty | accessors => cases hc
  | newVariable | newProperty | newMethod => exact funext fun i => accessorLinks_push rfl i
  | initialValue s v =>
      refine accessorLinks_modifySlot s fun x => ?_
      cases hd : x.detail <;> simp [Slot.accessorLinks, Slot.modifyVariable, Slot.propertyInfo?,
        Slot.methodInfo?, hd]
  | slotVisibility s _ => exact accessorLinks_modifySlot s fun _ => rfl
  | flags s change => exact accessorLinks_modifyMethod s fun _ => rfl
  | overrider s t method => exact accessorLinks_modifyMethod s fun _ => rfl
  | definedIn s o =>
      cases s with
      | slot i => exact accessorLinks_modifySlot i fun _ => rfl
      | type _ | module _ | aliasDecl _ | value _ | error _ => rfl
  | name o name s => exact accessorLinks_bind o name s
  | _ => rfl

theorem accessorLinks_apply {e : Edit} (he : e.attachment? = none) :
    (w.apply e).accessorLinks = w.accessorLinks :=
  apply_induction (P := (·.accessorLinks = w.accessorLinks))
    (fun _ _ hm h => (accessorLinks_change (Change.linksAccessors_eq_false hm he)).trans h) rfl

theorem accessorLinks_edited {allowed : Edit → Bool}
    (ha : ∀ e, allowed e → e.attachment? = none) (h : Edited allowed w w') :
    w'.accessorLinks = w.accessorLinks := by
  induction h with
  | refl => rfl
  | step e _ _ hal ih => exact (accessorLinks_apply (ha e hal)).trans ih

/-- The accessors are methods, and they are given to a property. -/
def Attachable (w : SymbolTable) (c : Attachment) : Prop :=
  (w.slot c.property).propertyInfo?.isSome ∧ ∀ m ∈ c.methods, (w.methodInfo? m).isSome

instance (w : SymbolTable) (c : Attachment) : Decidable (w.Attachable c) :=
  inferInstanceAs (Decidable (_ ∧ _))

section

variable (property : SlotId) (a : Option SlotId)

theorem slot_linkAccessor (i : SlotId) : (w.linkAccessor property a).slot i =
    if i ∈ a then (w.slot i).modifyMethod ({ · with ofProperty := some property })
    else w.slot i := by
  cases a with
  | none => rfl
  | some m =>
      rw [linkAccessor, slot_modifySlot_modifyMethod]
      simp [eq_comm]

theorem propertyInfo?_linkAccessor (i : SlotId) :
    ((w.linkAccessor property a).slot i).propertyInfo? = (w.slot i).propertyInfo? := by
  rw [slot_linkAccessor]
  split
  · exact Slot.propertyInfo?_modifyMethod _
  · rfl

theorem isSome_methodInfo?_linkAccessor (i : SlotId) :
    ((w.linkAccessor property a).methodInfo? i).isSome = (w.methodInfo? i).isSome := by
  rw [methodInfo?, slot_linkAccessor]
  split
  · rw [Slot.methodInfo?_modifyMethod, Option.isSome_map, methodInfo?]
  · rfl

/-- A method that is linked points to the property. -/
theorem accessorLinks_linkAccessor (ha : ∀ m ∈ a, (w.methodInfo? m).isSome) (i : SlotId) :
    (w.linkAccessor property a).accessorLinks i =
      if i ∈ a then { ofProperty := some property } else w.accessorLinks i := by
  rw [accessorLinks, slot_linkAccessor]
  split
  · exact Slot.accessorLinks_modifyMethod (ha i ‹_›) property
  · rfl

end

theorem has_of_propertyInfo? {x : SlotId} (h : (w.slot x).propertyInfo?.isSome) :
    w.slots.Has x := by
  by_contra hn
  rw [slot, Arena.get_of_not_has hn] at h
  cases h

theorem accessorLinks_setAccessors {c : Attachment} (h : w.Attachable c) :
    (w.setAccessors c.property c.getter c.setter).accessorLinks = c.attach w.accessorLinks := by
  obtain ⟨hp, hm⟩ := h
  simp only [Attachment.methods, List.mem_append, Option.mem_toList] at hm
  have links : ∀ i, ((w.linkAccessor c.property c.getter).linkAccessor c.property
      c.setter).accessorLinks i = if i ∈ c.methods then { ofProperty := some c.property }
        else w.accessorLinks i := by
    intro i
    rw [accessorLinks_linkAccessor, accessorLinks_linkAccessor]
    · simp only [Attachment.methods, List.mem_append, Option.mem_toList]
      split <;> split <;> simp_all
    · exact fun m hg => hm m (.inl hg)
    · intro m hs
      rw [isSome_methodInfo?_linkAccessor]
      exact hm m (.inr hs)
  have hp' : (((w.linkAccessor c.property c.getter).linkAccessor c.property c.setter).slot
      c.property).propertyInfo?.isSome := by
    rw [propertyInfo?_linkAccessor, propertyInfo?_linkAccessor]
    exact hp
  funext i
  rw [setAccessors, accessorLinks, slot, modifySlot, Arena.get_modify]
  by_cases hi : c.property = i
  · subst hi
    rw [if_pos ⟨rfl, has_of_propertyInfo? hp'⟩, Attachment.attach, if_pos rfl]
    exact Slot.accessorLinks_modifyProperty hp' _ _
  · rw [if_neg fun h => hi h.1, Attachment.attach, if_neg (Ne.symm hi)]
    exact links i

/-- Links that follow the calls follow one more. -/
theorem Attachable.follow {c : Attachment} {calls : List Attachment} (hc : w.Attachable c)
    (h : Attachment.Follow w.accessorLinks calls) (hx : Attachment.Exclusive (calls ++ [c])) :
    Attachment.Follow (c.attach w.accessorLinks) (calls ++ [c]) := by
  have hnone : w.methodInfo? c.property = none := Slot.methodInfo?_of_property hc.1
  refine h.attach hx (fun hmem => ?_) ?_ fun m hm => ?_
  · have hsome := hc.2 c.property hmem
    rw [hnone] at hsome
    cases hsome
  · exact congrArg (·.bind MethodInfo.ofProperty) hnone
  · have hm := Slot.propertyInfo?_of_method (hc.2 m hm)
    exact ⟨congrArg (·.bind PropertyInfo.getter) hm, congrArg (·.bind PropertyInfo.setter) hm⟩

/-! ## Overriding by accessors -/

theorem mem_accessors {m v : SlotId} :
    m ∈ w.accessors v ↔ w.getter? v = some m ∨ w.setter? v = some m := by
  simp [accessors]

/-- An accessor takes the place of the same accessor of an inherited property. -/
def PairsAccessors (w : SymbolTable) (candidate property inherited target : SlotId) : Prop :=
  (w.getter? property = some candidate ∧ w.getter? inherited = some target) ∨
    (w.setter? property = some candidate ∧ w.setter? inherited = some target)

/-- What a method that points to a property overrides: an accessor that the property has overrides
the same accessor, and a method that it does not have any more overrides the setter. -/
theorem Replaces.pairsAccessors {candidate inherited target v : SlotId} {m : MethodInfo}
    (h : w.Replaces candidate m inherited target) (hv : m.ofProperty = some v) :
    (w.PairsAccessors candidate v inherited target ↔ candidate ∈ w.accessors v) ∧
      (candidate ∉ w.accessors v → w.setter? inherited = some target) := by
  rw [mem_accessors, PairsAccessors]
  cases h with
  | method hp => simp [hp] at hv
  | @getter property _ info _ hp hg hi ht =>
      obtain rfl : property = v := Option.some.inj (hp.symm.trans hv)
      have hgetter : w.getter? inherited = some target := by rw [getter?, hi, Option.bind_some, ht]
      simp [hg, hgetter]
  | @setter property _ info _ hp hg hi ht =>
      obtain rfl : property = v := Option.some.inj (hp.symm.trans hv)
      have hsetter : w.setter? inherited = some target := by rw [setter?, hi, Option.bind_some, ht]
      simp [hg, hsetter]

/-! ## What the links come to -/

/-- The links of a table after calls that gave properties their accessors. -/
structure AccessorsFollow (w : SymbolTable) (calls : List Attachment) : Prop where
  accessors : ∀ m v, m ∈ w.accessors v ↔ ∃ c ∈ Attachment.last? calls v, m ∈ c.methods
  propertyOf : ∀ m v, w.propertyOf? m = some v ↔ ∃ c ∈ calls, c.property = v ∧ m ∈ c.methods
  /-- Accessors always point back. -/
  back : ∀ m v, m ∈ w.accessors v → w.propertyOf? m = some v
  twoWay_iff : (∀ m v, w.propertyOf? m = some v ↔ m ∈ w.accessors v) ↔ Attachment.Kept calls
  /-- Overriding takes the same accessor exactly for a method that is still one. -/
  override : ∀ candidate v d w', w.propertyOf? candidate = some v →
    w.override candidate d = (.ok (), w') → ∃ inherited target,
      w.Inherits d (w.slot v).name inherited ∧
      w.OverrideEffect candidate target (w.memberTable d).definedIn w' ∧
      (w.PairsAccessors candidate v inherited target ↔ candidate ∈ w.accessors v) ∧
      (candidate ∉ w.accessors v → w.setter? inherited = some target)

theorem mem_accessors_iff {calls : List Attachment}
    (h : Attachment.Follow w.accessorLinks calls) {m v : SlotId} :
    m ∈ w.accessors v ↔ ∃ c ∈ Attachment.last? calls v, m ∈ c.methods := by
  have hg : w.getter? v = (Attachment.last? calls v).bind Attachment.getter := h.getter v
  have hs : w.setter? v = (Attachment.last? calls v).bind Attachment.setter := h.setter v
  rw [mem_accessors, hg, hs]
  cases Attachment.last? calls v with
  | none => simp
  | some c => simp [Attachment.methods]

theorem Closed.accessorsFollow (hc : w.Closed) {calls : List Attachment}
    (h : Attachment.Follow w.accessorLinks calls) : w.AccessorsFollow calls := by
  have back : ∀ m v, m ∈ w.accessors v → w.propertyOf? m = some v := by
    intro m v hm
    obtain ⟨c, hlast, hm⟩ := (mem_accessors_iff h).mp hm
    obtain ⟨hc, hv⟩ := Attachment.mem_of_last? hlast
    exact (h.ofProperty m v).mpr ⟨c, hc, hv, hm⟩
  refine ⟨fun m v => mem_accessors_iff h, h.ofProperty, back, ⟨fun htwo c hc m hm => ?_,
    fun hkept m v => ⟨fun hp => ?_, back m v⟩⟩, fun candidate v d w' hv hw => ?_⟩
  · have hlink := (h.ofProperty _ _).mpr ⟨c, hc, rfl, hm⟩
    exact (mem_accessors_iff h).mp ((htwo m c.property).mp hlink)
  · obtain ⟨c, hc, rfl, hm⟩ := (h.ofProperty m v).mp hp
    exact (mem_accessors_iff h).mpr (hkept c hc m hm)
  · obtain ⟨target, ho, heffect⟩ := hc.overrideEffect hw
    obtain ⟨m, inherited, via⟩ := ho
    have hm : m.ofProperty = some v := by
      rw [propertyOf?, via.method, Option.bind_some] at hv
      exact hv
    have hinherits := via.inherits
    rw [hm, Option.getD_some] at hinherits
    exact ⟨inherited, target, hinherits, heffect, via.replaces.pairsAccessors hm⟩

/-- At first there is no slot. -/
theorem initial_follow_accessors (i : Interner) :
    Attachment.Follow (initial i).accessorLinks [] := by
  have hempty : (initial i).slots.size = 0 :=
    initial_induction (P := fun w => w.slots.size = 0) (fun _ _ _ h => h) (by decide +kernel) i
  have hlinks : (initial i).accessorLinks = fun _ => {} := by
    funext s
    have hs : ¬ (initial i).slots.Has s := by
      rw [Arena.Has, hempty]
      exact Nat.not_lt_zero _
    rw [accessorLinks, slot, Arena.get_of_not_has hs]
    rfl
  rw [hlinks]
  exact ⟨fun _ => rfl, fun _ => rfl, fun _ _ => by simp⟩

end SymbolTable

/-! ## Sessions -/

namespace Session

variable {s : Session} {ops : List Operation} {calls : List Attachment}

/-- Whenever one of the operations gives accessors to a slot, they are methods and it is a
property. -/
def AttachesMethods (s : Session) : List Operation → Prop
  | [] => True
  | op :: ops => (∀ c ∈ op.attachment?, s.table.Attachable c) ∧ (s.perform op).AttachesMethods ops

instance : (s : Session) → (ops : List Operation) → Decidable (s.AttachesMethods ops)
  | _, [] => .isTrue trivial
  | s, op :: ops =>
    have := instDecidableAttachesMethods (s.perform op) ops
    inferInstanceAs (Decidable (_ ∧ _))

theorem accessorLinks_perform_of_none (h : s.workspace.Closed) {op : Operation}
    (hc : s.table.Covers op.ids) (hop : op.attachment? = none) :
    (s.perform op).table.accessorLinks = s.table.accessorLinks := by
  cases op with
  | edit e => exact SymbolTable.accessorLinks_apply hop
  | enter | leave | query | takeProblems =>
      refine SymbolTable.accessorLinks_edited (fun e he => ?_) (perform_inPassing h hc nofun)
      cases e <;> first | rfl | cases he

theorem accessorLinks_perform_of_some {op : Operation} {c : Attachment}
    (hop : op.attachment? = some c) (hc : s.table.Attachable c) :
    (s.perform op).table.accessorLinks = c.attach s.table.accessorLinks := by
  obtain rfl := Operation.eq_of_attachment? hop
  have htable : (s.perform (.edit (.setAccessors c.property c.getter c.setter))).table =
    s.table.setAccessors c.property c.getter c.setter := rfl
  rw [htable]
  exact SymbolTable.accessorLinks_setAccessors hc

theorem performAll_follow_accessors (h : s.workspace.Closed)
    (ha : s.Admits (fun _ => true) ops) (hm : s.AttachesMethods ops)
    (hx : Attachment.Exclusive (calls ++ ops.filterMap Operation.attachment?))
    (hf : Attachment.Follow s.table.accessorLinks calls) :
    Attachment.Follow (s.performAll ops).table.accessorLinks
      (calls ++ ops.filterMap Operation.attachment?) := by
  induction ops generalizing s calls with
  | nil =>
      rw [List.filterMap_nil, List.append_nil]
      exact hf
  | cons op ops ih =>
      obtain ⟨hc, _, ha⟩ := ha
      have hclosed := perform_closed h hc
      cases hop : op.attachment? with
      | none =>
          rw [List.filterMap_cons_none hop] at hx ⊢
          refine ih hclosed ha hm.2 hx ?_
          rw [accessorLinks_perform_of_none h hc hop]
          exact hf
      | some c =>
          have hattach := hm.1 c hop
          rw [List.filterMap_cons_some hop, List.append_cons] at hx ⊢
          refine ih hclosed ha hm.2 hx ?_
          rw [accessorLinks_perform_of_some hop hattach]
          exact hattach.follow hf hx.of_append

/-- In a session that gives only methods to properties, and no method to two properties, the links
follow the calls. They agree exactly if each property was last given all the accessors it ever had,
and only for accessors that it has is it sure what overriding takes the place of. -/
theorem accessorsFollow_of_performAll (reporting verbose : Bool) (interner : Interner)
    (ops : List Operation)
    (h : Session.Admits (fun _ => true) (.start (.initial interner) reporting verbose) ops)
    (hm : Session.AttachesMethods (.start (.initial interner) reporting verbose) ops)
    (hx : Attachment.Exclusive (ops.filterMap Operation.attachment?)) :
    ((Session.start (.initial interner) reporting verbose).performAll ops).table.AccessorsFollow
      (ops.filterMap Operation.attachment?) := by
  have hfresh : Reachable (fun _ => true) (.start (.initial interner) reporting verbose) :=
    .fresh reporting verbose interner
  have hstart : Attachment.Follow
      (start (.initial interner) reporting verbose).table.accessorLinks [] := by
    rw [table_start]
    exact SymbolTable.initial_follow_accessors interner
  exact (hfresh.performAll h).closed.table.accessorsFollow
    (performAll_follow_accessors hfresh.closed h hm hx hstart)

/-- A class below another one, each with a property that has a getter and a setter. The property of
the lower class is given another setter afterwards. -/
def sampleReplacedSetter : List Operation :=
  [.edit (.addClass "Body" false), .edit (.addClass "Cube" false),
    .edit (.extendClass ⟨21⟩ ⟨20⟩), .edit (.addSignature { returns := .integer }),
    .edit (.addSignature { params := [⟨"value", .integer⟩], returns := .nothing }),
    .edit (.addProperty "Size" none), .edit (.addMethod "GetSize" ⟨0⟩),
    .edit (.addMethod "SetSize" ⟨1⟩), .edit (.setAccessors ⟨0⟩ (some ⟨1⟩) (some ⟨2⟩)),
    .edit (.addProperty "Size" none), .edit (.addMethod "GetSize" ⟨0⟩),
    .edit (.addMethod "SetSize" ⟨1⟩), .edit (.addMethod "PutSize" ⟨1⟩),
    .edit (.setAccessors ⟨3⟩ (some ⟨4⟩) (some ⟨5⟩)),
    .edit (.define (.members ⟨16⟩) "Size" (.slot ⟨0⟩)),
    .edit (.define (.members ⟨17⟩) "Size" (.slot ⟨3⟩)),
    .edit (.setAccessors ⟨3⟩ (some ⟨4⟩) (some ⟨6⟩))]

/-- The getter overrides the inherited getter. The setter that was replaced is no accessor, but it
still points to the property and overrides the inherited setter. Before, the links agreed. -/
theorem accessorsFollow_sampleReplacedSetter :
    let w := (performAll {} sampleReplacedSetter).table
    let before := (performAll {} sampleReplacedSetter.dropLast).table
    let calls := sampleReplacedSetter.filterMap Operation.attachment?
    Session.Admits (fun _ => true) {} sampleReplacedSetter ∧
      Session.AttachesMethods {} sampleReplacedSetter ∧ Attachment.Exclusive calls ∧
      w.AccessorsFollow calls ∧
      (∃ w' inherited target, w.override ⟨4⟩ ⟨17⟩ = (.ok (), w') ∧
        w.OverrideEffect ⟨4⟩ target ⟨21⟩ w' ∧ w.PairsAccessors ⟨4⟩ ⟨3⟩ inherited target) ∧
      ⟨5⟩ ∉ w.accessors ⟨3⟩ ∧ w.propertyOf? ⟨5⟩ = some ⟨3⟩ ∧
      (∃ w' inherited target, w.override ⟨5⟩ ⟨17⟩ = (.ok (), w') ∧
        w.OverrideEffect ⟨5⟩ target ⟨21⟩ w' ∧ w.setter? inherited = some target) ∧
      ∀ m v, before.propertyOf? m = some v ↔ m ∈ before.accessors v := by
  intro w before calls
  have facts : Session.Admits (fun _ => true) {} sampleReplacedSetter ∧
      Session.AttachesMethods {} sampleReplacedSetter ∧ Attachment.Exclusive calls ∧
      w.overridden ⟨4⟩ ⟨17⟩ = .ok ⟨1⟩ ∧ w.overridden ⟨5⟩ ⟨17⟩ = .ok ⟨2⟩ ∧
      w.propertyOf? ⟨4⟩ = some ⟨3⟩ ∧ w.propertyOf? ⟨5⟩ = some ⟨3⟩ ∧
      ⟨4⟩ ∈ w.accessors ⟨3⟩ ∧ ⟨5⟩ ∉ w.accessors ⟨3⟩ ∧ (w.memberTable ⟨17⟩).definedIn = ⟨21⟩ ∧
      Session.Admits (fun _ => true) {} sampleReplacedSetter.dropLast ∧
      Session.AttachesMethods {} sampleReplacedSetter.dropLast ∧
      Attachment.Exclusive (sampleReplacedSetter.dropLast.filterMap Operation.attachment?) ∧
      Attachment.Kept (sampleReplacedSetter.dropLast.filterMap Operation.attachment?) := by
    decide +kernel
  obtain ⟨h, hm, hx, hget, hput, hgetter, hold, hhas, hlost, howner, h', hm', hx', hkept⟩ := facts
  have follow := accessorsFollow_of_performAll true false .counting sampleReplacedSetter h hm hx
  have before_follow :=
    accessorsFollow_of_performAll true false .counting sampleReplacedSetter.dropLast h' hm' hx'
  have hw := SymbolTable.override_eq_ok_iff.mpr ⟨_, hget, rfl⟩
  have hw' := SymbolTable.override_eq_ok_iff.mpr ⟨_, hput, rfl⟩
  obtain ⟨inherited, target, _, heffect, hpairs, _⟩ := follow.override _ _ _ _ hgetter hw
  obtain ⟨inherited', target', _, heffect', _, hsetter⟩ := follow.override _ _ _ _ hold hw'
  exact ⟨h, hm, hx, follow, ⟨_, inherited, target, hw, howner ▸ heffect, hpairs.mpr hhas⟩, hlost,
    hold, ⟨_, inherited', target', hw', howner ▸ heffect', hsetter hlost⟩,
    before_follow.twoWay_iff.mpr hkept⟩

end Session
end StaticSemantics
