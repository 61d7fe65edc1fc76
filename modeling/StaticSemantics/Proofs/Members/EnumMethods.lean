import StaticSemantics.Proofs.Members.Names
import StaticSemantics.Proofs.Members.Ownership

/-!
The methods that an enum offers by itself. They are declared one after the other, each under a name
that must be free. If all names are, every method is bound and recorded; at the first name that is
taken the declaration stops, nothing is recorded, and the methods bound up to there stay. So a
failure leaves the members of the enum as they were only if it is the first name that is taken.
-/

namespace StaticSemantics

namespace SymbolTable

variable {w w' : SymbolTable} {d : MemberTableId} {name : String} {g : Signature}
  {methods : List (String × Signature)} {slots : List SlotId}

/-! ## One method -/

/-- The slot of a native method, with the member table that it is defined in. -/
def nativeSlot (d : Option MemberTableId) (name : String) (g : SignatureId) : Slot where
  name
  detail := .method { signature := g, flags := { native := true } }
  definedIn := d.map .members

/-- The table with a native method that has no name yet. -/
def addNative (w : SymbolTable) (d : Option MemberTableId) (name : String) (g : Signature) :
    SymbolTable :=
  { w with
    slots := w.slots.push (nativeSlot d name w.signatures.next)
    signatures := w.signatures.push g }

/-- The table with a native method under a new name. -/
def bindNative (w : SymbolTable) (d : MemberTableId) (name : String) (g : Signature) :
    SymbolTable :=
  (w.addNative (some d) name g).bind (.members d) name (.slot w.slots.next)

theorem declareNative_eq (w : SymbolTable) (d : MemberTableId) (name : String) (g : Signature) :
    w.declareNative d name g =
      match (w.addNative none name g).define (.members d) name (.slot w.slots.next) with
      | (.ok _, w') => (.ok w.slots.next, w')
      | (.error e, w') => (.error e, w') := by
  have hw : ((w.addSignature g).2.addMethod name w.signatures.next).2.setMethodFlags w.slots.next
      { native := true } = w.addNative none name g := by
    simp only [setMethodFlags, modifySlot, addMethod, addSlot, addSignature, addNative]
    rw [Arena.modify_push_next]
    rfl
  rw [← hw]
  rfl

theorem declareNative_of_free (hn : (w.memberTable d).names.Known w.nameTable)
    (h : w.bound? (.members d) name = none) (g : Signature) :
    w.declareNative d name g = (.ok w.slots.next, w.bindNative d name g) := by
  have hdefine : (w.addNative none name g).define (.members d) name (.slot w.slots.next) =
      (.ok (), w.bindNative d name g) := by
    have hknown : ((w.addNative none name g).bindings (.members d)).Known
        (w.addNative none name g).nameTable := hn
    have hfree : (w.addNative none name g).bound? (.members d) name = none := h
    have hdefined : (w.addNative none name g).setDefinedIn (.slot w.slots.next) (.members d) =
        w.addNative (some d) name g := by
      simp only [setDefinedIn, modifySlot, addNative]
      rw [Arena.modify_push_next]
      rfl
    rw [define_eq hknown, hfree, hdefined]
    rfl
  rw [declareNative_eq, hdefine]

theorem declareNative_of_taken {existing : Symbol}
    (hn : (w.memberTable d).names.Known w.nameTable)
    (h : w.bound? (.members d) name = some existing)
    (hne : existing ≠ .slot w.slots.next) (g : Signature) :
    w.declareNative d name g = (.error (.duplicate name existing), w.addNative none name g) := by
  have hdefine : (w.addNative none name g).define (.members d) name (.slot w.slots.next) =
      (.error (.duplicate name existing), w.addNative none name g) := by
    have hknown : ((w.addNative none name g).bindings (.members d)).Known
        (w.addNative none name g).nameTable := hn
    have htaken : (w.addNative none name g).bound? (.members d) name = some existing := h
    have hsame : existing.same (.slot w.slots.next) = false := by
      cases existing with
      | slot i => simpa [Symbol.same] using hne
      | type _ | module _ | aliasDecl _ | value _ | error _ => simp [Symbol.same]
    rw [define_eq hknown, htaken]
    simp [hsame]
  rw [declareNative_eq, hdefine]

section

variable (w : SymbolTable) (d : MemberTableId) (name : String) (g : Signature)

theorem slots_bindNative : (w.bindNative d name g).slots =
    w.slots.push (nativeSlot (some d) name w.signatures.next) := rfl

theorem signatures_bindNative :
    (w.bindNative d name g).signatures = w.signatures.push g := rfl

theorem types_bindNative : (w.bindNative d name g).types = w.types := rfl

theorem nameTable_bindNative :
    (w.bindNative d name g).nameTable = (w.nameTable.intern name).2 := rfl

theorem memberTables_bindNative : (w.bindNative d name g).memberTables =
    w.memberTables.modify d fun m =>
      { m with names := m.names.insert (w.nameTable.intern name).1 (.slot w.slots.next) } := rfl

end

theorem memberTable_bindNative (hd : w.memberTables.Has d) (name : String) (g : Signature) :
    (w.bindNative d name g).memberTable d = { w.memberTable d with
      names := (w.memberTable d).names.insert (w.nameTable.intern name).1
        (.slot w.slots.next) } := by
  rw [memberTable, memberTables_bindNative, Arena.get_modify_self hd]
  rfl

theorem known_bindNative (hn : (w.memberTable d).names.Known w.nameTable)
    (hd : w.memberTables.Has d) (name : String) (g : Signature) :
    ((w.bindNative d name g).memberTable d).names.Known (w.bindNative d name g).nameTable := by
  rw [memberTable_bindNative hd, nameTable_bindNative]
  exact (hn.intern name).insert ⟨_, w.nameTable.lookup?_intern_self name⟩ _

/-! ## One method after the other -/

/-- The name is not bound among the members. -/
def IsFree (w : SymbolTable) (d : MemberTableId) (name : String) : Prop :=
  w.bound? (.members d) name = none

/-- The slot holds a native method of the given name and signature, a member of the table. -/
def IsNative (w : SymbolTable) (d : MemberTableId) (method : String × Signature) (i : SlotId) :
    Prop :=
  ∃ g, w.slot i = nativeSlot (some d) method.1 g ∧ w.signature g = method.2

/-- `w'` has come from `w` by native methods in new slots, which are bound to their names after the
members that there were. -/
structure NativesAdded (w : SymbolTable) (d : MemberTableId) (methods : List (String × Signature))
    (slots : List SlotId) (w' : SymbolTable) : Prop where
  natives : List.Forall₂ (fun method i => ¬ w.slots.Has i ∧ w'.IsNative d method i) methods slots
  members : w'.memberTable d = { w.memberTable d with names := (w'.memberTable d).names }
  names : ∃ added, (w'.memberTable d).names.entries = (w.memberTable d).names.entries ++ added ∧
    List.Forall₂ (fun e m => w'.nameTable.lookup? m.1.1 = some e.1 ∧ e.2 = .slot m.2) added
      (methods.zip slots)
  keys : ∀ name k, w.nameTable.lookup? name = some k → w'.nameTable.lookup? name = some k
  others : ∀ e, e ≠ d → w'.memberTable e = w.memberTable e
  slots : ∀ i, w.slots.Has i → w'.slot i = w.slot i
  signatures : ∀ i, w.signatures.Has i → w'.signature i = w.signature i

namespace NativesAdded

theorem addNative (w : SymbolTable) (d : MemberTableId) (name : String) (g : Signature) :
    w.NativesAdded d [] [] (w.addNative none name g) where
  natives := .nil
  members := rfl
  names := ⟨[], (List.append_nil _).symm, .nil⟩
  keys _ _ h := h
  others _ _ := rfl
  slots _ := (Arena.get_push_of_has · _)
  signatures _ := (Arena.get_push_of_has · _)

theorem refl (w : SymbolTable) (d : MemberTableId) : w.NativesAdded d [] [] w where
  natives := .nil
  members := rfl
  names := ⟨[], (List.append_nil _).symm, .nil⟩
  keys _ _ h := h
  others _ _ := rfl
  slots _ _ := rfl
  signatures _ _ := rfl

theorem cons (hn : (w.memberTable d).names.Known w.nameTable) (hd : w.memberTables.Has d)
    (hfree : w.IsFree d name)
    (h : (w.bindNative d name g).NativesAdded d methods slots w') :
    w.NativesAdded d ((name, g) :: methods) (w.slots.next :: slots) w' := by
  have hslots : ∀ i, w.slots.Has i → (w.bindNative d name g).slots.Has i := fun i hi => by
    rw [slots_bindNative]
    exact Arena.has_push.mpr (.inr hi)
  have hsignatures : ∀ i, w.signatures.Has i → (w.bindNative d name g).signatures.Has i :=
    fun i hi => by
      rw [signatures_bindNative]
      exact Arena.has_push.mpr (.inr hi)
  have native : w'.IsNative d (name, g) w.slots.next := by
    refine ⟨w.signatures.next, ?_, ?_⟩
    · rw [h.slots, slot, slots_bindNative, Arena.get_push_next]
      rw [slots_bindNative]
      exact Arena.has_push.mpr (.inl rfl)
    · rw [h.signatures, signature, signatures_bindNative, Arena.get_push_next]
      rw [signatures_bindNative]
      exact Arena.has_push.mpr (.inl rfl)
  have hkey := h.keys name _ (w.nameTable.lookup?_intern_self name)
  obtain ⟨added, hadded, hnames⟩ := h.names
  refine ⟨.cons ⟨w.slots.not_has_next, native⟩ ?_, ?_, ⟨(_, .slot w.slots.next) :: added, ?_,
    .cons ⟨hkey, rfl⟩ hnames⟩, fun name' k hk => h.keys name' k ?_, fun e he => ?_, fun i hi => ?_,
    fun i hi => ?_⟩
  · exact h.natives.imp fun _ _ hi => ⟨fun hs => hi.1 (hslots _ hs), hi.2⟩
  · rw [h.members, memberTable_bindNative hd]
  · have hunbound : (w.memberTable d).names.get? (w.nameTable.intern name).1 = none :=
      (hn.get?_intern name).trans hfree
    rw [hadded, memberTable_bindNative hd, Bindings.entries_insert hunbound, List.append_assoc]
    rfl
  · rw [nameTable_bindNative]
    exact NameTable.lookup?_intern_of_lookup? hk name
  · rw [h.others e he, memberTable, memberTables_bindNative, Arena.get_modify_of_ne he.symm]
    rfl
  · rw [h.slots i (hslots i hi), slot, slots_bindNative, Arena.get_push_of_has hi]
    rfl
  · rw [h.signatures i (hsignatures i hi), signature, signatures_bindNative,
      Arena.get_push_of_has hi]
    rfl

/-- Members stay as they were only if no method is added. -/
theorem memberTable_eq_iff (h : w.NativesAdded d methods slots w') :
    w'.memberTable d = w.memberTable d ↔ methods = [] := by
  constructor
  · intro he
    obtain ⟨added, hadded, hnames⟩ := h.names
    rw [he, List.self_eq_append_right] at hadded
    rw [hadded, List.forall₂_nil_left_iff, List.zip_eq_nil_iff] at hnames
    have hn := h.natives
    obtain rfl | rfl := hnames
    · rfl
    · cases hn
      rfl
  · rintro rfl
    obtain ⟨added, hadded, hnames⟩ := h.names
    rw [List.zip_nil_left, List.forall₂_nil_right_iff] at hnames
    rw [hnames, List.append_nil] at hadded
    rw [h.members, Bindings.eq_of_entries hadded]

end NativesAdded

/-- What a declaration of native methods, one after the other, comes to. -/
inductive NativesDeclared (w : SymbolTable) (d : MemberTableId)
    (methods : List (String × Signature)) :
    Except SymbolError (List SlotId) × SymbolTable → Prop where
  | all {slots : List SlotId} {w' : SymbolTable} (free : ∀ m ∈ methods, w.IsFree d m.1)
      (added : w.NativesAdded d methods slots w') (types : w'.types = w.types) :
      NativesDeclared w d methods (.ok slots, w')
  | upTo {before after : List (String × Signature)} {name : String} {g : Signature}
      {existing : Symbol} {slots : List SlotId} {w' : SymbolTable}
      (split : methods = before ++ (name, g) :: after) (free : ∀ m ∈ before, w.IsFree d m.1)
      (taken : w.bound? (.members d) name = some existing)
      (added : w.NativesAdded d before slots w') (types : w'.types = w.types) :
      NativesDeclared w d methods (.error (.duplicate name existing), w')

/-- A new method leaves what the other names are bound to. -/
theorem bound?_bindNative (hn : (w.memberTable d).names.Known w.nameTable)
    (hd : w.memberTables.Has d) {name' : String}
    (hne : Text.lowerCase name' ≠ Text.lowerCase name) :
    (w.bindNative d name g).bound? (.members d) name' = w.bound? (.members d) name' := by
  rw [bound?, bindings, memberTable_bindNative hd, nameTable_bindNative]
  exact (hn.lookup?_insert name name' _).trans (if_neg hne)

/-- A new method is bound to a slot that exists. -/
theorem has_of_get?_bindNative (hd : w.memberTables.Has d)
    (hbound : ∀ k i, (w.memberTable d).names.get? k = some (.slot i) → w.slots.Has i) {k : Key}
    {i : SlotId} (hk : ((w.bindNative d name g).memberTable d).names.get? k = some (.slot i)) :
    (w.bindNative d name g).slots.Has i := by
  rw [memberTable_bindNative hd, Bindings.get?_insert] at hk
  rw [slots_bindNative, Arena.has_push]
  split at hk
  · cases hk
    exact .inl rfl
  · exact .inr (hbound k i hk)

theorem declareNatives_declared (hn : (w.memberTable d).names.Known w.nameTable)
    (hd : w.memberTables.Has d)
    (hbound : ∀ k i, (w.memberTable d).names.get? k = some (.slot i) → w.slots.Has i)
    (hdistinct : (methods.map fun m => Text.lowerCase m.1).Nodup) :
    w.NativesDeclared d methods (w.declareNatives d methods) := by
  induction methods generalizing w with
  | nil => exact .all (by simp) (.refl w d) rfl
  | cons m methods ih =>
      obtain ⟨name, g⟩ := m
      rw [List.map_cons, List.nodup_cons] at hdistinct
      cases hname : w.bound? (.members d) name with
      | some existing =>
          -- To bind a name again to what it means is no failure, but the slot is a new one.
          have hne : existing ≠ .slot w.slots.next := by
            rintro rfl
            obtain ⟨k, -, hk⟩ := Option.bind_eq_some_iff.mp hname
            exact w.slots.not_has_next (hbound k _ hk)
          rw [declareNatives, declareNative_of_taken hn hname hne]
          exact .upTo rfl (by simp) hname (.addNative w d name g) rfl
      | none =>
          have hd' : (w.bindNative d name g).memberTables.Has d := by
            rw [memberTables_bindNative, Arena.Has, Arena.size_modify]
            exact hd
          -- The names differ, so that the rest meets the same free and taken ones as before.
          have others : ∀ m ∈ methods, (w.bindNative d name g).bound? (.members d) m.1 =
              w.bound? (.members d) m.1 :=
            fun m hm => bound?_bindNative hn hd fun he =>
              hdistinct.1 (List.mem_map.mpr ⟨m, hm, he⟩)
          have hrest := ih (known_bindNative hn hd name g) hd'
            (fun _ _ => has_of_get?_bindNative hd hbound) hdistinct.2
          rw [declareNatives, declareNative_of_free hn hname]
          dsimp only
          generalize (w.bindNative d name g).declareNatives d methods = r at hrest
          cases hrest with
          | all hfree added htypes =>
              refine .all (List.forall_mem_cons.mpr ⟨hname, fun m hm => ?_⟩)
                (added.cons hn hd hname) (htypes.trans (types_bindNative w d name g))
              exact (others m hm).symm.trans (hfree m hm)
          | @upTo before after name' g' existing _ _ hsplit hfree taken added htypes =>
              subst hsplit
              refine .upTo (List.cons_append ..).symm
                (List.forall_mem_cons.mpr ⟨hname, fun m hm => ?_⟩) ?_ (added.cons hn hd hname)
                (htypes.trans (types_bindNative w d name g))
              · exact (others m (List.mem_append_left _ hm)).symm.trans (hfree m hm)
              · exact (others (name', g') (by simp)).symm.trans taken

/-! ## The methods of an enum -/

theorem nodup_helperNames (t : TypeId) (isFlags : Bool) :
    ((helperSignatures t isFlags).map fun m => Text.lowerCase m.1).Nodup := by
  cases isFlags with
  | false =>
      change (["ValueOf", "ToDebugString"].map Text.lowerCase).Nodup
      decide +kernel
  | true =>
      change (["ValueOf", "ToDebugString", "Has", "Filter", "Add", "Remove", "Toggle"].map
        Text.lowerCase).Nodup
      decide +kernel

theorem length_helperSignatures (t : TypeId) (isFlags : Bool) :
    (helperSignatures t isFlags).length = if isFlags then 7 else 2 := by
  cases isFlags <;> rfl

/-- The first method of every enum is the one for its values. -/
theorem head?_helperSignatures (t : TypeId) (isFlags : Bool) :
    (helperSignatures t isFlags).head? = some ("ValueOf", { returns := .double }) := by
  cases isFlags <;> rfl

/-- The slots are recorded in their order, and the record has no others. -/
theorem toList_ofList (slots : List SlotId) (h : slots.length ≤ 7) :
    (EnumHelpers.ofList slots).toList =
      slots.map some ++ List.replicate (7 - slots.length) none := by
  have hrange : (EnumHelpers.ofList slots).toList = (List.range 7).map (slots[·]?) := rfl
  rw [hrange]
  apply List.ext_getElem
  · simp
    omega
  · intro i _ _
    by_cases hi : i < slots.length
    · simp [hi]
    · simp [List.getElem_append, hi]

/-- What the declaration of the methods of an enum comes to, where the enum has the members `d`. -/
structure HelperDeclaration (w : SymbolTable) (t : TypeId) (info : EnumInfo) (d : MemberTableId)
    (result : Except SymbolError Unit) (w' : SymbolTable) : Prop where
  ok_iff : result = .ok () ↔ ∀ m ∈ helperSignatures t info.isFlags, w.IsFree d m.1
  /-- All methods are bound to their names and recorded, and nothing else has changed. -/
  ok : result = .ok () → ∃ slots helpers,
    w.NativesAdded d (helperSignatures t info.isFlags) slots w' ∧
    slots.length = (if info.isFlags then 7 else 2) ∧
    helpers.toList = slots.map some ++ List.replicate (7 - slots.length) none ∧
    w'.type t = { w.type t with kind := .enum { info with helpers := helpers } } ∧
    ∀ u, u ≠ t → w'.type u = w.type u
  /-- Nothing is recorded, but the methods before the first whose name is taken are bound. -/
  error : ∀ e, result = .error e → w'.types = w.types ∧
    ∃ before name g after existing slots,
      helperSignatures t info.isFlags = before ++ (name, g) :: after ∧
      (∀ m ∈ before, w.IsFree d m.1) ∧
      w.bound? (.members d) name = some existing ∧
      e = .duplicate name existing ∧ w.NativesAdded d before slots w'
  /-- A failure leaves the members alone only if it is the first name that is taken. -/
  unchanged_iff : ∀ e, result = .error e →
    (w'.memberTable d = w.memberTable d ↔ ¬ w.IsFree d "ValueOf")

theorem helperDeclaration {t : TypeId} {info : EnumInfo} (hinfo : (w.type t).enum? = some info)
    (hmembers : (w.type t).members = some d) (hn : (w.memberTable d).names.Known w.nameTable)
    (hd : w.memberTables.Has d)
    (hbound : ∀ k i, (w.memberTable d).names.get? k = some (.slot i) → w.slots.Has i) :
    w.HelperDeclaration t info d (w.declareEnumHelpers t).1 (w.declareEnumHelpers t).2 := by
  have hdeclared := declareNatives_declared hn hd hbound (nodup_helperNames t info.isFlags)
  unfold declareEnumHelpers
  rw [hinfo, hmembers]
  dsimp only
  generalize w.declareNatives d (helperSignatures t info.isFlags) = r at hdeclared
  cases hdeclared with
  | @all slots w' hfree added htypes =>
      have hlength : slots.length = if info.isFlags then 7 else 2 :=
        added.natives.length_eq.symm.trans (length_helperSignatures t info.isFlags)
      refine ⟨iff_of_true rfl hfree, fun _ => ⟨slots, .ofList slots, ?_, hlength,
        toList_ofList slots (by split at hlength <;> omega), ?_, fun u hu => ?_⟩,
        by rintro _ ⟨⟩, by rintro _ ⟨⟩⟩
      · exact ⟨added.natives, added.members, added.names, added.keys, added.others, added.slots,
          added.signatures⟩
      · dsimp only [modifyType, type]
        rw [htypes, Arena.get_modify_self (has_of_members hmembers), TypeDecl.modifyEnum, ← type,
          TypeDecl.enum?_eq_some.mp hinfo]
      · dsimp only [modifyType, type]
        rw [htypes, Arena.get_modify_of_ne hu.symm]
  | @upTo before after name g existing slots w' hsplit hfree taken added htypes =>
      have hhead := head?_helperSignatures t info.isFlags
      rw [hsplit] at hhead
      refine ⟨⟨by rintro ⟨⟩, fun hall => ?_⟩, by rintro ⟨⟩, fun e he => ?_, fun e he => ?_⟩
      · have := hall (name, g) (hsplit ▸ by simp)
        rw [IsFree, taken] at this
        cases this
      · cases he
        exact ⟨htypes, before, name, g, after, existing, slots, hsplit, hfree, taken, rfl, added⟩
      · rw [added.memberTable_eq_iff]
        cases before with
        | nil =>
            obtain ⟨rfl, -⟩ : name = "ValueOf" ∧ _ := by simpa using hhead
            simp [IsFree, taken]
        | cons m before =>
            obtain rfl : m = _ := by simpa using hhead
            have := hfree _ List.mem_cons_self
            simp [this]

end SymbolTable

namespace Session

variable {s : Session}

/-- The declaration is not undone when it fails: the methods before the first name that is taken
are members from then on, although none of them is recorded. -/
theorem helperDeclaration_of_reachable (h : Reachable (fun _ => true) s) {t : TypeId}
    {info : EnumInfo} (hinfo : (s.table.type t).enum? = some info) :
    ∃ d, (s.table.type t).members = some d ∧
      s.table.HelperDeclaration t info d (s.table.declareEnumHelpers t).1
        (s.table.declareEnumHelpers t).2 := by
  have hk := TypeDecl.enum?_eq_some.mp hinfo
  obtain ⟨d, hd⟩ := h.paired.members_of_holds (t := t) (by rw [hk]; rfl)
  refine ⟨d, hd, SymbolTable.helperDeclaration hinfo hd (h.named (.members d))
    (h.closed.table.members_has hd) ?_⟩
  intro k i hi
  have := Bindings.covers_get? (h.closed.table.covers_bindings (.members d)) hi
  simpa [Symbol.ids, table] using this

/-- Two enums of flags. The first has a member under the name of the second helper. -/
def sampleStyles : List Operation :=
  [.edit (.addEnum "Style" true), .edit (.addEnum "Mode" true),
    .edit (.addSignature { returns := .string }), .edit (.addMethod "toDebugString" ⟨0⟩),
    .edit (.define (.members ⟨16⟩) "toDebugString" (.slot ⟨0⟩))]

/-- The first enum keeps `ValueOf` and has no helpers, the second has all of them. -/
theorem helperDeclaration_sampleStyles :
    let w := (performAll {} sampleStyles).table
    Session.Admits (fun _ => true) {} sampleStyles ∧
      (∃ info, (w.type ⟨20⟩).enum? = some info ∧
        (w.declareEnumHelpers ⟨20⟩).1 = .error (.duplicate "ToDebugString" (.slot ⟨0⟩)) ∧
        w.HelperDeclaration ⟨20⟩ info ⟨16⟩ (w.declareEnumHelpers ⟨20⟩).1
          (w.declareEnumHelpers ⟨20⟩).2 ∧
        (w.declareEnumHelpers ⟨20⟩).2.memberTable ⟨16⟩ ≠ w.memberTable ⟨16⟩) ∧
      ∃ info, (w.type ⟨21⟩).enum? = some info ∧ (w.declareEnumHelpers ⟨21⟩).1 = .ok () ∧
        w.HelperDeclaration ⟨21⟩ info ⟨17⟩ (w.declareEnumHelpers ⟨21⟩).1
          (w.declareEnumHelpers ⟨21⟩).2 := by
  have facts : let w := (performAll {} sampleStyles).table
      Session.Admits (fun _ => true) {} sampleStyles ∧
        (w.type ⟨20⟩).enum?.isSome ∧ (w.type ⟨20⟩).members = some ⟨16⟩ ∧
        (w.declareEnumHelpers ⟨20⟩).1 = .error (.duplicate "ToDebugString" (.slot ⟨0⟩)) ∧
        (w.bound? (.members ⟨16⟩) "ValueOf").isNone ∧
        (w.type ⟨21⟩).enum?.isSome ∧ (w.type ⟨21⟩).members = some ⟨17⟩ ∧
        (w.declareEnumHelpers ⟨21⟩).1 = .ok () := by
    decide +kernel
  obtain ⟨h, hstyle, hd, hfailed, hfree, hmode, he, hok⟩ := facts
  obtain ⟨style, hstyle⟩ := Option.isSome_iff_exists.mp hstyle
  obtain ⟨mode, hmode⟩ := Option.isSome_iff_exists.mp hmode
  have hr := Reachable.new.performAll h
  obtain ⟨d, hd', declaration⟩ := helperDeclaration_of_reachable hr hstyle
  obtain rfl : ⟨16⟩ = d := Option.some.inj (hd.symm.trans hd')
  obtain ⟨e, he', declaration'⟩ := helperDeclaration_of_reachable hr hmode
  obtain rfl : ⟨17⟩ = e := Option.some.inj (he.symm.trans he')
  refine ⟨h, ⟨style, hstyle, hfailed, declaration, fun hsame => ?_⟩, mode, hmode, hok,
    declaration'⟩
  exact (declaration.unchanged_iff _ hfailed).mp hsame (Option.isNone_iff_eq_none.mp hfree)

end Session
end StaticSemantics
