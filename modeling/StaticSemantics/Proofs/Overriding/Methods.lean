import StaticSemantics.Proofs.Conformance
import StaticSemantics.Proofs.Hierarchy.Order

/-!
Overriding of methods. Which inherited method a method overrides is stated without the order in
which it is checked: through the nearest inherited table that binds its name, and through what
aliases lead to. The check succeeds exactly if there is such a method. Overriding then records the
method with the one that it overrides and marks it, and changes nothing that the check depends on,
so that it can be repeated with no further effect.
-/

namespace StaticSemantics

namespace SymbolTable

/-- The slot that a name denotes among the members that a table inherits: the nearest table that
binds the name decides. -/
def Inherits (w : SymbolTable) (d : MemberTableId) (name : String) (q : SlotId) : Prop :=
  ∃ e s, w.inherited? d = some e ∧
    FirstFound w.inherited? (fun e => w.bound? (.members e) name) e s ∧
    w.LeadsTo s (.slot q)

/-- The accessor of the property that reads it. -/
def getter? (w : SymbolTable) (property : SlotId) : Option SlotId :=
  (w.slot property).propertyInfo?.bind PropertyInfo.getter

/-- The method that `candidate`, which holds `m`, takes the place of in an inherited slot: a method
that is no accessor takes that of the whole slot, an accessor that of the same accessor. -/
inductive Replaces (w : SymbolTable) (candidate : SlotId) (m : MethodInfo) (inherited : SlotId) :
    SlotId → Prop where
  | method {n : MethodInfo} (hp : m.ofProperty = none) (hn : w.methodInfo? inherited = some n)
      (hs : w.canOverride n.signature m.signature) : Replaces w candidate m inherited inherited
  | getter {property target : SlotId} {info : PropertyInfo} {n : MethodInfo}
      (hp : m.ofProperty = some property) (hg : w.getter? property = some candidate)
      (hi : (w.slot inherited).propertyInfo? = some info) (ht : info.getter = some target)
      (hn : w.methodInfo? target = some n) (hs : w.sameShape n.signature m.signature) :
      Replaces w candidate m inherited target
  | setter {property target : SlotId} {info : PropertyInfo} {n : MethodInfo}
      (hp : m.ofProperty = some property) (hg : w.getter? property ≠ some candidate)
      (hi : (w.slot inherited).propertyInfo? = some info) (ht : info.setter = some target)
      (hn : w.methodInfo? target = some n) (hs : w.sameShape n.signature m.signature) :
      Replaces w candidate m inherited target

/-- The method `m` in the slot `candidate`, as a member of a table, overrides `target` by way of an
inherited slot. The name and the visibility of an accessor are those of its property. -/
structure OverridesVia (w : SymbolTable) (candidate : SlotId) (d : MemberTableId) (m : MethodInfo)
    (inherited target : SlotId) : Prop where
  method : w.methodInfo? candidate = some m
  inherits : w.Inherits d (w.slot (m.ofProperty.getD candidate)).name inherited
  visible : (w.slot inherited).visibility ≠ .ownerOnly
  visibility : (w.slot inherited).visibility = (w.slot (m.ofProperty.getD candidate)).visibility
  replaces : w.Replaces candidate m inherited target
  overridable : ∀ n, w.methodInfo? target = some n → n.flags.notOverridable = false

/-- The method `candidate`, as a member of a table, overrides the inherited method `target`. -/
def Overrides (w : SymbolTable) (candidate : SlotId) (d : MemberTableId) (target : SlotId) : Prop :=
  ∃ m inherited, w.OverridesVia candidate d m inherited target

/-- What changes in the method of the slot `x` when `candidate` overrides `target` in a type. -/
def recordOverride (candidate target : SlotId) (t : TypeId) (x : SlotId) (m : MethodInfo) :
    MethodInfo :=
  { m with
    flags := { m.flags with overriding := m.flags.overriding || x = candidate }
    overriders := if x = target then (m.setOverrider t candidate).overriders else m.overriders }

variable {w w' : SymbolTable} {candidate target inherited : SlotId} {d : MemberTableId}
  {m : MethodInfo} {t : TypeId}

/-! ## When a method is overridden -/

theorem Closed.inheritedSlot?_eq_some_iff (h : w.Closed) {name : String} {q : SlotId} :
    w.inheritedSlot? d name = some q ↔ w.Inherits d name q := by
  have hi : (w.memberTable d).inherits = w.inherited? d := rfl
  rw [inheritedSlot?, Inherits, hi]
  cases w.inherited? d with
  | none => simp [slotNamed?_nil]
  | some e => simp [h.slotNamed?_memberChain]

theorem slotSignature_eq (hm : w.methodInfo? candidate = some m) :
    w.slotSignature candidate = m.signature := by
  simp [slotSignature, hm]

theorem overriddenAccessor_eq_ok_iff (hm : w.methodInfo? candidate = some m) {property : SlotId}
    {info : PropertyInfo} : w.overriddenAccessor candidate property info = .ok target ↔
      (if w.getter? property = some candidate then info.getter else info.setter) = some target ∧
        ∃ n, w.methodInfo? target = some n ∧ w.sameShape n.signature m.signature := by
  have hg : (w.slot property).propertyInfo?.bind PropertyInfo.getter = w.getter? property := rfl
  simp only [overriddenAccessor, slotSignature_eq hm, hg]
  split
  · simp_all
  · rename_i accessor haccessor
    rw [haccessor, Option.some.injEq]
    split
    · rename_i hn
      refine ⟨nofun, ?_⟩
      rintro ⟨rfl, n, hn', _⟩
      rw [hn] at hn'
      cases hn'
    · rename_i n hn
      constructor
      · intro hok
        split at hok
        · rename_i hs
          cases hok
          exact ⟨rfl, n, hn, hs⟩
        · cases hok
      · rintro ⟨rfl, n', hn', hs⟩
        rw [hn] at hn'
        cases hn'
        rw [if_pos hs]

theorem overriddenMethod_eq_ok_iff (hm : w.methodInfo? candidate = some m) :
    w.overriddenMethod candidate m.ofProperty inherited = .ok target ↔
      w.Replaces candidate m inherited target := by
  constructor
  · intro hok
    unfold overriddenMethod at hok
    split at hok
    · rename_i property info hp hdetail
      have hi := Slot.propertyInfo?_eq_some.mpr hdetail
      obtain ⟨htarget, n, hn, hs⟩ := (overriddenAccessor_eq_ok_iff hm).mp hok
      split at htarget
      · exact .getter hp ‹_› hi htarget hn hs
      · exact .setter hp ‹_› hi htarget hn hs
    · rename_i info hp hdetail
      rw [slotSignature_eq hm] at hok
      split at hok
      · cases hok
        exact .method hp (Slot.methodInfo?_eq_some.mpr hdetail) ‹_›
      · cases hok
    · cases hok
  · intro h
    cases h with
    | method hp hn hs =>
        simp only [overriddenMethod, hp, Slot.methodInfo?_eq_some.mp hn, slotSignature_eq hm]
        rw [if_pos hs]
    | getter hp hg hi ht hn hs =>
        simp only [overriddenMethod, hp, Slot.propertyInfo?_eq_some.mp hi]
        exact (overriddenAccessor_eq_ok_iff hm).mpr ⟨by rw [if_pos hg, ht], _, hn, hs⟩
    | setter hp hg hi ht hn hs =>
        simp only [overriddenMethod, hp, Slot.propertyInfo?_eq_some.mp hi]
        exact (overriddenAccessor_eq_ok_iff hm).mpr ⟨by rw [if_neg hg, ht], _, hn, hs⟩

theorem overridden_eq_ok_iff : w.overridden candidate d = .ok target ↔
    ∃ m inherited, w.methodInfo? candidate = some m ∧
      w.inheritedSlot? d (w.slot (m.ofProperty.getD candidate)).name = some inherited ∧
      (w.slot inherited).visibility ≠ .ownerOnly ∧
      (w.slot inherited).visibility = (w.slot (m.ofProperty.getD candidate)).visibility ∧
      w.Replaces candidate m inherited target ∧
      ∀ n, w.methodInfo? target = some n → n.flags.notOverridable = false := by
  have hany : ((w.methodInfo? target).any fun n => n.flags.notOverridable) = false ↔
      ∀ n, w.methodInfo? target = some n → n.flags.notOverridable = false := by
    cases w.methodInfo? target <;> simp
  rw [← hany]
  constructor
  · intro hok
    unfold overridden at hok
    dsimp only at hok
    split at hok
    · cases hok
    · rename_i m hm
      split at hok
      · cases hok
      · rename_i inherited hinherited
        split at hok
        · cases hok
        · rename_i hvisible
          split at hok
          · cases hok
          · rename_i hvisibility
            split at hok
            · cases hok
            · rename_i hfound
              split at hok
              · cases hok
              · rename_i hoverridable
                cases hok
                exact ⟨m, inherited, hm, hinherited, hvisible, not_not.mp hvisibility,
                  (overriddenMethod_eq_ok_iff hm).mp hfound,
                  Bool.eq_false_of_not_eq_true hoverridable⟩
  · rintro ⟨m, inherited, hm, hinherited, hvisible, hvisibility, hreplaces, hoverridable⟩
    have hfound := (overriddenMethod_eq_ok_iff hm).mpr hreplaces
    simp only [overridden, hm, hinherited, hfound]
    rw [if_neg hvisible, if_neg (not_not.mpr hvisibility), hoverridable, if_neg Bool.false_ne_true]

/-- The check succeeds with a method exactly if it is the one that is overridden. -/
theorem Closed.overridden_eq_ok_iff (h : w.Closed) :
    w.overridden candidate d = .ok target ↔ w.Overrides candidate d target := by
  rw [SymbolTable.overridden_eq_ok_iff]
  refine exists_congr fun m => exists_congr fun inherited => ?_
  rw [h.inheritedSlot?_eq_some_iff]
  exact ⟨fun ⟨hm, hi, hv, hv', hr, ho⟩ => ⟨hm, hi, hv, hv', hr, ho⟩,
    fun ⟨hm, hi, hv, hv', hr, ho⟩ => ⟨hm, hi, hv, hv', hr, ho⟩⟩

theorem Closed.overrides_unique (h : w.Closed) {target' : SlotId}
    (ht : w.Overrides candidate d target) (ht' : w.Overrides candidate d target') :
    target = target' := by
  rw [← h.overridden_eq_ok_iff] at ht ht'
  exact Except.ok.inj (ht.symm.trans ht')

/-! ## What is recorded -/

/-- `w'` is `w` with `candidate` recorded as overriding `target` in a type: only methods change, and
of them only the overriders of `target` and the mark of `candidate`. -/
structure Recorded (w : SymbolTable) (candidate target : SlotId) (t : TypeId) (w' : SymbolTable) :
    Prop where
  table : w' = { w with slots := w'.slots }
  count : w'.slots.size = w.slots.size
  slot : ∀ x, w'.slot x = (w.slot x).modifyMethod (recordOverride candidate target t x)

theorem slot_modifySlot_modifyMethod (w : SymbolTable) (s x : SlotId)
    (change : MethodInfo → MethodInfo) :
    (w.modifySlot s (Slot.modifyMethod change)).slot x =
      if x = s then (w.slot x).modifyMethod change else w.slot x := by
  unfold modifySlot slot
  rw [Arena.get_modify]
  by_cases hs : w.slots.Has s
  · simp [hs, eq_comm]
  · by_cases hx : x = s
    · -- a slot that is not there reads as the default one, which is no method
      subst hx
      simp only [hs, and_false, if_false, if_true, Arena.get_of_not_has hs]
      rfl
    · simp [hs, hx]

theorem override_eq_ok_iff : w.override candidate d = (.ok (), w') ↔
    ∃ target, w.overridden candidate d = .ok target ∧
      w' = (w.modifySlot target
        (Slot.modifyMethod (·.setOverrider (w.memberTable d).definedIn candidate))).modifySlot
        candidate
        (Slot.modifyMethod fun m => { m with flags := { m.flags with overriding := true } }) := by
  unfold override
  cases w.overridden candidate d with
  | error e => simp
  | ok target => simp [eq_comm]

theorem modifyMethod_recordOverride (candidate target x : SlotId) (t : TypeId) (s : Slot) :
    (let s' := if x = target then s.modifyMethod (·.setOverrider t candidate) else s
      if x = candidate then
        s'.modifyMethod fun m => { m with flags := { m.flags with overriding := true } }
      else s') = s.modifyMethod (recordOverride candidate target t x) := by
  obtain ⟨name, detail, visibility, definedIn⟩ := s
  rcases eq_or_ne x target with rfl | ht <;> rcases eq_or_ne x candidate with rfl | hc <;>
    cases detail <;> simp [*, Slot.modifyMethod, recordOverride, MethodInfo.setOverrider]

theorem recorded_of_override (hw : w.override candidate d = (.ok (), w')) :
    ∃ target, w.overridden candidate d = .ok target ∧
      w.Recorded candidate target (w.memberTable d).definedIn w' := by
  obtain ⟨target, htarget, rfl⟩ := override_eq_ok_iff.mp hw
  refine ⟨target, htarget, rfl, by simp [modifySlot], fun x => ?_⟩
  rw [slot_modifySlot_modifyMethod, slot_modifySlot_modifyMethod]
  exact modifyMethod_recordOverride candidate target x _ (w.slot x)

namespace Recorded

theorem methodInfo? (h : w.Recorded candidate target t w') (x : SlotId) :
    w'.methodInfo? x = (w.methodInfo? x).map (recordOverride candidate target t x) := by
  rw [SymbolTable.methodInfo?, h.slot, Slot.methodInfo?_modifyMethod, SymbolTable.methodInfo?]

theorem methodInfo?_of_some (h : w.Recorded candidate target t w') {x : SlotId} {n : MethodInfo}
    (hn : w.methodInfo? x = some n) :
    w'.methodInfo? x = some (recordOverride candidate target t x n) := by
  rw [h.methodInfo?, hn, Option.map_some]

/-- The other slots stay as they are. -/
theorem slot_of_ne (h : w.Recorded candidate target t w') {x : SlotId} (ht : x ≠ target)
    (hc : x ≠ candidate) : w'.slot x = w.slot x := by
  have hid : recordOverride candidate target t x = id := by
    funext m
    simp [recordOverride, ht, hc]
  rw [h.slot, hid, Slot.modifyMethod_id]

theorem name (h : w.Recorded candidate target t w') (x : SlotId) :
    (w'.slot x).name = (w.slot x).name := by
  rw [h.slot, Slot.name_modifyMethod]

theorem visibility (h : w.Recorded candidate target t w') (x : SlotId) :
    (w'.slot x).visibility = (w.slot x).visibility := by
  rw [h.slot, Slot.visibility_modifyMethod]

theorem propertyInfo? (h : w.Recorded candidate target t w') (x : SlotId) :
    (w'.slot x).propertyInfo? = (w.slot x).propertyInfo? := by
  rw [h.slot, Slot.propertyInfo?_modifyMethod]

theorem memberTable (h : w.Recorded candidate target t w') (e : MemberTableId) :
    w'.memberTable e = w.memberTable e := by
  rw [h.table]
  rfl

theorem signature (h : w.Recorded candidate target t w') (g : SignatureId) :
    w'.signature g = w.signature g := by
  rw [h.table]
  rfl

theorem canOverride (h : w.Recorded candidate target t w') (base g : SignatureId) :
    w'.canOverride base g = w.canOverride base g := by
  have htypes : w'.types = w.types := by rw [h.table]
  simp only [SymbolTable.canOverride, h.signature, isSubtype_eq_of_types htypes]

theorem sameShape (h : w.Recorded candidate target t w') (g k : SignatureId) :
    w'.sameShape g k = w.sameShape g k := by
  simp only [SymbolTable.sameShape, h.signature]

theorem inherits (h : w.Recorded candidate target t w') {name : String} {q : SlotId}
    (hq : w.Inherits d name q) : w'.Inherits d name q := by
  obtain ⟨e, s, he, hs, hq⟩ := hq
  have haliases : w'.aliases = w.aliases := by rw [h.table]
  have hnext : w'.inherited? = w.inherited? := by
    funext e
    simp only [inherited?, h.memberTable]
  have hentry : ∀ e, w'.bound? (.members e) name = w.bound? (.members e) name := fun e => by
    rw [h.table]
    rfl
  refine ⟨e, s, hnext ▸ he, ?_, hq.of_aliases haliases⟩
  simpa only [hnext, hentry] using hs

theorem replaces (h : w.Recorded candidate target t w')
    (hr : w.Replaces candidate m inherited target) (x : SlotId) :
    w'.Replaces candidate (recordOverride candidate target t x m) inherited target := by
  have hgetter : ∀ property, w'.getter? property = w.getter? property := fun property => by
    rw [getter?, h.propertyInfo?, getter?]
  cases hr with
  | method hp hn hs =>
      exact .method hp (h.methodInfo?_of_some hn) ((h.canOverride _ _).trans hs)
  | getter hp hg hi ht hn hs =>
      exact .getter hp ((hgetter _).trans hg) ((h.propertyInfo? _).trans hi) ht
        (h.methodInfo?_of_some hn) ((h.sameShape _ _).trans hs)
  | setter hp hg hi ht hn hs =>
      exact .setter hp (hgetter _ ▸ hg) ((h.propertyInfo? _).trans hi) ht
        (h.methodInfo?_of_some hn) ((h.sameShape _ _).trans hs)

/-- What has been recorded as overridden is still overridden. -/
theorem overrides (h : w.Recorded candidate target t w') (ho : w.Overrides candidate d target) :
    w'.Overrides candidate d target := by
  obtain ⟨m, inherited, via⟩ := ho
  refine ⟨recordOverride candidate target t candidate m, inherited, ?_⟩
  exact {
    method := h.methodInfo?_of_some via.method
    inherits := (h.name _).symm ▸ h.inherits via.inherits
    visible := (h.visibility _).symm ▸ via.visible
    visibility := (h.visibility _).trans (via.visibility.trans (h.visibility _).symm)
    replaces := h.replaces via.replaces candidate
    overridable := by
      intro n' hn'
      rw [h.methodInfo?, Option.map_eq_some_iff] at hn'
      obtain ⟨n, hn, rfl⟩ := hn'
      exact via.overridable n hn }

/-- To record the same again changes nothing. -/
theorem modifySlot_eq_self (h : w.Recorded candidate target t w') :
    (w'.modifySlot target (Slot.modifyMethod (·.setOverrider t candidate))).modifySlot candidate
      (Slot.modifyMethod fun m => { m with flags := { m.flags with overriding := true } }) =
        w' := by
  have keep : ∀ s (change : MethodInfo → MethodInfo),
      change ∘ recordOverride candidate target t s = recordOverride candidate target t s →
      w'.modifySlot s (Slot.modifyMethod change) = w' := by
    intro s change hchange
    have hs : (w'.slot s).modifyMethod change = w'.slot s := by
      rw [h.slot, Slot.modifyMethod_modifyMethod, hchange]
    rw [modifySlot, Arena.modify_eq_self hs]
  have htarget := keep target (·.setOverrider t candidate) <| by
    funext m
    have hput := congrArg MethodInfo.overriders (m.setOverrider_setOverrider t candidate)
    simpa [recordOverride, MethodInfo.setOverrider] using hput
  have hcandidate := keep candidate
      (fun m => { m with flags := { m.flags with overriding := true } }) <| by
    funext m
    simp [recordOverride]
  rw [htarget, hcandidate]

end Recorded

/-! ## What overriding comes to -/

theorem Replaces.exists_methodInfo? (h : w.Replaces candidate m inherited target) :
    ∃ n, w.methodInfo? target = some n := by
  cases h with
  | method _ hn _ | getter _ _ _ _ hn _ | setter _ _ _ _ hn _ => exact ⟨_, hn⟩

theorem has_of_methodInfo? {x : SlotId} (hm : w.methodInfo? x = some m) : w.slots.Has x := by
  by_contra hn
  rw [methodInfo?, slot, Arena.get_of_not_has hn] at hm
  cases hm

/-- What has changed once `candidate` overrides `target` in a type. -/
structure OverrideEffect (w : SymbolTable) (candidate target : SlotId) (t : TypeId)
    (w' : SymbolTable) : Prop extends w.Recorded candidate target t w' where
  others : ∀ x, x ≠ target → x ≠ candidate → w'.slot x = w.slot x
  marked : ∃ m, w'.methodInfo? candidate = some m ∧ m.flags.overriding
  overriders : ∃ n n', w.methodInfo? target = some n ∧ w'.methodInfo? target = some n' ∧
    (∀ u, n'.overriderIn? u = if u = t then some candidate else n.overriderIn? u) ∧
    n'.overriders.filter (·.1 ≠ t) = n.overriders.filter (·.1 ≠ t)

theorem Recorded.overrideEffect (h : w.Recorded candidate target t w')
    (ho : w.Overrides candidate d target) : w.OverrideEffect candidate target t w' := by
  obtain ⟨m, inherited, via⟩ := ho
  obtain ⟨n, hn⟩ := via.replaces.exists_methodInfo?
  have hput : (recordOverride candidate target t target n).overriders =
      (n.setOverrider t candidate).overriders := if_pos rfl
  exact {
    toRecorded := h
    others := fun x => h.slot_of_ne
    marked := ⟨_, h.methodInfo?_of_some via.method, by simp [recordOverride]⟩
    overriders := by
      refine ⟨n, _, hn, h.methodInfo?_of_some hn, fun u => ?_, ?_⟩
      · rw [← n.overriderIn?_setOverrider, MethodInfo.overriderIn?, hput, MethodInfo.overriderIn?]
      · rw [hput, n.filter_setOverrider] }

/-- Overriding succeeds exactly if there is a method to override. -/
theorem Closed.override_isOk_iff (h : w.Closed) :
    (∃ w', w.override candidate d = (.ok (), w')) ↔ ∃ target, w.Overrides candidate d target := by
  simp only [override_eq_ok_iff, ← h.overridden_eq_ok_iff]
  constructor
  · rintro ⟨_, target, htarget, _⟩
    exact ⟨target, htarget⟩
  · rintro ⟨target, htarget⟩
    exact ⟨_, target, htarget, rfl⟩

theorem Closed.overrideEffect (h : w.Closed) (hw : w.override candidate d = (.ok (), w')) :
    ∃ target, w.Overrides candidate d target ∧
      w.OverrideEffect candidate target (w.memberTable d).definedIn w' := by
  obtain ⟨target, htarget, hrecorded⟩ := recorded_of_override hw
  have ho := h.overridden_eq_ok_iff.mp htarget
  exact ⟨target, ho, hrecorded.overrideEffect ho⟩

/-- Overriding once more succeeds and changes nothing. -/
theorem Closed.override_again (h : w.Closed) (hw : w.override candidate d = (.ok (), w')) :
    w'.override candidate d = (.ok (), w') := by
  obtain ⟨target, htarget, hrecorded⟩ := recorded_of_override hw
  have ho := h.overridden_eq_ok_iff.mp htarget
  obtain ⟨m, _, via⟩ := ho
  have hclosed : w'.Closed := by
    have hc := (h.override d (has_of_methodInfo? via.method)).1
    rwa [hw] at hc
  have htarget' := hclosed.overridden_eq_ok_iff.mpr (hrecorded.overrides ⟨m, _, via⟩)
  refine override_eq_ok_iff.mpr ⟨target, htarget', ?_⟩
  rw [hrecorded.memberTable]
  exact hrecorded.modifySlot_eq_self.symm

end SymbolTable

namespace Session

/-- Overriding in a session is exact, and done as a whole or not at all. -/
structure ExactOverriding (s : Session) (candidate : SlotId) (d : MemberTableId) : Prop where
  isOk_iff : (∃ w, s.table.override candidate d = (.ok (), w)) ↔
    ∃ target, s.table.Overrides candidate d target
  unique : ∀ target target', s.table.Overrides candidate d target →
    s.table.Overrides candidate d target' → target = target'
  error : ∀ e w, s.table.override candidate d = (.error e, w) →
    w = s.table ∧ s.perform (.edit (.override candidate d)) = s
  ok : ∀ w, s.table.override candidate d = (.ok (), w) →
    s.perform (.edit (.override candidate d)) = s.withTable w ∧
      ∃ target, s.table.Overrides candidate d target ∧
        s.table.OverrideEffect candidate target (s.table.memberTable d).definedIn w
  again : ∀ w, s.table.override candidate d = (.ok (), w) →
    w.override candidate d = (.ok (), w)

/-- In every session a method overrides an inherited one exactly if there is one that it fits; this
changes the two methods and nothing else, and a failure or a repetition changes nothing. -/
theorem exactOverriding_of_reachable {s : Session} (h : Reachable (fun _ => true) s)
    (candidate : SlotId) (d : MemberTableId) : s.ExactOverriding candidate d := by
  have hc : s.table.Closed := h.closed.table
  exact {
    isOk_iff := hc.override_isOk_iff
    unique := fun _ _ => hc.overrides_unique
    error := fun e w he => by
      have hw : w = s.table := by
        have hrefused := SymbolTable.override_refused (congrArg Prod.fst he)
        rwa [he] at hrefused
      exact ⟨hw, by rw [perform, SymbolTable.apply, he, hw]; rfl⟩
    ok := fun w hw => ⟨by rw [perform, SymbolTable.apply, hw], hc.overrideEffect hw⟩
    again := fun w => hc.override_again }

/-- A class below another one. Each has a method, which the upper class binds by way of an alias,
and a property with a getter. -/
def sampleOverriding : List Operation :=
  [.edit (.addClass "Body" false), .edit (.addClass "Cube" false),
    .edit (.extendClass ⟨21⟩ ⟨20⟩), .edit (.addSignature { returns := .integer }),
    .edit (.addMethod "Count" ⟨0⟩), .edit (.addMethod "Count" ⟨0⟩),
    .edit (.addProperty "Size" none), .edit (.addMethod "GetSize" ⟨0⟩),
    .edit (.setAccessors ⟨2⟩ (some ⟨3⟩) none),
    .edit (.addProperty "Size" none), .edit (.addMethod "GetSize" ⟨0⟩),
    .edit (.setAccessors ⟨4⟩ (some ⟨5⟩) none),
    .edit (.addAlias "Count" (.slot ⟨0⟩)),
    .edit (.define (.members ⟨16⟩) "Count" (.aliasDecl ⟨0⟩)),
    .edit (.define (.members ⟨16⟩) "Size" (.slot ⟨2⟩)),
    .edit (.define (.members ⟨17⟩) "Count" (.slot ⟨1⟩)),
    .edit (.define (.members ⟨17⟩) "Size" (.slot ⟨4⟩))]

/-- The method and the getter of the lower class override those of the upper class, and the method
of the upper class overrides nothing. -/
theorem exactOverriding_sampleOverriding :
    let s := performAll {} sampleOverriding
    Session.Admits (fun _ => true) {} sampleOverriding ∧
      (∃ w, s.table.override ⟨1⟩ ⟨17⟩ = (.ok (), w) ∧ s.table.OverrideEffect ⟨1⟩ ⟨0⟩ ⟨21⟩ w ∧
        w.override ⟨1⟩ ⟨17⟩ = (.ok (), w)) ∧
      (∃ w, s.table.override ⟨5⟩ ⟨17⟩ = (.ok (), w) ∧ s.table.OverrideEffect ⟨5⟩ ⟨3⟩ ⟨21⟩ w ∧
        w.override ⟨5⟩ ⟨17⟩ = (.ok (), w)) ∧
      s.perform (.edit (.override ⟨0⟩ ⟨16⟩)) = s := by
  have facts : let w := (performAll {} sampleOverriding).table
      Session.Admits (fun _ => true) {} sampleOverriding ∧
        w.overridden ⟨1⟩ ⟨17⟩ = .ok ⟨0⟩ ∧ w.overridden ⟨5⟩ ⟨17⟩ = .ok ⟨3⟩ ∧
        w.overridden ⟨0⟩ ⟨16⟩ = .error .nothingToOverride ∧
        (w.memberTable ⟨17⟩).definedIn = ⟨21⟩ := by
    decide +kernel
  obtain ⟨h, hmethod, hgetter, hnothing, howner⟩ := facts
  have hr := Reachable.new.performAll h
  have found : ∀ candidate target,
      (performAll {} sampleOverriding).table.overridden candidate ⟨17⟩ = .ok target →
      ∃ w, (performAll {} sampleOverriding).table.override candidate ⟨17⟩ = (.ok (), w) ∧
        (performAll {} sampleOverriding).table.OverrideEffect candidate target ⟨21⟩ w ∧
        w.override candidate ⟨17⟩ = (.ok (), w) := by
    intro candidate target htarget
    have hexact := exactOverriding_of_reachable hr candidate ⟨17⟩
    have ho := hr.closed.table.overridden_eq_ok_iff.mp htarget
    obtain ⟨w, hw⟩ := hexact.isOk_iff.mpr ⟨target, ho⟩
    obtain ⟨_, target', ho', heffect⟩ := hexact.ok w hw
    rw [howner, ← hexact.unique target target' ho ho'] at heffect
    exact ⟨w, hw, heffect, hexact.again w hw⟩
  refine ⟨h, found _ _ hmethod, found _ _ hgetter, ?_⟩
  have hrefused : (performAll {} sampleOverriding).table.override ⟨0⟩ ⟨16⟩ =
      (.error .nothingToOverride, (performAll {} sampleOverriding).table) := by
    rw [SymbolTable.override, hnothing]
  exact ((exactOverriding_of_reachable hr ⟨0⟩ ⟨16⟩).error _ _ hrefused).2

end Session
end StaticSemantics
