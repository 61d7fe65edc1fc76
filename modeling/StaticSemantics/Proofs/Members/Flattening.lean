import StaticSemantics.Proofs.Hierarchy.Subtyping
import StaticSemantics.Proofs.Members.Names
import StaticSemantics.Proofs.Members.Ownership

/-!
Flattening of interfaces. An interface that extends another one takes over its super interfaces,
names and operators at that moment. What the other one takes over later does not come down, so that
the order of the extensions matters: all stays flat as long as nothing below the interface that is
extended misses the new base, and no longer.
-/

namespace StaticSemantics

open Relation

namespace SymbolTable

/-! ## Merging -/

theorem contains_mergeNames {source target : Bindings} {k : Key} :
    (mergeNames source target).contains k ↔ target.contains k ∨ source.contains k := by
  simp only [Bindings.contains_eq_isSome, get?_mergeNames, Option.isSome_or, Bool.or_eq_true]

theorem isSome_operator?_mergeMembers {source target : MemberTable} {op : Operator} :
    ((mergeMembers source target).operator? op).isSome ↔
      (target.operator? op).isSome ∨ (source.operator? op).isSome := by
  rw [operator?_mergeMembers, Option.isSome_or, Bool.or_eq_true]

/-! ## Flat tables -/

/-- The interfaces that an interface lists above it. -/
def superInterfaces (w : SymbolTable) (t : TypeId) : List TypeId :=
  ((w.type t).interface?.map InterfaceInfo.supers).getD []

/-- A type has a member under the key in its own table. -/
def HasName (w : SymbolTable) (t : TypeId) (k : Key) : Prop :=
  ∃ d, (w.type t).members = some d ∧ (w.memberTable d).names.contains k

/-- A type has the operator in its own table. -/
def HasOperator (w : SymbolTable) (t : TypeId) (op : Operator) : Prop :=
  ∃ d, (w.type t).members = some d ∧ ((w.memberTable d).operator? op).isSome

/-- An interface lists another one and has all that is in its table. -/
structure TakesOver (w : SymbolTable) (t u : TypeId) : Prop where
  listed : u ∈ w.superInterfaces t
  names : ∀ k, w.HasName u k → w.HasName t k
  operators : ∀ op, w.HasOperator u op → w.HasOperator t op

/-- Every interface takes over all that is above it. -/
def Flattened (w : SymbolTable) : Prop :=
  ∀ t u, (w.type t).isInterface → (w.type u).isInterface → t ≠ u → w.isSubtype t u →
    w.TakesOver t u

/-- Extending `t` by `base` leaves nothing below `t` behind: either nothing is done, or all
interfaces below `t` are below `base` already. -/
def Timely (w : SymbolTable) (t base : TypeId) : Prop :=
  (w.type t).isInterface → (w.type base).isInterface → w.isSubtype base t = false →
    w.isSubtype t base = false → ∀ u ∈ w.types.ids, (w.type u).isInterface → u ≠ t →
      w.isSubtype u t → w.isSubtype u base

instance (w : SymbolTable) (t base : TypeId) : Decidable (w.Timely t base) := by
  unfold Timely
  infer_instance

variable {w w' : SymbolTable} {t u base : TypeId}

theorem superInterfaces_of_kind {info : InterfaceInfo} (hk : (w.type t).kind = .interface info) :
    w.superInterfaces t = info.supers := by
  simp [superInterfaces, TypeDecl.interface?, hk]

theorem directSuper_of_listed (h : u ∈ w.superInterfaces t) : w.DirectSuper t u := by
  cases hk : (w.type t).kind with
  | interface info => exact .extends hk (superInterfaces_of_kind hk ▸ h)
  | _ => simp [superInterfaces, TypeDecl.interface?, hk] at h

/-- What stands directly above an interface is listed, unless it is `Any`. -/
theorem Layered.listed_of_above (h : w.Layered) (ht : (w.outline t).isInterface)
    (hu : (w.outline u).isInterface) (htu : w.outline.Above t u) : u ∈ w.superInterfaces t := by
  obtain ⟨hw, hna, _⟩ := Outline.of_isInterface ht
  rcases htu with hs | hs
  · have hany := Outlines.Layered.any_isAny h
    rw [Outlines.superType?_of_wraps hw, hna, h.interface t ht] at hs
    cases hs
    rw [Option.getD_none, (Outline.of_isInterface hu).2.1] at *
    cases hany
  · obtain ⟨info, hk⟩ := exists_of_isInterface (d := w.type t) (by simpa [outline] using ht)
    rwa [outline, TypeDecl.interfaces_of_interface hk, ← superInterfaces_of_kind hk] at hs

/-- Among interfaces subtyping is reachability over the lists. -/
theorem Layered.isSubtype_iff_listed (h : w.Layered) (ht : (w.type t).isInterface)
    (hu : (w.type u).isInterface) :
    w.isSubtype t u ↔ ReflTransGen (fun a b => b ∈ w.superInterfaces a) t u := by
  have hany : (w.type u).isAny = false := by
    obtain ⟨info, hk⟩ := exists_of_isInterface hu
    simp [TypeDecl.isAny, hk]
  rw [h.isSubtype_iff_reach, hany]
  simp only [Bool.false_eq_true, false_or]
  constructor
  · intro hr
    induction hr using ReflTransGen.head_induction_on with
    | refl => exact .refl
    | @head a b hab hbu ih =>
        have ha : (w.outline a).isInterface := by simpa [outline] using ht
        have hb := directSuper_iff_above.mp hab
        rcases h.isInterface_of_above ha hb with hk | hk
        · -- nothing is above `Any`, and `u` is not `Any`
          rcases ReflTransGen.cases_head hbu with rfl | ⟨c, hc, _⟩
          · simp [outline, hany] at hk
          · exact absurd (directSuper_iff_above.mp hc) (Outlines.not_above_of_isAny hk)
        · exact .head (h.listed_of_above ha hk hb) (ih (by simpa [outline] using hk))
  · exact ReflTransGen.mono (fun _ _ => directSuper_of_listed) _ _

/-! ## One extension -/

/-- `w'` is `w` after `t` has taken over what `base` has at this moment. -/
structure Absorbs (w w' : SymbolTable) (t base : TypeId) : Prop where
  interface : ∀ u, (w'.type u).isInterface = (w.type u).isInterface
  listed : ∀ u v, v ∈ w'.superInterfaces u ↔
    v ∈ w.superInterfaces u ∨ (u = t ∧ (v = base ∨ v ∈ w.superInterfaces base))
  names : ∀ u k, w'.HasName u k ↔ w.HasName u k ∨ (u = t ∧ w.HasName base k)
  operators : ∀ u op, w'.HasOperator u op ↔
    w.HasOperator u op ∨ (u = t ∧ w.HasOperator base op)

theorem interface?_modifyInterface (d : TypeDecl) (change : InterfaceInfo → InterfaceInfo) :
    (d.modifyInterface change).interface? = d.interface?.map change := by
  cases hk : d.kind <;> simp [TypeDecl.modifyInterface, TypeDecl.interface?, hk]

theorem isInterface_eq (d : TypeDecl) : d.isInterface = d.interface?.isSome := by
  cases hk : d.kind <;> simp [TypeDecl.isInterface, TypeDecl.interface?, hk]

theorem interface?_modifyType (ht : w.types.Has t) (change : InterfaceInfo → InterfaceInfo)
    (u : TypeId) :
    ((w.modifyType t (TypeDecl.modifyInterface change)).type u).interface? =
      if u = t then (w.type u).interface?.map change else (w.type u).interface? := by
  by_cases hu : u = t
  · subst hu
    rw [if_pos rfl, type, modifyType, Arena.get_modify_self ht, interface?_modifyInterface]
    rfl
  · rw [if_neg hu, type, modifyType, Arena.get_modify_of_ne (Ne.symm hu)]
    rfl

theorem isInterface_linkInterfaces (ht : (w.type t).isInterface) (hb : (w.type base).isInterface)
    (u : TypeId) : ((w.linkInterfaces t base).type u).isInterface = (w.type u).isInterface := by
  simp only [isInterface_eq, linkInterfaces]
  rw [interface?_modifyType (by simpa [modifyType, Arena.Has] using has_of_isInterface hb),
    interface?_modifyType (has_of_isInterface ht)]
  split <;> split <;> simp

theorem listed_linkInterfaces (ht : (w.type t).isInterface) (hb : (w.type base).isInterface)
    (u v : TypeId) : v ∈ (w.linkInterfaces t base).superInterfaces u ↔
      v ∈ w.superInterfaces u ∨ (u = t ∧ (v = base ∨ v ∈ w.superInterfaces base)) := by
  have keep : (w.linkInterfaces t base).superInterfaces u = (w.modifyType t
      (TypeDecl.modifyInterface fun info => { info with
        supers := (base :: w.superInterfaces base).foldl addLast info.supers })).superInterfaces
          u := by
    simp only [superInterfaces, linkInterfaces]
    rw [interface?_modifyType (by simpa [modifyType, Arena.Has] using has_of_isInterface hb)]
    split
    · rw [Option.map_map]
      rfl
    · rfl
  rw [keep]
  obtain ⟨info, hk⟩ := exists_of_isInterface ht
  have hi : (w.type t).interface? = some info := by simp [TypeDecl.interface?, hk]
  by_cases hu : u = t
  · subst hu
    rw [superInterfaces, interface?_modifyType (has_of_isInterface ht), if_pos rfl, hi,
      superInterfaces_of_kind hk]
    simp only [Option.map_some, Option.getD_some, mem_foldl_addLast, List.mem_cons, true_and]
  · rw [superInterfaces, interface?_modifyType (has_of_isInterface ht), if_neg hu]
    simp only [hu, false_and, or_false]
    rfl

theorem Paired.members_of_isInterface (h : w.Paired) (ht : (w.type t).isInterface) :
    ∃ d, (w.type t).members = some d := by
  obtain ⟨info, hk⟩ := exists_of_isInterface ht
  exact h.members_of_holds (by rw [hk]; rfl)

/-- The table in which `t` has been linked below `base` and its members, those in `e`, have taken
over what is in `d`. -/
def takeOver (w : SymbolTable) (t base : TypeId) (d e : MemberTableId) : SymbolTable :=
  (w.linkInterfaces t base).modifyMemberTable e (mergeMembers (w.memberTable d))

theorem extendInterface_of_unrelated (ht : (w.type t).isInterface)
    (hb : (w.type base).isInterface)
    (hr : (w.isSubtype base t || w.isSubtype t base) = false) {d e : MemberTableId}
    (hd : (w.type base).members = some d) (he : (w.type t).members = some e) :
    w.extendInterface t base = (.ok (w.conflicts (w.memberTable d).names (w.memberTable e).names),
      w.takeOver t base d e) := by
  simp only [extendInterface, List.find?_cons, List.find?_nil, ht, hb, hr, hd, he]
  rfl

theorem Paired.memberTable_takeOver (h : w.Paired) {e : MemberTableId}
    (he : (w.type t).members = some e) (d d' : MemberTableId) :
    (w.takeOver t base d e).memberTable d' =
      if d' = e then mergeMembers (w.memberTable d) (w.memberTable e) else w.memberTable d' := by
  by_cases hd' : d' = e
  · subst hd'
    rw [if_pos rfl]
    exact Arena.get_modify_self ((h.owner t d').mp he).1 _
  · rw [if_neg hd']
    exact Arena.get_modify_of_ne (Ne.symm hd') _ _

/-- An extension of an interface by one that is not related to it takes over what that one has. -/
theorem Paired.absorbs (h : w.Paired) (ht : (w.type t).isInterface)
    (hb : (w.type base).isInterface)
    (hr : (w.isSubtype base t || w.isSubtype t base) = false) :
    Absorbs w (w.apply (.extendInterface t base)) t base := by
  obtain ⟨d, hd⟩ := h.members_of_isInterface hb
  obtain ⟨e, he⟩ := h.members_of_isInterface ht
  have happly : w.apply (.extendInterface t base) = w.takeOver t base d e := by
    rw [SymbolTable.apply, extendInterface_of_unrelated ht hb hr hd he]
  have members : ∀ u, ((w.takeOver t base d e).type u).members = (w.type u).members :=
    fun u => congrArg TypeLinks.members ((same_linkInterfaces w t base).type u)
  have owner : ∀ u, (w.type u).members = some e ↔ u = t := by
    intro u
    refine ⟨fun hu => ?_, fun hu => hu ▸ he⟩
    exact ((h.owner u e).mp hu).2.symm.trans ((h.owner t e).mp he).2
  -- names and operators are taken over in the same way
  have takes (has : MemberTable → Prop)
      (hmerge : has (mergeMembers (w.memberTable d) (w.memberTable e)) ↔
        has (w.memberTable e) ∨ has (w.memberTable d)) (u : TypeId) :
      (∃ d', (w.type u).members = some d' ∧ has ((w.takeOver t base d e).memberTable d')) ↔
      (∃ d', (w.type u).members = some d' ∧ has (w.memberTable d')) ∨
        (u = t ∧ ∃ d', (w.type base).members = some d' ∧ has (w.memberTable d')) := by
    simp only [h.memberTable_takeOver he, hd, Option.some.injEq, exists_eq_left']
    by_cases hu : u = t
    · subst hu
      simp [he, hmerge]
    · simp only [hu, false_and, or_false]
      refine exists_congr fun d' => and_congr_right fun hd' => ?_
      have hne : d' ≠ e := fun hde => hu ((owner u).mp (hde ▸ hd'))
      rw [if_neg hne]
  rw [happly]
  refine ⟨fun u => ?_, fun u v => ?_, fun u k => ?_, fun u op => ?_⟩
  · exact isInterface_linkInterfaces ht hb u
  · exact listed_linkInterfaces ht hb u v
  · simp only [HasName, members]
    exact takes (·.names.contains k) (by rw [names_mergeMembers, contains_mergeNames]) u
  · simp only [HasOperator, members]
    exact takes (fun m => (m.operator? op).isSome) isSome_operator?_mergeMembers u

/-- A path after the extension is one from before, or goes up through the new link. -/
theorem Absorbs.reach_iff (h : Absorbs w w' t base) {a b : TypeId} :
    ReflTransGen (fun a b => b ∈ w'.superInterfaces a) a b ↔
      ReflTransGen (fun a b => b ∈ w.superInterfaces a) a b ∨
        (ReflTransGen (fun a b => b ∈ w.superInterfaces a) a t ∧
          ReflTransGen (fun a b => b ∈ w.superInterfaces a) base b) := by
  have old : ReflTransGen (fun a b => b ∈ w.superInterfaces a) ≤
      ReflTransGen (fun a b => b ∈ w'.superInterfaces a) :=
    ReflTransGen.mono fun x y hxy => (h.listed x y).mpr (.inl hxy)
  constructor
  · intro hr
    induction hr using ReflTransGen.head_induction_on with
    | refl => exact .inl .refl
    | @head a c hac _ ih =>
        rcases (h.listed a c).mp hac with hac | ⟨rfl, hc⟩
        · exact ih.imp (.head hac) fun ⟨hct, hb⟩ => ⟨.head hac hct, hb⟩
        · have hbc : ReflTransGen (fun a b => b ∈ w.superInterfaces a) base c := by
            rcases hc with rfl | hc
            · exact .refl
            · exact .single hc
          rcases ih with ih | ⟨_, ih⟩
          · exact .inr ⟨.refl, hbc.trans ih⟩
          · exact .inr ⟨.refl, ih⟩
  · rintro (hr | ⟨hat, hbb⟩)
    · exact old _ _ hr
    · have hlink : base ∈ w'.superInterfaces t := (h.listed t base).mpr (.inr ⟨rfl, .inl rfl⟩)
      exact (old _ _ hat).trans (.head hlink (old _ _ hbb))

/-! ## Staying flat -/

theorem Absorbs.takesOver (h : Absorbs w w' t base) {a b : TypeId} (hab : w.TakesOver a b)
    (hb : b = t → a = t ∨ w.TakesOver a base) : w'.TakesOver a b := by
  -- `has` is a name or an operator before the extension, `has'` after it
  have keeps {has has' : TypeId → Prop} (hx : ∀ u, has' u ↔ has u ∨ (u = t ∧ has base))
      (htake : ∀ u, w.TakesOver a u → has u → has a) : has' b → has' a := by
    rw [hx, hx]
    rintro (hk | ⟨hbt, hk⟩)
    · exact .inl (htake b hab hk)
    · rcases hb hbt with ha | ha
      · exact .inr ⟨ha, hk⟩
      · exact .inl (htake base ha hk)
  refine ⟨(h.listed a b).mpr (.inl hab.listed), fun k => ?_, fun op => ?_⟩
  · exact keeps (h.names · k) fun u hu => hu.names k
  · exact keeps (h.operators · op) fun u hu => hu.operators op

/-- The interface that is extended takes over the base and what the base has taken over. -/
theorem Absorbs.takesOver_self (h : Absorbs w w' t base) {b : TypeId} (hb : b ≠ t)
    (hbase : b = base ∨ w.TakesOver base b) : w'.TakesOver t b := by
  have gains {has has' : TypeId → Prop} (hx : ∀ u, has' u ↔ has u ∨ (u = t ∧ has base))
      (htake : w.TakesOver base b → has b → has base) : has' b → has' t := by
    rw [hx, hx]
    intro hk
    have hold := hk.resolve_right fun hk => hb hk.1
    rcases hbase with rfl | hbase
    · exact .inr ⟨rfl, hold⟩
    · exact .inr ⟨rfl, htake hbase hold⟩
  refine ⟨(h.listed t b).mpr (.inr ⟨rfl, hbase.imp id (·.listed)⟩), fun k => ?_, fun op => ?_⟩
  · exact gains (h.names · k) fun hu => hu.names k
  · exact gains (h.operators · op) fun hu => hu.operators op

theorem Layered.isSubtype_of_listed (h : w.Layered) (ht : (w.type t).isInterface)
    (hu : (w.type u).isInterface) (hl : u ∈ w.superInterfaces t) : w.isSubtype t u :=
  (h.isSubtype_iff_listed ht hu).mpr (.single hl)

/-- An extension keeps a flat table flat exactly if nothing below the interface misses the base. -/
theorem Absorbs.flattened_iff (h : Absorbs w w' t base) (hl : w.Layered) (hl' : w'.Layered)
    (hf : w.Flattened) (ht : (w.type t).isInterface) (hb : (w.type base).isInterface)
    (hbt : w.isSubtype base t = false) (htb : w.isSubtype t base = false) :
    w'.Flattened ↔ w.Timely t base := by
  have sub : ∀ {a b}, (w.type a).isInterface → (w.type b).isInterface →
      (w'.isSubtype a b ↔ w.isSubtype a b ∨ (w.isSubtype a t ∧ w.isSubtype base b)) := by
    intro a b ha hb'
    rw [hl'.isSubtype_iff_listed (by rwa [h.interface]) (by rwa [h.interface]), h.reach_iff,
      hl.isSubtype_iff_listed ha hb', hl.isSubtype_iff_listed ha ht,
      hl.isSubtype_iff_listed hb hb']
  have ne : ∀ {a}, w.isSubtype a t → a ≠ base := by
    rintro a hat rfl
    rw [hbt] at hat
    cases hat
  constructor
  · intro hf' _ _ _ _ u hu hui hut hsub
    -- the list of `u` is the old one, so that the base is above `u` already
    have htake := hf' u base (by rwa [h.interface]) (by rwa [h.interface]) (ne hsub)
      ((sub hui hb).mpr (.inr ⟨hsub, hl.isSubtype_refl base⟩))
    have hlist := ((h.listed u base).mp htake.listed).resolve_right fun e => hut e.1
    exact hl.isSubtype_of_listed hui hb hlist
  · intro htimely a b ha hb' hab hsub
    rw [h.interface] at ha hb'
    have below : a ≠ t → w.isSubtype a t → w.isSubtype a base := by
      intro hat hsa
      exact htimely ht hb hbt htb a (Arena.mem_ids.mpr (has_of_isInterface ha)) ha hat hsa
    -- a pair that was related before stays flat
    have old : w.isSubtype a b → w'.TakesOver a b := by
      intro hsab
      refine h.takesOver (hf a b ha hb' hab hsab) fun hbt' => ?_
      subst hbt'
      exact .inr (hf a base ha hb (ne hsab) (below hab hsab))
    rcases (sub ha hb').mp hsub with hsab | ⟨hsat, hsbb⟩
    · exact old hsab
    · by_cases hat : a = t
      · subst hat
        refine h.takesOver_self (Ne.symm hab) ?_
        by_cases hbb : b = base
        · exact .inl hbb
        · exact .inr (hf base b hb hb' (Ne.symm hbb) hsbb)
      · exact old (hl.isSubtype_trans (below hat hsat) hsbb)

theorem Layered.extendInterface (h : w.Layered) (t base : TypeId) :
    (w.apply (.extendInterface t base)).Layered :=
  settled_induction (fun _ => extendInterface_refused) h
    fun _ _ hw => h.step (.extendInterface hw)

theorem Paired.apply_extendInterface (h : w.Paired) (t base : TypeId) :
    (w.apply (.extendInterface t base)).Paired :=
  settled_induction (fun _ => extendInterface_refused) h fun _ _ hw => h.extendInterface hw

/-- One call, whatever it does: it keeps a flat table flat exactly if it is timely. -/
theorem Flattened.extend_iff (hf : w.Flattened) (hl : w.Layered) (hp : w.Paired)
    (t base : TypeId) :
    (w.apply (.extendInterface t base)).Flattened ↔ w.Timely t base := by
  by_cases hwork : (w.type t).isInterface ∧ (w.type base).isInterface ∧
      (w.isSubtype base t || w.isSubtype t base) = false
  · obtain ⟨ht, hb, hr⟩ := hwork
    obtain ⟨hbt, htb⟩ := Bool.or_eq_false_iff.mp hr
    exact (hp.absorbs ht hb hr).flattened_iff hl (hl.extendInterface t base) hf ht hb hbt htb
  · -- nothing happens, and nothing is asked
    have hsame : w.apply (.extendInterface t base) = w := by
      refine settled_induction (P := (· = w)) (fun _ => extendInterface_refused) rfl
        fun _ w' hw => ?_
      obtain ⟨ht, hb, ⟨_, _, rfl⟩ | ⟨hr, _⟩⟩ := extendInterface_eq_ok hw
      · rfl
      · exact absurd ⟨ht, hb, hr⟩ hwork
    rw [hsame]
    refine ⟨fun _ ht hb hbt htb => ?_, fun _ => hf⟩
    exact absurd ⟨ht, hb, Bool.or_eq_false_iff.mpr ⟨hbt, htb⟩⟩ hwork

/-! ## Runs of extensions -/

/-- The table after extensions, each of an interface by a base. -/
def extendAll (w : SymbolTable) (calls : List (TypeId × TypeId)) : SymbolTable :=
  calls.foldl (fun w c => w.apply (.extendInterface c.1 c.2)) w

/-- Each extension is timely when it is made. -/
def TimelyRun (w : SymbolTable) : List (TypeId × TypeId) → Prop
  | [] => True
  | c :: calls => w.Timely c.1 c.2 ∧ (w.apply (.extendInterface c.1 c.2)).TimelyRun calls

instance : (w : SymbolTable) → (calls : List (TypeId × TypeId)) → Decidable (w.TimelyRun calls)
  | _, [] => .isTrue trivial
  | w, c :: calls =>
    have := instDecidableTimelyRun (w.apply (.extendInterface c.1 c.2)) calls
    inferInstanceAs (Decidable (_ ∧ _))

theorem flattened_of_unlisted (hl : w.Layered) (h : ∀ t, w.superInterfaces t = []) :
    w.Flattened := by
  intro t u ht hu hne hsub
  rcases ReflTransGen.cases_head ((hl.isSubtype_iff_listed ht hu).mp hsub) with he | ⟨v, hv, _⟩
  · exact absurd he hne
  · rw [h t] at hv
    cases hv

theorem Flattened.run_iff (hf : w.Flattened) (hl : w.Layered) (hp : w.Paired)
    (calls : List (TypeId × TypeId)) :
    (∀ n, (w.extendAll (calls.take n)).Flattened) ↔ w.TimelyRun calls := by
  induction calls generalizing w with
  | nil => simp [extendAll, TimelyRun, hf]
  | cons c calls ih =>
      have hl' := hl.extendInterface c.1 c.2
      have hp' := hp.apply_extendInterface c.1 c.2
      have hstep := hf.extend_iff hl hp c.1 c.2
      constructor
      · intro h
        have h1 := h 1
        rw [List.take_succ_cons, List.take_zero] at h1
        exact ⟨hstep.mp h1, (ih h1 hl' hp').mp fun n => h (n + 1)⟩
      · rintro ⟨ht, hrun⟩ n
        cases n with
        | zero => exact hf
        | succ n => exact (ih (hstep.mpr ht) hl' hp').mpr hrun n

end SymbolTable

namespace Session

/-- Where no interface has been extended yet, a run of extensions keeps all tables on its way flat
exactly if each extension is timely. -/
theorem flattened_iff_timelyRun {s : Session} (h : Reachable (fun op => !op.setsSuperType) s)
    (hnone : ∀ t, s.table.superInterfaces t = []) (calls : List (TypeId × TypeId)) :
    (∀ n, (s.table.extendAll (calls.take n)).Flattened) ↔ s.table.TimelyRun calls := by
  have hl := h.layered
  exact (SymbolTable.flattened_of_unlisted hl hnone).run_iff hl h.paired calls

/-- Three interfaces, the first of which has a member and an operator. -/
def sampleInterfaces : List Operation :=
  [.edit (.addInterface "Readable"), .edit (.addInterface "Stream"), .edit (.addInterface "File"),
    .edit (.addSignature { returns := .integer }), .edit (.addMethod "Read" ⟨0⟩),
    .edit (.define (.members ⟨16⟩) "Read" (.slot ⟨0⟩)),
    .edit (.addSignature { params := [⟨"other", .integer⟩], returns := .integer }),
    .edit (.addMethod "Plus" ⟨1⟩), .edit (.addOperator ⟨20⟩ .add ⟨1⟩)]

/-- Extended from the top down, the interfaces stay flat. From the bottom up they do not: the lowest
one is a subtype of the highest one and has nothing of it. -/
theorem flattened_sampleInterfaces :
    let w := (performAll {} sampleInterfaces).table
    let late := [(⟨22⟩, ⟨21⟩), (⟨21⟩, ⟨20⟩)]
    Session.Admits (fun op => !op.setsSuperType) {} sampleInterfaces ∧
      (∀ n, (w.extendAll (late.reverse.take n)).Flattened) ∧
      ¬ (∀ n, (w.extendAll (late.take n)).Flattened) ∧
      (w.extendAll late).isSubtype ⟨22⟩ ⟨20⟩ ∧
      (w.extendAll late).superInterfaces ⟨22⟩ = [⟨21⟩] ∧
      ((w.extendAll late).memberTable ⟨18⟩).names.keys = [] ∧
      ((w.extendAll late).memberTable ⟨18⟩).operators = [] := by
  have h : Session.Admits (fun op => !op.setsSuperType) {} sampleInterfaces := by decide +kernel
  have hr := Reachable.new.performAll h
  have hids : ∀ t ∈ (performAll {} sampleInterfaces).table.types.ids,
      (performAll {} sampleInterfaces).table.superInterfaces t = [] := by decide +kernel
  have hnone : ∀ t, (performAll {} sampleInterfaces).table.superInterfaces t = [] := by
    intro t
    by_cases ht : (performAll {} sampleInterfaces).table.types.Has t
    · exact hids t (Arena.mem_ids.mpr ht)
    · rw [SymbolTable.superInterfaces, SymbolTable.type, Arena.get_of_not_has ht]
      rfl
  refine ⟨h, (flattened_iff_timelyRun hr hnone _).mpr (by decide +kernel), fun hf => ?_,
    by decide +kernel, by decide +kernel, by decide +kernel, by decide +kernel⟩
  exact absurd ((flattened_iff_timelyRun hr hnone _).mp hf) (by decide +kernel)

end Session
end StaticSemantics
