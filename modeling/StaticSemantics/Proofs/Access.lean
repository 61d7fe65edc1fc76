import StaticSemantics.Proofs.Hierarchy.Subtyping
import StaticSemantics.Proofs.Resolution.Captures
import StaticSemantics.Proofs.Scope.Forest

/-!
Access. What a resolution answers and remembers may be used in the frame that it is made from.
Access passes on to the frames within a frame; it is not lost when a slot that was its owner's alone
is shared with derived classes, and the body of a derived class may use what is shared with the
class above it.
-/

namespace StaticSemantics

@[simp] theorem Frame.isModule_uncaptured (f : Frame) (m : ModuleId) :
    f.uncaptured.isModule m = f.isModule m := by
  obtain ⟨kind, _⟩ := f
  cases kind <;> rfl

@[simp] theorem Frame.type?_uncaptured (f : Frame) : f.uncaptured.type? = f.type? := by
  obtain ⟨kind, _⟩ := f
  cases kind <;> rfl

theorem Frame.isModule_of_type? {f : Frame} {t : TypeId} (h : f.type? = some t) (m : ModuleId) :
    f.isModule m = false := by
  obtain ⟨kind, _⟩ := f
  cases kind with
  | module n => cases h
  | _ => rfl

namespace SymbolTable

variable {w w' : SymbolTable} {f g : FrameId}

/-! ## What access depends on -/

theorem permits_ownerOnly (w : SymbolTable) (f : FrameId) (o : Owner) :
    w.permits f .ownerOnly (some o) = w.insideOwner f o fun t u => u = t := by
  cases o <;> rfl

theorem permits_derived (w : SymbolTable) (f : FrameId) (o : Owner) :
    w.permits f .derived (some o) = w.insideOwner f o w.sharesWith := by
  cases o <;> rfl

theorem permits_friend (w : SymbolTable) (f : FrameId) (o : Owner) :
    w.permits f .friend (some o) = (w.enclosingModule? (some o)).all (w.insideModule f) := by
  cases o <;> rfl

/-- The tables have the same types and frames, captures aside. -/
structure SameScopes (w w' : SymbolTable) : Prop where
  types : w'.types = w.types
  memberTables : w'.memberTables = w.memberTables
  frameCount : w'.frames.size = w.frames.size
  frames : ∀ f, (w'.frame f).uncaptured = (w.frame f).uncaptured

namespace SameScopes

theorem of_frames (ht : w'.types = w.types) (hm : w'.memberTables = w.memberTables)
    (hf : w'.frames = w.frames) : SameScopes w w' :=
  ⟨ht, hm, by rw [hf], fun f => by rw [frame, hf]; rfl⟩

theorem capture (f : FrameId) (s : SlotId) : SameScopes w (w.capture f s) :=
  have hg : w.Grows (w.capture f s) := .capture f s
  ⟨rfl, rfl, hg.frameCount, hg.frames⟩

variable (h : SameScopes w w')

include h

theorem insideModule_eq (f : FrameId) (m : ModuleId) :
    w'.insideModule f m = w.insideModule f m := by
  have hmodule : ∀ g, (w'.frame g).isModule m = (w.frame g).isModule m := by
    intro g
    simpa using congrArg (Frame.isModule · m) (h.frames g)
  simp only [insideModule, frameChain_eq_of_uncaptured h.frameCount h.frames, hmodule]

theorem insideType_eq (f : FrameId) (test : TypeId → Bool) :
    w'.insideType f test = w.insideType f test := by
  have htype : ∀ g, (w'.frame g).type? = (w.frame g).type? := by
    intro g
    simpa using congrArg Frame.type? (h.frames g)
  simp only [insideType, frameChain_eq_of_uncaptured h.frameCount h.frames, htype]

theorem insideOwner_eq (f : FrameId) (o : Owner) (test : TypeId → TypeId → Bool) :
    w'.insideOwner f o test = w.insideOwner f o test := by
  cases o <;> simp only [insideOwner, h.insideType_eq, h.insideModule_eq, memberTable,
    h.memberTables]

theorem enclosingModule?_eq (o : Option Owner) : w'.enclosingModule? o = w.enclosingModule? o := by
  have at_eq : ∀ n o, w'.enclosingModuleAt? n o = w.enclosingModuleAt? n o := by
    intro n
    induction n with
    | zero =>
        intro o
        rcases o with _ | _ | t | d | _ <;> rfl
    | succ n ih =>
        intro o
        rcases o with _ | _ | t | d | _
        all_goals simp only [enclosingModuleAt?, type, memberTable, h.types, h.memberTables, ih]
  simp only [enclosingModule?, h.types, at_eq]

/-- Where walks through types end in one table they end in the other. -/
theorem walksEnd (hw : w.WalksEnd) : w'.WalksEnd := by
  have htype : w'.type = w.type := funext fun t => by rw [type, h.types]; rfl
  have hmembers : w'.memberTable = w.memberTable := funext fun d => by
    rw [memberTable, h.memberTables]; rfl
  have hsuper : w'.superType? = w.superType? := funext fun t => by
    simp only [superType?, withoutNull, htype]
    rfl
  have hdirect : w'.DirectSuper = w.DirectSuper := by
    rw [directSuper_eq_above, directSuper_eq_above]
    congr 1
    funext t
    simp only [outline, htype]
  have hinherited : w'.inherited? = w.inherited? := funext fun d => by
    rw [inherited?, hmembers]; rfl
  have hchain : w'.superChain = w.superChain := funext fun t => by
    rw [superChain, superChain, h.types]
    exact w.walks_superChainAt.congr (hsuper ▸ w'.walks_superChainAt) _ t
  have hmemberChain : w'.memberChain = w.memberChain := funext fun d => by
    rw [memberChain, memberChain, h.memberTables]
    exact w.walks_memberChainAt.congr (hmembers ▸ w'.walks_memberChainAt) _ d
  have houter : w'.outerType? = w.outerType? := funext fun t => by
    simp only [outerType?, htype]
    congr 1
    funext o
    cases o <;> simp only [ownerType?, hmembers]
  refine ⟨⟨hdirect ▸ hw.superTypes, ?_, ?_, hinherited ▸ hw.memberTables, ?_⟩,
    houter ▸ hw.outerTypes, ?_⟩
  · rw [hchain, hsuper]
    exact hw.superChain
  · simp only [isSubtype_eq_of_types h.types, directSupers, hsuper, htype]
    exact hw.isSubtype
  · rw [hmemberChain, hinherited]
    exact hw.memberChain
  · simp only [h.enclosingModule?_eq, htype, hmembers]
    exact hw.enclosingModule

theorem permits_eq (f : FrameId) (v : Visibility) (o : Option Owner) :
    w'.permits f v o = w.permits f v o := by
  have hshares : w'.sharesWith = w.sharesWith := by
    funext t u
    simp only [sharesWith, type, h.types, isSubtype_eq_of_types h.types]
  have hmodule : w'.insideModule f = w.insideModule f := funext fun m => h.insideModule_eq f m
  rcases o with _ | o
  · cases v <;> rfl
  · cases v with
    | everyone => rfl
    | ownerOnly => simp only [permits_ownerOnly, h.insideOwner_eq]
    | derived => simp only [permits_derived, h.insideOwner_eq, hshares]
    | friend => simp only [permits_friend, h.enclosingModule?_eq, hmodule]

end SameScopes

theorem isAccessible_iff {x : Symbol} :
    w.isAccessible x f ↔ ∀ v o, w.visibility? x = some (v, o) → w.permits f v o := by
  unfold isAccessible
  cases w.visibility? x with
  | none => simp
  | some p => simp [Prod.ext_iff]

/-- The symbol stands in both tables with the same visibility and owner, so that the same frames may
use it. -/
theorem SameScopes.isAccessible_eq (h : SameScopes w w') {x : Symbol}
    (hx : w'.visibility? x = w.visibility? x) (f : FrameId) :
    w'.isAccessible x f = w.isAccessible x f := by
  simp only [isAccessible, hx, h.permits_eq]

/-! ## Frames within frames -/

theorem permits_mono (hm : ∀ m, w.insideModule f m → w.insideModule g m)
    (ht : ∀ test, w.insideType f test → w.insideType g test) {v : Visibility} {o : Option Owner}
    (h : w.permits f v o) : w.permits g v o := by
  have owner : ∀ o test, w.insideOwner f o test → w.insideOwner g o test := by
    intro o test ho
    cases o with
    | type t => exact ht _ ho
    | members d => exact ht _ ho
    | module m => exact hm m ho
    | frame _ => rfl
  rcases o with _ | o
  · cases v <;> rfl
  · cases v with
    | everyone => rfl
    | ownerOnly =>
        rw [permits_ownerOnly] at h ⊢
        exact owner o _ h
    | derived =>
        rw [permits_derived] at h ⊢
        exact owner o _ h
    | friend =>
        rw [permits_friend] at h ⊢
        cases hm' : w.enclosingModule? (some o) with
        | none => rfl
        | some m =>
            rw [hm'] at h
            exact hm m h

theorem FramesAcyclic.frameChain_subset (h : w.FramesAcyclic) (hc : w.Closed)
    (hf : f ∈ w.frameChain g) : w.frameChain f ⊆ w.frameChain g := by
  intro a ha
  rw [h.mem_frameChain hc] at ha hf ⊢
  exact hf.trans ha

/-- What may be used in a frame may be used in the frames within it. -/
theorem FramesAcyclic.isAccessible_of_mem (h : w.FramesAcyclic) (hc : w.Closed)
    (hf : f ∈ w.frameChain g) {x : Symbol} (hx : w.isAccessible x f) : w.isAccessible x g := by
  have hsub := h.frameChain_subset hc hf
  rw [isAccessible_iff] at hx ⊢
  intro v o hv
  refine permits_mono (fun m hm => ?_) (fun test ht => ?_) (hx v o hv)
  · obtain ⟨a, ha, hm⟩ := List.any_eq_true.mp hm
    exact List.any_eq_true.mpr ⟨a, hsub ha, hm⟩
  · obtain ⟨a, ha, ht⟩ := List.any_eq_true.mp ht
    exact List.any_eq_true.mpr ⟨a, hsub ha, ht⟩

/-! ## Sharing with derived classes -/

theorem insideType_mono {test test' : TypeId → Bool} (ht : ∀ u, test u → test' u)
    (h : w.insideType f test) : w.insideType f test' := by
  obtain ⟨a, ha, hany⟩ := List.any_eq_true.mp h
  refine List.any_eq_true.mpr ⟨a, ha, ?_⟩
  cases hu : (w.frame a).type? with
  | none =>
      rw [hu] at hany
      cases hany
  | some u =>
      rw [hu] at hany
      exact ht u hany

/-- Whoever may use what is the owner's alone may use what is shared. -/
theorem permits_derived_of_ownerOnly (o : Option Owner) (h : w.permits f .ownerOnly o) :
    w.permits f .derived o := by
  have shares : ∀ t u, decide (u = t) → w.sharesWith t u := by
    intro t u hu
    simp [sharesWith, of_decide_eq_true hu]
  rcases o with _ | _ | t | d | _
  · rfl
  · exact h
  · exact insideType_mono (shares t) h
  · exact insideType_mono (shares _) h
  · rfl

theorem slot_setSlotVisibility (w : SymbolTable) (s t : SlotId) (v : Visibility) :
    (w.setSlotVisibility s v).slot t = w.slot t ∨
      s = t ∧ (w.setSlotVisibility s v).slot t = { w.slot t with visibility := v } := by
  unfold setSlotVisibility modifySlot slot
  rw [Arena.get_modify]
  split
  · rename_i h
    exact .inr ⟨h.1, rfl⟩
  · exact .inl rfl

/-- A slot that was its owner's alone is shared with derived classes: nobody loses access. -/
theorem isAccessible_share {s : SlotId} (hs : (w.slot s).visibility = .ownerOnly) {x : Symbol}
    (hx : w.isAccessible x f) : (w.setSlotVisibility s .derived).isAccessible x f := by
  have same : SameScopes w (w.setSlotVisibility s .derived) := .of_frames rfl rfl rfl
  -- the slot that the symbol denotes, or that it refers to, is another one or `s`
  have slot : ∀ t, w.permits f (w.slot t).visibility (w.slot t).definedIn →
      w.permits f ((w.setSlotVisibility s .derived).slot t).visibility
        ((w.setSlotVisibility s .derived).slot t).definedIn := by
    intro t ht
    rcases w.slot_setSlotVisibility s t .derived with h | ⟨rfl, h⟩
    · rw [h]
      exact ht
    · rw [h]
      rw [hs] at ht
      exact permits_derived_of_ownerOnly _ ht
  unfold isAccessible at hx ⊢
  simp only [same.permits_eq]
  cases x with
  | slot t => exact slot t hx
  | value v =>
      simp only [visibility?] at hx ⊢
      cases hv : v.slot? with
      | none => rfl
      | some t =>
          rw [hv] at hx
          exact slot t hx
  | type | aliasDecl | module | error => exact hx

theorem mem_frameChain_self (w : SymbolTable) (f : FrameId) : f ∈ w.frameChain f := by
  unfold frameChain
  cases w.frames.size <;> simp [frameChainAt]

theorem frameChain_of_root (hf : (w.frame f).parent = none) : w.frameChain f = [f] := by
  unfold frameChain
  cases w.frames.size <;> simp [frameChainAt, hf]

/-- The body of a class below `b` may use what the body of `b` may use for being derived. -/
theorem Layered.isAccessible_of_derived (h : w.Layered) {b c : TypeId} {x : Symbol}
    {o : Option Owner} (hx : w.visibility? x = some (.derived, o))
    (hf : (w.frame f).type? = some b) (hroot : (w.frame f).parent = none)
    (hg : (w.frame g).type? = some c) (hc : (w.type c).isClass) (hcb : w.isSubtype c b)
    (ha : w.isAccessible x f) : w.isAccessible x g := by
  have htype : ∀ test, w.insideType f test → test b := by
    intro test ht
    simpa [insideType, frameChain_of_root hroot, hf] using ht
  have shared : ∀ t, w.insideType f (w.sharesWith t) → w.insideType g (w.sharesWith t) := by
    intro t ht
    refine List.any_eq_true.mpr ⟨g, w.mem_frameChain_self g, ?_⟩
    have hbt := htype _ ht
    simp only [sharesWith, Bool.or_eq_true, decide_eq_true_eq, Bool.and_eq_true] at hbt
    simp only [hg, Option.any_some, sharesWith, Bool.or_eq_true, Bool.and_eq_true]
    rcases hbt with rfl | ⟨_, hbt⟩
    · exact .inr ⟨hc, hcb⟩
    · exact .inr ⟨hc, h.isSubtype_trans hcb hbt⟩
  simp only [isAccessible, hx, Option.all_some] at ha ⊢
  rcases o with _ | m | t | d | _
  · rfl
  · -- the body of a class at the root is inside no module
    have hm : w.insideModule f m = false := by
      simp [insideModule, frameChain_of_root hroot, Frame.isModule_of_type? hf]
    rw [permits_derived, insideOwner, hm] at ha
    cases ha
  · exact shared t ha
  · exact shared _ ha
  · rfl

theorem isAccessible_of_isError {x : Symbol} (hx : x.isError) (f : FrameId) :
    w.isAccessible x f := by
  cases x with
  | error => rfl
  | _ => cases hx

end SymbolTable

/-! ## Resolutions -/

namespace Workspace

/-- The answer, unless it is an error, and what is newly remembered may be used in the frame, in the
workspace before as well as after. -/
structure Guards (ws : Workspace) (f : FrameId) (answer : Option Symbol) (ws' : Workspace) :
    Prop where
  answer : ∀ x, answer = some x → x.isError = false →
    ws.table.isAccessible x f ∧ ws'.table.isAccessible x f
  remembered : ∀ a ∈ ws'.answers, a ∈ ws.answers ∨
    (ws.table.isAccessible a.2 f ∧ ws'.table.isAccessible a.2 f)

variable {ws : Workspace} {f : FrameId}

theorem guards_none (ws : Workspace) (f : FrameId) : ws.Guards f none ws :=
  ⟨nofun, fun _ ha => .inl ha⟩

/-- What is concluded may be used in the current frame. -/
theorem conclude_guards (hf : ws.current? = some f) (e : Expr) (wanted : Wanted) (s : Symbol)
    (through : Option TypeId) :
    ws.Guards f (ws.conclude e wanted s through).result
      (ws.conclude e wanted s through).workspace := by
  have found (findings : List Finding) (hs : ws.table.isAccessible s f)
      (hc : ws.conclude e wanted s through =
        ⟨some s, ws.remember e.node.id wanted s, findings⟩) :
      ws.Guards f (ws.conclude e wanted s through).result
        (ws.conclude e wanted s through).workspace := by
    rw [hc]
    refine ⟨fun x hx _ => ?_, fun a ha => ?_⟩
    · cases hx
      exact ⟨hs, hs⟩
    · rcases List.mem_cons.mp ha with rfl | ha
      · exact .inr ⟨hs, hs⟩
      · exact .inl ha
  cases hse : s.isError with
  | true =>
      cases s with
      | error err => exact found _ (SymbolTable.isAccessible_of_isError hse f) rfl
      | _ => cases hse
  | false =>
      have hc : ws.conclude e wanted s through =
          if ws.mayUse s then ⟨some s, ws.remember e.node.id wanted s, []⟩
          else ws.fail e (ws.nameProblem .inaccessibleProperty .inaccessiblePropertyThroughReference
            e (e.name?.getD "") through) := by
        cases s with
        | error err => cases hse
        | _ => rfl
      cases hu : ws.mayUse s with
      | true =>
          rw [hu] at hc
          refine found _ ?_ hc
          rwa [mayUse, hf] at hu
      | false =>
          rw [hu] at hc
          rw [hc]
          exact ws.guards_none f

/-- Captures do not bear on access. -/
theorem isAccessible_noteCapture (ws : Workspace) (s x : Symbol) (f : FrameId) :
    (ws.noteCapture s).table.isAccessible x f = ws.table.isAccessible x f := by
  rcases ws.noteCapture_cases s with h | ⟨owner, slot, t, inner, _, _, _, h⟩
  · rw [h]
  · rw [h]
    exact (SymbolTable.SameScopes.capture inner slot).isAccessible_eq rfl f

theorem resolveLexical_guards (hf : ws.current? = some f) {e : Expr} {wanted : Wanted}
    (ha : ws.answer? e.node.id wanted = none) :
    ws.Guards f (ws.resolveLexical e wanted).result (ws.resolveLexical e wanted).workspace := by
  rcases ws.resolveLexical_cases e wanted ha with ⟨findings, _, hr⟩ | ⟨name, s, _, _, hr⟩
  · rw [hr]
    exact ws.guards_none f
  · obtain ⟨hcurrent, hanswers⟩ : (ws.noteCapture s).current? = some f ∧
        (ws.noteCapture s).answers = ws.answers := by
      rcases ws.noteCapture_cases s with h | ⟨owner, slot, t, inner, _, _, _, h⟩
      · rw [h]
        exact ⟨hf, rfl⟩
      · rw [h]
        exact ⟨hf, rfl⟩
    have hguards := conclude_guards hcurrent e wanted s none
    rw [hr]
    refine ⟨fun x hx hxe => ?_, fun a ha => ?_⟩
    · have hx := hguards.answer x hx hxe
      rwa [isAccessible_noteCapture] at hx
    · have ha := hguards.remembered a ha
      rwa [isAccessible_noteCapture, hanswers] at ha

theorem resolveReference_guards (hf : ws.current? = some f) (object : Symbol) {e : Expr}
    {wanted : Wanted} (ha : ws.answer? e.node.id wanted = none) :
    ws.Guards f (ws.resolveReference object e wanted).result
      (ws.resolveReference object e wanted).workspace := by
  cases ho : object.isError with
  | true =>
      rw [ws.resolveReference_of_isError e wanted object ha ho]
      refine ⟨fun x hx hxe => ?_, fun a ha => .inl ha⟩
      cases hx
      rw [ho] at hxe
      cases hxe
  | false =>
      rcases ws.resolveReference_cases e wanted object ha ho with
        ⟨findings, _, hr⟩ | ⟨name, s, through, _, hr⟩
      · rw [hr]
        exact ws.guards_none f
      · rw [hr]
        exact conclude_guards hf e wanted s through

end Workspace

namespace Session

/-- The call answers with, and remembers, only what may be used in the frame. -/
def Guards (s : Session) (f : FrameId) (r : Option Symbol × Session) : Prop :=
  s.workspace.Guards f r.1 r.2.workspace

/-- A class with a static variable of its own and a class below it. Their bodies are frames, and a
function has been entered within the first. -/
def sampleAccess : List Operation :=
  [.edit (.addClass "Shape" false), .edit (.addClass "Cube" false), .edit (.extendClass ⟨21⟩ ⟨20⟩),
    .edit (.addVariable "size" false (some .integer)),
    .edit (.define (.type ⟨20⟩) "size" (.slot ⟨0⟩)), .edit (.setSlotVisibility ⟨0⟩ .ownerOnly),
    .edit (.addFrame (.body ⟨20⟩)), .edit (.addFrame (.body ⟨21⟩)),
    .edit (.addFrame (.activation none [])), .enter ⟨0⟩, .enter ⟨2⟩]

end Session
end StaticSemantics
