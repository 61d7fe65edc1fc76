import StaticSemantics.Proofs.Constant.Typing
import StaticSemantics.Proofs.Scope.Bounds
import StaticSemantics.Proofs.Scope.Hits
import StaticSemantics.Proofs.Scope.Target

/-!
Ambiguity of names. In a table without NaNs a name is ambiguous exactly if two hits in the frame
that decides have different targets, and otherwise means their common target. The frames further out
have no say in this, nor has the order in which modules are imported.
-/

namespace StaticSemantics

open Relation

namespace SymbolTable

variable {w : SymbolTable} {name : String} {wanted : Wanted} {f g : FrameId} {s : Symbol}

/-! ## Tables without NaNs -/

/-- No NaN is part of a symbol that stands under a name or behind an alias. -/
def NanFree (w : SymbolTable) : Prop := ∀ s, w.Stored s → s.hasNaN = false

theorem nanFree_iff : w.NanFree ↔ ∀ s ∈ w.storedSymbols, s.hasNaN = false := by
  refine ⟨fun h s hs => h s (stored_of_mem_storedSymbols hs), fun h s hs => ?_⟩
  rcases hs.mem_storedSymbols with hs | rfl
  · exact h s hs
  · rfl

instance (w : SymbolTable) : Decidable w.NanFree := decidable_of_iff _ nanFree_iff.symm

theorem NanFree.resolveIn? (h : w.NanFree) {o : Owner}
    (hs : w.resolveIn? o name wanted = some s) : s.hasNaN = false := by
  obtain ⟨s', hs', rfl⟩ := Option.map_eq_some_iff.mp hs
  obtain ⟨k, -, hg⟩ := Option.bind_eq_some_iff.mp (Option.filter_eq_some_iff.mp hs').1
  have hstored : w.Stored s' := .name o k (Bindings.get?_eq_some_iff.mp hg)
  unfold reference referTo
  split
  · simp [Symbol.hasNaN, Value.hasNaN]
  · rename_i hu
    exact h _ ((leadsTo_of_unwindAt hu).stored hstored)
  · rename_i e hu
    obtain ⟨name, rfl⟩ := unwindAt_eq_error hu
    simp [Symbol.hasNaN, SymbolError.hasNaN]

/-- Outside of functions nothing is found through an object. -/
theorem NanFree.ownHit (h : w.NanFree) (ha : (w.frame f).isActivation = false)
    (hs : w.OwnHit name wanted f s) : s.hasNaN = false := by
  cases hs with
  | ownLocal hs => exact h.resolveIn? hs
  | body _ _ hs => exact h.resolveIn? hs
  | module _ hs => exact h.resolveIn? hs
  | me _ hv _ =>
      unfold Frame.me? at hv
      unfold Frame.isActivation at ha
      split at hv
      · simp_all
      · cases hv

/-- There is no NaN among the hits, or nothing to compare. -/
def Comparable (hits : Hits) : Prop := hits.length ≤ 1 ∨ ∀ x ∈ hits, x.1.hasNaN = false

/-- A member of an object may hold a NaN, but is the only hit. -/
theorem NanFree.comparable_hits (h : w.NanFree) (hc : w.Closed) :
    Comparable (w.hits f name wanted) := by
  cases ha : (w.frame f).isActivation with
  | true =>
      rcases w.hits_of_isActivation name wanted ha with ⟨s, hs⟩ | hs
      · exact .inl (by simp [hs])
      · rw [hs]
        refine .inr ?_
        rintro ⟨s, m⟩ hx
        obtain ⟨_, _, hs, _⟩ := mem_importHits.mp hx
        exact h.resolveIn? hs
  | false =>
      refine .inr ?_
      rintro ⟨s, m⟩ hx
      cases hc.mem_hits.mp hx with
      | own hs => exact h.ownHit ha hs
      | imported _ _ hs => exact h.resolveIn? hs

/-! ## Hits on one level -/

section Settle

variable (name) {hits hits' : Hits} {x y : Symbol × Option ModuleId}

theorem Comparable.perm (hc : Comparable hits) (h : hits.Perm hits') : Comparable hits' := by
  rcases hc with hc | hc
  · exact .inl (h.length_eq ▸ hc)
  · exact .inr fun x hx => hc x (h.mem_iff.mpr hx)

theorem Comparable.sameTarget_iff (hc : Comparable (x :: hits)) (hy : y ∈ hits) :
    sameTarget x.1 y.1 = true ↔ x.1.target = y.1.target := by
  rcases hc with hc | hc
  · have := List.length_pos_of_mem hy
    simp only [List.length_cons] at hc
    omega
  · exact SymbolTable.sameTarget_iff (hc x List.mem_cons_self)

/-- All hits have the target of the first one, or the name is ambiguous. -/
theorem settle_cons (hc : Comparable (x :: hits)) :
    settle name (x :: hits) =
      if ∀ y ∈ hits, x.1.target = y.1.target then some x.1
      else some (.error (.ambiguous name ((x :: hits).filterMap Prod.snd))) := by
  unfold settle
  refine if_congr ?_ rfl rfl
  rw [List.all_eq_true]
  exact forall₂_congr fun _ => hc.sameTarget_iff

theorem settle_of_agree (hc : Comparable hits) (hne : hits ≠ [])
    (h : ∀ x ∈ hits, ∀ y ∈ hits, x.1.target = y.1.target) :
    ∃ x ∈ hits, settle name hits = some x.1 := by
  cases hits with
  | nil => exact absurd rfl hne
  | cons x hits =>
      refine ⟨x, List.mem_cons_self, (settle_cons name hc).trans (if_pos fun y hy => ?_)⟩
      exact h x List.mem_cons_self y (List.mem_cons_of_mem _ hy)

theorem settle_of_conflict (hc : Comparable hits) (hx : x ∈ hits) (hy : y ∈ hits)
    (h : x.1.target ≠ y.1.target) :
    settle name hits = some (.error (.ambiguous name (hits.filterMap Prod.snd))) := by
  cases hits with
  | nil => cases hx
  | cons z hits =>
      rw [settle_cons name hc, if_neg]
      intro hz
      have hall : ∀ u ∈ z :: hits, z.1.target = u.1.target := by simpa using hz
      exact h ((hall x hx).symm.trans (hall y hy))

/-- What a name means before and after the order of the hits for it has changed. -/
inductive SameOutcome : Option Symbol → Option Symbol → Prop where
  | absent : SameOutcome none none
  | found {s s' : Symbol} (h : s.target = s'.target) : SameOutcome (some s) (some s')
  | ambiguous {name : String} {modules modules' : List ModuleId} (h : modules.Perm modules') :
      SameOutcome (some (.error (.ambiguous name modules)))
        (some (.error (.ambiguous name modules')))

theorem settle_perm (h : hits.Perm hits') (hc : Comparable hits) :
    SameOutcome (settle name hits) (settle name hits') := by
  have hc' : Comparable hits' := hc.perm h
  by_cases hne : hits = []
  · subst hne
    rw [← h.nil_eq]
    exact .absent
  by_cases hagree : ∀ x ∈ hits, ∀ y ∈ hits, x.1.target = y.1.target
  · have hagree' : ∀ x ∈ hits', ∀ y ∈ hits', x.1.target = y.1.target := fun x hx y hy =>
      hagree x (h.mem_iff.mpr hx) y (h.mem_iff.mpr hy)
    have hne' : hits' ≠ [] := fun hnil => hne (hnil ▸ h).eq_nil
    obtain ⟨x, hx, hs⟩ := settle_of_agree name hc hne hagree
    obtain ⟨y, hy, hs'⟩ := settle_of_agree name hc' hne' hagree'
    rw [hs, hs']
    exact .found (hagree x hx y (h.mem_iff.mpr hy))
  · simp only [not_forall] at hagree
    obtain ⟨x, hx, y, hy, hxy⟩ := hagree
    rw [settle_of_conflict name hc hx hy hxy,
      settle_of_conflict name hc' (h.mem_iff.mp hx) (h.mem_iff.mp hy) hxy]
    exact .ambiguous (h.filterMap _)

end Settle

/-! ## Ambiguity in one frame -/

/-- Two hits in the frame have different targets. -/
def Conflict (w : SymbolTable) (name : String) (wanted : Wanted) (f : FrameId) : Prop :=
  ∃ s m s' m', w.Hit name wanted f s m ∧ w.Hit name wanted f s' m' ∧ s.target ≠ s'.target

/-- The imported modules that have the name, in the order in which they are imported. -/
def importers (w : SymbolTable) (name : String) (wanted : Wanted) (f : FrameId) : List ModuleId :=
  (w.frame f).imports.filter fun m => (w.resolveIn? (.module m) name wanted).isSome

theorem modules_importHits : (w.importHits f name wanted).filterMap Prod.snd =
    w.importers name wanted f := by
  unfold importHits importers
  rw [List.filterMap_filterMap, ← List.filterMap_eq_filter]
  congr 1
  funext m
  cases hs : w.resolveIn? (.module m) name wanted <;> simp [Option.guard, hs]

/-- Only imports bring in modules, and in a function they are in conflict only with each other. -/
theorem modules_hits (h : ∀ s, w.hits f name wanted ≠ [(s, none)]) :
    (w.hits f name wanted).filterMap Prod.snd = w.importers name wanted f := by
  cases ha : (w.frame f).isActivation with
  | true =>
      rcases w.hits_of_isActivation name wanted ha with ⟨s, hs⟩ | hs
      · exact absurd hs (h s)
      · rw [hs, modules_importHits]
  | false =>
      simp [hits, ha, List.filterMap_append, modules_importHits, List.filterMap_map]

theorem Conflict.resolveAtFrame? (h : w.Conflict name wanted f) (hc : w.Closed)
    (hn : w.NanFree) : w.resolveAtFrame? f name wanted =
      some (.error (.ambiguous name (w.importers name wanted f))) := by
  obtain ⟨s, m, s', m', hs, hs', hne⟩ := h
  have hx := hc.mem_hits.mpr hs
  have hy := hc.mem_hits.mpr hs'
  have hmany : ∀ t, w.hits f name wanted ≠ [(t, none)] := by
    intro t ht
    rw [ht, List.mem_singleton, Prod.mk.injEq] at hx hy
    exact hne (congrArg Symbol.target (hx.1.trans hy.1.symm))
  rw [resolveAtFrame?_eq_settle, settle_of_conflict name (hn.comparable_hits hc) hx hy hne,
    modules_hits hmany]

/-- Without conflict a name means one of the hits for it, which have all its target. -/
theorem resolveAtFrame?_of_not_conflict (h : ¬ w.Conflict name wanted f) (hc : w.Closed)
    (hn : w.NanFree) {t : Symbol} {n : Option ModuleId} (ht : w.Hit name wanted f t n) :
    ∃ s m, w.Hit name wanted f s m ∧ w.resolveAtFrame? f name wanted = some s ∧
      ∀ s' m', w.Hit name wanted f s' m' → s'.target = s.target := by
  have hagree : ∀ {s m s' m'}, w.Hit name wanted f s m → w.Hit name wanted f s' m' →
      s.target = s'.target := fun hs hs' =>
    not_not.mp fun hne => h ⟨_, _, _, _, hs, hs', hne⟩
  have hne : w.hits f name wanted ≠ [] := List.ne_nil_of_mem (hc.mem_hits.mpr ht)
  obtain ⟨⟨s, m⟩, hx, hs⟩ := settle_of_agree name (hn.comparable_hits hc) hne
    fun x hx y hy => hagree (hc.mem_hits.mp hx) (hc.mem_hits.mp hy)
  have hsm := hc.mem_hits.mp hx
  exact ⟨s, m, hsm, (w.resolveAtFrame?_eq_settle f name wanted).trans hs,
    fun s' m' hs' => hagree hs' hsm⟩

/-- A name is ambiguous only by a conflict, unless a hit for it is an error of that kind itself. -/
theorem ambiguous_iff_conflict (hc : w.Closed) (hn : w.NanFree) {t : Symbol}
    {n : Option ModuleId} (ht : w.Hit name wanted f t n)
    (hplain : ∀ s m, w.Hit name wanted f s m → ∀ name' l, s ≠ .error (.ambiguous name' l)) :
    (∃ l, w.resolveAtFrame? f name wanted = some (.error (.ambiguous name l))) ↔
      w.Conflict name wanted f := by
  refine ⟨fun ha => ?_, fun hk => ⟨_, hk.resolveAtFrame? hc hn⟩⟩
  obtain ⟨l, hl⟩ := ha
  by_contra hk
  obtain ⟨s, m, hs, hr, _⟩ := resolveAtFrame?_of_not_conflict hk hc hn ht
  rw [hl] at hr
  exact hplain s m hs name l (Option.some.inj hr).symm

/-! ## Changes to frames -/

variable {frames : Arena .frame Frame}

/-- Nothing that is found outside of frames depends on them. -/
theorem resolveInModule?_frames (m : ModuleId) :
    { w with frames }.resolveIn? (.module m) name wanted = w.resolveIn? (.module m) name wanted :=
  w.resolveIn?_frames frames wanted rfl

theorem ownHits_frames (hk : (frames.get f).kind = (w.frame f).kind)
    (hl : (frames.get f).locals = (w.frame f).locals) :
    { w with frames }.ownHits f name wanted = w.ownHits f name wanted := by
  have hlocals : { w with frames }.resolveIn? (.frame f) name wanted =
      w.resolveIn? (.frame f) name wanted :=
    w.resolveIn?_frames frames wanted
      (congrArg (fun b : Bindings => (w.nameTable.lookup? name).bind b.get?) hl)
  have hstatics : ∀ t, { w with frames }.resolveIn? (.type t) name wanted =
      w.resolveIn? (.type t) name wanted := fun t => w.resolveIn?_frames frames wanted rfl
  have hvalue : ∀ v, { w with frames }.resolveInValue? v name wanted =
      w.resolveInValue? v name wanted :=
    fun v => w.resolveInValue?_frames frames v wanted (fun _ => rfl) fun _ => rfl
  have hkind : ({ w with frames }.frame f).kind = (w.frame f).kind := hk
  unfold ownHits bodyHits
  rw [hkind]
  simp only [hlocals, hstatics, hvalue, resolveInModule?_frames, superChain_frames]

/-- The frame in the other arena differs at most in the order of imports and in its parent. -/
structure SameNames (w : SymbolTable) (frames : Arena .frame Frame) (f : FrameId) : Prop where
  kind : (frames.get f).kind = (w.frame f).kind
  locals : (frames.get f).locals = (w.frame f).locals
  imports : (frames.get f).imports.Perm (w.frame f).imports

namespace SameNames

theorem hits_eq (h : w.SameNames frames f) :
    { w with frames }.hits f name wanted =
      let own := (w.ownHits f name wanted).map fun s => (s, none)
      if (w.frame f).isActivation ∧ w.ownHits f name wanted ≠ [] then own
      else own ++ (frames.get f).imports.filterMap fun m =>
        (w.resolveIn? (.module m) name wanted).map fun s => (s, some m) := by
  have hkind : ({ w with frames }.frame f).kind = (w.frame f).kind := h.kind
  unfold hits importHits Frame.isActivation
  rw [ownHits_frames h.kind h.locals, hkind]
  simp only [resolveInModule?_frames]
  rfl

theorem hits_perm (h : w.SameNames frames f) :
    ({ w with frames }.hits f name wanted).Perm (w.hits f name wanted) := by
  rw [h.hits_eq]
  unfold hits importHits
  dsimp only
  split
  · exact .refl _
  · exact (h.imports.filterMap _).append_left _

theorem hits_eq_of_imports (h : w.SameNames frames f)
    (hi : (frames.get f).imports = (w.frame f).imports) :
    { w with frames }.hits f name wanted = w.hits f name wanted := by
  rw [h.hits_eq, hi]
  rfl

end SameNames

/-- From one frame outward to another, the frames in the other arena are the same, but that the last
one may lie in another frame. -/
structure AgreesInside (w : SymbolTable) (frames : Arena .frame Frame) (f g : FrameId) : Prop where
  declared : ∀ a b, (frames.get a).parent = some b → frames.Has b
  last : frames.get g = { w.frame g with parent := (frames.get g).parent }
  inner : ∀ a, ReflTransGen (fun a b => (w.frame a).parent = some b) f a →
    ReflTransGen (fun a b => (w.frame a).parent = some b) a g → a ≠ g → frames.get a = w.frame a

theorem AgreesInside.step {f' : FrameId} (h : w.AgreesInside frames f g)
    (hp : (w.frame f).parent = some f') : w.AgreesInside frames f' g :=
  ⟨h.declared, h.last, fun a ha => h.inner a (ha.head hp)⟩

theorem resolveAtFrame?_of_frame {p : Option FrameId}
    (h : frames.get f = { w.frame f with parent := p }) :
    { w with frames }.resolveAtFrame? f name wanted = w.resolveAtFrame? f name wanted := by
  have hi : (frames.get f).imports = (w.frame f).imports := by rw [h]
  have hsame : w.SameNames frames f := ⟨by rw [h], by rw [h], .of_eq hi⟩
  rw [resolveAtFrame?_eq_settle, resolveAtFrame?_eq_settle, hsame.hits_eq_of_imports hi]

theorem Decides.reach (h : w.Decides name wanted f g) :
    ReflTransGen (fun a b => (w.frame a).parent = some b) f g := by
  induction h with
  | here => exact .refl
  | outward _ hp _ ih => exact ih.head hp

/-- A frame beyond the one that decides has no influence on what a name means. -/
theorem Decides.resolveInFrame?_frames (hd : w.Decides name wanted f g) (hc : w.Closed)
    (h : w.AgreesInside frames f g) :
    { w with frames }.resolveInFrame? f name wanted = w.resolveInFrame? f name wanted := by
  obtain ⟨t, n, ht⟩ := hd.exists_hit
  rw [hd.resolveInFrame?_eq hc]
  cases hs : w.resolveAtFrame? g name wanted with
  | none => exact absurd ht (hc.resolveAtFrame?_eq_none_iff.mp hs t n)
  | some s =>
      refine ({ w with frames }.walks_frameChainAt.findSome?_eq_some_iff h.declared).mpr ?_
      induction hd with
      | here _ => exact .here ((resolveAtFrame?_of_frame h.last).trans hs)
      | @outward f f' g hn hp hd ih =>
          have hne : f ≠ g := fun heq => hn t n (heq ▸ ht)
          have hf : frames.get f = w.frame f := h.inner f .refl (hd.reach.head hp) hne
          refine .later ?_ ?_ (ih (h.step hp) ht hs)
          · exact (resolveAtFrame?_of_frame hf).trans (hc.resolveAtFrame?_eq_none_iff.mpr hn)
          · exact (congrArg Frame.parent hf).trans hp

/-- Every frame in the other arena is the same, but that modules may be imported in another
order. -/
structure PermutesImports (w : SymbolTable) (frames : Arena .frame Frame) : Prop where
  size : frames.size = w.frames.size
  frame : ∀ f, ∃ imports, imports.Perm (w.frame f).imports ∧
    frames.get f = { w.frame f with imports }

namespace PermutesImports

theorem modify {imports : List ModuleId} (h : imports.Perm (w.frame f).imports) :
    w.PermutesImports (w.frames.modify f fun x => { x with imports }) := by
  refine ⟨Arena.size_modify _ _ _, fun g => ?_⟩
  rw [Arena.get_modify]
  split
  · rename_i hg
    obtain ⟨rfl, _⟩ := hg
    exact ⟨imports, h, rfl⟩
  · exact ⟨(w.frame g).imports, .refl _, rfl⟩

theorem sameNames (h : w.PermutesImports frames) (f : FrameId) : w.SameNames frames f := by
  obtain ⟨imports, hp, hf⟩ := h.frame f
  exact ⟨by rw [hf], by rw [hf], by rw [hf]; exact hp⟩

theorem frameChain_eq (h : w.PermutesImports frames) (f : FrameId) :
    { w with frames }.frameChain f = w.frameChain f := by
  have hparent : (fun f => ({ w with frames }.frame f).parent) = fun f => (w.frame f).parent := by
    funext f
    obtain ⟨imports, _, hf⟩ := h.frame f
    have hp : (frames.get f).parent = (w.frame f).parent := by rw [hf]
    exact hp
  have hsize : { w with frames }.frames.size = w.frames.size := h.size
  have hwalks := { w with frames }.walks_frameChainAt
  rw [hparent] at hwalks
  unfold frameChain
  rw [hsize]
  exact w.walks_frameChainAt.congr hwalks _ f

theorem resolveAtFrame? (h : w.PermutesImports frames) (hc : w.Closed) (hn : w.NanFree)
    (f : FrameId) (name : String) (wanted : Wanted) : SameOutcome (w.resolveAtFrame? f name wanted)
      ({ w with frames }.resolveAtFrame? f name wanted) := by
  rw [resolveAtFrame?_eq_settle, resolveAtFrame?_eq_settle]
  exact settle_perm name (h.sameNames f).hits_perm.symm (hn.comparable_hits hc)

theorem resolveInFrame? (h : w.PermutesImports frames) (hc : w.Closed) (hn : w.NanFree)
    (f : FrameId) (name : String) (wanted : Wanted) : SameOutcome (w.resolveInFrame? f name wanted)
      ({ w with frames }.resolveInFrame? f name wanted) := by
  unfold SymbolTable.resolveInFrame?
  rw [h.frameChain_eq]
  generalize w.frameChain f = chain
  induction chain with
  | nil => exact .absent
  | cons g chain ih =>
      have hg := h.resolveAtFrame? hc hn g name wanted
      rw [List.findSome?_cons, List.findSome?_cons]
      generalize w.resolveAtFrame? g name wanted = r at hg
      generalize { w with frames }.resolveAtFrame? g name wanted = r' at hg
      cases hg with
      | absent => exact ih
      | found hs => exact .found hs
      | ambiguous hp => exact .ambiguous hp

end PermutesImports

end SymbolTable

namespace Session

variable {s : Session}

/-- A function within another one, into which three modules are imported. The first two have the
same variable under a name, one of them by an alias; the third has another one. -/
def nestedImports : List Operation :=
  [.edit (.addModule "Left"), .edit (.addModule "Copy"), .edit (.addModule "Right"),
    .edit (.addVariable "size" false none), .edit (.addVariable "size" false none),
    .edit (.addAlias "size" (.slot ⟨0⟩)), .edit (.define (.module ⟨3⟩) "size" (.slot ⟨0⟩)),
    .edit (.define (.module ⟨4⟩) "size" (.aliasDecl ⟨0⟩)),
    .edit (.define (.module ⟨5⟩) "size" (.slot ⟨1⟩)), .edit (.addFrame (.activation none [])),
    .edit (.importModule ⟨0⟩ ⟨3⟩), .edit (.importModule ⟨0⟩ ⟨4⟩), .edit (.importModule ⟨0⟩ ⟨5⟩),
    .edit (.addFrame (.activation none [])), .enter ⟨0⟩, .enter ⟨1⟩]

end Session
end StaticSemantics
