import StaticSemantics.Proofs.Resolution.Growth

/-!
Names do not depend on captures: what a name means in a frame is the same whatever slots the frames
are known to refer to. A look-up that reads no frame is the same for two names, and with other keys
for them, if the tables of names have the same entries for both.
-/

namespace StaticSemantics

theorem Frame.kind_of_uncaptured_eq {f f' : Frame} (h : f'.uncaptured = f.uncaptured) :
    f'.kind = f.kind ∨
      ∃ me l l', f.kind = .activation me l ∧ f'.kind = .activation me l' := by
  obtain ⟨kind, _⟩ := f
  obtain ⟨kind', _⟩ := f'
  cases kind <;> cases kind' <;> simp_all [uncaptured]

namespace SymbolTable

variable (w : SymbolTable) (frames : Arena .frame Frame) {nameTable : NameTable}
  {name name' : String}

/-! ## Look-ups that read no frame -/

theorem unwindAt_frames (n : Nat) (seen : List AliasId) (s : Symbol) :
    { w with frames, nameTable }.unwindAt n seen s = w.unwindAt n seen s := by
  induction n generalizing seen s with
  | zero => cases s <;> rfl
  | succ n ih =>
      cases s with
      | aliasDecl a =>
          simp only [unwindAt]
          rw [ih]
          rfl
      | _ => rfl

theorem unwind_frames (s : Symbol) : { w with frames, nameTable }.unwind s = w.unwind s :=
  w.unwindAt_frames frames _ _ s

theorem referTo_frames (make : SlotId → TypeId → Value) (s : Symbol) :
    { w with frames, nameTable }.referTo make s = w.referTo make s := by
  unfold referTo
  rw [unwind_frames]
  rfl

theorem suits_frames (wanted : Wanted) :
    { w with frames, nameTable }.suits wanted = w.suits wanted := by
  funext s
  unfold suits denotesTypeOrModule
  rw [unwind_frames]

theorem resolveIn?_frames {o : Owner} (wanted : Wanted)
    (ho : { w with frames, nameTable }.bound? o name' = w.bound? o name) :
    { w with frames, nameTable }.resolveIn? o name' wanted = w.resolveIn? o name wanted := by
  unfold resolveIn? find? reference
  rw [ho, suits_frames]
  simp only [referTo_frames]

theorem superChain_frames (t : TypeId) :
    { w with frames, nameTable }.superChain t = w.superChain t :=
  w.walks_superChainAt.congr ⟨fun _ => rfl, fun _ _ => rfl⟩ _ t

theorem memberChain_frames (d : MemberTableId) :
    { w with frames, nameTable }.memberChain d = w.memberChain d :=
  w.walks_memberChainAt.congr ⟨fun _ => rfl, fun _ _ => rfl⟩ _ d

theorem resolveInType?_frames (t : TypeId) (wanted : Wanted)
    (ht : ∀ u, { w with frames, nameTable }.bound? (.type u) name' = w.bound? (.type u) name) :
    { w with frames, nameTable }.resolveInType? t name' wanted =
      w.resolveInType? t name wanted := by
  unfold resolveInType?
  rw [superChain_frames]
  congr 1
  funext s
  exact w.resolveIn?_frames frames wanted (ht s)

theorem resolveInMembers?_frames (d : MemberTableId) (wanted : Wanted)
    (hm : ∀ e,
      { w with frames, nameTable }.bound? (.members e) name' = w.bound? (.members e) name) :
    { w with frames, nameTable }.resolveInMembers? d name' wanted =
      w.resolveInMembers? d name wanted := by
  unfold resolveInMembers?
  rw [memberChain_frames]
  congr 1
  funext e
  exact w.resolveIn?_frames frames wanted (hm e)

theorem rebase_frames (v : Value) : { w with frames, nameTable }.rebase v = w.rebase v := by
  funext s
  unfold rebase memberReference
  simp only [referTo_frames]

theorem resolveInValue?_frames (v : Value) (wanted : Wanted)
    (ht : ∀ u, { w with frames, nameTable }.bound? (.type u) name' = w.bound? (.type u) name)
    (hm : ∀ e,
      { w with frames, nameTable }.bound? (.members e) name' = w.bound? (.members e) name) :
    { w with frames, nameTable }.resolveInValue? v name' wanted =
      w.resolveInValue? v name wanted := by
  unfold resolveInValue?
  split
  · exact w.resolveInType?_frames frames _ wanted ht
  · simp only [w.resolveInMembers?_frames frames _ wanted hm, rebase_frames]
    rfl

/-! ## Look-ups through frames -/

section

variable {w frames} (h : w.Grows { w with frames })
include h

theorem resolveInLocals?_frames (f : FrameId) (name : String) (wanted : Wanted) :
    { w with frames }.resolveIn? (.frame f) name wanted =
      w.resolveIn? (.frame f) name wanted := by
  have hl := congrArg Frame.locals (h.frames f)
  simp only [Frame.locals_uncaptured] at hl
  refine w.resolveIn?_frames frames wanted ?_
  exact congrArg (fun b : Bindings => (w.nameTable.lookup? name).bind b.get?) hl

theorem importHits_frames (f : FrameId) (name : String) (wanted : Wanted) :
    { w with frames }.importHits f name wanted = w.importHits f name wanted := by
  have hi := congrArg Frame.imports (h.frames f)
  simp only [Frame.imports_uncaptured] at hi
  unfold importHits
  rw [hi]
  congr 1
  funext m
  exact congrArg _ (w.resolveIn?_frames frames wanted rfl)

theorem bodyHits_frames (f : FrameId) (name : String) (wanted : Wanted) :
    { w with frames }.bodyHits f name wanted = w.bodyHits f name wanted := by
  unfold bodyHits
  rcases Frame.kind_of_uncaptured_eq (h.frames f) with hk | ⟨me, l, l', hk, hk'⟩
  · rw [hk]
    split
    · rw [superChain_frames]
      congr 1
      funext s
      exact w.resolveIn?_frames frames wanted rfl
    · exact congrArg Option.toList (w.resolveIn?_frames frames wanted rfl)
    · rfl
    · rfl
  · rw [hk, hk']

theorem resolveAtFrame?_frames (f : FrameId) (name : String) (wanted : Wanted) :
    { w with frames }.resolveAtFrame? f name wanted = w.resolveAtFrame? f name wanted := by
  unfold resolveAtFrame?
  rw [resolveInLocals?_frames h, importHits_frames h, bodyHits_frames h]
  have hvalue (v : Value) : { w with frames }.resolveInValue? v name wanted =
      w.resolveInValue? v name wanted :=
    w.resolveInValue?_frames frames v wanted (fun _ => rfl) fun _ => rfl
  simp only [hvalue]
  rcases Frame.kind_of_uncaptured_eq (h.frames f) with hk | ⟨me, l, l', hk, hk'⟩
  · rw [hk]
  · rw [hk, hk']

theorem resolveInFrame?_frames (f : FrameId) (name : String) (wanted : Wanted) :
    { w with frames }.resolveInFrame? f name wanted = w.resolveInFrame? f name wanted := by
  unfold resolveInFrame?
  rw [h.frameChain_eq]
  congr 1
  funext g
  exact resolveAtFrame?_frames h g name wanted

end

end SymbolTable

/-! ## Noting a capture -/

theorem Frame.insertSlot_insertSlot (s : SlotId) (l : List SlotId) :
    insertSlot s (insertSlot s l) = insertSlot s l := by
  induction l with
  | nil => simp [insertSlot]
  | cons t rest ih =>
      simp only [insertSlot]
      split
      · simp [insertSlot, *]
      · split
        · simp [insertSlot]
        · simp [insertSlot, *]

theorem Frame.capture_capture (s : SlotId) (f : Frame) : (f.capture s).capture s = f.capture s := by
  obtain ⟨kind, _⟩ := f
  cases kind <;> simp [capture, insertSlot_insertSlot]

theorem SymbolTable.capture_capture (w : SymbolTable) (f : FrameId) (s : SlotId) :
    (w.capture f s).capture f s = w.capture f s := by
  unfold capture modifyFrame
  congr 1
  rw [Arena.modify_modify]
  congr 1
  funext x
  exact x.capture_capture s

namespace Workspace

/-- A note changes nothing, or adds a slot of a frame around the innermost function to it. -/
theorem noteCapture_cases (ws : Workspace) (s : Symbol) :
    ws.noteCapture s = ws ∨
      ∃ owner slot t inner, s = .value (.reference (.frame owner) slot t) ∧
        ws.current?.bind ws.table.activationOf? = some inner ∧
        (owner ≠ inner ∧ (ws.table.frame owner).isActivation) ∧
        ws.noteCapture s = { ws with table := ws.table.capture inner slot } := by
  unfold noteCapture
  split
  · rename_i owner slot t inner hi
    split
    · exact .inr ⟨owner, slot, t, inner, rfl, hi, ‹_›, rfl⟩
    · exact .inl rfl
  · exact .inl rfl

theorem noteCapture_noteCapture (ws : Workspace) (s : Symbol) :
    (ws.noteCapture s).noteCapture s = ws.noteCapture s := by
  rcases ws.noteCapture_cases s with h | ⟨owner, slot, t, inner, rfl, hi, ho, h⟩
  · rw [h, h]
  · have hg : ws.table.Grows (ws.table.capture inner slot) := .capture inner slot
    have hi' : ws.current?.bind (ws.table.capture inner slot).activationOf? = some inner := by
      simpa only [show (ws.table.capture inner slot).activationOf? = ws.table.activationOf? from
        funext hg.activationOf?_eq] using hi
    rw [h]
    unfold noteCapture
    simp only [current?] at hi' ⊢
    simp only [hi', hg.isActivation_eq, if_pos ho, SymbolTable.capture_capture]

theorem nameInScope?_noteCapture (ws : Workspace) (s : Symbol) (name : String) (wanted : Wanted) :
    (ws.noteCapture s).nameInScope? name wanted = ws.nameInScope? name wanted := by
  rcases ws.noteCapture_cases s with h | ⟨owner, slot, t, inner, rfl, _, _, h⟩
  · rw [h]
  · rw [h]
    have hg : ws.table.Grows (ws.table.capture inner slot) := .capture inner slot
    have hr := fun f => SymbolTable.resolveInFrame?_frames hg f name wanted
    unfold nameInScope? resolveInScope? current?
    congr 1
    exact congrArg (ws.entered.head?.bind ·) (funext hr)

end Workspace
end StaticSemantics
