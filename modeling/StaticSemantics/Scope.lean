import StaticSemantics.Lookup

/-!
Scope: the chain of frames around a place in the program, and what a name means there. The innermost
frame in which a name is found decides; different targets within one frame make the name ambiguous.
-/

namespace StaticSemantics

/-- Why a place in scope cannot be named. -/
inductive ScopeError where
  | unknownRoot (name : String)
  | noFrame
  deriving DecidableEq, Repr

def ScopeError.message : ScopeError → String
  | unknownRoot name => s!"unknown root module '{name}'"
  | noFrame => "no scope frame has been entered"

namespace SymbolTable

variable [Memory]

/-- The root module of a name. -/
def root (w : SymbolTable) (name : String) : Except ScopeError ModuleId :=
  match w.root? name with
  | some m => .ok m
  | none => .error (.unknownRoot name)

/-- The kind of a frame in one word. A type whose kind has no bodies counts as a class. -/
def frameLabel (w : SymbolTable) (f : FrameId) : String :=
  match (w.frame f).kind with
  | .module _ => "Module"
  | .body t =>
    match (w.type t).kind with
    | .struct => "Structure"
    | .enum _ => "Enum"
    | .interface _ => "Interface"
    | _ => "Class"
  | .activation .. => "Activation"
  | .withBlock _ => "With"

def frameChainAt (w : SymbolTable) : Nat → FrameId → List FrameId
  | 0, f => [f]
  | n + 1, f => f :: ((w.frame f).parent.map (w.frameChainAt n)).getD []

/-- The frame and those around it, innermost first. -/
def frameChain (w : SymbolTable) (f : FrameId) : List FrameId := w.frameChainAt w.frames.size f

/-- Two symbols reach the same declaration, be it by different ways. -/
def sameTarget : Symbol → Symbol → Bool
  | .value v, .value v' =>
    match v.slot?, v'.slot? with
    | some s, some s' => s = s'
    | _, _ => v.same v'
  | s, s' => s.same s'

/-- What was found in one frame, each hit with the import that brought it in. -/
abbrev Hits := List (Symbol × Option ModuleId)

/-- The common target of all hits, or an error if they differ. -/
def settle (name : String) (hits : Hits) : Option Symbol :=
  match hits with
  | [] => none
  | (first, _) :: rest =>
    if rest.all fun (s, _) => sameTarget first s then some first
    else some (.error (.ambiguous name (hits.filterMap Prod.snd)))

/-- Hits in the type or module whose body the frame is. All super types of a type are searched. -/
def bodyHits (w : SymbolTable) (f : FrameId) (name : String) (wanted : Wanted) : List Symbol :=
  match (w.frame f).kind with
  | .body t => (w.superChain t).filterMap fun s => w.resolveIn? (.type s) name wanted
  | .module m => (w.resolveIn? (.module m) name wanted).toList
  | .activation .. | .withBlock _ => []

def importHits (w : SymbolTable) (f : FrameId) (name : String) (wanted : Wanted) : Hits :=
  (w.frame f).imports.filterMap fun m =>
    (w.resolveIn? (.module m) name wanted).map fun s => (s, some m)

/-- What a name means in one frame. In the body of a function locals come before the members of its
object, and these before imports; in any other frame all are on one level. -/
def resolveAtFrame? (w : SymbolTable) (f : FrameId) (name : String) (wanted : Wanted) :
    Option Symbol :=
  let locals := w.resolveIn? (.frame f) name wanted
  let imports := w.importHits f name wanted
  match (w.frame f).kind with
  | .activation me _ =>
    locals <|> (me.bind fun v => w.resolveInValue? v name wanted) <|> settle name imports
  | _ =>
    settle name ((w.bodyHits f name wanted ++ locals.toList).map (fun s => (s, none)) ++ imports)

/-- What a name means in a frame or, failing that, in the frames around it. -/
def resolveInFrame? (w : SymbolTable) (f : FrameId) (name : String) (wanted : Wanted) :
    Option Symbol :=
  (w.frameChain f).findSome? fun g => w.resolveAtFrame? g name wanted

/-- The innermost function body around a frame. -/
def activationOf? (w : SymbolTable) (f : FrameId) : Option FrameId :=
  (w.frameChain f).find? fun g => (w.frame g).isActivation

/-- The innermost `With` block around a frame. -/
def withFrameOf? (w : SymbolTable) (f : FrameId) : Option FrameId :=
  (w.frameChain f).find? fun g => (w.frame g).target?.isSome

def importModule (w : SymbolTable) (f : FrameId) (m : ModuleId) : SymbolTable :=
  w.modifyFrame f (Frame.importModule m)

def capture (w : SymbolTable) (f : FrameId) (s : SlotId) : SymbolTable :=
  w.modifyFrame f (Frame.capture s)

/-- Puts a frame below the one it is first entered from. A frame that has a parent keeps it, and
none is put below itself. -/
def attachFrame (w : SymbolTable) (f top : FrameId) : SymbolTable :=
  if (w.frame f).parent.isNone && !(w.frameChain top).contains f then
    w.modifyFrame f ({ · with parent := some top })
  else w

end SymbolTable
end StaticSemantics
