import StaticSemantics.Context

/-!
The schedule of a compilation: which phase it is in, and the run of all remaining phases over the
units of the program.
-/

namespace StaticSemantics

/-- A phase was asked for out of turn. -/
structure PhaseError where
  requested : Phase
  current : Option Phase
  deriving DecidableEq, Repr

def PhaseError.message (e : PhaseError) : String :=
  let current := (e.current.map fun p => "Some(" ++ p.text ++ ")").getD "None"
  "phase " ++ e.requested.text ++ " requested while " ++ current ++ " is still running"

structure Schedule where
  current : Option Phase := some .declaration1
  deriving DecidableEq, Repr

namespace Schedule

def isRunning (s : Schedule) : Bool := s.current.isSome

def next (s : Schedule) : Schedule := ⟨s.current.bind Phase.next?⟩

/-- The context of a phase, which must be the current one. -/
def enter (s : Schedule) (p : Phase) : Except PhaseError Context :=
  if s.current = some p then .ok { phase := some p } else .error ⟨p, s.current⟩

/-- The current phase and all after it. -/
def remaining (s : Schedule) : List Phase := (s.current.map Phase.onward).getD []

/-- One phase: visits the units in turn, handing the state on from unit to unit. -/
def sweep {U σ : Type} (visit : Context → U → σ → U × σ) (p : Phase) : List U → σ → List U × σ
  | [], state => ([], state)
  | unit :: rest, state =>
    let (unit, state) := visit { phase := some p } unit state
    let (rest, state) := sweep visit p rest state
    (unit :: rest, state)

/-- Runs every remaining phase, each over all units before the next. -/
def run {U σ : Type} (s : Schedule) (visit : Context → U → σ → U × σ) (units : List U) (state : σ) :
    List U × σ × Schedule :=
  let (units, state) :=
    s.remaining.foldl (fun (units, state) p => sweep visit p units state) (units, state)
  (units, state, ⟨none⟩)

end Schedule
end StaticSemantics
