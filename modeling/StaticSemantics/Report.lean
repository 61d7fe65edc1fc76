import StaticSemantics.Problem

/-!
Reports: problems written out with their places in the source.

Positions are byte offsets. A line starts after each line feed, a position past the end belongs to
the last line, and the column is one more than the characters of the line that end by the
position.
-/

namespace StaticSemantics

structure SourceFile where
  name : String
  source : String
  deriving DecidableEq, Repr

/-- A place in a file, counted from 1. -/
structure Location where
  line : Nat
  column : Nat
  deriving DecidableEq, Repr

namespace SourceFile

/-- The offset after each character, with the character. -/
def offsets (f : SourceFile) : List (Char × Nat) := go 0 f.source.toList
where
  go (offset : Nat) : List Char → List (Char × Nat)
    | [] => []
    | c :: rest => (c, offset + c.utf8Size) :: go (offset + c.utf8Size) rest

/-- The offset at which each line starts. -/
def lineStarts (f : SourceFile) : List Nat :=
  0 :: (f.offsets.filter (·.1 = '\n')).map Prod.snd

def size (f : SourceFile) : Nat := f.source.utf8ByteSize

/-- The place of a position. -/
def location (f : SourceFile) (position : Nat) : Location :=
  let starts := f.lineStarts.filter (· ≤ position)
  let start := starts.getLast?.getD 0
  let stop := min position (f.lineStarts[starts.length]?.getD f.size)
  ⟨starts.length, 1 + ((f.offsets.map Prod.snd).filter fun o => start < o ∧ o ≤ stop).length⟩

/-- The text of a line, counted from 1, without what ends it. -/
def lineText (f : SourceFile) (line : Nat) : String :=
  let lines := f.source.toList.splitOn '\n'
  let backward := (lines[line - 1]?.getD []).reverse
  String.ofList (backward.dropWhile fun c => c = '\r' || c = '\x00').reverse

end SourceFile

/-- The files that problems point into, by their numbers. -/
abbrev SourceFiles := List SourceFile

/-- A problem in the form that tools read. -/
structure Diagnostic where
  isError : Bool
  code : String
  message : String
  label : Span
  deriving DecidableEq

/-- A problem points into a file that is not known. -/
inductive ReportError where
  | fileMissing
  deriving DecidableEq, Repr

def ReportError.message : ReportError → String
  | fileMissing => "file missing"

namespace Problem

/-- The problem on one line. The place is left out if the file is not known. -/
def line (files : SourceFiles) (p : Problem) : String :=
  let place :=
    match files[p.span.file]? with
    | some f =>
      let l := f.location p.span.start
      s!" (At {f.name}:{l.line}:{l.column})"
    | none => ""
  p.severity.title ++ ": " ++ p.message ++ place

def diagnostic (p : Problem) : Diagnostic :=
  { isError := p.severity.isError, code := p.id.code, message := p.message, label := p.span }

def spaces (n : Nat) : String := String.ofList (List.replicate n ' ')

/-- The problem with the line it is on, underlined. -/
def report (files : SourceFiles) (p : Problem) : Except ReportError String :=
  match files[p.span.file]? with
  | none => .error .fileMissing
  | some f =>
    let l := f.location p.span.start
    let number := toString l.line
    let gutter := spaces number.length
    let word := if p.severity.isError then "error" else "warning"
    let carets := String.ofList (List.replicate (max 1 p.span.length) '^')
    .ok (word ++ "[" ++ p.id.code ++ "]: " ++ p.message ++ "\n" ++
      gutter ++ s!" ┌─ {f.name}:{l.line}:{l.column}\n" ++
      gutter ++ " │\n" ++
      number ++ " │ " ++ f.lineText l.line ++ "\n" ++
      gutter ++ " │ " ++ spaces (l.column - 1) ++ carets ++ "\n\n")

end Problem

/-- Problems one after the other; none is reported if one cannot be. -/
def reportAll (files : SourceFiles) (problems : List Problem) : Except ReportError String :=
  (problems.mapM (Problem.report files)).map String.join

end StaticSemantics
