import GoCheck.Number.Basic
import GoCheck.Source.File

/-!
# Diagnostics

Reports about a program. A sink collects them in the order in which they were reported. A diagnostic
is rendered with the source line of each label, carets under the labelled part, and the notes; a
label whose span starts in no file is left out.
-/

namespace GoCheck

/-- How grave a report is. Only errors make a check fail. -/
inductive Severity where
  | error
  | warning
  | note
  deriving DecidableEq, Repr

def Severity.text : Severity → String
  | error => "error"
  | warning => "warning"
  | note => "note"

/-- Whether a label marks the place of a report or one that explains it. -/
inductive LabelStyle where
  | primary
  | secondary
  deriving DecidableEq, Repr

structure Label where
  style : LabelStyle
  span : Span
  message : Option String := none
  deriving DecidableEq, Repr

structure Diagnostic where
  severity : Severity
  code : Option Nat := none
  message : String
  labels : List Label := []
  notes : List String := []
  deriving DecidableEq, Repr

namespace Diagnostic

variable (d : Diagnostic)

def isError : Bool := d.severity = .error

def isWarning : Bool := d.severity = .warning

def primarySpan? : Option Span :=
  (d.labels.find? (·.style = .primary)).map (·.span)

def withLabel (l : Label) : Diagnostic := { d with labels := d.labels ++ [l] }

def withNote (n : String) : Diagnostic := { d with notes := d.notes ++ [n] }

end Diagnostic

structure Sink where
  reports : Array Diagnostic := #[]
  deriving Inhabited

namespace Sink

def emit (s : Sink) (d : Diagnostic) : Sink := ⟨s.reports.push d⟩

def errorCount (s : Sink) : Nat := s.reports.countP (·.isError)

def warningCount (s : Sink) : Nat := s.reports.countP (·.isWarning)

def hasErrors (s : Sink) : Bool := 0 < s.errorCount

def debugText (s : Sink) : String :=
  s!"DiagnosticSink \x7b errors: {s.errorCount}, warnings: {s.warningCount}, " ++
    s!"total: {s.reports.size} \x7d"

end Sink

/-! ## Rendering -/

def splitLines (s : String) : List String := s.splitOn "\n"

def dropReturn (s : String) : String :=
  match s.toList.reverse with
  | '\r' :: rest => String.ofList rest.reverse
  | _ => s

/-- The lines of a note without their ends, `\n` or `\r\n`. The last one needs no end. -/
def noteLines (s : String) : List String :=
  match (splitLines s).reverse with
  | [] => []
  | last :: ended => (ended.map dropReturn).reverse ++ if last.isEmpty then [] else [last]

/-- A line without the characters that only end it. -/
def trimLineEnd (s : String) : String :=
  String.ofList
    (s.toList.reverse.dropWhile fun c => c = '\n' || c = '\r' || c = Char.ofNat 0).reverse

/-- A label in its file, whose lines and columns count from one. It marks octets of its line. -/
structure Placement where
  file : String
  line : Nat
  column : Nat
  source : String
  start : Nat
  stop : Nat
  style : LabelStyle
  message : String

/-- The line of an octet offset, counted from zero, its offset and its text. -/
def lineAt (offset : Nat) : Nat → Nat → List String → Nat × Nat × String
  | index, base, [] => (index, base, "")
  | index, base, [l] => (index, base, l)
  | index, base, l :: rest =>
    if offset ≤ base + l.utf8ByteSize then (index, base, l)
    else lineAt offset (index + 1) (base + l.utf8ByteSize + 1) rest

/-- The number of characters of a line that end at or before an octet offset. -/
def charsBefore : Nat → List Char → Nat
  | _, [] => 0
  | n, c :: cs => if c.utf8Size ≤ n then charsBefore (n - c.utf8Size) cs + 1 else 0

def Label.place? (m : SourceMap) (l : Label) : Option Placement :=
  (m.fileAt? l.span.start).map fun f =>
    let start := f.localOffset l.span.start
    let stop := f.localOffset l.span.stop
    let (index, base, text) := lineAt start 0 0 (splitLines f.source)
    { file := f.name
      line := index + 1
      column := charsBefore (start - base) text.toList + 1
      source := trimLineEnd text
      start := start - base
      stop := max (stop - base) (start - base + 1)
      style := l.style
      message := l.message.getD "" }

def blanks (n : Nat) : String := String.ofList (List.replicate n ' ')

def tabWidth : Nat := 4

/-- The columns of a character at a column of a line: a tab reaches to its stop, controls take
none. -/
def columnsAt (column : Nat) (c : Char) : Nat :=
  if c = '\t' then tabWidth - column % tabWidth
  else if c.toNat < 0x20 ∨ 0x7f ≤ c.toNat ∧ c.toNat < 0xa0 then 0
  else 1

/-- A place on a shown line: its text, the octets that it stands for, and its columns. -/
structure Cell where
  shown : List Char
  start : Nat
  stop : Nat
  columns : Nat

def lineCells : Nat → Nat → List Char → List Cell
  | _, _, [] => []
  | offset, column, c :: cs =>
    let columns := columnsAt column c
    let shown := if c = '\t' then List.replicate columns ' ' else [c]
    ⟨shown, offset, offset + c.utf8Size, columns⟩ ::
      lineCells (offset + c.utf8Size) (column + columns) cs

def Placement.cells (p : Placement) : List Cell := lineCells 0 0 p.source.toList

def Placement.shownSource (p : Placement) : String :=
  String.ofList (p.cells.flatMap (·.shown))

/-- What stands under a cell: carets if it overlaps the marked part, blanks if it lies before. -/
def Placement.underline (p : Placement) (c : Cell) : List Char :=
  let mark := match p.style with
    | .primary => '^'
    | .secondary => '-'
  if max p.start c.start < min p.stop c.stop then List.replicate c.columns mark
  else if c.start < p.stop then List.replicate c.columns ' '
  else []

/-- The carets under the marked part of a line, which may lie one column beyond its end. -/
def Placement.carets (p : Placement) : String :=
  let size := p.source.utf8ByteSize
  let lineEnd : Cell := ⟨[], size, size + 1, 1⟩
  String.ofList ((p.cells ++ [lineEnd]).flatMap p.underline)

/-- The lines that show a label; the gutter has the given width. -/
def Placement.render (gutter : Nat) (p : Placement) : List String :=
  let pad := blanks (gutter + 1)
  let number := toString p.line
  let caretLine := p.carets ++ (if p.message.isEmpty then "" else " " ++ p.message)
  [s!"{pad}┌─ {p.file}:{p.line}:{p.column}",
    s!"{pad}│",
    s!"{blanks (gutter - number.length)}{number} │ {p.shownSource}",
    s!"{pad}│ {caretLine}"]

/-- A note as shown; its first line carries the mark. -/
def renderNote (gutter : Nat) (note : String) : List String :=
  let pad := blanks (gutter + 1)
  match noteLines note with
  | [] => []
  | first :: rest => s!"{pad}= {first}" :: rest.map fun l => s!"{pad}  {l}"

/-- The code of a report, with at least four digits. -/
def codeText (n : Nat) : String :=
  "E" ++ String.ofList (Number.zeroPad 4 (Number.decimalChars n))

def Diagnostic.header (d : Diagnostic) : String :=
  let code := match d.code with
    | some n => "[" ++ codeText n ++ "]"
    | none => ""
  d.severity.text ++ code ++ ": " ++ d.message

/-- A diagnostic as text, ending in an empty line. -/
def Diagnostic.render (m : SourceMap) (d : Diagnostic) : String :=
  let places := d.labels.filterMap (·.place? m)
  let gutter := places.foldl (fun w p => max w (toString p.line).length) 0
  let border := if places.isEmpty || d.notes.isEmpty then [] else [blanks (gutter + 1) ++ "│"]
  let lines := d.header :: places.flatMap (·.render gutter) ++ border ++
    d.notes.flatMap (renderNote gutter) ++ [""]
  lines.foldl (fun s l => s ++ l ++ "\n") ""

def Sink.render (m : SourceMap) (s : Sink) : String :=
  s.reports.foldl (fun t d => t ++ d.render m) ""

end GoCheck
