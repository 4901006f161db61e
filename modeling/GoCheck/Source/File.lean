import GoCheck.Source.Span
import GoCheck.Text.Basic

/-!
# Source files

Files laid out one after the other in the shared position space, each with its text. The first file
starts at position one, and a gap of one position follows every file, so that a position names at
most one file, its end included.
-/

namespace GoCheck

/-- The characters from an octet offset on, if the offset is a character boundary. -/
def dropOctets? : Nat → List Char → Option (List Char)
  | 0, cs => some cs
  | _ + 1, [] => none
  | n + 1, c :: cs => if c.utf8Size ≤ n + 1 then dropOctets? (n + 1 - c.utf8Size) cs else none

/-- The characters before an octet offset, if the offset is a character boundary. -/
def takeOctets? : Nat → List Char → Option (List Char)
  | 0, _ => some []
  | _ + 1, [] => none
  | n + 1, c :: cs =>
    if c.utf8Size ≤ n + 1 then (takeOctets? (n + 1 - c.utf8Size) cs).map (c :: ·) else none

/-- The text between two octet offsets; `none` if they are reversed, out of bounds or in a
character. -/
def sliceOctets? (s : String) (start stop : Nat) : Option String :=
  if start ≤ stop then
    ((dropOctets? start s.toList).bind (takeOctets? (stop - start))).map String.ofList
  else none

/-- A file and the position of its first octet. -/
structure SourceFile where
  id : Nat
  name : String
  source : String
  base : Nat
  deriving Inhabited

namespace SourceFile

/-- The positions of the file, from its first octet to the position after its last. -/
def span (f : SourceFile) : Span := ⟨f.base, f.base + f.source.utf8ByteSize⟩

def localOffset (f : SourceFile) (pos : Nat) : Nat := pos - f.base

def snippet? (f : SourceFile) (s : Span) : Option String :=
  sliceOctets? f.source (f.localOffset s.start) (f.localOffset s.stop)

def debugText (f : SourceFile) : String :=
  s!"SourceFile \x7b id: FileId({f.id}), name: " ++ Text.quote f.name ++
    s!", base: BytePos({f.base}), len: {f.source.utf8ByteSize} \x7d"

end SourceFile

/-- The files of a check, in the order in which they were added. -/
structure SourceMap where
  files : List SourceFile := []
  deriving Inhabited

namespace SourceMap

def nextBase (m : SourceMap) : Nat :=
  match m.files.getLast? with
  | some f => f.span.stop + 1
  | none => 1

/-- Lays out a file after the others. -/
def add (m : SourceMap) (name source : String) : SourceFile × SourceMap :=
  let file := ⟨m.files.length, name, source, m.nextBase⟩
  (file, ⟨m.files ++ [file]⟩)

/-- The file that holds a position. The position after the last octet still belongs to a file. -/
def fileAt? (m : SourceMap) (pos : Nat) : Option SourceFile :=
  m.files.find? fun f => f.span.start ≤ pos ∧ pos ≤ f.span.stop

def ofFiles (files : List (String × String)) : SourceMap :=
  files.foldl (fun m f => (m.add f.1 f.2).2) {}

end SourceMap

end GoCheck
