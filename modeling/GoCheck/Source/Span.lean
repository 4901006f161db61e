/-!
# Positions, spans and symbols

Offsets into one position space shared by all files, and half-open ranges of them. The empty span at
position zero, which belongs to no file, marks nodes without a place in the source. Texts are
numbered in the order of their first appearance.
-/

namespace GoCheck

structure Span where
  start : Nat
  stop : Nat
  deriving DecidableEq, Repr, Inhabited

namespace Span

/-- The span of a node without a place in the source. -/
def dummy : Span := ⟨0, 0⟩

def isDummy (s : Span) : Bool := s.start = 0 ∧ s.stop = 0

/-- The number of positions; a reversed span has none. -/
def length (s : Span) : Nat := s.stop - s.start

def isEmpty (s : Span) : Bool := s.stop ≤ s.start

def contains (s : Span) (pos : Nat) : Bool := s.start ≤ pos ∧ pos < s.stop

def merge (s t : Span) : Span := ⟨min s.start t.start, max s.stop t.stop⟩

def upTo (s t : Span) : Span := ⟨s.start, t.stop⟩

def shrinkToEnd (s : Span) : Span := ⟨s.stop, s.stop⟩

def text (s : Span) : String := s!"{s.start}..{s.stop}"

def le (s t : Span) : Bool := s.start < t.start || (s.start == t.start && s.stop ≤ t.stop)

end Span

/-! ## Symbols -/

/-- The number of a text in a symbol table; `none` is the placeholder. -/
structure Symbol where
  index : Option Nat
  deriving DecidableEq, Repr, Inhabited

namespace Symbol

def placeholder : Symbol := ⟨none⟩

def isPlaceholder (s : Symbol) : Bool := s.index.isNone

/-- The number of a symbol; the placeholder has the largest 32-bit number. -/
def number (s : Symbol) : Nat := s.index.getD 4294967295

def debugText (s : Symbol) : String :=
  match s.index with
  | none => "Symbol(DUMMY)"
  | some n => s!"Symbol({n})"

end Symbol

structure SymbolTable where
  texts : List String := []
  deriving Inhabited

namespace SymbolTable

def find? (t : SymbolTable) (s : String) : Option Symbol :=
  (t.texts.idxOf? s).map fun n => ⟨some n⟩

/-- The symbol of a text, which is added if it is new. -/
def intern (t : SymbolTable) (s : String) : Symbol × SymbolTable :=
  match t.find? s with
  | some sym => (sym, t)
  | none => (⟨some t.texts.length⟩, ⟨t.texts ++ [s]⟩)

def resolve? (t : SymbolTable) (s : Symbol) : Option String := s.index.bind (t.texts[·]?)

def identifierText (t : SymbolTable) (s : Symbol) : String := (t.resolve? s).getD "<unknown>"

def debugText (t : SymbolTable) : String :=
  s!"SymbolInterner \x7b len: {t.texts.length} \x7d"

end SymbolTable

end GoCheck
