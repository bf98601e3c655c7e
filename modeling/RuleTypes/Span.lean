/-!
# Source positions

A span is where a node of rule code was written: a line, a column and a length in bytes. Line
`0` marks a node that no source text produced. Positions are counted in 32 bits, so `cover?`,
which joins two spans, has no answer when a column or a length would leave that range.
-/

namespace RuleTypes

/-- A source region: its first line and column, counted from one, and its length in bytes. -/
structure Span where
  line : Nat
  col : Nat
  len : Nat
  deriving DecidableEq, Repr, Inhabited

namespace Span

/-- Positions and lengths stay below this bound, the first number that 32 bits do not hold. -/
def limit : Nat := 4294967296

/-- The position of a node that no source text produced. -/
def nowhere : Span := ⟨0, 0, 0⟩

/-- The empty span at a position. -/
def point (line col : Nat) : Span := ⟨line, col, 0⟩

/-- Whether no source text stands behind the span. -/
def isSynthetic (s : Span) : Bool := s.line == 0

/-- The column after the last one covered. -/
def stop (s : Span) : Nat := s.col + s.len

/-- The span of `a` extended over `b`. A synthetic span covers nothing. On one line the result
runs from the lesser column to the greater end; over two lines it keeps the start of `a` and
adds the lengths. There is no result when a sum reaches `limit`. -/
def cover? (a b : Span) : Option Span :=
  if a.isSynthetic then some b
  else if b.isSynthetic then some a
  else if a.line ≠ b.line then
    if a.len + b.len < limit then some ⟨a.line, a.col, a.len + b.len⟩ else none
  else if a.stop < limit ∧ b.stop < limit then
    some ⟨a.line, min a.col b.col, max a.stop b.stop - min a.col b.col⟩
  else none

/-- The position as messages give it, `line:col`. -/
def text (s : Span) : String := s!"{s.line}:{s.col}"

/-- Position and length, `line:col+len`. -/
def fullText (s : Span) : String := s!"{s.line}:{s.col}+{s.len}"

end Span

end RuleTypes
