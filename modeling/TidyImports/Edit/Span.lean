import TidyImports.Text.Basic

/-! Spans are byte ranges of a text, half open, given by start and length. A change replaces a span
by a new text; a change computed on a part of a document is shifted to the document's offsets. -/
namespace TidyImports.Edit

structure Span where
  start : Nat
  length : Nat
  deriving DecidableEq, Repr

namespace Span

def ofBounds (start stop : Nat) : Span := ⟨start, stop - start⟩

def stop (s : Span) : Nat := s.start + s.length

def isEmpty (s : Span) : Bool := s.length == 0

/-- Whether two ranges conflict: they share a byte, or one is empty and strictly inside the other. -/
def overlaps (a b : Span) : Bool := a.start < b.stop && b.start < a.stop

theorem start_ofBounds (start stop : Nat) : (ofBounds start stop).start = start := rfl

theorem stop_ofBounds (start stop : Nat) : (ofBounds start stop).stop = max start stop := by
  simp only [ofBounds, Span.stop]; omega

theorem overlaps_comm (a b : Span) : a.overlaps b = b.overlaps a := by
  simp only [overlaps]; exact Bool.and_comm _ _

def within (inner outer : Span) : Bool := outer.start ≤ inner.start && inner.stop ≤ outer.stop

def shift (delta : Nat) (s : Span) : Span := ⟨s.start + delta, s.length⟩

theorem stop_shift (delta : Nat) (s : Span) : (s.shift delta).stop = s.stop + delta := by
  simp only [shift, Span.stop]; omega

end Span

structure Change where
  span : Span
  text : Text
  deriving DecidableEq, Repr

namespace Change

def replace (start stop : Nat) (text : Text) : Change := ⟨Span.ofBounds start stop, text⟩

def start (c : Change) : Nat := c.span.start

def stop (c : Change) : Nat := c.span.stop

def shift (delta : Nat) (c : Change) : Change := ⟨⟨c.span.start + delta, c.span.length⟩, c.text⟩

theorem start_shift (delta : Nat) (c : Change) : (c.shift delta).start = c.start + delta := rfl

theorem stop_shift (delta : Nat) (c : Change) : (c.shift delta).stop = c.stop + delta := by
  simp only [shift, stop, Span.stop]; omega

end Change

end TidyImports.Edit
