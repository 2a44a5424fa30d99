import ScriptHints.Fault

/-!
# Spans

A region of a script, given by the byte offsets of its two ends. `stop` is exclusive. A span is
plain data: nothing forces `start ≤ stop`, and the operations that rely on it, or on the offsets
fitting a machine word, answer with a `Fault` when it fails.

* `Span.ofLength` — a region from where it starts and how long it is.
* `Span.length`, `Span.isEmpty` — the size of a region.
* `Span.merge` — the smallest region covering two.
-/

namespace ScriptHints

/-- A region of a script: the byte offsets of its first byte and of the byte after its last. -/
structure Span where
  /-- Offset of the first byte. -/
  start : Nat
  /-- Offset of the byte after the last. -/
  stop : Nat
  deriving DecidableEq, Repr

namespace Span

/-- Offsets stay below this bound, the number of machine words: two to the power of 64. -/
def bound : Nat := 18446744073709551616

/-- The region of `length` bytes from `start` on. Its end has to fit a machine word. -/
def ofLength (start length : Nat) : Except Fault Span :=
  if start + length < bound then .ok ⟨start, start + length⟩ else .error .addOverflow

/-- The number of bytes covered. A region that ends before it starts has none to give. -/
def length (s : Span) : Except Fault Nat :=
  if s.start ≤ s.stop then .ok (s.stop - s.start) else .error .subOverflow

/-- Whether no byte is covered. -/
def isEmpty (s : Span) : Except Fault Bool :=
  s.length.map (· == 0)

/-- The smallest region covering both. -/
def merge (a b : Span) : Span :=
  ⟨min a.start b.start, max a.stop b.stop⟩

/-! ## When the operations succeed -/

/-- A region can be made wherever its end is in bounds. -/
theorem ofLength_eq_ok {start length : Nat} (h : start + length < bound) :
    ofLength start length = .ok ⟨start, start + length⟩ := by
  simp [ofLength, h]

/-- A region that is not reversed has a length. -/
theorem length_eq_ok {s : Span} (h : s.start ≤ s.stop) : s.length = .ok (s.stop - s.start) := by
  simp [length, h]

end Span

end ScriptHints
