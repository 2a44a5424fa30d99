import ScriptHints.Span
import ScriptHints.Text.Size

/-!
# Slices of a text

Spans count bytes, texts are lists of characters. A slice of a text by a span is therefore a partial
operation: the span must not be reversed, must lie inside the text, and both of its ends must fall
between two characters. `slice?` is that operation, and everything said elsewhere about "the text at
a span" is said with it.

* `splitBytes?` — cuts a text behind a number of bytes, if no character is torn by the cut.
* `slice?` — the text at a span.
* `slice?_eq_some_iff` — the slice exists exactly where the text can be taken apart into what stands
  before the span, what stands at it and what stands behind it.
* `size_toList` — the bytes of a string are those of its characters.
-/

namespace ScriptHints.Text

/-! ### Cutting behind a number of bytes -/

/-- Cuts a text behind `n` bytes. There is no cut inside a character or behind the end. -/
def splitBytes? : Nat → List Char → Option (List Char × List Char)
  | 0, cs => some ([], cs)
  | _ + 1, [] => none
  | n + 1, c :: cs =>
    if c.utf8Size ≤ n + 1 then
      (splitBytes? (n + 1 - c.utf8Size) cs).map fun (front, rest) => (c :: front, rest)
    else none

/-- A cut behind `n` bytes loses nothing and leaves `n` bytes in front. -/
theorem append_of_splitBytes? {n : Nat} {cs front rest : List Char}
    (h : splitBytes? n cs = some (front, rest)) : front ++ rest = cs ∧ size front = n := by
  induction cs generalizing n front with
  | nil =>
    cases n with
    | zero =>
      obtain ⟨rfl, rfl⟩ := Prod.mk.inj (Option.some.inj h)
      exact ⟨rfl, rfl⟩
    | succ n => simp [splitBytes?] at h
  | cons c cs ih =>
    cases n with
    | zero =>
      obtain ⟨rfl, rfl⟩ := Prod.mk.inj (Option.some.inj h)
      exact ⟨rfl, rfl⟩
    | succ n =>
      simp only [splitBytes?] at h
      split at h
      · rename_i hfits
        obtain ⟨⟨a, b⟩, hab, he⟩ := Option.map_eq_some_iff.1 h
        obtain ⟨rfl, rfl⟩ := Prod.mk.inj he
        obtain ⟨happ, hsize⟩ := ih hab
        refine ⟨by rw [List.cons_append, happ], ?_⟩
        rw [size_cons, hsize]
        omega
      · simp at h

/-- Cutting behind the bytes of the front gives the two parts back. -/
theorem splitBytes?_append (front rest : List Char) :
    splitBytes? (size front) (front ++ rest) = some (front, rest) := by
  induction front with
  | nil => cases rest <;> rfl
  | cons c front ih =>
    have hpos := c.utf8Size_pos
    obtain ⟨n, hn⟩ : ∃ n, size (c :: front) = n + 1 := ⟨size (c :: front) - 1, by
      rw [size_cons]; omega⟩
    rw [size_cons] at hn
    have hrest : n + 1 - c.utf8Size = size front := by omega
    have hfits : c.utf8Size ≤ n + 1 := by omega
    rw [size_cons, hn, List.cons_append, splitBytes?, if_pos hfits, hrest, ih]
    rfl

/-- A text is split at a byte exactly where two of its characters meet there. -/
theorem splitBytes?_eq_some_iff {n : Nat} {cs front rest : List Char} :
    splitBytes? n cs = some (front, rest) ↔ cs = front ++ rest ∧ size front = n := by
  constructor
  · intro h
    obtain ⟨happ, hsize⟩ := append_of_splitBytes? h
    exact ⟨happ.symm, hsize⟩
  · rintro ⟨rfl, rfl⟩
    exact splitBytes?_append front rest

/-! ### The text at a span -/

/-- The text at a span. There is none where the span is reversed, leaves the text or has an end
inside a character. -/
def slice? (cs : List Char) (s : Span) : Option (List Char) :=
  if s.start ≤ s.stop then do
    let (_, rest) ← splitBytes? s.start cs
    let (middle, _) ← splitBytes? (s.stop - s.start) rest
    return middle
  else none

/-- A slice exists exactly where the text falls apart into the parts before, at and behind the
span. -/
theorem slice?_eq_some_iff {cs middle : List Char} {s : Span} :
    slice? cs s = some middle ↔
      ∃ before after, cs = before ++ middle ++ after ∧
        s.start = size before ∧ s.stop = size before + size middle := by
  constructor
  · intro h
    unfold slice? at h
    split at h
    · rename_i hle
      obtain ⟨⟨before, rest⟩, hcut, h⟩ := Option.bind_eq_some_iff.1 h
      obtain ⟨⟨m, after⟩, hcut', h⟩ := Option.bind_eq_some_iff.1 h
      obtain rfl := Option.some.inj h
      obtain ⟨rfl, hb⟩ := splitBytes?_eq_some_iff.1 hcut
      obtain ⟨rfl, hm⟩ := splitBytes?_eq_some_iff.1 hcut'
      exact ⟨before, after, (List.append_assoc ..).symm, hb.symm, by omega⟩
    · simp at h
  · rintro ⟨before, after, rfl, hstart, hstop⟩
    have hle : s.start ≤ s.stop := by omega
    have hlen : s.stop - s.start = size middle := by omega
    unfold slice?
    rw [if_pos hle, hstart, List.append_assoc, splitBytes?_append, ← hstart, hlen]
    simp [splitBytes?_append]

/-- A span with a text at it is not reversed. -/
theorem start_le_stop_of_slice? {cs middle : List Char} {s : Span}
    (h : slice? cs s = some middle) : s.start ≤ s.stop := by
  obtain ⟨before, after, -, hstart, hstop⟩ := slice?_eq_some_iff.1 h
  omega

/-- A span with a text at it ends inside that text. -/
theorem stop_le_size_of_slice? {cs middle : List Char} {s : Span}
    (h : slice? cs s = some middle) : s.stop ≤ size cs := by
  obtain ⟨before, after, rfl, hstart, hstop⟩ := slice?_eq_some_iff.1 h
  simp only [size_append]
  omega

/-! ### Strings -/

/-- The bytes of a string are those of its characters. -/
theorem size_toList (s : String) : size s.toList = s.utf8ByteSize := by
  suffices h : ∀ cs : List Char, (String.ofList cs).utf8ByteSize = size cs by
    rw [← h, String.ofList_toList]
  intro cs
  induction cs with
  | nil => rfl
  | cons c cs ih =>
    rw [String.ofList_cons, String.utf8ByteSize_append, String.utf8ByteSize_singleton, ih,
      size_cons]

end ScriptHints.Text
