import ScriptHints.Proofs.Variable.Uses

/-!
# Counting braces

Groups are found by recursion on their nesting. The same groups are found in one pass from left to
right by a machine that counts open braces in a machine word and keeps offsets in machine words;
such a machine can fail, by lowering a counter that is zero or by running past the largest word.
This file states both passes with every failure in their type and proves that neither ever fails on
a text that fits a machine word, and that they find what the recursion finds.

* `addWords`, `subWords` — arithmetic on machine words, with its faults.
* `closingOffset` — the pass that looks for the end of a group; `closingOffset_eq` says that it is
  `closeGroup?`.
* `outermost` — the groups of a text that are in no other group; `usesIn_eq_flatMap_outermost` says
  that all uses are these, each followed by the ones inside its name.
* `Scanner.scan` — the pass that looks for interpolated variables; `scan_eq` says that it finds the
  outermost groups.
-/

namespace ScriptHints

open Text

/-! ### Machine words -/

/-- A sum of machine words. -/
def addWords (a b : Nat) : Except Fault Nat :=
  if a + b < Span.bound then .ok (a + b) else .error .addOverflow

/-- A difference of machine words. -/
def subWords (a b : Nat) : Except Fault Nat :=
  if b ≤ a then .ok (a - b) else .error .subOverflow

/-- Two numbers can be added where the sum is in bounds. -/
theorem addWords_eq_ok {a b : Nat} (h : a + b < Span.bound) : addWords a b = .ok (a + b) := by
  rw [addWords, if_pos h]

/-- One can be taken off a number that is not zero. -/
theorem subWords_succ (a : Nat) : subWords (a + 1) 1 = .ok a := by
  rw [subWords, if_pos (Nat.succ_le_succ (Nat.zero_le a)), Nat.add_sub_cancel]

/-- What follows a step without a fault goes on with its result. -/
theorem ok_bind {α β : Type} (a : α) (f : α → Except Fault β) : (Except.ok a >>= f) = f a := rfl

/-! ### The end of a group -/

/-- Looks for the brace that closes a group, with `depth` braces open, and gives its offset. -/
def closingOffset (depth offset : Nat) : List Char → Except Fault (Option Nat)
  | [] => .ok none
  | c :: cs =>
    if c = '{' then do
      let depth ← addWords depth 1
      closingOffset depth (offset + c.utf8Size) cs
    else if c = '}' then do
      let depth ← subWords depth 1
      if depth = 0 then .ok (some offset)
      else closingOffset depth (offset + c.utf8Size) cs
    else if c = '\n' then .ok none
    else closingOffset depth (offset + c.utf8Size) cs

/-- Counting never fails, and it finds the end of the group. -/
theorem closingOffset_eq {depth : Nat} {cs : List Char} (h : depth + 1 + cs.length < Span.bound)
    (offset : Nat) :
    closingOffset (depth + 1) offset cs =
      .ok ((splitGroup? depth cs).map fun p => offset + size p.1) := by
  induction cs generalizing depth offset with
  | nil => rfl
  | cons c cs ih =>
    rw [List.length_cons] at h
    -- one character further on: the part in front grows by it
    have step : ∀ d, d + 1 + cs.length < Span.bound →
        closingOffset (d + 1) (offset + c.utf8Size) cs =
          .ok (((splitGroup? d cs).map fun p => (c :: p.1, p.2)).map
            fun p => offset + size p.1) := by
      intro d hd
      rw [ih hd, Option.map_map]
      congr 2
      funext p
      simp only [Function.comp_apply, size_cons]
      omega
    rw [closingOffset]
    by_cases hopen : c = '{'
    · subst hopen
      rw [if_pos rfl, addWords_eq_ok (by omega), ok_bind, splitGroup?_open]
      exact step (depth + 1) (by omega)
    rw [if_neg hopen]
    by_cases hclose : c = '}'
    · subst hclose
      rw [if_pos rfl, subWords_succ, ok_bind]
      cases depth with
      | zero => rw [splitGroup?_close_zero]; rfl
      | succ depth =>
        rw [if_neg (Nat.succ_ne_zero depth), splitGroup?_close_succ]
        exact step depth (by omega)
    rw [if_neg hclose]
    by_cases hline : c = '\n'
    · subst hline
      rw [if_pos rfl, splitGroup?_newline]
      rfl
    · rw [if_neg hline, splitGroup?_plain hline hclose hopen]
      exact step depth (by omega)

/-! ### Outermost groups -/

/-- The groups of a text that are in no other group, in order of appearance. -/
def outermost (active : Bool) (offset : Nat) : List Char → List Use
  | [] => []
  | c :: cs =>
    if c = '%' then outermost (!active) (offset + 1) cs
    else if c = '{' ∧ active = true then
      match _h : closeGroup? cs with
      | none => []
      | some (inside, rest) => ⟨offset, inside⟩ :: outermost true (Use.stop ⟨offset, inside⟩) rest
    else outermost active (offset + c.utf8Size) cs
termination_by cs => cs.length
decreasing_by
  · simp
  · have := length_rest_lt _h
    simp only [List.length_cons]
    omega
  · simp

/-- An empty text has no groups. -/
theorem outermost_nil (active : Bool) (offset : Nat) : outermost active offset [] = [] := by
  rw [outermost]

/-- A percent sign switches between text that is looked at and text that is not. -/
theorem outermost_percent (active : Bool) (offset : Nat) (cs : List Char) :
    outermost active offset ('%' :: cs) = outermost (!active) (offset + 1) cs := by
  rw [outermost, if_pos rfl]

/-- Where a brace is never closed, nothing behind it is a group. -/
theorem outermost_openGroup {cs : List Char} (h : closeGroup? cs = none) (offset : Nat) :
    outermost true offset ('{' :: cs) = [] := by
  rw [outermost, if_neg (by decide), if_pos ⟨rfl, rfl⟩]
  split
  · rfl
  · rename_i h'
    rw [h] at h'
    cases h'

/-- A group that is closed is one of the outermost, and the search goes on behind it. -/
theorem outermost_group {cs inside rest : List Char} (h : closeGroup? cs = some (inside, rest))
    (offset : Nat) :
    outermost true offset ('{' :: cs) =
      ⟨offset, inside⟩ :: outermost true (Use.stop ⟨offset, inside⟩) rest := by
  rw [outermost, if_neg (by decide), if_pos ⟨rfl, rfl⟩]
  split
  · rename_i h'
    rw [h] at h'
    cases h'
  · rename_i i r h'
    rw [h] at h'
    obtain ⟨rfl, rfl⟩ := Prod.mk.inj (Option.some.inj h')
    rfl

/-- Any other character, and a brace in text that is not looked at, is passed over. -/
theorem outermost_plain {active : Bool} {c : Char} (hp : c ≠ '%')
    (hb : ¬(c = '{' ∧ active = true)) (offset : Nat) (cs : List Char) :
    outermost active offset (c :: cs) = outermost active (offset + c.utf8Size) cs := by
  rw [outermost, if_neg hp, if_neg hb]

/-- The uses of a text are its outermost groups, each followed by the uses inside its name. -/
theorem usesIn_eq_flatMap_outermost (active : Bool) (offset : Nat) (cs : List Char) :
    usesIn active offset cs = (outermost active offset cs).flatMap Use.withNested := by
  induction active, offset, cs using usesIn_induction with
  | nil active offset => rw [usesIn_nil, outermost_nil]; rfl
  | percent active offset cs ih => rw [usesIn_percent, outermost_percent, ih]
  | openGroup offset cs h => rw [usesIn_openGroup h, outermost_openGroup h]; rfl
  | group offset cs inside rest h hinside hrest =>
    rw [usesIn_group h, outermost_group h, List.flatMap_cons, hrest]
  | plain active offset c cs hp hb ih => rw [usesIn_plain hp hb, outermost_plain hp hb, ih]

/-! ### The scan for interpolated variables -/

/-- What the scan of a text remembers. -/
structure Scanner where
  /-- Whether the place is between two percent signs. -/
  active : Bool
  /-- The number of open braces. -/
  depth : Nat
  /-- Where the outermost open group begins. -/
  start : Nat

/-- Scans a text that begins at `base` from the byte `index` on, and gives the spans of the groups
between percent signs. -/
def Scanner.scan (base : Nat) (s : Scanner) (index : Nat) : List Char → Except Fault (List Span)
  | [] => .ok []
  | c :: cs =>
    if c = '%' ∧ s.depth = 0 then
      scan base { s with active := !s.active } (index + c.utf8Size) cs
    else if c = '{' ∧ s.active = true then do
      let depth ← addWords s.depth 1
      let start := if s.depth = 0 then index else s.start
      scan base ⟨s.active, depth, start⟩ (index + c.utf8Size) cs
    else if c = '}' ∧ 0 < s.depth then do
      let depth ← subWords s.depth 1
      if depth = 0 then do
        let start ← addWords base s.start
        let place ← addWords base index
        let stop ← addWords place 1
        let spans ← scan base ⟨s.active, depth, s.start⟩ (index + c.utf8Size) cs
        return ⟨start, stop⟩ :: spans
      else scan base ⟨s.active, depth, s.start⟩ (index + c.utf8Size) cs
    else scan base s (index + c.utf8Size) cs

section

variable {base index start : Nat} {cs : List Char}

/-- Outside of groups a percent sign switches the scanner. -/
theorem scan_percent (active : Bool) :
    Scanner.scan base ⟨active, 0, start⟩ index ('%' :: cs) =
      Scanner.scan base ⟨!active, 0, start⟩ (index + 1) cs := by
  rw [Scanner.scan, if_pos ⟨rfl, rfl⟩]
  rfl

/-- An opening brace between percent signs begins a group. -/
theorem scan_open :
    Scanner.scan base ⟨true, 0, start⟩ index ('{' :: cs) =
      Scanner.scan base ⟨true, 1, index⟩ (index + 1) cs := by
  rw [Scanner.scan, if_neg (by simp), if_pos ⟨rfl, rfl⟩,
    addWords_eq_ok (show 0 + 1 < Span.bound by decide)]
  rfl

/-- Outside of groups any other character, and a brace in text that is not looked at, is passed
over. -/
theorem scan_plain {active : Bool} {c : Char} (hp : c ≠ '%') (hb : ¬(c = '{' ∧ active = true)) :
    Scanner.scan base ⟨active, 0, start⟩ index (c :: cs) =
      Scanner.scan base ⟨active, 0, start⟩ (index + c.utf8Size) cs := by
  rw [Scanner.scan, if_neg (by simp [hp]), if_neg hb, if_neg (by simp)]

/-- Inside a group the scan goes on to its end, whatever stands in between, and notes the group. -/
theorem scan_group {depth : Nat} (hn : '\n' ∉ cs) (hdepth : depth + 1 ≤ index)
    (hstart : start ≤ index) (hbound : base + index + size cs < Span.bound) :
    Scanner.scan base ⟨true, depth + 1, start⟩ index cs =
      match splitGroup? depth cs with
      | none => .ok []
      | some (inside, rest) =>
        (Scanner.scan base ⟨true, 0, start⟩ (index + size inside + 1) rest).map
          (⟨base + start, base + index + size inside + 1⟩ :: ·) := by
  induction cs generalizing depth index with
  | nil => rfl
  | cons c cs ih =>
    rw [size_cons] at hbound
    have hpos := c.utf8Size_pos
    have hne : c ≠ '\n' := fun h => hn (by simp [h])
    have hn' : '\n' ∉ cs := fun h => hn (List.mem_cons_of_mem c h)
    -- one character further on: the part in front of the closing brace grows by it
    have step : ∀ d, d + 1 ≤ index + c.utf8Size →
        Scanner.scan base ⟨true, d + 1, start⟩ (index + c.utf8Size) cs =
          match (splitGroup? d cs).map fun p => (c :: p.1, p.2) with
          | none => .ok []
          | some (inside, rest) =>
            (Scanner.scan base ⟨true, 0, start⟩ (index + size inside + 1) rest).map
              (⟨base + start, base + index + size inside + 1⟩ :: ·) := by
      intro d hd
      rw [ih hn' hd (by omega) (by omega)]
      cases splitGroup? d cs with
      | none => rfl
      | some p =>
        simp only [Option.map_some, size_cons, Nat.add_assoc]
    rw [Scanner.scan, if_neg (by simp)]
    by_cases hopen : c = '{'
    · subst hopen
      rw [if_pos ⟨rfl, rfl⟩, addWords_eq_ok (by dsimp only; omega), ok_bind, splitGroup?_open]
      simp only [Nat.succ_ne_zero, if_false]
      exact step (depth + 1) (by omega)
    rw [if_neg (by simp [hopen])]
    by_cases hclose : c = '}'
    · subst hclose
      rw [if_pos ⟨rfl, Nat.succ_pos depth⟩, subWords_succ, ok_bind]
      cases depth with
      | zero =>
        have hsize : '}'.utf8Size = 1 := rfl
        rw [if_pos rfl, addWords_eq_ok (by dsimp only; omega), ok_bind,
          addWords_eq_ok (by omega), ok_bind, addWords_eq_ok (by omega), ok_bind,
          splitGroup?_close_zero]
        rfl
      | succ depth =>
        rw [if_neg (Nat.succ_ne_zero depth), splitGroup?_close_succ]
        exact step depth (by omega)
    · rw [if_neg (by simp [hclose]), splitGroup?_plain hne hclose hopen]
      exact step depth (by omega)

end

/-- The scan of a whole text. -/
def scanGroups (base : Nat) (text : List Char) : Except Fault (List Span) :=
  Scanner.scan base ⟨false, 0, 0⟩ 0 text

/-- The scan never fails, and it finds the outermost groups. -/
theorem scan_eq {active : Bool} {base index start : Nat} {cs : List Char} (hn : '\n' ∉ cs)
    (hbound : base + index + size cs < Span.bound) :
    Scanner.scan base ⟨active, 0, start⟩ index cs =
      .ok ((outermost active (base + index) cs).map Use.span) := by
  generalize hoffset : base + index = offset at hbound ⊢
  induction active, offset, cs using usesIn_induction generalizing index start with
  | nil active offset => rw [outermost_nil]; rfl
  | percent active offset cs ih =>
    rw [scan_percent, outermost_percent]
    rw [size_cons] at hbound
    have hsize : '%'.utf8Size = 1 := rfl
    exact ih (fun h => hn (List.mem_cons_of_mem _ h)) (by omega) (by omega)
  | openGroup offset cs h =>
    have hsize : '{'.utf8Size = 1 := rfl
    rw [size_cons] at hbound
    have hn' : '\n' ∉ cs := fun h => hn (List.mem_cons_of_mem _ h)
    rw [scan_open, scan_group hn' (by omega) (by omega) (by omega), outermost_openGroup h]
    rw [closeGroup?] at h
    simp only [h]
    rfl
  | group offset cs inside rest h hinside hrest =>
    have hsize : '{'.utf8Size = 1 := rfl
    have hclose : '}'.utf8Size = 1 := rfl
    have happ := append_of_closeGroup? h
    rw [size_cons] at hbound
    have hn' : '\n' ∉ cs := fun h => hn (List.mem_cons_of_mem _ h)
    rw [scan_open, scan_group hn' (by omega) (by omega) (by omega), outermost_group h]
    rw [closeGroup?] at h
    rw [← happ, size_append, size_cons] at hbound
    have hrest' : '\n' ∉ rest := by
      intro hmem
      rw [← happ] at hn'
      exact hn' (by simp [hmem])
    have hstop : Use.stop ⟨offset, inside⟩ = offset + 1 + size inside + 1 := rfl
    have ih : Scanner.scan base ⟨true, 0, index⟩ (index + 1 + size inside + 1) rest = _ :=
      hrest hrest' (by omega) (by omega)
    simp only [h, ih, Except.map, List.map_cons, Use.span, Use.stop]
    rw [hoffset, show base + (index + 1) + size inside + 1 = offset + 1 + size inside + 1 by omega]
  | plain active offset c cs hp hb ih =>
    rw [size_cons] at hbound
    have hn' : '\n' ∉ cs := fun h => hn (List.mem_cons_of_mem _ h)
    rw [scan_plain hp hb, outermost_plain hp hb]
    exact ih hn' (by omega) (by omega)

/-- The scan of a whole text never fails, and it finds the outermost groups. -/
theorem scanGroups_eq {base : Nat} {text : List Char} (hn : '\n' ∉ text)
    (hbound : base + size text < Span.bound) :
    scanGroups base text = .ok ((outermost false base text).map Use.span) := by
  rw [scanGroups, scan_eq hn (by omega), Nat.add_zero]

end ScriptHints
