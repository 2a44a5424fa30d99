import ScriptHints.Proofs.Token.Tiling
import ScriptHints.Variable

/-!
# Where variables are mentioned

A use is found by its place alone: at its offset the text holds an opening brace, the name and a
closing brace. This file proves that of every use the scan of a text or a name finds, at any depth
of nesting, and that the uses come in the order of their opening braces.

* `Use.WrittenIn u offset text` — the use `u` is written in a text that begins at `offset`.
* `writtenIn_of_mem_usesIn`, `usesIn_pairwise` — the uses of a text are written in it, and their
  offsets increase.
* `Token.writtenIn_of_mem_uses`, `Token.uses_pairwise` — the same for the uses of a token.
* `flatMap_uses_pairwise` — the same over all tokens of a script, so that no two uses share their
  place.
* `Tiling.writtenIn_of_mem_uses`, `Use.WrittenIn.slice?_span`, `Use.WrittenIn.slice?_name` — the
  text of the script at the span of a use is the variable, and inside the braces its name.
-/

namespace ScriptHints

open Text

/-! ### Uses as they are written -/

/-- A variable as it is written. -/
def Use.written (u : Use) : List Char := '{' :: u.inner ++ ['}']

/-- A use takes the bytes of its name and two braces. -/
theorem Use.size_written (u : Use) : size u.written = 1 + size u.inner + 1 := by
  simp [Use.written]
  rfl

/-- A use ends where its text ends. -/
theorem Use.stop_eq (u : Use) : u.stop = u.offset + size u.written := by
  rw [Use.stop, Use.size_written]
  omega

/-- The use is written in a text that begins at `offset`. -/
def Use.WrittenIn (u : Use) (offset : Nat) (text : List Char) : Prop :=
  ∃ before after, text = before ++ u.written ++ after ∧ u.offset = offset + size before

/-- A use inside a part of a text is a use inside the text. -/
theorem Use.WrittenIn.extend {u : Use} {offset : Nat} {text : List Char} (front back : List Char)
    (h : u.WrittenIn (offset + size front) text) :
    u.WrittenIn offset (front ++ text ++ back) := by
  obtain ⟨before, after, rfl, hoffset⟩ := h
  refine ⟨front ++ before, after ++ back, by simp, ?_⟩
  rw [hoffset, size_append, Nat.add_assoc]

/-- A use that is written in a text does not begin before it. -/
theorem Use.WrittenIn.le_offset {u : Use} {offset : Nat} {text : List Char}
    (h : u.WrittenIn offset text) : offset ≤ u.offset := by
  obtain ⟨before, after, -, hoffset⟩ := h
  omega

/-- A use that is written in a text ends inside it. -/
theorem Use.WrittenIn.stop_le {u : Use} {offset : Nat} {text : List Char}
    (h : u.WrittenIn offset text) : u.stop ≤ offset + size text := by
  obtain ⟨before, after, rfl, hoffset⟩ := h
  rw [Use.stop_eq, hoffset]
  simp only [size_append]
  omega

/-- No use is empty. -/
theorem Use.offset_lt_stop (u : Use) : u.offset < u.stop := by
  unfold Use.stop
  omega

/-! ### The scan of a text -/

/-- An empty text has no uses. -/
theorem usesIn_nil (active : Bool) (offset : Nat) : usesIn active offset [] = [] := by
  rw [usesIn]

/-- A percent sign switches between text that is looked at and text that is not. -/
theorem usesIn_percent (active : Bool) (offset : Nat) (cs : List Char) :
    usesIn active offset ('%' :: cs) = usesIn (!active) (offset + 1) cs := by
  rw [usesIn, if_pos rfl]

/-- A group that is never closed swallows the rest. -/
theorem usesIn_openGroup {cs : List Char} (h : closeGroup? cs = none) (offset : Nat) :
    usesIn true offset ('{' :: cs) = [] := by
  rw [usesIn, if_neg (by decide), if_pos ⟨rfl, rfl⟩]
  split
  · rfl
  · rename_i h'
    rw [h] at h'
    cases h'

/-- A group is a use, followed by those inside its name and those behind it. -/
theorem usesIn_group {cs inside rest : List Char} (h : closeGroup? cs = some (inside, rest))
    (offset : Nat) :
    usesIn true offset ('{' :: cs) =
      Use.withNested ⟨offset, inside⟩ ++ usesIn true (Use.stop ⟨offset, inside⟩) rest := by
  rw [usesIn, if_neg (by decide), if_pos ⟨rfl, rfl⟩]
  split
  · rename_i h'
    rw [h] at h'
    cases h'
  · rename_i i r h'
    rw [h] at h'
    obtain ⟨rfl, rfl⟩ := Prod.mk.inj (Option.some.inj h')
    rfl

/-- Any other character, and a brace in text that is not looked at, is passed over. -/
theorem usesIn_plain {active : Bool} {c : Char} (hp : c ≠ '%') (hb : ¬(c = '{' ∧ active = true))
    (offset : Nat) (cs : List Char) :
    usesIn active offset (c :: cs) = usesIn active (offset + c.utf8Size) cs := by
  rw [usesIn, if_neg hp, if_neg hb]

/-- Induction over the scan of a text. -/
@[elab_as_elim]
theorem usesIn_induction {motive : Bool → Nat → List Char → Prop}
    (nil : ∀ active offset, motive active offset [])
    (percent : ∀ active offset cs, motive (!active) (offset + 1) cs →
      motive active offset ('%' :: cs))
    (openGroup : ∀ offset cs, closeGroup? cs = none → motive true offset ('{' :: cs))
    (group : ∀ offset cs inside rest, closeGroup? cs = some (inside, rest) →
      motive false (offset + 1) inside → motive true (Use.stop ⟨offset, inside⟩) rest →
      motive true offset ('{' :: cs))
    (plain : ∀ active offset c cs, c ≠ '%' → ¬(c = '{' ∧ active = true) →
      motive active (offset + c.utf8Size) cs → motive active offset (c :: cs))
    (active : Bool) (offset : Nat) (cs : List Char) : motive active offset cs := by
  refine usesIn.induct motive nil percent ?_ ?_ plain active offset cs
  · rintro active offset c cs - ⟨rfl, rfl⟩ h
    exact openGroup offset cs h
  · rintro active offset c cs - ⟨rfl, rfl⟩ inside rest h _ hinside hrest
    exact group offset cs inside rest h hinside hrest

/-- The parts of a group written one after the other. -/
theorem group_eq_append {cs inside rest : List Char} (h : closeGroup? cs = some (inside, rest))
    (offset : Nat) : '{' :: cs = Use.written ⟨offset, inside⟩ ++ rest := by
  rw [← append_of_closeGroup? h]
  simp [Use.written]

/-- The uses of a text are written in it. -/
theorem writtenIn_of_mem_usesIn {active : Bool} {offset : Nat} {cs : List Char} {u : Use}
    (hu : u ∈ usesIn active offset cs) : u.WrittenIn offset cs := by
  induction active, offset, cs using usesIn_induction with
  | nil active offset => simp [usesIn_nil] at hu
  | percent active offset cs ih =>
    rw [usesIn_percent] at hu
    simpa using (ih hu).extend ['%'] []
  | openGroup offset cs h => simp [usesIn_openGroup h] at hu
  | group offset cs inside rest h hinside hrest =>
    rw [usesIn_group h, List.mem_append, Use.withNested, List.mem_cons] at hu
    rw [group_eq_append h offset]
    rcases hu with (rfl | hu) | hu
    · exact ⟨[], rest, rfl, rfl⟩
    · -- inside the name, behind the opening brace
      simpa [Use.written] using (hinside hu).extend ['{'] ('}' :: rest)
    · -- behind the group
      have := hrest hu
      rw [Use.stop_eq] at this
      simpa using this.extend (Use.written ⟨offset, inside⟩) []
  | plain active offset c cs hp hb ih =>
    rw [usesIn_plain hp hb] at hu
    have := ih hu
    simpa using Use.WrittenIn.extend [c] [] (by simpa using this)

/-- The uses inside a name stand behind the brace that opens it and before the brace that closes
it. -/
theorem nested_bounds {u v : Use} (hv : v ∈ usesIn false (u.offset + 1) u.inner) :
    u.offset < v.offset ∧ v.stop < u.stop := by
  have hw := writtenIn_of_mem_usesIn hv
  have hle := hw.le_offset
  have hstop := hw.stop_le
  rw [u.stop_eq, u.size_written]
  omega

/-- Uses come in the order of their opening braces. -/
theorem usesIn_pairwise (active : Bool) (offset : Nat) (cs : List Char) :
    (usesIn active offset cs).Pairwise fun u v => u.offset < v.offset := by
  induction active, offset, cs using usesIn_induction with
  | nil active offset => rw [usesIn_nil]; exact List.Pairwise.nil
  | percent active offset cs ih => rwa [usesIn_percent]
  | openGroup offset cs h => rw [usesIn_openGroup h]; exact List.Pairwise.nil
  | group offset cs inside rest h hinside hrest =>
    rw [usesIn_group h, List.pairwise_append]
    refine ⟨List.pairwise_cons.2 ⟨fun v hv => (nested_bounds hv).1, hinside⟩, hrest, ?_⟩
    intro u hu v hv
    -- the uses behind the group begin where it ends
    have hv := (writtenIn_of_mem_usesIn hv).le_offset
    rcases List.mem_cons.1 hu with rfl | hu
    · exact Nat.lt_of_lt_of_le (Use.offset_lt_stop _) hv
    · have := (nested_bounds hu).2
      have := u.offset_lt_stop
      omega
  | plain active offset c cs hp hb ih => rwa [usesIn_plain hp hb]

/-! ### The uses of a token -/

/-- A variable mentions itself first. -/
theorem Token.uses_of_var {t : Token} (h : t.category = .var) :
    t.uses = Use.withNested ⟨t.start, t.inner⟩ := by
  rw [Token.uses, h]

/-- In a literal, variables are looked for behind percent signs only. -/
theorem Token.uses_of_text {t : Token} (h : t.category = .text) :
    t.uses = usesIn false t.start t.chars := by
  rw [Token.uses, h]

/-- Tokens other than variables and literals have no uses. -/
theorem Token.uses_of_ne {t : Token} (hv : t.category ≠ .var) (ht : t.category ≠ .text) :
    t.uses = [] := by
  unfold Token.uses
  split
  · exact absurd ‹_› hv
  · exact absurd ‹_› ht
  · rfl

/-- The use a variable token is, is the token. -/
theorem Token.WellFormed.written_head {t : Token} (h : t.WellFormed) (hv : t.category = .var) :
    Use.written ⟨t.start, t.inner⟩ = t.chars := by
  rw [Use.written, h.chars_var hv]

/-- The use that a variable is itself lies where the variable lies. -/
theorem Token.WellFormed.span_head {t : Token} (h : t.WellFormed) (hv : t.category = .var) :
    Use.span ⟨t.start, t.inner⟩ = t.span := by
  rw [Use.span, Token.span, Use.stop_eq, h.written_head hv, Token.stop]

/-- The uses of a token are written in it. -/
theorem Token.writtenIn_of_mem_uses {t : Token} (h : t.WellFormed) {u : Use} (hu : u ∈ t.uses) :
    u.WrittenIn t.start t.chars := by
  by_cases hv : t.category = .var
  · rw [Token.uses_of_var hv, Use.withNested, List.mem_cons] at hu
    rw [← h.written_head hv]
    rcases hu with rfl | hu
    · exact ⟨[], [], by simp, rfl⟩
    · simpa [Use.written] using (writtenIn_of_mem_usesIn hu).extend ['{'] ['}']
  · by_cases ht : t.category = .text
    · rw [Token.uses_of_text ht] at hu
      exact writtenIn_of_mem_usesIn hu
    · simp [Token.uses_of_ne hv ht] at hu

/-- The uses of a token come in the order of their opening braces. -/
theorem Token.uses_pairwise (t : Token) : t.uses.Pairwise fun u v => u.offset < v.offset := by
  by_cases hv : t.category = .var
  · rw [Token.uses_of_var hv]
    exact List.pairwise_cons.2 ⟨fun v hv => (nested_bounds hv).1, usesIn_pairwise ..⟩
  · by_cases ht : t.category = .text
    · rw [Token.uses_of_text ht]
      exact usesIn_pairwise ..
    · rw [Token.uses_of_ne hv ht]
      exact List.Pairwise.nil

/-- The uses inside a token do not begin before it. -/
theorem Token.start_le_of_mem_uses {t : Token} (h : t.WellFormed) {u : Use} (hu : u ∈ t.uses) :
    t.start ≤ u.offset :=
  (t.writtenIn_of_mem_uses h hu).le_offset

/-- The uses inside a token do not end behind it. -/
theorem Token.stop_le_of_mem_uses {t : Token} (h : t.WellFormed) {u : Use} (hu : u ∈ t.uses) :
    u.stop ≤ t.stop :=
  (t.writtenIn_of_mem_uses h hu).stop_le

/-- Over tokens that stand in order, uses come in the order of their opening braces. -/
theorem flatMap_uses_pairwise {tokens : List Token}
    (h : tokens.Pairwise fun a b => a.stop ≤ b.start) (hw : ∀ t ∈ tokens, t.WellFormed) :
    (tokens.flatMap Token.uses).Pairwise fun u v => u.offset < v.offset := by
  rw [List.pairwise_flatMap]
  refine ⟨fun t _ => t.uses_pairwise, ?_⟩
  apply (List.Pairwise.and_mem.1 h).imp
  rintro a b ⟨ha, hb, hab⟩ u hu v hv
  have h1 := Token.stop_le_of_mem_uses (hw a ha) hu
  have h2 := Token.start_le_of_mem_uses (hw b hb) hv
  have := u.offset_lt_stop
  omega

/-! ### Uses in the script -/

/-- A use of a token is written in the script. -/
theorem Tiling.writtenIn_of_mem_uses {text : List Char} {tokens : List Token}
    (h : Tiling 0 text tokens) {t : Token} (ht : t ∈ tokens) {u : Use} (hu : u ∈ t.uses) :
    u.WrittenIn 0 text := by
  have hw := t.writtenIn_of_mem_uses (h.wellFormed t ht) hu
  obtain ⟨before, after, htext, hstart, -⟩ := slice?_eq_some_iff.1 (h.slice?_span ht)
  have hoffset : t.start = 0 + size before := by rw [Nat.zero_add, ← hstart, Token.span]
  rw [hoffset] at hw
  rw [htext]
  exact hw.extend before after

/-- The text at the span of a use is the variable as it is written. -/
theorem Use.WrittenIn.slice?_span {u : Use} {text : List Char} (h : u.WrittenIn 0 text) :
    slice? text u.span = some u.written := by
  obtain ⟨before, after, htext, hoffset⟩ := h
  rw [Nat.zero_add] at hoffset
  refine slice?_eq_some_iff.2 ⟨before, after, htext, hoffset, ?_⟩
  rw [← hoffset]
  exact u.stop_eq

/-- The text between the braces of a use is its name. -/
theorem Use.WrittenIn.slice?_name {u : Use} {text : List Char} (h : u.WrittenIn 0 text) :
    slice? text ⟨u.span.start + 1, u.span.stop - 1⟩ = some u.inner := by
  obtain ⟨before, after, htext, hoffset⟩ := h
  rw [Nat.zero_add] at hoffset
  refine slice?_eq_some_iff.2 ⟨before ++ ['{'], '}' :: after, ?_, ?_, ?_⟩
  · rw [htext, Use.written]
    simp
  · rw [size_append, ← hoffset]
    rfl
  · rw [size_append, ← hoffset]
    rfl

end ScriptHints
