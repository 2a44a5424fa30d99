import Mathlib
import ScriptHints.Proofs.Line.Shift
import ScriptHints.Proofs.Variable.Counter

/-!
# Uses inside uses

The uses of a token are a forest: of any two, one stands behind the other or between its braces.
A part of the forest that hangs under one use is what a script has that consists of that use alone,
so that the scan for interpolated variables and the reading of tokens agree on where a variable
ends, at every depth of nesting.

* `Use.Encloses` — one use lies inside another. `usesIn_nested` says that uses do not overlap
  otherwise, and `filter_encloses_usesIn` that the uses inside a use are those found in its name.
* `tokenize_written` — a use with a name, written on its own, is one token.
* `collectUses` — the uses of a variable as they are found in the script itself, by cutting names
  out of it and scanning them. `collectUses_eq` says that the recursion ends, with the uses of the
  variable.
* `NestedUses` — what the uses of a token look like.
* `token_uses_nest` — the uses of every token of every script look like that.
-/

namespace ScriptHints

open Text

/-! ### One use inside another -/

/-- The region of `v` lies inside that of `u`. -/
def Use.Encloses (u v : Use) : Prop := u.offset ≤ v.offset ∧ v.stop ≤ u.stop

instance (u v : Use) : Decidable (u.Encloses v) := inferInstanceAs (Decidable (_ ∧ _))

section

variable {u v : Use}

/-- Of two uses that stand one behind the other neither encloses the other. -/
theorem Use.not_encloses_of_stop_le (h : u.stop ≤ v.offset) : ¬u.Encloses v ∧ ¬v.Encloses u := by
  have hu := u.offset_lt_stop
  have hv := v.offset_lt_stop
  refine ⟨fun hin => ?_, fun hin => ?_⟩
  · have := hin.2
    omega
  · have := hin.1
    omega

/-- A variable encloses all that stand in its name, and itself. -/
theorem encloses_of_mem_withNested (h : v ∈ u.withNested) : u.Encloses v := by
  rcases List.mem_cons.1 h with rfl | hnested
  · exact ⟨Nat.le_refl _, Nat.le_refl _⟩
  · obtain ⟨hstart, hstop⟩ := nested_bounds hnested
    exact ⟨Nat.le_of_lt hstart, Nat.le_of_lt hstop⟩

/-- No use inside the name of another encloses it. -/
theorem not_encloses_of_nested (h : v ∈ usesIn false (u.offset + 1) u.inner) : ¬v.Encloses u := by
  intro hin
  have hstart := (nested_bounds h).1
  have := hin.1
  omega

end

/-- Of two uses of a text, the second stands behind the first or ends before it. -/
theorem usesIn_nested (active : Bool) (offset : Nat) (cs : List Char) :
    (usesIn active offset cs).Pairwise fun u v => u.stop ≤ v.offset ∨ v.stop < u.stop := by
  induction active, offset, cs using usesIn_induction with
  | nil active offset => rw [usesIn_nil]; exact List.Pairwise.nil
  | percent active offset cs ih => rwa [usesIn_percent]
  | openGroup offset cs h => rw [usesIn_openGroup h]; exact List.Pairwise.nil
  | group offset cs inside rest h hinside hrest =>
    rw [usesIn_group h, List.pairwise_append]
    refine ⟨List.pairwise_cons.2 ⟨fun v hv => .inr (nested_bounds hv).2, hinside⟩, hrest, ?_⟩
    intro u hu v hv
    -- the uses behind the group begin where it ends
    have hv := (writtenIn_of_mem_usesIn hv).le_offset
    exact .inl (Nat.le_trans (encloses_of_mem_withNested hu).2 hv)
  | plain active offset c cs hp hb ih => rwa [usesIn_plain hp hb]

/-! ### The uses inside a use -/

/-- What a variable encloses of itself and the uses in its name, if that is known for the name. -/
theorem filter_encloses_withNested_of {u v : Use}
    (hnested : ∀ v ∈ usesIn false (u.offset + 1) u.inner,
      (usesIn false (u.offset + 1) u.inner).filter (v.Encloses ·) = v.withNested)
    (hv : v ∈ u.withNested) : u.withNested.filter (v.Encloses ·) = v.withNested := by
  rcases List.mem_cons.1 hv with rfl | hv
  · apply List.filter_eq_self.2
    intro w hw
    exact decide_eq_true (encloses_of_mem_withNested hw)
  · rw [Use.withNested, List.filter_cons_of_neg (by simp [not_encloses_of_nested hv]), hnested v hv]

/-- The uses of a text that lie inside one of them are that one and those in its name. -/
theorem filter_encloses_usesIn {active : Bool} {offset : Nat} {cs : List Char} {u : Use}
    (hu : u ∈ usesIn active offset cs) :
    (usesIn active offset cs).filter (u.Encloses ·) = u.withNested := by
  induction active, offset, cs using usesIn_induction generalizing u with
  | nil active offset => simp [usesIn_nil] at hu
  | percent active offset cs ih =>
    rw [usesIn_percent] at hu ⊢
    exact ih hu
  | openGroup offset cs h => simp [usesIn_openGroup h] at hu
  | group offset cs inside rest h hinside hrest =>
    -- the group and what is behind it have nothing to do with each other
    have hapart : ∀ v ∈ Use.withNested ⟨offset, inside⟩,
        ∀ w ∈ usesIn true (Use.stop ⟨offset, inside⟩) rest, ¬v.Encloses w ∧ ¬w.Encloses v := by
      intro v hv w hw
      have hle := (writtenIn_of_mem_usesIn hw).le_offset
      exact Use.not_encloses_of_stop_le (Nat.le_trans (encloses_of_mem_withNested hv).2 hle)
    rw [usesIn_group h] at hu ⊢
    rw [List.filter_append]
    rcases List.mem_append.1 hu with hu | hu
    · have hnone : (usesIn true (Use.stop ⟨offset, inside⟩) rest).filter (u.Encloses ·) = [] := by
        apply List.filter_eq_nil_iff.2
        intro w hw
        simp [(hapart u hu w hw).1]
      rw [hnone, List.append_nil]
      exact filter_encloses_withNested_of (fun v hv => hinside hv) hu
    · have hnone : (Use.withNested ⟨offset, inside⟩).filter (u.Encloses ·) = [] := by
        apply List.filter_eq_nil_iff.2
        intro v hv
        simp [(hapart v hv u hu).2]
      rw [hnone, List.nil_append]
      exact hrest hu
  | plain active offset c cs hp hb ih =>
    rw [usesIn_plain hp hb] at hu ⊢
    exact ih hu

/-- The uses of a token that lie inside one of them are that one and those in its name. -/
theorem Token.filter_encloses_uses {t : Token} {u : Use} (hu : u ∈ t.uses) :
    t.uses.filter (u.Encloses ·) = u.withNested := by
  by_cases hv : t.category = .var
  · rw [Token.uses_of_var hv] at hu ⊢
    exact filter_encloses_withNested_of (fun v hv => filter_encloses_usesIn hv) hu
  · by_cases ht : t.category = .text
    · rw [Token.uses_of_text ht] at hu ⊢
      exact filter_encloses_usesIn hu
    · simp [Token.uses_of_ne hv ht] at hu

/-- Of two uses of a token, the second stands behind the first or ends before it. -/
theorem Token.uses_nested (t : Token) :
    t.uses.Pairwise fun u v => u.stop ≤ v.offset ∨ v.stop < u.stop := by
  by_cases hv : t.category = .var
  · rw [Token.uses_of_var hv]
    exact List.pairwise_cons.2 ⟨fun v hv => .inr (nested_bounds hv).2, usesIn_nested ..⟩
  · by_cases ht : t.category = .text
    · rw [Token.uses_of_text ht]
      exact usesIn_nested ..
    · rw [Token.uses_of_ne hv ht]
      exact List.Pairwise.nil

/-! ### A use on its own -/

/-- The group around the name of a use is closed where the use ends. -/
theorem closes_of_mem_usesIn {active : Bool} {offset : Nat} {cs : List Char} {u : Use}
    (hu : u ∈ usesIn active offset cs) : Closes 0 u.inner := by
  induction active, offset, cs using usesIn_induction with
  | nil active offset => simp [usesIn_nil] at hu
  | percent active offset cs ih =>
    rw [usesIn_percent] at hu
    exact ih hu
  | openGroup offset cs h => simp [usesIn_openGroup h] at hu
  | group offset cs inside rest h hinside hrest =>
    rw [usesIn_group h, List.mem_append, Use.withNested, List.mem_cons] at hu
    rcases hu with (rfl | hu) | hu
    · exact (closeGroup?_eq_some_iff.1 h).1
    · exact hinside hu
    · exact hrest hu
  | plain active offset c cs hp hb ih =>
    rw [usesIn_plain hp hb] at hu
    exact ih hu

/-- A lexeme that is a variable has a name around which the braces are closed. -/
theorem IsLexeme.exists_name {chars rest : List Char} (h : IsLexeme .var chars rest) :
    ∃ name, Closes 0 name ∧ chars = '{' :: name ++ ['}'] := by
  generalize hcategory : Category.var = category at h
  cases h with
  | var _ hname hne => exact ⟨_, hname, rfl⟩
  | word hc hcs hstop =>
    rw [← wordCategory_eq] at hcategory
    exact absurd hcategory.symm (wordCategory_ne .var nofun nofun nofun _)
  | _ => cases hcategory

section

variable {source : String} {tokens : List Token} {t : Token} {u : Use}

/-- The group around the name of a use of a token is closed where the use ends. -/
theorem closes_of_mem_uses (h : tokenize source = .ok tokens) (ht : t ∈ tokens)
    (hu : u ∈ t.uses) : Closes 0 u.inner := by
  by_cases hv : t.category = .var
  · rw [Token.uses_of_var hv] at hu
    rcases List.mem_cons.1 hu with rfl | hu
    · obtain ⟨after, -, hlexeme⟩ := isLexeme_of_tokenize h ht
      rw [hv] at hlexeme
      obtain ⟨name, hname, hchars⟩ := hlexeme.exists_name
      simpa [Token.inner, hchars] using hname
    · exact closes_of_mem_usesIn hu
  · by_cases hx : t.category = .text
    · rw [Token.uses_of_text hx] at hu
      exact closes_of_mem_usesIn hu
    · simp [Token.uses_of_ne hv hx] at hu

end

/-- A use with a name, written on its own, is one token. -/
theorem tokenize_written {u : Use} (hcloses : Closes 0 u.inner) (hname : u.inner ≠ []) :
    tokenize (String.ofList u.written) = .ok [⟨.var, 0, [], u.written⟩] := by
  refine tokenize_eq_ok_iff_spells.2 ⟨[⟨[], .var, u.written⟩], ⟨[], ?_, ?_, .nil []⟩, rfl⟩
  · simp
  · exact ⟨.nil _, .var _ hcloses hname, trivial⟩

/-- A use without a name, written on its own, is refused. -/
theorem tokenize_nameless :
    tokenize (String.ofList ['{', '}']) = .error ⟨.namelessVariable, 0, 2⟩ := by
  have hbad : (piece '{' ['}']).verdict = .bad .namelessVariable ['{', '}'] := by
    rw [piece_brace, closeGroup?, splitGroup?_close_zero]
  rw [tokenize, Cursor.read, Cursor.atStart, String.toList_ofList, readFrom_bad hbad]
  rfl

/-- The uses of a variable that is written on its own are those it has where it stands. -/
theorem uses_of_written (u : Use) :
    (Token.uses ⟨.var, 0, [], u.written⟩).map (Use.shift u.offset) = u.withNested := by
  have hinner : Token.inner ⟨.var, 0, [], u.written⟩ = u.inner := by
    simp [Token.inner, Use.written]
  have hstart : Token.start ⟨.var, 0, [], u.written⟩ = 0 := rfl
  rw [Token.uses_of_var rfl, hinner, hstart, Use.withNested, List.map_cons, ← usesIn_shift,
    Use.withNested]
  rfl

/-! ### Uses found in the script itself -/

/-- What `collect` finds for the groups of a text that begins at `offset`, one after the other. -/
def collectGroups (collect : Span → Option (List Span)) (offset : Nat) (text : List Char) :
    Option (List Span) := do
  let groups ← (scanGroups offset text).toOption
  let found ← groups.mapM collect
  return found.flatten

/-- The variable at a span and those inside its name, found in the script: the name is cut out of it
and scanned, and so are the names of the groups in it. No more than `depth` variables may stand in
each other. -/
def collectUses (script : List Char) : Nat → Span → Option (List Span)
  | 0, _ => none
  | depth + 1, s => do
    let name ← slice? script ⟨s.start + 1, s.stop - 1⟩
    let nested ← collectGroups (collectUses script depth) (s.start + 1) name
    return s :: nested

/-- The variables a token mentions, found in the script. -/
def Token.collectUses (t : Token) (script : List Char) (depth : Nat) : Option (List Span) :=
  match t.category with
  | .var => ScriptHints.collectUses script depth t.span
  | .text => do
    let chars ← slice? script t.span
    collectGroups (ScriptHints.collectUses script depth) t.start chars
  | _ => some []

/-- What is found in the region of each group is found for all groups, in order. -/
theorem mapM_span {groups : List Use} {f : Span → Option (List Span)} {g : Use → List Span}
    (h : ∀ u ∈ groups, f u.span = some (g u)) :
    (groups.map Use.span).mapM f = some (groups.map g) := by
  induction groups with
  | nil => rfl
  | cons u groups ih =>
    obtain ⟨hu, hgroups⟩ := List.forall_mem_cons.1 h
    rw [List.map_cons, List.mapM_cons, hu, ih hgroups]
    rfl

/-- The uses of a text are found if those of its outermost groups are. -/
theorem collectGroups_eq {collect : Span → Option (List Span)} {offset : Nat} {text : List Char}
    (hline : '\n' ∉ text) (hbound : offset + size text < Span.bound)
    (h : ∀ u ∈ outermost false offset text, collect u.span = some (u.withNested.map Use.span)) :
    collectGroups collect offset text = some ((usesIn false offset text).map Use.span) := by
  have hflatten : ((outermost false offset text).map fun u => u.withNested.map Use.span).flatten =
      (usesIn false offset text).map Use.span := by
    rw [usesIn_eq_flatMap_outermost, List.map_flatMap, List.flatMap_def]
  rw [collectGroups, scanGroups_eq hline hbound, ← hflatten]
  show (((outermost false offset text).map Use.span).mapM collect >>= _) = _
  rw [mapM_span h]
  rfl

/-- A use inside the name of another is written where that one is. -/
theorem Use.WrittenIn.nested {u v : Use} {offset : Nat} {text : List Char}
    (hu : u.WrittenIn offset text) (hv : v.WrittenIn (u.offset + 1) u.inner) :
    v.WrittenIn offset text := by
  obtain ⟨before, after, rfl, hoffset⟩ := hu
  have hfront : u.offset + 1 = offset + size (before ++ ['{']) := by
    rw [hoffset, size_append, Nat.add_assoc]
    rfl
  rw [hfront] at hv
  simpa [Use.written] using hv.extend (before ++ ['{']) ('}' :: after)

/-- An outermost group of a text is one of its uses, with a name shorter than the text. -/
theorem mem_usesIn_of_mem_outermost {active : Bool} {offset : Nat} {cs : List Char} {u : Use}
    (h : u ∈ outermost active offset cs) :
    u ∈ usesIn active offset cs ∧ u.inner.length < cs.length := by
  have hmem : u ∈ usesIn active offset cs := by
    rw [usesIn_eq_flatMap_outermost]
    exact List.mem_flatMap.2 ⟨u, h, List.mem_cons_self⟩
  obtain ⟨before, after, rfl, -⟩ := writtenIn_of_mem_usesIn hmem
  refine ⟨hmem, ?_⟩
  simp only [Use.written, List.length_append, List.length_cons]
  omega

/-- The recursion over the names in a script ends, and it finds the uses of the variable. -/
theorem collectUses_eq {script : List Char} (hbound : size script < Span.bound) {depth : Nat}
    {u : Use} (hu : u.WrittenIn 0 script) (hline : '\n' ∉ u.inner)
    (hdepth : u.inner.length < depth) :
    collectUses script depth u.span = some (u.withNested.map Use.span) := by
  induction depth generalizing u with
  | zero => omega
  | succ depth ih =>
    have hstop := hu.stop_le
    rw [Use.stop] at hstop
    -- the names of the groups are shorter, so that one level less is enough for them
    have hgroups : collectGroups (collectUses script depth) (u.offset + 1) u.inner =
        some ((usesIn false (u.offset + 1) u.inner).map Use.span) := by
      apply collectGroups_eq hline (by omega)
      intro v hv
      obtain ⟨hmem, hlength⟩ := mem_usesIn_of_mem_outermost hv
      exact ih (hu.nested (writtenIn_of_mem_usesIn hmem)) (closes_of_mem_usesIn hmem).inLine
        (by omega)
    rw [collectUses, hu.slice?_name]
    show (collectGroups (collectUses script depth) (u.offset + 1) u.inner >>= _) = _
    rw [hgroups]
    rfl

/-- The uses of a token are found in its script, as soon as the recursion may go as deep as the
token is long. -/
theorem Token.collectUses_eq {source : String} {tokens : List Token}
    (h : tokenize source = .ok tokens) (hbound : size source.toList < Span.bound) {t : Token}
    (ht : t ∈ tokens) {depth : Nat} (hdepth : t.chars.length ≤ depth) :
    t.collectUses source.toList depth = some (t.uses.map Use.span) := by
  have htiling := tiling_of_tokenize h
  have hwell := htiling.wellFormed t ht
  have hslice := htiling.slice?_span ht
  have hcollect : ∀ u ∈ t.uses, u.inner.length < t.chars.length →
      ScriptHints.collectUses source.toList depth u.span = some (u.withNested.map Use.span) := by
    intro u hu hlength
    exact ScriptHints.collectUses_eq hbound (htiling.writtenIn_of_mem_uses ht hu)
      (closes_of_mem_uses h ht hu).inLine (by omega)
  by_cases hv : t.category = .var
  · have huses := Token.uses_of_var hv
    rw [Token.collectUses, hv, ← hwell.span_head hv, huses]
    apply hcollect
    · rw [huses]
      exact List.mem_cons_self
    · rw [hwell.chars_var hv]
      simp only [List.length_append, List.length_cons]
      omega
  by_cases hx : t.category = .text
  · have huses := Token.uses_of_text hx
    have hstop := stop_le_size_of_slice? hslice
    rw [Token.collectUses, hx, hslice, huses]
    show collectGroups _ t.start t.chars = _
    apply collectGroups_eq (hwell.chars_inLine (by simp [hx])) (Nat.lt_of_le_of_lt hstop hbound)
    intro u hu
    obtain ⟨hmem, hlength⟩ := mem_usesIn_of_mem_outermost hu
    rw [← huses] at hmem
    exact hcollect u hmem hlength
  · rw [Token.uses_of_ne hv hx]
    unfold Token.collectUses
    split
    · exact absurd ‹_› hv
    · exact absurd ‹_› hx
    · rfl

/-! ### The uses of a token -/

/-- What the uses of a token of a script look like. -/
structure NestedUses (script : List Char) (t : Token) : Prop where
  /-- A use lies inside its token. -/
  inside : ∀ u ∈ t.uses, t.span.start ≤ u.span.start ∧ u.span.stop ≤ t.span.stop
  /-- Uses come in the order of their opening braces. -/
  increasing : t.uses.Pairwise fun u v => u.span.start < v.span.start
  /-- Of two uses, the second stands behind the first or between its braces. -/
  forest : t.uses.Pairwise fun u v => u.span.stop ≤ v.span.start ∨
    (u.span.start + 1 ≤ v.span.start ∧ v.span.stop ≤ u.span.stop - 1)
  /-- A variable mentions itself first. -/
  first : t.category = .var → (t.uses.map Use.span).head? = some t.span
  /-- The name of a use is what stands between its braces. -/
  name : ∀ u ∈ t.uses, slice? script ⟨u.span.start + 1, u.span.stop - 1⟩ = some u.inner
  /-- A use with a name is, on its own, one variable, which mentions what lies inside the use. -/
  named : ∀ u ∈ t.uses, u.inner ≠ [] → ∃ text v, slice? script u.span = some text ∧
    tokenize (String.ofList text) = .ok [v] ∧ v.category = .var ∧ v.span = ⟨0, size text⟩ ∧
    v.uses.map (Use.shift u.span.start) = t.uses.filter (u.Encloses ·)
  /-- A use without a name is no variable on its own, and nothing lies inside it. -/
  nameless : ∀ u ∈ t.uses, u.inner = [] → slice? script u.span = some ['{', '}'] ∧
    tokenize (String.ofList ['{', '}']) = .error ⟨.namelessVariable, 0, 2⟩ ∧
    t.uses.filter (u.Encloses ·) = [u]
  /-- Counting braces from the one that opens a use, as it is done to read a token, ends with the
  brace that closes it. -/
  closing : size script < Span.bound → ∀ u ∈ t.uses, ∀ before after,
    script = before ++ '{' :: after → size before = u.span.start →
    closingOffset 1 0 after = .ok (some (size u.inner))
  /-- Scanning the token, then the names found in it and so on comes to an end, with these uses. -/
  collected : size script < Span.bound → ∀ depth, t.chars.length ≤ depth →
    t.collectUses script depth = some (t.uses.map Use.span)

section

variable {source : String} {tokens : List Token} {t : Token} {u : Use}

/-- Behind the brace that opens a use, the braces are balanced first by the one that closes it. -/
theorem closingOffset_of_mem_uses (h : tokenize source = .ok tokens) (ht : t ∈ tokens)
    (hu : u ∈ t.uses) (hbound : size source.toList < Span.bound) {before after : List Char}
    (happ : source.toList = before ++ '{' :: after) (hsize : size before = u.offset) :
    closingOffset 1 0 after = .ok (some (size u.inner)) := by
  obtain ⟨front, back, hwritten, hoffset⟩ := (tiling_of_tokenize h).writtenIn_of_mem_uses ht hu
  rw [List.append_assoc] at hwritten
  obtain rfl := eq_of_size_eq happ hwritten (by omega)
  have hafter : after = u.inner ++ '}' :: back := by
    have := List.append_cancel_left (happ.symm.trans hwritten)
    simpa [Use.written] using this
  have hclose : splitGroup? 0 after = some (u.inner, back) :=
    closeGroup?_eq_some_iff.2 ⟨closes_of_mem_uses h ht hu, hafter⟩
  have hlength := length_le_size after
  have hbrace : '{'.utf8Size = 1 := rfl
  rw [happ, size_append, size_cons] at hbound
  rw [closingOffset_eq (by omega), hclose, Option.map_some, Nat.zero_add]

/-- The uses of every token form a forest whose trees are what their roots have on their own. -/
theorem token_uses_nest (h : tokenize source = .ok tokens) (ht : t ∈ tokens) :
    NestedUses source.toList t := by
  have htiling := tiling_of_tokenize h
  have hwell := htiling.wellFormed t ht
  refine ⟨?_, t.uses_pairwise, ?_, ?_, ?_, ?_, ?_, ?_, ?_⟩
  · intro u hu
    exact ⟨Token.start_le_of_mem_uses hwell hu, Token.stop_le_of_mem_uses hwell hu⟩
  · apply (t.uses_pairwise.and t.uses_nested).imp
    rintro u v ⟨hstart, hbehind | hstop⟩
    · exact .inl hbehind
    · exact .inr ⟨hstart, Nat.le_sub_one_of_lt hstop⟩
  · intro hv
    rw [Token.uses_of_var hv, Use.withNested, List.map_cons, List.head?_cons, hwell.span_head hv]
  · intro u hu
    exact (htiling.writtenIn_of_mem_uses ht hu).slice?_name
  · intro u hu hname
    refine ⟨u.written, ⟨.var, 0, [], u.written⟩,
      (htiling.writtenIn_of_mem_uses ht hu).slice?_span,
      tokenize_written (closes_of_mem_uses h ht hu) hname, rfl, ?_, ?_⟩
    · simp [Token.span, Token.start, Token.stop]
    · rw [Token.filter_encloses_uses hu]
      exact uses_of_written u
  · intro u hu hname
    have hslice := (htiling.writtenIn_of_mem_uses ht hu).slice?_span
    rw [Use.written, hname] at hslice
    refine ⟨hslice, tokenize_nameless, ?_⟩
    rw [Token.filter_encloses_uses hu, Use.withNested, hname, usesIn_nil]
  · intro hbound u hu before after happ hsize
    exact closingOffset_of_mem_uses h ht hu hbound happ hsize
  · intro hbound depth hdepth
    exact Token.collectUses_eq h hbound ht hdepth

end

/-- A script with a text in which a variable stands in the name of another, behind a character of
two bytes, and a pair of braces without a name. -/
def forestScript : String := "send \"é%\x7b_a::%\x7b_b\x7d%\x7d% %\x7b\x7d%\""

/-- The uses of that text: two of them nested, and one without a name. -/
theorem token_uses_nest_indexed :
    ∃ t : Token, tokenize forestScript = .ok [⟨.word, 0, [], "send".toList⟩, t] ∧
      t.uses.map Use.span = [⟨9, 21⟩, ⟨15, 19⟩, ⟨24, 26⟩] ∧
      NestedUses forestScript.toList t := by
  have htokens : tokenize forestScript = .ok [⟨.word, 0, [], "send".toList⟩,
      ⟨.text, 4, [' '], "\"é%\x7b_a::%\x7b_b\x7d%\x7d% %\x7b\x7d%\"".toList⟩] := by cbv
  exact ⟨_, htokens, by cbv, token_uses_nest htokens (by simp)⟩

end ScriptHints
