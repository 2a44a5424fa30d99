import Mathlib
import ScriptHints.Proofs.Analysis.Walk
import ScriptHints.Proofs.Line.Grouping
import ScriptHints.Proofs.Variable.Uses

/-!
# A report mentions every use once

Uses of variables come from tokens of two kinds and from the names of other uses, and the target of
an assignment is taken out of its line and reported last. This file shows that none of this loses a
use, reports one twice or puts it on a wrong line.

* `Line.Assigns` — the shape of a line that assigns a value, by its first three tokens.
* `Reported`, `reported_lineEntries` — the entries of a line: its local uses in order, except that
  the target of an assignment comes last.
* `Reached.entries_eq_flatMap` — the entries of a walk are those of its lines, one after the other.
* `Covers` — what it means for a report to cover a script.
* `run_covers_uses` — every report covers its script.
-/

namespace ScriptHints

open Text

/-! ### The shape of an assignment -/

/-- The line starts with the words that assign a value to the given token. -/
def Line.Assigns (l : Line) (target : Token) : Prop :=
  ∃ verb link value, l.tokens = verb :: target :: link :: value ∧ verb.category = .keyword .set ∧
    target.category = .var ∧ link.category = .keyword .to

section

variable {l : Line} {target : Token} {value : List Token}

/-- A line assigns a value to one token at most. -/
theorem Line.Assigns.unique {target' : Token} (h : l.Assigns target) (h' : l.Assigns target') :
    target = target' := by
  obtain ⟨verb, link, value, htokens, -⟩ := h
  obtain ⟨verb', link', value', htokens', -⟩ := h'
  rw [htokens] at htokens'
  obtain ⟨-, htail⟩ := List.cons.inj htokens'
  exact (List.cons.inj htail).1

/-- A line of the form `set target to value` is an assignment. -/
theorem statement_of_tokens {verb link : Token}
    (htokens : l.tokens = verb :: target :: link :: value)
    (hverb : verb.category = .keyword .set) (htarget : target.category = .var)
    (hlink : link.category = .keyword .to) : l.statement = .assignment target value := by
  unfold Line.statement
  rw [htokens]
  exact if_pos ⟨hverb, htarget, hlink⟩

/-- A line is read as an assignment only if it has the shape of one. -/
theorem tokens_of_statement (h : l.statement = .assignment target value) :
    ∃ verb link, l.tokens = verb :: target :: link :: value ∧ verb.category = .keyword .set ∧
      target.category = .var ∧ link.category = .keyword .to := by
  unfold Line.statement at h
  split at h
  · rename_i verb _ link _ htokens
    split at h
    · rename_i hshape
      obtain ⟨rfl, rfl⟩ := Statement.assignment.inj h
      exact ⟨verb, link, htokens, hshape⟩
    · cases h
  · cases h

/-- A line that is no assignment is studied as a whole. -/
theorem tokens_of_other {tokens : List Token} (h : l.statement = .other tokens) :
    tokens = l.tokens := by
  unfold Line.statement at h
  split at h
  · split at h
    · cases h
    · exact (Statement.other.inj h).symm
  · exact (Statement.other.inj h).symm

/-- The first use of an assignment is its target. -/
theorem uses_of_assignment (h : l.statement = .assignment target value) :
    l.uses = ⟨target.start, target.inner⟩ :: (target.uses.drop 1 ++ value.flatMap Token.uses) := by
  obtain ⟨verb, link, htokens, hverb, htarget, hlink⟩ := tokens_of_statement h
  have hverb' : verb.uses = [] := Token.uses_of_ne (by simp [hverb]) (by simp [hverb])
  have hlink' : link.uses = [] := Token.uses_of_ne (by simp [hlink]) (by simp [hlink])
  rw [Line.uses, htokens]
  simp [hverb', hlink', Token.uses_of_var htarget, Use.withNested]

end

/-! ### The entries of a line -/

section

variable {env : String → Option ValueType} {l : Line}

/-- The entries of a line. Either all its local uses are read, or it assigns a value to the first of
them, which then comes last. -/
inductive Reported (env : String → Option ValueType) (l : Line) : List Entry → Prop
  | reads (h : ∀ target, l.Assigns target → isLocal (String.ofList target.inner) = false) :
      Reported env l (references env l.number l.uses)
  | assigns {target : Token} {others : List Use} {hint : Option ValueType} (h : l.Assigns target)
      (hlocal : isLocal (String.ofList target.inner) = true)
      (huses : l.uses = ⟨target.start, target.inner⟩ :: others) :
      Reported env l (references env l.number others ++
        [⟨String.ofList target.inner, .assignment, hint, l.number, target.span⟩])

/-- The entries of every line are of one of these two forms. -/
theorem reported_lineEntries (env : String → Option ValueType) (l : Line) :
    Reported env l (lineEntries env l) := by
  unfold lineEntries
  cases hs : l.statement with
  | other tokens =>
    obtain rfl := tokens_of_other hs
    apply Reported.reads
    rintro target ⟨verb, link, value, htokens, hverb, htarget, hlink⟩
    rw [statement_of_tokens htokens hverb htarget hlink] at hs
    cases hs
  | assignment target value =>
    obtain ⟨verb, link, htokens, hshape⟩ := tokens_of_statement hs
    have huses := uses_of_assignment hs
    by_cases hlocal : isLocal (String.ofList target.inner) = true
    · simp only [if_pos hlocal]
      exact .assigns ⟨verb, link, value, htokens, hshape⟩ hlocal huses
    · -- a target that is not local is no local use
      have hreferences : references env l.number l.uses =
          references env l.number (target.uses.drop 1 ++ value.flatMap Token.uses) := by
        have hhead : ¬Use.isLocal ⟨target.start, target.inner⟩ = true := hlocal
        rw [huses]
        unfold references
        rw [List.filter_cons_of_neg hhead]
      simp only [if_neg hlocal, List.append_nil]
      rw [← hreferences]
      apply Reported.reads
      intro target' hassigns
      obtain rfl := hassigns.unique ⟨verb, link, value, htokens, hshape⟩
      simpa using hlocal

/-- Every local use of a line is reported once. -/
theorem spans_lineEntries (hw : ∀ t ∈ l.tokens, t.WellFormed) :
    ((lineEntries env l).map Entry.span).Perm ((l.uses.filter Use.isLocal).map Use.span) := by
  have hspans : ∀ uses, (references env l.number uses).map Entry.span =
      (uses.filter Use.isLocal).map Use.span := by
    intro uses
    simp [references, Function.comp_def]
  have hreported := reported_lineEntries env l
  generalize lineEntries env l = entries at hreported ⊢
  cases hreported with
  | reads => rw [hspans]
  | @assigns target others hint h hlocal huses =>
    obtain ⟨verb, link, value, htokens, -, htarget, -⟩ := h
    have hspan := (hw target (by simp [htokens])).span_head htarget
    have hhead : Use.isLocal ⟨target.start, target.inner⟩ = true := hlocal
    rw [List.map_append, hspans, huses, List.filter_cons_of_pos hhead, List.map_cons, List.map_cons,
      hspan]
    exact List.perm_append_singleton target.span _

/-- An entry is about a local use of its line. -/
theorem use_of_mem_lineEntries (hw : ∀ t ∈ l.tokens, t.WellFormed) {e : Entry}
    (he : e ∈ lineEntries env l) :
    e.line = l.number ∧ ∃ u ∈ l.uses, u.isLocal = true ∧ e.name = u.name ∧ e.span = u.span := by
  have hreferences : ∀ uses, e ∈ references env l.number uses →
      e.line = l.number ∧ ∃ u ∈ uses, u.isLocal = true ∧ e.name = u.name ∧ e.span = u.span := by
    intro uses h
    obtain ⟨u, hu, rfl⟩ := List.mem_map.1 h
    obtain ⟨hu, hlocal⟩ := List.mem_filter.1 hu
    exact ⟨rfl, u, hu, hlocal, rfl, rfl⟩
  have hreported := reported_lineEntries env l
  generalize lineEntries env l = entries at hreported he
  cases hreported with
  | reads => exact hreferences _ he
  | @assigns target others hint h hlocal huses =>
    rw [huses]
    rcases List.mem_append.1 he with he | he
    · obtain ⟨hline, u, hu, hu'⟩ := hreferences _ he
      exact ⟨hline, u, List.mem_cons_of_mem _ hu, hu'⟩
    · obtain rfl := List.mem_singleton.1 he
      obtain ⟨verb, link, value, htokens, -, htarget, -⟩ := h
      have hspan := (hw target (by simp [htokens])).span_head htarget
      exact ⟨rfl, _, List.mem_cons_self, hlocal, rfl, hspan.symm⟩

/-- Only the last entry of a line can be an assignment. -/
theorem role_lineEntries : (lineEntries env l).Pairwise fun a _ => a.role = .reference := by
  have hreferences : ∀ uses, (references env l.number uses).Pairwise fun a _ =>
      a.role = .reference := by
    intro uses
    apply List.pairwise_of_forall_mem_list
    intro a ha _ _
    exact (role_of_mem_references ha).1
  have hreported := reported_lineEntries env l
  generalize lineEntries env l = entries at hreported ⊢
  cases hreported with
  | reads => exact hreferences _
  | assigns =>
    refine List.pairwise_append.2 ⟨hreferences _, List.pairwise_singleton _ _, ?_⟩
    intro a ha _ _
    exact (role_of_mem_references ha).1

/-- The references of a line come in the order of its uses. -/
theorem start_lt_lineEntries (h : l.uses.Pairwise fun u v => u.offset < v.offset) :
    (lineEntries env l).Pairwise fun a b => b.role = .reference → a.span.start < b.span.start := by
  have hreferences : ∀ uses : List Use, (uses.Pairwise fun u v => u.offset < v.offset) →
      (references env l.number uses).Pairwise fun a b =>
        b.role = .reference → a.span.start < b.span.start := by
    intro uses huses
    unfold references
    rw [List.pairwise_map]
    apply (huses.filter _).imp
    intro u v huv _
    exact huv
  have hreported := reported_lineEntries env l
  generalize lineEntries env l = entries at hreported ⊢
  cases hreported with
  | reads => exact hreferences _ h
  | @assigns target others hint _ _ huses =>
    rw [huses] at h
    refine List.pairwise_append.2 ⟨hreferences _ h.tail, List.pairwise_singleton _ _, ?_⟩
    intro a _ b hb hrole
    rw [List.mem_singleton.1 hb] at hrole
    cases hrole

end

/-! ### The entries of a walk -/

/-- The entries of a walk are those of its lines, one line after the other, each under the hints
found on it. -/
theorem Reached.entries_eq_flatMap {lines : List Line} {entries : List Entry} {p : Progress}
    (h : Reached lines entries p) (hnumbers : lines.Pairwise fun a b => a.number < b.number) :
    ∃ env : Line → String → Option ValueType,
      entries = lines.flatMap fun l => lineEntries (env l) l := by
  induction h with
  | start => exact ⟨fun _ _ => none, rfl⟩
  | @step lines entries p line outline h hv ih =>
    obtain ⟨hnumbers, -, hlater⟩ := List.pairwise_append.1 hnumbers
    obtain ⟨env, rfl⟩ := ih hnumbers
    refine ⟨fun l => if l = line then (p.placed line).hints.find? else env l, ?_⟩
    rw [List.flatMap_append, List.flatMap_singleton]
    simp only [if_true]
    congr 1
    apply List.flatMap_congr
    intro l hl
    -- a line that was read before is another one
    have hne : l ≠ line := by
      rintro rfl
      exact Nat.lt_irrefl _ (hlater l hl l (by simp))
    rw [if_neg hne]

/-- The uses of all lines are those of all tokens that are no line feeds. -/
theorem flatMap_uses_toLines (tokens : List Token) :
    (Token.toLines tokens).flatMap Line.uses =
      (tokens.filter (!·.isNewline)).flatMap Token.uses := by
  rw [← flatMap_tokens_toLines, List.flatMap_assoc]
  rfl

/-- Over all lines of a script, uses come in the order of their opening braces. -/
theorem Tiling.uses_toLines_pairwise {text : List Char} {tokens : List Token}
    (h : Tiling 0 text tokens) :
    ((Token.toLines tokens).flatMap Line.uses).Pairwise fun u v => u.offset < v.offset := by
  rw [flatMap_uses_toLines]
  apply flatMap_uses_pairwise (h.chained.pairwise.filter _)
  intro t ht
  exact h.wellFormed t (List.mem_filter.1 ht).1

/-- Where a use of a line stands in the script: its line number is one more than the number of line
feeds before it. -/
theorem Tiling.use_in_line {text : List Char} {tokens : List Token} (h : Tiling 0 text tokens)
    {l : Line} (hl : l ∈ Token.toLines tokens) {u : Use} (hu : u ∈ l.uses) :
    u.WrittenIn 0 text ∧
      ∃ before, slice? text ⟨0, u.offset⟩ = some before ∧ l.number = 1 + before.count '\n' := by
  obtain ⟨t, ht, hu⟩ := List.mem_flatMap.1 hu
  have hw := h.wellFormed_line hl t ht
  refine ⟨h.writtenIn_of_mem_uses (mem_of_mem_line hl ht) hu, ?_⟩
  obtain ⟨before, after, rfl, hstart, hnumber⟩ := h.place_in_line hl ht
  obtain ⟨front, back, hchars, hoffset⟩ := t.writtenIn_of_mem_uses hw hu
  refine ⟨before ++ front, ?_, ?_⟩
  · refine slice?_eq_some_iff.2 ⟨[], u.written ++ back ++ after, ?_, rfl, ?_⟩
    · rw [hchars]
      simp
    · rw [hoffset, hstart, size_append, size_nil, Nat.zero_add]
  · -- there is no line feed between the token and the use
    have hfront : '\n' ∉ front := by
      have hline := hw.chars_inLine (by simpa [Token.isNewline] using isNewline_of_mem_line hl ht)
      intro hn
      apply hline
      rw [hchars]
      simp [hn]
    rw [List.count_append, List.count_eq_zero.2 hfront, hnumber, Nat.add_zero]

/-! ### Coverage -/

/-- The entries mention the uses of local variables in a script. -/
structure Covers (script : List Char) (tokens : List Token) (entries : List Entry) : Prop where
  /-- No use is reported twice. -/
  distinct : (entries.map Entry.span).Nodup
  /-- What is reported are the local uses of the tokens that are no line feeds. -/
  complete : ∀ s, s ∈ entries.map Entry.span ↔
    ∃ t ∈ tokens, t.isNewline = false ∧ ∃ u ∈ t.uses, u.isLocal = true ∧ u.span = s
  /-- Assignments are the targets of lines that assign a value. -/
  assignment : ∀ e ∈ entries, e.role = .assignment ↔
    ∃ l ∈ Token.toLines tokens, ∃ target, l.Assigns target ∧ e.span = target.span
  /-- At its place in the script stands the variable with its braces. -/
  text : ∀ e ∈ entries, slice? script e.span = some ('{' :: e.name.toList ++ ['}'])
  /-- Its line is found by counting line feeds. -/
  line : ∀ e ∈ entries, ∃ before, slice? script ⟨0, e.span.start⟩ = some before ∧
    e.line = 1 + before.count '\n'
  /-- Entries come line by line. -/
  lines : entries.Pairwise fun a b => a.line ≤ b.line
  /-- References come in the order of the script. -/
  references : (entries.filter (·.role = .reference)).Pairwise fun a b =>
    a.span.start < b.span.start
  /-- What comes behind an assignment is on another line. -/
  last : entries.Pairwise fun a b => a.role = .assignment → a.line ≠ b.line

section

variable {script : List Char} {tokens : List Token} (env : Line → String → Option ValueType)

/-- The entries of all lines of a script. -/
def entriesOf (tokens : List Token) : List Entry :=
  (Token.toLines tokens).flatMap fun l => lineEntries (env l) l

/-- All local uses are reported once. -/
theorem spans_entriesOf (h : Tiling 0 script tokens) :
    ((entriesOf env tokens).map Entry.span).Perm
      (((tokens.filter (!·.isNewline)).flatMap Token.uses |>.filter Use.isLocal).map Use.span) := by
  rw [← flatMap_uses_toLines, entriesOf, List.map_flatMap, List.filter_flatMap, List.map_flatMap]
  apply List.Perm.flatMap_left
  intro l hl
  exact spans_lineEntries (h.wellFormed_line hl)

/-- No two entries of a script stand at the same place. -/
theorem nodup_spans_entriesOf (h : Tiling 0 script tokens) :
    ((entriesOf env tokens).map Entry.span).Nodup := by
  rw [(spans_entriesOf env h).nodup_iff, ← flatMap_uses_toLines, List.Nodup, List.pairwise_map]
  apply (h.uses_toLines_pairwise.filter _).imp
  intro u v huv hspan
  have hstart : u.offset = v.offset := congrArg Span.start hspan
  omega

/-- Every entry is about a local use of a line. -/
theorem use_of_mem_entriesOf (h : Tiling 0 script tokens) {e : Entry}
    (he : e ∈ entriesOf env tokens) :
    ∃ l ∈ Token.toLines tokens, e.line = l.number ∧
      ∃ u ∈ l.uses, u.isLocal = true ∧ e.name = u.name ∧ e.span = u.span := by
  obtain ⟨l, hl, he⟩ := List.mem_flatMap.1 he
  exact ⟨l, hl, use_of_mem_lineEntries (h.wellFormed_line hl) he⟩

/-- At the place of an entry the script has the name of its variable in braces. -/
theorem slice?_of_mem_entriesOf (h : Tiling 0 script tokens) {e : Entry}
    (he : e ∈ entriesOf env tokens) :
    slice? script e.span = some ('{' :: e.name.toList ++ ['}']) := by
  obtain ⟨l, hl, -, u, hu, -, hname, hspan⟩ := use_of_mem_entriesOf env h he
  rw [hspan, hname, Use.name, String.toList_ofList]
  exact (h.use_in_line hl hu).1.slice?_span

/-- A line that assigns a value to a local variable has an assignment among its entries. -/
theorem exists_assignment {l : Line} (hl : l ∈ Token.toLines tokens) {target : Token}
    (hassigns : l.Assigns target) (hlocal : isLocal (String.ofList target.inner) = true) :
    ∃ e ∈ entriesOf env tokens, e.role = .assignment ∧ e.span = target.span := by
  suffices hline : ∃ e ∈ lineEntries (env l) l, e.role = .assignment ∧ e.span = target.span by
    obtain ⟨e, he, hrest⟩ := hline
    exact ⟨e, List.mem_flatMap.2 ⟨l, hl, he⟩, hrest⟩
  have hreported := reported_lineEntries (env l) l
  generalize lineEntries (env l) l = entries at hreported ⊢
  cases hreported with
  | reads hglobal =>
    rw [hglobal target hassigns] at hlocal
    cases hlocal
  | @assigns target' others hint h _ _ =>
    obtain rfl := hassigns.unique h
    exact ⟨_, List.mem_append_right _ List.mem_cons_self, rfl, rfl⟩

/-- An entry is an assignment exactly where it is at the target of one. -/
theorem assignment_iff (h : Tiling 0 script tokens) {e : Entry} (he : e ∈ entriesOf env tokens) :
    e.role = .assignment ↔
      ∃ l ∈ Token.toLines tokens, ∃ target, l.Assigns target ∧ e.span = target.span := by
  constructor
  · intro hrole
    obtain ⟨l, hl, he⟩ := List.mem_flatMap.1 he
    have hreported := reported_lineEntries (env l) l
    generalize lineEntries (env l) l = entries at hreported he
    cases hreported with
    | reads =>
      rw [(role_of_mem_references he).1] at hrole
      cases hrole
    | @assigns target others hint hassigns _ _ =>
      refine ⟨l, hl, target, hassigns, ?_⟩
      rcases List.mem_append.1 he with he | he
      · rw [(role_of_mem_references he).1] at hrole
        cases hrole
      · rw [List.mem_singleton.1 he]
  · rintro ⟨l, hl, target, hassigns, hspan⟩
    obtain ⟨verb, link, value, htokens, -, htarget, -⟩ := id hassigns
    have hmem : target ∈ tokens := mem_of_mem_line hl (by simp [htokens])
    -- the entry has the name of the target, for that is what stands at their common place
    have hname : e.name.toList = target.inner := by
      have hslice := slice?_of_mem_entriesOf env h he
      rw [hspan, h.slice?_span hmem, (h.wellFormed target hmem).chars_var htarget] at hslice
      simpa using hslice.symm
    have hlocal : isLocal (String.ofList target.inner) = true := by
      obtain ⟨-, -, -, u, -, hu, hu', -⟩ := use_of_mem_entriesOf env h he
      rw [← hname, String.ofList_toList, hu']
      exact hu
    -- and there is only one entry at that place
    obtain ⟨e', he', hrole, hspan'⟩ := exists_assignment env hl hassigns hlocal
    have heq : e = e' :=
      List.inj_on_of_nodup_map (nodup_spans_entriesOf env h) he he' (hspan.trans hspan'.symm)
    rw [heq]
    exact hrole

/-- Entries on different lines are in order, so that an order on entries has to be checked on single
lines only. -/
theorem pairwise_entriesOf (h : Tiling 0 script tokens) {r : Entry → Entry → Prop}
    (hline : ∀ l ∈ Token.toLines tokens, (lineEntries (env l) l).Pairwise r)
    (hlines : ∀ a b, a.line < b.line → a.span.start < b.span.start → r a b) :
    (entriesOf env tokens).Pairwise r := by
  refine List.pairwise_flatMap.2 ⟨hline, ?_⟩
  have huses := (List.pairwise_flatMap.1 h.uses_toLines_pairwise).2
  have hnumbers : (Token.toLines tokens).Pairwise fun a b => a.number < b.number :=
    number_pairwise 1 tokens
  apply (List.Pairwise.and_mem.1 (huses.and hnumbers)).imp
  rintro l l' ⟨hl, hl', huv, hnumber⟩ a ha b hb
  obtain ⟨haline, u, hu, -, -, haspan⟩ := use_of_mem_lineEntries (h.wellFormed_line hl) ha
  obtain ⟨hbline, v, hv, -, -, hbspan⟩ := use_of_mem_lineEntries (h.wellFormed_line hl') hb
  apply hlines
  · rw [haline, hbline]
    exact hnumber
  · rw [haspan, hbspan]
    exact huv u hu v hv

/-- The entries of a script cover it. -/
theorem covers_entriesOf (h : Tiling 0 script tokens) :
    Covers script tokens (entriesOf env tokens) where
  distinct := nodup_spans_entriesOf env h
  complete s := by
    rw [(spans_entriesOf env h).mem_iff]
    simp only [List.mem_map, List.mem_filter, List.mem_flatMap, Bool.not_eq_true']
    constructor
    · rintro ⟨u, ⟨⟨t, ⟨ht, hfeed⟩, hu⟩, hlocal⟩, hspan⟩
      exact ⟨t, ht, hfeed, u, hu, hlocal, hspan⟩
    · rintro ⟨t, ht, hfeed, u, hu, hlocal, hspan⟩
      exact ⟨u, ⟨⟨t, ⟨ht, hfeed⟩, hu⟩, hlocal⟩, hspan⟩
  assignment _ he := assignment_iff env h he
  text _ he := slice?_of_mem_entriesOf env h he
  line e he := by
    obtain ⟨l, hl, hline, u, hu, -, -, hspan⟩ := use_of_mem_entriesOf env h he
    rw [hline, hspan]
    exact (h.use_in_line hl hu).2
  lines := by
    refine pairwise_entriesOf env h ?_ fun a b hline _ => Nat.le_of_lt hline
    intro l _
    apply List.pairwise_of_forall_mem_list
    intro a ha b hb
    rw [(cases_of_mem_lineEntries ha).1, (cases_of_mem_lineEntries hb).1]
  references := by
    rw [List.pairwise_filter]
    refine pairwise_entriesOf env h ?_ fun a b _ hstart _ _ => hstart
    intro l hl
    apply (start_lt_lineEntries ((List.pairwise_flatMap.1 h.uses_toLines_pairwise).1 l hl)).imp
    intro a b hstart _ hb
    exact hstart (of_decide_eq_true hb)
  last := by
    refine pairwise_entriesOf env h ?_ fun a b hline _ _ => Nat.ne_of_lt hline
    intro l _
    apply role_lineEntries.imp
    intro a b hrole hassignment
    rw [hrole] at hassignment
    cases hassignment

end

/-! ### Reports -/

/-- A report mentions every local use of its script, each once and at its place. -/
theorem run_covers_uses {a : Analyzer} {name source : String} {report : Report}
    (h : (a.run name source).1 = .ok report) :
    ∃ tokens, tokenize source = .ok tokens ∧ Covers source.toList tokens report.entries := by
  obtain ⟨tokens, p, htokens, hreached⟩ := reached_of_run h
  obtain ⟨env, hentries⟩ := hreached.entries_eq_flatMap (number_pairwise 1 tokens)
  refine ⟨tokens, htokens, ?_⟩
  rw [hentries]
  exact covers_entriesOf env (tiling_of_tokenize htokens)

/-- A script whose uses are the target of an assignment, an index in its name and variables in a
text, on two lines with a blank line between them. -/
def indexedScript : String :=
  "set \x7b_a::%\x7b_i\x7d%\x7d to 1\n\nsend \"\x7b_n\x7d %\x7b_s::%\x7bg\x7d%\x7d%\""

/-- The index comes before the target it stands in. -/
theorem run_covers_uses_indexed :
    ∃ report, (({} : Analyzer).run "indexed" indexedScript).1 = .ok report ∧
      report.entries.map Entry.name = ["_i", "_a::%\x7b_i\x7d%", "_s::%\x7bg\x7d%"] ∧
      ∃ tokens, tokenize indexedScript = .ok tokens ∧
        Covers indexedScript.toList tokens report.entries := by
  have hrun : (({} : Analyzer).run "indexed" indexedScript).1 = .ok
      ⟨"indexed", [⟨"_i", .reference, none, 1, ⟨10, 14⟩⟩,
        ⟨"_a::%\x7b_i\x7d%", .assignment, some .number, 1, ⟨4, 16⟩⟩,
        ⟨"_s::%\x7bg\x7d%", .reference, none, 3, ⟨35, 46⟩⟩]⟩ := by cbv
  exact ⟨_, hrun, rfl, run_covers_uses hrun⟩

end ScriptHints
