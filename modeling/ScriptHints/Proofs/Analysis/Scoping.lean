import Mathlib
import ScriptHints.Proofs.Line.Grouping
import ScriptHints.Proofs.Outline.History

/-!
# What a variable is known to be at a place

Hints are kept in a stack of scopes that follows the sections of a script. The law of scoping says
what the stack comes to without mentioning it: an assignment is seen on every later line as long as
no line in between is indented less than the assignment, and the last one seen decides.

* `Entry.VisibleOn` — an entry is seen on a line, by the widths of the lines in between alone.
* `visibleHint` — the hint of the last assignment that is seen.
* `Entry.ObeysScoping` — what an entry of a report says by the law.
* `Reached.find?_leave` — the invariant of the walk: what is found once the scopes deeper than any
  given width are left is what a line of that width sees.
* `run_obeys_scoping` — every entry of every report obeys the law.
-/

namespace ScriptHints

/-! ### The law -/

/-- The entry stands on the line with the given place. -/
def Entry.On (e : Entry) (lines : List Line) (i : Nat) : Prop :=
  (lineAt lines i).map Line.number = some e.line

instance (e : Entry) (lines : List Line) (i : Nat) : Decidable (e.On lines i) :=
  inferInstanceAs (Decidable (_ = _))

/-- No line behind line `i`, up to line `k`, is indented less than line `i`. -/
def Unclosed (lines : List Line) (i k : Nat) : Prop :=
  ∀ m ≤ k, i < m → columnsAt lines i ≤ columnsAt lines m

instance (lines : List Line) (i k : Nat) : Decidable (Unclosed lines i k) :=
  inferInstanceAs (Decidable (∀ m, m ≤ k → _))

/-- The entry is on an earlier line whose section is not closed before line `k`. -/
def Entry.VisibleOn (e : Entry) (lines : List Line) (k : Nat) : Prop :=
  ∃ i < k, e.On lines i ∧ Unclosed lines i k

instance (e : Entry) (lines : List Line) (k : Nat) : Decidable (e.VisibleOn lines k) :=
  inferInstanceAs (Decidable (∃ i, i < k ∧ _))

/-- The hint of the last assignment to a name among the entries that are seen. -/
def lastHint (entries : List Entry) (name : String) (seen : Entry → Prop) [DecidablePred seen] :
    Option ValueType :=
  (entries.filter fun e => e.role = .assignment ∧ e.name = name ∧ seen e).getLast?.bind Entry.hint

/-- The hint a name has on line `k`. -/
def visibleHint (lines : List Line) (entries : List Entry) (k : Nat) (name : String) :
    Option ValueType :=
  lastHint entries name (·.VisibleOn lines k)

/-- What an entry says by the law. A reference has the hint visible on its line. An assignment has
the type of its value, typed with the hints visible on its line, where that type says anything, and
the hint visible on its line otherwise. -/
def Entry.ObeysScoping (e : Entry) (lines : List Line) (entries : List Entry) : Prop :=
  ∃ k line, lineAt lines k = some line ∧ line.number = e.line ∧
    match e.role with
    | .reference => e.hint = visibleHint lines entries k e.name
    | .assignment =>
      ∃ target value, line.statement = .assignment target value ∧
        e.name = String.ofList target.inner ∧
        e.hint = if typeOfValue (visibleHint lines entries k) value = .object then
            visibleHint lines entries k e.name
          else some (typeOfValue (visibleHint lines entries k) value)

/-! ### The last assignment -/

section

variable {entries others : List Entry} {name : String} {seen seen' : Entry → Prop}
  [DecidablePred seen] [DecidablePred seen']

/-- The last hint depends on the entries that are seen only. -/
theorem lastHint_congr (h : ∀ e ∈ entries, seen e ↔ seen' e) :
    lastHint entries name seen = lastHint entries name seen' := by
  unfold lastHint
  rw [List.filter_congr]
  intro e he
  simp only [h e he]

/-- Entries that are no assignments seen do not count. -/
theorem lastHint_append_of_not (h : ∀ e ∈ others, e.role = .assignment → ¬seen e) :
    lastHint (entries ++ others) name seen = lastHint entries name seen := by
  unfold lastHint
  have hnil : (others.filter fun e => e.role = .assignment ∧ e.name = name ∧ seen e) = [] := by
    rw [List.filter_eq_nil_iff]
    intro e he hsees
    obtain ⟨hrole, -, hseen⟩ := of_decide_eq_true hsees
    exact h e he hrole hseen
  rw [List.filter_append, hnil, List.append_nil]

/-- The last entry decides if it is an assignment to the name. -/
theorem lastHint_concat {e : Entry} (hrole : e.role = .assignment) (hseen : seen e) :
    lastHint (entries ++ [e]) name seen =
      if name = e.name then e.hint else lastHint entries name seen := by
  unfold lastHint
  rw [List.filter_append]
  by_cases hname : e.name = name
  · rw [List.filter_cons_of_pos (by simp [hrole, hname, hseen]), if_pos hname.symm]
    simp
  · rw [List.filter_cons_of_neg (by simp [hname]), if_neg fun h => hname h.symm]
    simp

end

/-! ### Entries of a line -/

/-- Where the entries before a line give the hints of a table, those up to the line give the hints
of the table after it. -/
theorem lastHint_lineEntries {hints : HintTable ValueType} {line : Line} {entries : List Entry}
    {name : String} {seen : Entry → Prop} [DecidablePred seen]
    (hold : lastHint entries name seen = hints.find? name)
    (hnew : ∀ e ∈ lineEntries hints.find? line, seen e) :
    lastHint (entries ++ lineEntries hints.find? line) name seen =
      (hints.afterLine line).find? name := by
  have hreferences : ∀ uses, lastHint (entries ++ references hints.find? line.number uses) name
      seen = hints.find? name := by
    intro uses
    rw [lastHint_append_of_not, hold]
    intro e he hrole
    rw [(role_of_mem_references he).1] at hrole
    cases hrole
  unfold lineEntries at hnew ⊢
  unfold HintTable.afterLine
  cases hs : line.statement with
  | other tokens => exact hreferences _
  | assignment target value =>
    simp only [hs] at hnew ⊢
    by_cases hlocal : isLocal (String.ofList target.inner) = true
    · rw [if_pos hlocal] at hnew ⊢
      rw [← List.append_assoc, lastHint_concat rfl (hnew _ (by simp)), hreferences]
      by_cases htype : typeOfValue hints.find? value = .object
      · -- nothing is recorded, and the entry repeats the hint there was
        have hrecord : ¬(isLocal (String.ofList target.inner) = true ∧
            typeOfValue hints.find? value ≠ .object) := fun h => h.2 htype
        rw [if_neg hrecord, assignedHint, if_pos htype]
        split
        · rename_i hname
          rw [hname]
        · rfl
      · rw [if_pos (And.intro hlocal htype), HintTable.find?_insert, assignedHint, if_neg htype]
    · rw [if_neg hlocal, List.append_nil, if_neg fun h => hlocal h.1]
      exact hreferences _

/-! ### Entries and the lines they are on -/

section

variable {lines : List Line} {line : Line} {e : Entry} {i : Nat}

/-- The entry is on a line that a further line of the given width would still be inside of. -/
def Entry.OpenAt (e : Entry) (lines : List Line) (width : Nat) : Prop :=
  ∃ i ≤ lines.length, e.On lines i ∧ columnsAt lines i ≤ width ∧ Unclosed lines i lines.length

instance (e : Entry) (lines : List Line) (width : Nat) : Decidable (e.OpenAt lines width) :=
  inferInstanceAs (Decidable (∃ i, i ≤ lines.length ∧ _))

/-- An entry stands on one of the lines. -/
theorem Entry.On.exists_mem (h : e.On lines i) : ∃ l ∈ lines, l.number = e.line := by
  obtain ⟨l, hl, hnumber⟩ := Option.map_eq_some_iff.1 h
  obtain ⟨done, rest, rfl, -⟩ := lines_eq_of_lineAt hl
  exact ⟨l, by simp, hnumber⟩

/-- Lines that follow do not change on which line an entry stands. -/
theorem Entry.on_append (hi : i ≤ lines.length) (others : List Line) :
    e.On (lines ++ others) i ↔ e.On lines i := by
  rw [Entry.On, lineAt_append hi, Entry.On]

/-- One line further a section is unclosed if it was before and the line is not indented less. -/
theorem unclosed_append_cons (hi : i ≤ lines.length) (line : Line) (others : List Line) :
    Unclosed (lines ++ line :: others) i (lines.length + 1) ↔
      columnsAt lines i ≤ line.columns ∧ Unclosed lines i lines.length := by
  have hcolumns : ∀ m ≤ lines.length,
      columnsAt (lines ++ line :: others) m = columnsAt lines m := by
    intro m hm
    exact columnsAt_append hm _
  have hlast := columnsAt_append_cons lines line others
  constructor
  · intro h
    constructor
    · rw [← hlast, ← hcolumns i hi]
      exact h _ (Nat.le_refl _) (Nat.lt_succ_of_le hi)
    · intro m hm him
      rw [← hcolumns i hi, ← hcolumns m hm]
      exact h m (Nat.le_succ_of_le hm) him
  · rintro ⟨hline, h⟩ m hm him
    rw [hcolumns i hi]
    rcases Nat.lt_or_eq_of_le hm with hlt | rfl
    · rw [hcolumns m (Nat.le_of_lt_succ hlt)]
      exact h m (Nat.le_of_lt_succ hlt) him
    · rw [hlast]
      exact hline

/-- What a line sees depends on its width only. -/
theorem visibleOn_append_cons (lines : List Line) (line : Line) (others : List Line) :
    e.VisibleOn (lines ++ line :: others) (lines.length + 1) ↔ e.OpenAt lines line.columns := by
  constructor
  · rintro ⟨i, hi, hon, hunclosed⟩
    have hi := Nat.le_of_lt_succ hi
    obtain ⟨hle, hunclosed⟩ := (unclosed_append_cons hi line others).1 hunclosed
    exact ⟨i, hi, (Entry.on_append hi _).1 hon, hle, hunclosed⟩
  · rintro ⟨i, hi, hon, hle, hunclosed⟩
    exact ⟨i, Nat.lt_succ_of_le hi, (Entry.on_append hi _).2 hon,
      (unclosed_append_cons hi line others).2 ⟨hle, hunclosed⟩⟩

/-- An entry on an earlier line stays open as long as the last line is not indented less. -/
theorem openAt_concat_of_ne (h : e.line ≠ line.number) (width : Nat) :
    e.OpenAt (lines ++ [line]) width ↔ e.OpenAt lines (min width line.columns) := by
  have hlength : (lines ++ [line]).length = lines.length + 1 := by simp
  unfold Entry.OpenAt
  rw [hlength]
  constructor
  · rintro ⟨i, hi, hon, hle, hunclosed⟩
    rcases Nat.lt_or_eq_of_le hi with hlt | rfl
    · have hi := Nat.le_of_lt_succ hlt
      obtain ⟨hline, hunclosed⟩ := (unclosed_append_cons hi line []).1 hunclosed
      rw [columnsAt_append hi] at hle
      exact ⟨i, hi, (Entry.on_append hi _).1 hon, Nat.le_min.2 ⟨hle, hline⟩, hunclosed⟩
    · rw [Entry.On, lineAt_append_cons] at hon
      exact absurd (Option.some.inj hon).symm h
  · rintro ⟨i, hi, hon, hle, hunclosed⟩
    obtain ⟨hle, hline⟩ := Nat.le_min.1 hle
    refine ⟨i, Nat.le_succ_of_le hi, (Entry.on_append hi _).2 hon, ?_, ?_⟩
    · rw [columnsAt_append hi]
      exact hle
    · exact (unclosed_append_cons hi line []).2 ⟨hline, hunclosed⟩

/-- An entry on the last line is open to lines that are not indented less. -/
theorem openAt_concat_of_eq (h : e.line = line.number) (hfresh : ∀ l ∈ lines, l.number ≠ e.line)
    (width : Nat) : e.OpenAt (lines ++ [line]) width ↔ line.columns ≤ width := by
  have hlength : (lines ++ [line]).length = lines.length + 1 := by simp
  have hlast := columnsAt_append_cons lines line []
  unfold Entry.OpenAt
  rw [hlength]
  constructor
  · rintro ⟨i, hi, hon, hle, -⟩
    rcases Nat.lt_or_eq_of_le hi with hlt | rfl
    · obtain ⟨l, hl, hnumber⟩ :=
        ((Entry.on_append (Nat.le_of_lt_succ hlt) _).1 hon).exists_mem
      exact absurd hnumber (hfresh l hl)
    · rwa [hlast] at hle
  · intro hle
    refine ⟨lines.length + 1, Nat.le_refl _, ?_, ?_, ?_⟩
    · rw [Entry.On, lineAt_append_cons, h]
      rfl
    · rwa [hlast]
    · intro m hm him
      omega

end

/-! ### Scopes and widths -/

/-- Taking in two goes is taking in one where the second go takes more. -/
theorem takeWhile_eq_append {α : Type} {f g : α → Bool} (h : ∀ a, g a = true → f a = true)
    (as : List α) : as.takeWhile f = as.takeWhile g ++ (as.dropWhile g).takeWhile f := by
  induction as with
  | nil => rfl
  | cons a as ih =>
    by_cases hg : g a = true
    · rw [List.takeWhile_cons_of_pos (h a hg), List.takeWhile_cons_of_pos hg,
        List.dropWhile_cons_of_pos hg, ih, List.cons_append]
    · rw [List.takeWhile_cons_of_neg hg, List.dropWhile_cons_of_neg hg, List.nil_append]

/-- A line not less indented than the innermost section leaves no scope. -/
theorem takeWhile_of_widthOf_le {sections : List Section} {width : Nat}
    (h : widthOf sections ≤ width) : sections.takeWhile (width < ·.width) = [] := by
  cases sections with
  | nil => rfl
  | cons s sections =>
    apply List.takeWhile_cons_of_neg
    simpa [widthOf] using h

/-- A line less indented than the innermost section leaves its scope. -/
theorem takeWhile_of_lt_widthOf {sections : List Section} {width : Nat}
    (h : width < widthOf sections) :
    ∃ s rest, sections = s :: rest ∧
      sections.takeWhile (width < ·.width) = s :: rest.takeWhile (width < ·.width) := by
  cases sections with
  | nil => exact absurd h (Nat.not_lt_zero width)
  | cons s rest =>
    refine ⟨s, rest, rfl, List.takeWhile_cons_of_pos ?_⟩
    simpa [widthOf] using h

/-- What a line records is gone once its scope is left. -/
theorem leave_afterLine {hints : HintTable ValueType} (h : 1 < hints.depth) (line : Line)
    (n : Nat) :
    (hints.afterLine line).leave (n + 1) = hints.leave (n + 1) := by
  unfold HintTable.afterLine
  cases line.statement with
  | other tokens => rfl
  | assignment target value =>
    dsimp only
    split
    · exact HintTable.leave_insert h n _ _
    · rfl

section

variable {p : Progress} {line : Line} {o : Outline}

/-- On a line, the hints are those left once the deeper scopes are. -/
theorem find?_placed (hv : (p.outline.place line).verdict = .ok o) (name : String) :
    (p.placed line).hints.find? name =
      (p.hints.leave (p.outline.sections.takeWhile (line.columns < ·.width)).length).find?
        name := by
  have haccepted := accepted_of_ok hv
  unfold Progress.placed Placement.hintsOn
  generalize p.outline.place line = placement at haccepted ⊢
  cases haccepted with
  | opens hmix hwidth =>
    rw [takeWhile_of_widthOf_le (Nat.le_of_lt hwidth)]
    exact HintTable.find?_enter _ _
  | continues => rfl

/-- The innermost section after a line has the width of the line. -/
theorem widthOf_of_ok (hv : (p.outline.place line).verdict = .ok o) :
    widthOf o.sections = line.columns := by
  have haccepted := accepted_of_ok hv
  generalize p.outline.place line = placement at haccepted
  cases haccepted with
  | opens => rfl
  | continues hmix hwidth haligned => exact haligned.symm

/-- To a line indented less, it makes no difference whether a line comes in between. -/
theorem leave_after_of_lt (h : p.Aligned) (hv : (p.outline.place line).verdict = .ok o)
    {width : Nat} (hlt : width < line.columns) :
    (p.after line o).hints.leave (o.sections.takeWhile (width < ·.width)).length =
      p.hints.leave (p.outline.sections.takeWhile (width < ·.width)).length := by
  have hafter := h.after hv
  obtain ⟨s, rest, hsections, htake⟩ :=
    takeWhile_of_lt_widthOf (hlt.trans_eq (widthOf_of_ok hv).symm)
  have hdepth : 1 < (p.placed line).hints.depth := by
    have hdepth : (p.after line o).hints.depth = o.sections.length + 1 := hafter.depth_eq
    rw [Progress.after, depth_afterLine, hsections, List.length_cons] at hdepth
    omega
  rw [htake, List.length_cons, Progress.after, leave_afterLine hdepth]
  have haccepted := accepted_of_ok hv
  unfold Progress.placed Placement.hintsOn
  generalize p.outline.place line = placement at haccepted ⊢
  cases haccepted with
  | opens =>
    obtain ⟨rfl, rfl⟩ := List.cons.inj hsections
    exact HintTable.leave_enter _ _
  | continues =>
    dsimp only at htake
    rw [if_neg Bool.false_ne_true, ← HintTable.leave_add]
    congr 1
    have hlength := congrArg List.length htake
    rw [List.length_cons] at hlength
    rw [← hlength, ← List.length_append, ← takeWhile_eq_append]
    intro a ha
    simp only [decide_eq_true_eq] at ha ⊢
    omega

end

/-! ### The invariant of the walk -/

/-- Entries are on lines that were read. -/
theorem Reached.line_mem {lines : List Line} {entries : List Entry} {p : Progress}
    (h : Reached lines entries p) : ∀ e ∈ entries, ∃ l ∈ lines, l.number = e.line := by
  induction h with
  | start => nofun
  | @step lines entries p line outline h hv ih =>
    intro e he
    rcases List.mem_append.1 he with he | he
    · obtain ⟨l, hl, hnumber⟩ := ih e he
      exact ⟨l, List.mem_append_left _ hl, hnumber⟩
    · exact ⟨line, by simp, (cases_of_mem_lineEntries he).1.symm⟩

/-- What is found once the scopes deeper than a width are left is what a line of that width would
see. -/
theorem Reached.find?_leave {lines : List Line} {entries : List Entry} {p : Progress}
    (h : Reached lines entries p) (hnumbers : lines.Pairwise fun a b => a.number < b.number)
    (width : Nat) (name : String) :
    (p.hints.leave (p.outline.sections.takeWhile (width < ·.width)).length).find? name =
      lastHint entries name (·.OpenAt lines width) := by
  induction h generalizing width with
  | start => rfl
  | @step lines entries p line outline h hv ih =>
    obtain ⟨hnumbers, -, hlater⟩ := List.pairwise_append.1 hnumbers
    have hfresh : ∀ l ∈ lines, l.number < line.number := by
      intro l hl
      exact hlater l hl line (by simp)
    have hold : ∀ e ∈ entries, e.line ≠ line.number := by
      intro e he
      obtain ⟨l, hl, hnumber⟩ := h.line_mem e he
      rw [← hnumber]
      exact Nat.ne_of_lt (hfresh l hl)
    have hnew : ∀ e ∈ lineEntries (p.placed line).hints.find? line,
        e.OpenAt (lines ++ [line]) width ↔ line.columns ≤ width := by
      intro e he
      have hline := (cases_of_mem_lineEntries he).1
      apply openAt_concat_of_eq hline
      intro l hl
      rw [hline]
      exact Nat.ne_of_lt (hfresh l hl)
    rw [Progress.outline_after]
    by_cases hlt : width < line.columns
    · -- the line is closed again, and so are its entries
      rw [leave_after_of_lt h.aligned hv hlt, ih hnumbers, lastHint_append_of_not]
      · apply lastHint_congr
        intro e he
        rw [openAt_concat_of_ne (hold e he), Nat.min_eq_left (Nat.le_of_lt hlt)]
      · intro e he _ hopen
        exact absurd ((hnew e he).1 hopen) (Nat.not_le_of_lt hlt)
    · -- the line is still open, and it has closed what is deeper than itself
      have hle := Nat.le_of_not_lt hlt
      rw [takeWhile_of_widthOf_le ((widthOf_of_ok hv).trans_le hle)]
      refine (lastHint_lineEntries ?_ fun e he => (hnew e he).2 hle).symm
      rw [find?_placed hv, ih hnumbers]
      apply lastHint_congr
      intro e he
      rw [openAt_concat_of_ne (hold e he), Nat.min_eq_right hle]

/-- An entry was made on a line by the hints found there; what was reported later is on lines from
there on. -/
theorem Reached.split_of_mem {lines : List Line} {entries : List Entry} {p : Progress}
    (h : Reached lines entries p) {e : Entry} (he : e ∈ entries) :
    ∃ done line rest before later q o, lines = done ++ line :: rest ∧ entries = before ++ later ∧
      Reached done before q ∧ (q.outline.place line).verdict = .ok o ∧
      e ∈ lineEntries (q.placed line).hints.find? line ∧
      ∀ x ∈ later, ∃ l ∈ line :: rest, l.number = x.line := by
  induction h with
  | start => cases he
  | @step lines entries p last outline h hv ih =>
    rcases List.mem_append.1 he with he | he
    · obtain ⟨done, line, rest, before, later, q, o, rfl, rfl, hq, ho, he, hlater⟩ := ih he
      refine ⟨done, line, rest ++ [last], before, later ++ _, q, o, by simp,
        List.append_assoc .., hq, ho, he, ?_⟩
      intro x hx
      rcases List.mem_append.1 hx with hx | hx
      · obtain ⟨l, hl, hnumber⟩ := hlater x hx
        exact ⟨l, List.mem_append_left [last] hl, hnumber⟩
      · exact ⟨last, by simp, (cases_of_mem_lineEntries hx).1.symm⟩
    · refine ⟨lines, last, [], entries, _, p, outline, rfl, rfl, h, hv, he, ?_⟩
      intro x hx
      exact ⟨last, List.mem_cons_self, (cases_of_mem_lineEntries hx).1.symm⟩

/-- The hints found on a line are the ones that all entries of the walk make visible there. -/
theorem Reached.find?_placed_eq_visibleHint {done rest : List Line} {line : Line}
    {before later : List Entry} {q : Progress} {o : Outline} (h : Reached done before q)
    (hv : (q.outline.place line).verdict = .ok o)
    (hnumbers : (done ++ line :: rest).Pairwise fun a b => a.number < b.number)
    (hlater : ∀ x ∈ later, ∃ l ∈ line :: rest, l.number = x.line) :
    (q.placed line).hints.find? =
      visibleHint (done ++ line :: rest) (before ++ later) (done.length + 1) := by
  obtain ⟨hdone, -, hacross⟩ := List.pairwise_append.1 hnumbers
  funext name
  rw [find?_placed hv, h.find?_leave hdone, visibleHint, lastHint_append_of_not]
  · apply lastHint_congr
    intro e _
    exact (visibleOn_append_cons done line rest).symm
  · -- an entry on a later line is on no earlier one
    intro x hx _ hvisible
    obtain ⟨i, -, hon, -⟩ := (visibleOn_append_cons done line rest).1 hvisible
    obtain ⟨l, hl, hnumber⟩ := hon.exists_mem
    obtain ⟨l', hl', hnumber'⟩ := hlater x hx
    have := hacross l hl l' hl'
    omega

/-! ### Reports -/

/-- Every entry of a report obeys the law of scoping. -/
theorem run_obeys_scoping {a : Analyzer} {name source : String} {report : Report}
    (h : (a.run name source).1 = .ok report) :
    ∃ tokens, tokenize source = .ok tokens ∧
      ∀ e ∈ report.entries, e.ObeysScoping (Token.toLines tokens) report.entries := by
  obtain ⟨tokens, p, htokens, hreached⟩ := reached_of_run h
  refine ⟨tokens, htokens, ?_⟩
  intro e he
  have hnumbers : (Token.toLines tokens).Pairwise fun a b => a.number < b.number :=
    number_pairwise 1 tokens
  obtain ⟨done, line, rest, before, later, q, o, hlines, hentries, hq, ho, he, hlater⟩ :=
    hreached.split_of_mem he
  rw [hlines] at hnumbers ⊢
  rw [hentries]
  rw [hq.find?_placed_eq_visibleHint ho hnumbers hlater] at he
  obtain ⟨hline, hcases⟩ := cases_of_mem_lineEntries he
  refine ⟨done.length + 1, line, lineAt_append_cons done line rest, hline.symm, ?_⟩
  rcases hcases with ⟨hrole, hhint⟩ | ⟨hrole, target, value, hstatement, hname, hhint⟩
  · rw [hrole]
    exact hhint
  · rw [hrole]
    exact ⟨target, value, hstatement, hname, hhint⟩

/-- A script with a section that assigns a text to a variable which is a number outside of it. -/
def sectionScript : String :=
  "set \x7b_x\x7d to 1\non a:\n set \x7b_x\x7d to \"t\"\nset \x7b_x\x7d to \x7bg\x7d\nsend \x7b_x\x7d"

/-- The text is forgotten behind the section, and the assignment of an unknown value does not hide
the number. -/
theorem run_obeys_scoping_section :
    ∃ report, (({} : Analyzer).run "section" sectionScript).1 = .ok report ∧
      report.entries.map Entry.hint = [some .number, some .text, some .number, some .number] ∧
      ∃ tokens, tokenize sectionScript = .ok tokens ∧
        ∀ e ∈ report.entries, e.ObeysScoping (Token.toLines tokens) report.entries := by
  have hrun : (({} : Analyzer).run "section" sectionScript).1 = .ok
      ⟨"section", [⟨"_x", .assignment, some .number, 1, ⟨4, 8⟩⟩,
        ⟨"_x", .assignment, some .text, 3, ⟨25, 29⟩⟩,
        ⟨"_x", .assignment, some .number, 4, ⟨41, 45⟩⟩,
        ⟨"_x", .reference, some .number, 5, ⟨58, 62⟩⟩]⟩ := by cbv
  exact ⟨_, hrun, rfl, run_obeys_scoping hrun⟩

end ScriptHints
