import Mathlib
import ScriptHints.Proofs.Analysis.Displacement
import ScriptHints.Proofs.Analysis.Safety

/-!
# Text without meaning

Blanks and comments at the end of a line, and lines that hold nothing else, may be put into a script
anywhere: a run finds the same, further on. A carriage return before a line feed is a case of it.

* `Insertion`, `Insertion.Harmless` — text put into a script, and when it has no meaning.
* `Insertion.displacement`, `displacementOf` — how far things are moved by one or by several
  insertions.
* `Insertion.MovesOn` — the lines before the text stay, and those behind it move on.
* `Insertion.Harmless.moves`, `Edited.moves` — one such insertion, and any number of them, moves the
  lines of a script and does nothing else.
* `withReturns` — the script with a carriage return before every line feed.
* `SameFindings` — what a run finds, but for the bytes it is found at.
* `run_ignores_padding` — the outcome of a run over a script with such insertions is the outcome
  without them, moved.
-/

namespace ScriptHints

open Text

/-! ### Insertions -/

/-- Text that is put between two parts of a script. -/
structure Insertion where
  before : String
  text : String
  after : String

namespace Insertion

/-- The script without the text. -/
def source (i : Insertion) : String := i.before ++ i.after

/-- The script with the text. -/
def result (i : Insertion) : String := i.before ++ i.text ++ i.after

/-- The text has no meaning: it is padding at the end of a line, or a whole line of padding. -/
inductive Harmless (i : Insertion) : Prop
  | trailing (hpad : IsPadding i.text.toList)
      (hplace : i.after = "" ∨ ∃ more, i.after = "\n" ++ more)
  | line {pad : String} (hpad : IsPadding pad.toList) (htext : i.text = pad ++ "\n")
      (hplace : i.before = "" ∨ ∃ front, i.before = front ++ "\n")

/-- What begins behind the place of the text is moved by its bytes and its lines. -/
def displacement (i : Insertion) : Displacement where
  bytes o := if i.before.utf8ByteSize ≤ o then i.text.utf8ByteSize else 0
  lines o := if i.before.utf8ByteSize ≤ o then i.text.toList.count '\n' else 0

end Insertion

/-- `Edited source edits source'`: the insertions, made one after the other, lead from the first
script to the second, and none of them has a meaning. -/
def Edited : String → List Insertion → String → Prop
  | source, [], source' => source = source'
  | source, i :: edits, source' => source = i.source ∧ i.Harmless ∧ Edited i.result edits source'

/-- How far things are moved by insertions made one after the other. -/
def displacementOf : List Insertion → Displacement
  | [] => .uniform 0 0
  | i :: edits => i.displacement.followedBy (displacementOf edits)

/-! ### The lines of a script with an insertion -/

/-- `i.MovesOn lines lines'`: the lines before the place of the text stay as they are, and those
behind it move on. -/
def Insertion.MovesOn (i : Insertion) (lines lines' : List Line) : Prop :=
  ∃ xs ys, lines = xs ++ ys ∧
    lines' = xs ++ ys.map (Line.shift i.text.utf8ByteSize (i.text.toList.count '\n')) ∧
    (∀ l ∈ xs, l.last.stop ≤ i.before.utf8ByteSize) ∧
    ∀ l ∈ ys, i.before.utf8ByteSize ≤ l.first.offset

/-- A line of a script ends inside the script. -/
theorem last_stop_le_size {source : String} {tokens : List Token}
    (h : tokenize source = .ok tokens) {l : Line} (hl : l ∈ Token.toLines tokens) :
    l.last.stop ≤ source.utf8ByteSize := by
  obtain ⟨front, htokens⟩ := l.exists_tokens_eq
  rw [← size_toList]
  apply (tiling_of_tokenize h).stop_le_size
  apply mem_of_mem_line hl
  simp [htokens]

/-- Lines that are moved begin behind what they are moved by. -/
theorem le_offset_of_mem_map_shift {d n : Nat} {lines : List Line} {l : Line}
    (h : l ∈ lines.map (Line.shift d n)) : d ≤ l.first.offset := by
  obtain ⟨l, -, rfl⟩ := List.mem_map.1 h
  exact Nat.le_add_right _ _

/-- Shifting lines twice shifts them by the sums. -/
theorem map_shift_shift (d n d' n' : Nat) (lines : List Line) :
    (lines.map (Line.shift d n)).map (Line.shift d' n') =
      lines.map (Line.shift (d' + d) (n' + n)) := by
  rw [List.map_map]
  exact List.map_congr_left fun l _ => l.shift_shift d n d' n'

section

variable {i : Insertion} {tokens : List Token}

/-- Padding at the end of a line moves what is on further lines. -/
theorem movesOn_trailing (hpad : IsPadding i.text.toList)
    (hplace : i.after = "" ∨ ∃ more, i.after = "\n" ++ more) (h : tokenize i.source = .ok tokens) :
    ∃ tokens', tokenize i.result = .ok tokens' ∧
      i.MovesOn (Token.toLines tokens) (Token.toLines tokens') := by
  rcases i with ⟨before, pad, after⟩
  rcases hplace with rfl | ⟨more, rfl⟩
  · -- at the end of the script there are no further lines
    have hsource : Insertion.source ⟨before, pad, ""⟩ = before := String.append_empty
    have hresult : Insertion.result ⟨before, pad, ""⟩ = before ++ pad := String.append_empty
    rw [hsource] at h
    rw [hresult]
    refine ⟨tokens, tokenize_append_padding h hpad, Token.toLines tokens, [], by simp, by simp, ?_,
      nofun⟩
    intro l hl
    exact last_stop_le_size h hl
  · have hsource : Insertion.source ⟨before, pad, "\n" ++ more⟩ = before ++ "\n" ++ more :=
      (String.append_assoc ..).symm
    have hresult : Insertion.result ⟨before, pad, "\n" ++ more⟩ = before ++ pad ++ "\n" ++ more :=
      (String.append_assoc ..).symm
    rw [hsource] at h
    rw [hresult]
    obtain ⟨⟨ta, ha⟩, tb, hb⟩ := tokenize_of_append_newline h
    obtain ⟨tokens₁, htokens₁, hlines⟩ := toLines_append_newline ha hb
    obtain ⟨tokens', htokens', hlines'⟩ :=
      toLines_append_newline (tokenize_append_padding ha hpad) hb
    obtain rfl := Except.ok.inj (h.symm.trans htokens₁)
    refine ⟨tokens', htokens', _, _, hlines, ?_, ?_, ?_⟩
    · have hsize : (before ++ pad).utf8ByteSize + 1 =
          pad.utf8ByteSize + (before.utf8ByteSize + 1) := by
        rw [String.utf8ByteSize_append]
        omega
      have hcount : 1 + (before ++ pad).toList.count '\n' =
          pad.toList.count '\n' + (1 + before.toList.count '\n') := by
        rw [String.toList_append, List.count_append]
        omega
      rw [hlines', map_shift_shift, hsize, hcount]
    · intro l hl
      exact last_stop_le_size ha hl
    · intro l hl
      exact Nat.le_of_succ_le (le_offset_of_mem_map_shift hl)

/-- A line of padding in front of a script moves all lines of the script. -/
theorem toLines_padding_line {pad : String} (hpad : IsPadding pad.toList) {source : String}
    (h : tokenize source = .ok tokens) :
    ∃ tokens', tokenize (pad ++ "\n" ++ source) = .ok tokens' ∧
      Token.toLines tokens' = (Token.toLines tokens).map
        (Line.shift (pad ++ "\n").utf8ByteSize ((pad ++ "\n").toList.count '\n')) := by
  obtain ⟨tokens', htokens', hlines⟩ := toLines_append_newline (tokenize_padding hpad) h
  have hnil : Token.toLines [] = [] := linesFrom_nil 1
  have hsize : (pad ++ "\n").utf8ByteSize = pad.utf8ByteSize + 1 := String.utf8ByteSize_append
  have hcount : (pad ++ "\n").toList.count '\n' = 1 + pad.toList.count '\n' := by
    rw [String.toList_append, List.count_append, Nat.add_comm]
    rfl
  refine ⟨tokens', htokens', ?_⟩
  rw [hlines, hnil, List.nil_append, hsize, hcount]

/-- A whole line of padding moves the lines behind it. -/
theorem movesOn_line {pad : String} (hpad : IsPadding pad.toList) (htext : i.text = pad ++ "\n")
    (hplace : i.before = "" ∨ ∃ front, i.before = front ++ "\n")
    (h : tokenize i.source = .ok tokens) :
    ∃ tokens', tokenize i.result = .ok tokens' ∧
      i.MovesOn (Token.toLines tokens) (Token.toLines tokens') := by
  rcases i with ⟨before, text, after⟩
  obtain rfl : text = pad ++ "\n" := htext
  rcases hplace with rfl | ⟨front, rfl⟩
  · -- at the beginning of the script there are no lines before
    have hsource : Insertion.source ⟨"", pad ++ "\n", after⟩ = after := String.empty_append
    have hresult : Insertion.result ⟨"", pad ++ "\n", after⟩ = pad ++ "\n" ++ after := by
      rw [Insertion.result, String.empty_append]
    rw [hsource] at h
    rw [hresult]
    obtain ⟨tokens', htokens', hlines⟩ := toLines_padding_line hpad h
    exact ⟨tokens', htokens', [], Token.toLines tokens, rfl, hlines, nofun,
      fun l _ => Nat.zero_le _⟩
  · have hsource : Insertion.source ⟨front ++ "\n", pad ++ "\n", after⟩ = front ++ "\n" ++ after :=
      rfl
    have hresult : Insertion.result ⟨front ++ "\n", pad ++ "\n", after⟩ =
        front ++ "\n" ++ (pad ++ "\n" ++ after) := String.append_assoc ..
    rw [hsource] at h
    rw [hresult]
    obtain ⟨⟨ta, ha⟩, tb, hb⟩ := tokenize_of_append_newline h
    obtain ⟨tb', hb', hlinesb⟩ := toLines_padding_line hpad hb
    obtain ⟨tokens₁, htokens₁, hlines⟩ := toLines_append_newline ha hb
    obtain ⟨tokens', htokens', hlines'⟩ := toLines_append_newline ha hb'
    obtain rfl := Except.ok.inj (h.symm.trans htokens₁)
    have hsize : (front ++ "\n").utf8ByteSize = front.utf8ByteSize + 1 := String.utf8ByteSize_append
    refine ⟨tokens', htokens', _, _, hlines, ?_, ?_, ?_⟩
    · rw [hlines', hlinesb, map_shift_shift, map_shift_shift, Nat.add_comm (front.utf8ByteSize + 1),
        Nat.add_comm (1 + front.toList.count '\n')]
    · intro l hl
      exact (last_stop_le_size ha hl).trans (by rw [hsize]; exact Nat.le_succ _)
    · intro l hl
      rw [hsize]
      exact le_offset_of_mem_map_shift hl

/-- An insertion without meaning moves the lines of a script, and each of them as a whole. -/
theorem Insertion.Harmless.moves (hi : i.Harmless) (h : tokenize i.source = .ok tokens) :
    i.displacement.Moves i.source i.result := by
  have hmoves : ∃ tokens', tokenize i.result = .ok tokens' ∧
      i.MovesOn (Token.toLines tokens) (Token.toLines tokens') := by
    rcases hi with ⟨hpad, hplace⟩ | ⟨hpad, htext, hplace⟩
    · exact movesOn_trailing hpad hplace h
    · exact movesOn_line hpad htext hplace h
  obtain ⟨tokens', h', xs, ys, hlines, hlines', hbefore, hbehind⟩ := hmoves
  have hstays : ∀ l ∈ xs, ∀ o < l.last.stop,
      i.displacement.bytes o = 0 ∧ i.displacement.lines o = 0 := by
    intro l hl o ho
    have hlt : ¬i.before.utf8ByteSize ≤ o := Nat.not_le_of_lt (ho.trans_le (hbefore l hl))
    exact ⟨if_neg hlt, if_neg hlt⟩
  have hmoves : ∀ l ∈ ys, ∀ o, l.first.offset ≤ o →
      i.displacement.bytes o = i.text.utf8ByteSize ∧
        i.displacement.lines o = i.text.toList.count '\n' := by
    intro l hl o ho
    have hle := (hbehind l hl).trans ho
    exact ⟨if_pos hle, if_pos hle⟩
  have hfirst : ∀ l ∈ xs, l.first.offset < l.last.stop := by
    intro l hl
    have hmem : l ∈ Token.toLines tokens := by
      rw [hlines]
      exact List.mem_append_left _ hl
    exact (Nat.le_add_right _ _).trans_lt (start_lt_last_stop h hmem)
  refine ⟨tokens, tokens', h, h', ?_, ?_⟩
  · have hxs : xs.map i.displacement.line = xs := by
      rw [List.map_congr_left (g := id), List.map_id]
      intro l hl
      obtain ⟨hbytes, hnumber⟩ := hstays l hl _ (hfirst l hl)
      rw [Displacement.line, hbytes, hnumber, Line.shift_zero, id]
    have hys : ys.map i.displacement.line =
        ys.map (Line.shift i.text.utf8ByteSize (i.text.toList.count '\n')) := by
      apply List.map_congr_left
      intro l hl
      obtain ⟨hbytes, hnumber⟩ := hmoves l hl _ (Nat.le_refl _)
      rw [Displacement.line, hbytes, hnumber]
    rw [hlines', hlines, List.map_append, hxs, hys]
  · intro l hl
    apply Displacement.keeps_of_steady h hl
    intro o hle hlt
    rw [hlines] at hl
    rcases List.mem_append.1 hl with hl | hl
    · obtain ⟨hbytes, hnumber⟩ := hstays l hl o hlt
      obtain ⟨hbytes', hnumber'⟩ := hstays l hl _ (hfirst l hl)
      exact ⟨hbytes.trans hbytes'.symm, hnumber.trans hnumber'.symm⟩
    · obtain ⟨hbytes, hnumber⟩ := hmoves l hl o hle
      obtain ⟨hbytes', hnumber'⟩ := hmoves l hl _ (Nat.le_refl _)
      exact ⟨hbytes.trans hbytes'.symm, hnumber.trans hnumber'.symm⟩

end

/-! ### Any number of insertions -/

/-- Where nothing is moved, a script is moved to itself. -/
theorem moves_refl {source : String} {tokens : List Token} (h : tokenize source = .ok tokens) :
    (Displacement.uniform 0 0).Moves source source := by
  refine ⟨tokens, tokens, h, h, ?_, fun l _ => Displacement.keeps_uniform 0 0 l⟩
  rw [List.map_congr_left (g := id), List.map_id]
  intro l _
  exact l.shift_zero

/-- Insertions without meaning move the lines of a script and do nothing else. -/
theorem Edited.moves {edits : List Insertion} {source source' : String} {tokens : List Token}
    (h : Edited source edits source') (htokens : tokenize source = .ok tokens) :
    (displacementOf edits).Moves source source' := by
  induction edits generalizing source tokens with
  | nil =>
    obtain rfl : source = source' := h
    exact moves_refl htokens
  | cons i edits ih =>
    obtain ⟨rfl, hi, h⟩ := h
    obtain ⟨-, tokens', -, htokens', -⟩ := hi.moves htokens
    exact (hi.moves htokens).trans (ih h htokens')

/-! ### Carriage returns -/

/-- The script with a carriage return before every line feed. -/
def withReturns (source : String) : String :=
  String.ofList (source.toList.flatMap fun c => if c = '\n' then ['\r', '\n'] else [c])

/-- Carriage returns are put in one after the other. -/
theorem exists_edited_withReturns (front : String) (cs : List Char) :
    ∃ edits, Edited (front ++ String.ofList cs) edits (front ++ withReturns (String.ofList cs)) ∧
      ∀ i ∈ edits, i.text = "\r" := by
  induction cs generalizing front with
  | nil => exact ⟨[], rfl, nofun⟩
  | cons c cs ih =>
    by_cases hc : c = '\n'
    · subst hc
      obtain ⟨edits, hedited, htexts⟩ := ih (front ++ "\r\n")
      refine ⟨⟨front, "\r", "\n" ++ String.ofList cs⟩ :: edits, ⟨?_, ?_, ?_⟩, ?_⟩
      · rw [← String.toList_inj]
        simp [Insertion.source, String.toList_append]
      · exact .trailing ⟨['\r'], [], by simp, by simp, .inl rfl⟩ (.inr ⟨_, rfl⟩)
      · have hresult : Insertion.result ⟨front, "\r", "\n" ++ String.ofList cs⟩ =
            front ++ "\r\n" ++ String.ofList cs := by
          rw [← String.toList_inj]
          simp [Insertion.result, String.toList_append]
        have hreturns : front ++ withReturns (String.ofList ('\n' :: cs)) =
            front ++ "\r\n" ++ withReturns (String.ofList cs) := by
          rw [← String.toList_inj]
          simp [withReturns, String.toList_append]
        rw [hresult, hreturns]
        exact hedited
      · intro i hi
        rcases List.mem_cons.1 hi with rfl | hi
        · rfl
        · exact htexts i hi
    · obtain ⟨edits, hedited, htexts⟩ := ih (front ++ String.singleton c)
      refine ⟨edits, ?_, htexts⟩
      have hsource : front ++ String.ofList (c :: cs) =
          front ++ String.singleton c ++ String.ofList cs := by
        rw [← String.toList_inj]
        simp [String.toList_append]
      have hreturns : front ++ withReturns (String.ofList (c :: cs)) =
          front ++ String.singleton c ++ withReturns (String.ofList cs) := by
        rw [← String.toList_inj]
        simp [withReturns, String.toList_append, hc]
      rw [hsource, hreturns]
      exact hedited

/-- Insertions without a line feed move nothing to another line. -/
theorem lines_displacementOf {edits : List Insertion}
    (h : ∀ i ∈ edits, i.text.toList.count '\n' = 0) (o : Nat) :
    (displacementOf edits).lines o = 0 := by
  induction edits generalizing o with
  | nil => rfl
  | cons i edits ih =>
    have hlater := ih (fun j hj => h j (List.mem_cons_of_mem i hj)) (i.displacement.bytes o + o)
    have hfirst : i.displacement.lines o = 0 := by
      rw [Insertion.displacement, h i List.mem_cons_self]
      exact ite_self 0
    show (displacementOf edits).lines (i.displacement.bytes o + o) + i.displacement.lines o = 0
    rw [hlater, hfirst]

/-- A script with carriage returns is the script, moved within its lines. -/
theorem exists_moves_withReturns {source : String} {tokens : List Token}
    (h : tokenize source = .ok tokens) :
    ∃ D : Displacement, (∀ o, D.lines o = 0) ∧ D.Moves source (withReturns source) := by
  obtain ⟨edits, hedited, htexts⟩ := exists_edited_withReturns "" source.toList
  rw [String.empty_append, String.empty_append, String.ofList_toList] at hedited
  refine ⟨displacementOf edits, ?_, hedited.moves h⟩
  apply lines_displacementOf
  intro i hi
  rw [htexts i hi]
  decide

/-! ### The lines that are warned about -/

/-- The lines of a script that a diagnostic is about. -/
def Diagnostic.linesIn (d : Diagnostic) (source : String) : List (Option Nat) :=
  d.labels.map fun l => lineOfOffset source l.offset

section

variable {source source' : String} {tokens : List Token} (a : Analyzer) (name : String)

/-- The warning about a header is about the line of the header. -/
theorem linesIn_emptyWarning (h : tokenize source = .ok tokens) {l : Line}
    (hl : l ∈ Token.toLines tokens) :
    (emptyWarning l.span).linesIn source = [some l.number] := by
  have htiling := tiling_of_tokenize h
  rw [htiling.span_line hl]
  simp [Diagnostic.linesIn, emptyWarning, htiling.lineOfOffset_start hl]

/-- What a run finds, but for the bytes it is found at. -/
structure SameFindings (source source' : String) : Prop where
  /-- The variables, their hints and the lines they are on are the same. -/
  entries : ∀ report, (a.run name source).1 = .ok report →
    ∃ report', (a.run name source').1 = .ok report' ∧
      report'.entries.map (fun e => (e.name, e.role, e.hint, e.line)) =
        report.entries.map fun e => (e.name, e.role, e.hint, e.line)
  /-- A script that is refused is refused for the same cause. -/
  causes : ∀ e, (a.run name source).1 = .error (.layout e) →
    ∃ e', (a.run name source').1 = .error (.layout e') ∧ e'.cause = e.cause
  /-- The same lines are warned about. -/
  warned : (a.run name source').2.warnings.map (·.linesIn source') =
    (a.run name source).2.warnings.map (·.linesIn source)

/-- What is moved within its lines changes nothing but the bytes. -/
theorem Displacement.Moves.sameFindings {D : Displacement} (h : D.Moves source source')
    (hlines : ∀ o, D.lines o = 0) : SameFindings a name source source' where
  entries report hreport := by
    refine ⟨{ report with entries := report.entries.map D.entry }, ?_, ?_⟩
    · rw [h.run_eq, Displacement.outcome, hreport]
      rfl
    · rw [List.map_map]
      apply List.map_congr_left
      intro e _
      simp only [Function.comp_apply, Displacement.entry, Entry.shift, hlines, Nat.zero_add]
  causes e he := by
    refine ⟨D.layoutError e, ?_, rfl⟩
    rw [h.run_eq, Displacement.outcome, he]
    rfl
  warned := by
    rw [h.run_eq]
    obtain ⟨tokens, tokens', htokens, htokens', hmoved, hkeeps⟩ := h
    show ((a.run name source).2.warnings.map D.diagnostic).map _ = _
    rw [List.map_map]
    apply List.map_congr_left
    intro w hw
    obtain ⟨_, hread, l, hl, -, rfl⟩ := exists_header_of_warning a name hw
    obtain rfl := Except.ok.inj (hread.symm.trans htokens)
    have hl' : D.line l ∈ Token.toLines tokens' := by
      rw [hmoved]
      exact List.mem_map_of_mem hl
    have hnumber : (D.line l).number = l.number := by
      show D.lines l.first.offset + l.number = l.number
      rw [hlines, Nat.zero_add]
    rw [Function.comp_apply, Displacement.diagnostic_emptyWarning, ← (hkeeps l hl).span_line,
      linesIn_emptyWarning htokens' hl', linesIn_emptyWarning htokens hl, hnumber]

/-- Blanks and comments at the end of lines and lines of nothing else do not matter: what a run
gives is moved by the bytes and lines that were inserted before it, and nothing else changes. A
carriage return before every line feed moves nothing to another line. -/
theorem run_ignores_padding (h : tokenize source = .ok tokens) :
    (∀ edits source', Edited source edits source' →
        a.run name source' = (displacementOf edits).outcome (a.run name source)) ∧
      SameFindings a name source (withReturns source) := by
  constructor
  · intro edits source' hedited
    exact (hedited.moves h).run_eq a name
  · obtain ⟨D, hlines, hmoves⟩ := exists_moves_withReturns h
    exact hmoves.sameFindings a name hlines

end

/-- A script with a section and a header at its end. -/
def plainScript : String := "a:\n b \x7b_x\x7d\nc:"

/-- The script with a comment behind its first line and a line with nothing but a tab below it. -/
def paddedScript : String := "a: # d\n\t\n b \x7b_x\x7d\nc:"

/-- The variable is found one line and six bytes further on, and so is the header. -/
theorem run_ignores_padding_comment :
    ({} : Analyzer).run "padded" plainScript =
        (.ok ⟨"padded", [⟨"_x", .reference, none, 2, ⟨6, 10⟩⟩]⟩, ⟨{}, [emptyWarning ⟨11, 13⟩]⟩) ∧
      ({} : Analyzer).run "padded" paddedScript =
        (.ok ⟨"padded", [⟨"_x", .reference, none, 3, ⟨12, 16⟩⟩]⟩, ⟨{}, [emptyWarning ⟨17, 19⟩]⟩) ∧
      SameFindings {} "padded" plainScript (withReturns plainScript) := by
  have hrun : ({} : Analyzer).run "padded" plainScript =
      (.ok ⟨"padded", [⟨"_x", .reference, none, 2, ⟨6, 10⟩⟩]⟩,
        ⟨{}, [emptyWarning ⟨11, 13⟩]⟩) := by cbv
  obtain ⟨tokens, -, htokens, -⟩ := reached_of_run (congrArg Prod.fst hrun)
  obtain ⟨hpadded, hsame⟩ := run_ignores_padding {} "padded" htokens
  have hedited : Edited plainScript
      [⟨"a:", " # d", "\n b \x7b_x\x7d\nc:"⟩, ⟨"a: # d\n", "\t\n", " b \x7b_x\x7d\nc:"⟩]
      paddedScript := by
    have hcomment : IsPadding " # d".toList :=
      ⟨[' '], ['#', ' ', 'd'], by decide, by simp, .inr ⟨[' ', 'd'], rfl, by decide⟩⟩
    have htab : IsPadding "\t".toList := ⟨['\t'], [], by decide, by simp, .inl rfl⟩
    refine ⟨by decide, ?_, by decide, ?_, ?_⟩
    · exact .trailing hcomment (.inr ⟨" b \x7b_x\x7d\nc:", by decide⟩)
    · exact .line htab (by decide) (.inr ⟨"a: # d", by decide⟩)
    · show Insertion.result _ = paddedScript
      decide
  refine ⟨hrun, ?_, hsame⟩
  rw [hpadded _ _ hedited, hrun]
  cbv

end ScriptHints
