import Mathlib
import ScriptHints.Proofs.Outline.Acceptance

/-!
# How a run ends

A run ends in one of three ways: its script cannot be read, it comes to the end of the script, or it
stops at a line that the outline refuses. This file says so once, with the state that stays behind,
so that whatever is to be known of that state can be read off the state of the walk.

* `RefusedAt` — a line at which a run stops, found by the law for outlines alone.
* `Reached.refusedAt` — the line a walk stops at is that line.
* `Ended`, `ended_run` — the three ways, and that there are no others.
* `visitAll_run_eq_ok_iff` — the states a walk is in between two lines.
-/

namespace ScriptHints

/-- `RefusedAt lines k line e`: the `k`-th line is the first with which something is wrong, and `e`
says what, pointing at its indentation. -/
structure RefusedAt (lines : List Line) (k : Nat) (line : Line) (e : LayoutError) : Prop where
  line_eq : lineAt lines k = some line
  span_eq : e.span = line.indentSpan
  cause : causeAt lines k = some e.cause
  first : ∀ j < k, causeAt lines j = none

section

variable {done : List Line} {line : Line} {entries : List Entry} {p : Progress}

/-- The line a walk stops at is the first bad one. -/
theorem Reached.refusedAt (h : Reached done entries p) {e : LayoutError}
    (he : (p.outline.place line).verdict = .error e) (rest : List Line) :
    RefusedAt (done ++ line :: rest) (done.length + 1) line e := by
  obtain ⟨hrefused, hspan⟩ := refused_of_error he
  refine ⟨lineAt_append_cons done line rest, hspan, ?_, ?_⟩
  · exact causeAt_of_refused h.tracks hrefused rest
  · intro j hj
    exact h.causeAt_eq_none _ (Nat.le_of_lt_succ hj)

/-- The states a walk is in between two lines are those it reaches. -/
theorem visitAll_run_eq_ok_iff :
    (visitAll done).run {} = .ok entries p ↔ Reached done entries p := by
  refine ⟨?_, Reached.visitAll_run_eq_ok⟩
  intro h
  rcases reached_or_refused done with
    ⟨entries', p', hr⟩ | ⟨front, line, rest, entries', p', e, rfl, hr, he⟩
  · obtain ⟨rfl, rfl⟩ := EStateM.Result.ok.inj (hr.visitAll_run_eq_ok.symm.trans h)
    exact hr
  · -- a walk that stops on the way has no state behind the last line
    rw [hr.visitAll_run, visitAll, EStateM.run_bind, visit_run hr.aligned, he] at h
    cases h

end

/-- `Ended name source result a`: the ways a run over a script ends, with its result and what stays
behind. -/
inductive Ended (name source : String) : Except Failure Report → Analyzer → Prop
  /-- The script cannot be split into tokens. -/
  | unread {e : LexicalError} (htokens : tokenize source = .error e) :
      Ended name source (.error (.lexical e)) {}
  /-- All lines are read, and what is open is closed. -/
  | complete {tokens : List Token} {entries : List Entry} {p : Progress}
      (htokens : tokenize source = .ok tokens)
      (hreached : Reached (Token.toLines tokens) entries p) :
      Ended name source (.ok ⟨name, entries⟩)
        ⟨p.hints.leave p.outline.sections.length, p.warnings ++ warningsFor p.outline.pending⟩
  /-- A line is refused, and what has happened up to its refusal stays. -/
  | refused {tokens : List Token} {done rest : List Line} {line : Line} {entries : List Entry}
      {p : Progress} {e : LayoutError} (htokens : tokenize source = .ok tokens)
      (hlines : Token.toLines tokens = done ++ line :: rest) (hreached : Reached done entries p)
      (hverdict : (p.outline.place line).verdict = .error e) :
      Ended name source (.error (.layout e)) ⟨(p.placed line).hints, (p.placed line).warnings⟩

/-- Every run ends in one of these ways. -/
theorem ended_run (a : Analyzer) (name source : String) :
    Ended name source (a.run name source).1 (a.run name source).2 := by
  cases htokens : tokenize source with
  | error e =>
    rw [run_eq_of_tokenize_error a name htokens]
    exact .unread htokens
  | ok tokens =>
    rcases reached_or_refused (Token.toLines tokens) with
      ⟨entries, p, hr⟩ | ⟨done, line, rest, entries, p, e, hlines, hr, he⟩
    · rw [run_eq_of_reached a name htokens hr]
      exact .complete htokens hr
    · rw [run_eq_of_refused a name htokens hlines hr he]
      exact .refused htokens hlines hr he

end ScriptHints
