import Mathlib
import ScriptHints.Proofs.Analysis.Coverage
import ScriptHints.Proofs.Analysis.Safety
import ScriptHints.Proofs.Line.Reindentation
import ScriptHints.Proofs.Report.Decoding

/-!
# Listings are read back

Nothing in a listing is escaped, and the name of a variable may look like the rest of a line, arrow
and hint included. Still a listing can be read in one way only: a line begins with a number and ends
in one of a few ways, and all that is left between the two is the name. That the lines are found at
all rests on the scripts: no name that a run reports has a line feed in it.

* `Listing.ending`, `Listing.eq_of_ending_suffix` — how lines end; no ending is the end of another.
* `Listing.readLine?`, `Listing.read?` — reading a line and a whole listing.
* `Listing.readLine?_lineText` — the line of an entry tells what the entry tells, for any name.
* `Report.OnLines`, `onLines_of_run` — nothing that a run lists has a line feed in it.
* `Report.ListedByLine` — one line for the script and one for each entry.
* `run_listing_unambiguous` — the listing of a run is read back, so no two runs that tell different
  things are listed alike.
-/

namespace ScriptHints

open Json Text

namespace Listing

/-! ### The end of a line -/

/-- A hint in words. -/
def hintWords : Option ValueType → String
  | some type => type.name
  | none => "<no hint>"

/-- What stands behind the name on the line of an entry of the given role and hint. -/
def ending (what : Role × Option ValueType) : List Char :=
  '}' :: ' ' :: (what.1.arrow.toList ++ ' ' :: (hintWords what.2).toList)

/-- All roles with all hints. -/
def kinds : List (Role × Option ValueType) :=
  [.assignment, .reference] ×ˢ [none, some .object, some .boolean, some .number, some .text]

/-- No role and no hint is missing. -/
theorem mem_kinds (what : Role × Option ValueType) : what ∈ kinds := by
  rcases what with ⟨_ | _, _ | _ | _ | _ | _⟩ <;> decide

/-- No ending is the end of another one. -/
theorem eq_of_ending_suffix {what other : Role × Option ValueType}
    (h : ending what <:+ ending other) : what = other := by
  have hall : ∀ what ∈ kinds, ∀ other ∈ kinds, ending what <:+ ending other → what = other := by
    decide
  exact hall what (mem_kinds what) other (mem_kinds other) h

/-- A text ends in one way only, so what stands before the ending is told as well. -/
theorem ending_unique {name name' : List Char} {what what' : Role × Option ValueType}
    (h : name ++ ending what = name' ++ ending what') : name = name' ∧ what = what' := by
  have hsuffix : ending what <:+ name' ++ ending what' := ⟨name, h⟩
  have hwhat : what = what' := by
    rcases List.suffix_or_suffix_of_suffix hsuffix (List.suffix_append _ _) with hle | hle
    · exact eq_of_ending_suffix hle
    · exact (eq_of_ending_suffix hle).symm
  subst hwhat
  exact ⟨List.append_cancel_right h, rfl⟩

/-- The end of a line is on that line. -/
theorem newline_notMem_ending (what : Role × Option ValueType) : '\n' ∉ ending what := by
  have hall : ∀ what ∈ kinds, '\n' ∉ ending what := by decide
  exact hall what (mem_kinds what)

/-! ### Reading -/

/-- Cuts the ending off a line: what it says, and the text before it. -/
def cutEnding? (cs : List Char) : Option ((Role × Option ValueType) × List Char) :=
  kinds.findSome? fun what => ((ending what).isSuffixOf? cs).map (what, ·)

/-- What a line of a listing tells. -/
def readLine? (cs : List Char) : Option (String × Role × Option ValueType × Nat) := do
  let (number, rest) ← readNatural (skip cs)
  let rest ← [':', ' ', '{'].isPrefixOf? rest
  let ((role, hint), name) ← cutEnding? rest
  return (String.ofList name, role, hint, number)

/-- The name of the script and what the lines behind it tell, from the bytes of a listing. -/
def read? (bytes : List UInt8) :
    Option (String × List (String × Role × Option ValueType × Nat)) := do
  let text ← String.fromUTF8? bytes.toByteArray
  match physicalLines text with
  | [] => none
  | first :: lines =>
    let script ← [':'].isSuffixOf? first
    let told ← lines.dropLast.mapM readLine?
    return (String.ofList script, told)

/-- An ending that was put behind a name is cut off again, whatever the name is. -/
theorem cutEnding?_append (name : List Char) (what : Role × Option ValueType) :
    cutEnding? (name ++ ending what) = some (what, name) := by
  -- some ending is found, the right one at the latest; and there is no other one
  have hfound : (cutEnding? (name ++ ending what)).isSome := by
    rw [cutEnding?, List.findSome?_isSome_iff]
    refine ⟨what, mem_kinds what, ?_⟩
    rw [List.isSuffixOf?_eq_some_iff_append_eq.2 rfl]
    rfl
  obtain ⟨⟨what', name'⟩, hcut⟩ := Option.isSome_iff_exists.1 hfound
  obtain ⟨other, -, hother⟩ := List.exists_of_findSome?_eq_some hcut
  obtain ⟨before, hbefore, heq⟩ := Option.map_eq_some_iff.1 hother
  obtain ⟨rfl, rfl⟩ := Prod.mk.inj heq
  obtain ⟨rfl, rfl⟩ := ending_unique (List.append_eq_of_isSuffixOf?_eq_some hbefore)
  exact hcut

/-! ### The line of an entry -/

/-- The line of an entry without its line feed. -/
def lineText (e : Entry) : List Char :=
  '\t' :: (List.replicate (4 - (toString e.line).length) ' ' ++ ((toString e.line).toList ++
    ':' :: ' ' :: '{' :: (e.name.toList ++ ending (e.role, e.hint))))

/-- The line of an entry ends with a line feed. -/
theorem toList_listingLine (e : Entry) : e.listingLine.toList = lineText e ++ ['\n'] := by
  have hhint : e.hintText = hintWords e.hint := rfl
  rw [Entry.listingLine, hhint, lineText, ending, padNumber, braced]
  simp only [String.toList_append, String.toList_ofList, String.reduceToList, List.cons_append,
    List.nil_append, List.append_assoc]

/-- Where the name has no line feed, the line of an entry has none before its end. -/
theorem newline_notMem_lineText {e : Entry} (h : '\n' ∉ e.name.toList) : '\n' ∉ lineText e := by
  have hdigits : '\n' ∉ (toString e.line).toList := by
    intro hmem
    exact absurd ((isNatural_toString e.line).isDigit _ hmem) (by decide)
  have hending := newline_notMem_ending (e.role, e.hint)
  unfold lineText
  generalize toString e.line = digits at hdigits ⊢
  simp [h, hdigits, hending]

/-- Behind the blanks in front of it, a line begins with its number. -/
theorem skip_lineText (e : Entry) :
    skip (lineText e) = (toString e.line).toList ++
      ':' :: ' ' :: '{' :: (e.name.toList ++ ending (e.role, e.hint)) := by
  have hnatural := isNatural_toString e.line
  obtain ⟨d, digits, hdigits⟩ := List.exists_cons_of_ne_nil hnatural.ne_nil
  have hd : isSpace d = false := by
    by_contra hspace
    have hdigit := hnatural.isDigit d (hdigits ▸ List.mem_cons_self)
    rw [isDigit_of_isSpace (by simpa using hspace)] at hdigit
    cases hdigit
  have hblanks : ∀ c ∈ '\t' :: List.replicate (4 - (toString e.line).length) ' ',
      isSpace c = true := by
    refine List.forall_mem_cons.2 ⟨rfl, fun c hc => ?_⟩
    rw [List.eq_of_mem_replicate hc]
    rfl
  rw [lineText, hdigits]
  exact skip_space hblanks hd _

/-- The line of an entry tells what the entry tells, whatever the variable is called. -/
theorem readLine?_lineText (e : Entry) : readLine? (lineText e) = some e.told := by
  have hstops : Stops (':' :: ' ' :: '{' :: (e.name.toList ++ ending (e.role, e.hint))) := by
    rintro d ⟨⟩
    rfl
  have hprefix : [':', ' ', '{'].isPrefixOf?
      (':' :: ' ' :: '{' :: (e.name.toList ++ ending (e.role, e.hint))) =
        some (e.name.toList ++ ending (e.role, e.hint)) :=
    List.isPrefixOf?_eq_some_iff_append_eq.2 rfl
  rw [readLine?, skip_lineText, readNatural_of_isNatural (isNatural_toString e.line) hstops]
  simp only [Option.bind_eq_bind, Option.bind_some, hprefix, cutEnding?_append,
    String.ofList_toList]
  rfl

end Listing

/-! ### The lines of a listing -/

/-- Lines that are each ended by a line feed are found again. -/
theorem splitOn_ended {lines : List (List Char)} (h : ∀ line ∈ lines, '\n' ∉ line) :
    (lines.flatMap (· ++ ['\n'])).splitOn '\n' = lines ++ [[]] := by
  induction lines with
  | nil => rfl
  | cons line lines ih =>
    obtain ⟨hline, hlines⟩ := List.forall_mem_cons.1 h
    rw [List.flatMap_cons, List.append_assoc, List.singleton_append,
      List.splitOn_append_cons_self_of_not_mem hline, ih hlines, List.cons_append]

/-- Nothing that is listed of the report has a line feed in it. -/
structure Report.OnLines (r : Report) : Prop where
  script : '\n' ∉ r.script.toList
  names : ∀ e ∈ r.entries, '\n' ∉ e.name.toList

/-- The listing of the report is a line with the name of the script, then a line for each entry
which tells what the entry tells. Behind the last line feed there is nothing. -/
def Report.ListedByLine (r : Report) : Prop :=
  ∃ lines, physicalLines r.listing = (r.script.toList ++ [':']) :: (lines ++ [[]]) ∧
    List.Forall₂ (fun e line => Listing.readLine? line = some e.told) r.entries lines

/-- The bytes of the listing of a report. -/
def Report.listed (r : Report) : List UInt8 :=
  ((r.writeListing Sink.write).run.run { room := none, reason := "" }).2.contents

/-- What is written of a report as a listing is the listing. -/
theorem Report.listed_eq (r : Report) : r.listed = utf8 r.listing := by
  rw [listed, writeListing_eq, Sink.write_unlimited, List.nil_append]

/-- A listing is made of the name of the script and the entries, each with a line feed behind it. -/
theorem Report.toList_listing (r : Report) :
    r.listing.toList =
      ((r.script.toList ++ [':']) :: r.entries.map Listing.lineText).flatMap (· ++ ['\n']) := by
  have hfirst : (r.script ++ ":\n").toList = (r.script.toList ++ [':']) ++ ['\n'] := by
    simp
  rw [listing, listingLines, String.toList_join]
  simp only [List.flatMap_cons, List.flatMap_map, hfirst, Listing.toList_listingLine]

namespace Report.OnLines

variable {r : Report} (h : r.OnLines)

include h

/-- Where nothing that is listed has a line feed in it, the lines of a listing are those of its
entries. -/
theorem physicalLines_listing :
    physicalLines r.listing =
      (r.script.toList ++ [':']) :: (r.entries.map Listing.lineText ++ [[]]) := by
  rw [physicalLines, r.toList_listing, splitOn_ended, List.cons_append]
  refine List.forall_mem_cons.2 ⟨by simp [h.script], List.forall_mem_map.2 fun e he => ?_⟩
  exact Listing.newline_notMem_lineText (h.names e he)

/-- Such a listing tells of every entry on a line of its own. -/
theorem listedByLine : r.ListedByLine := by
  refine ⟨_, h.physicalLines_listing, ?_⟩
  rw [List.forall₂_map_right_iff, List.forall₂_same]
  exact fun e _ => Listing.readLine?_lineText e

/-- A report is read back from its listing, but for the bytes its entries are at. -/
theorem read?_listed : Listing.read? r.listed = some (r.script, r.entries.map Entry.told) := by
  have hlines : (r.entries.map Listing.lineText).mapM Listing.readLine? =
      some (r.entries.map Entry.told) := by
    have htold : Listing.readLine? ∘ Listing.lineText = fun e => some e.told :=
      funext Listing.readLine?_lineText
    rw [List.mapM_map, htold]
    exact List.mapM_pure
  have hscript : [':'].isSuffixOf? (r.script.toList ++ [':']) = some r.script.toList :=
    List.isSuffixOf?_eq_some_iff_append_eq.2 rfl
  rw [Listing.read?, r.listed_eq, fromUTF8?_utf8]
  simp only [Option.bind_eq_bind, Option.bind_some, h.physicalLines_listing, hscript,
    List.dropLast_concat, hlines, String.ofList_toList]
  rfl

end Report.OnLines

/-! ### Runs -/

/-- The report of a run carries the name that the run was given. -/
theorem script_of_run {a : Analyzer} {name source : String} {r : Report}
    (h : (a.run name source).1 = .ok r) : r.script = name := by
  unfold Analyzer.run at h
  split at h <;> cases h
  rfl

/-- A variable is written on one line, so there is no line feed in the names that a run reports. -/
theorem onLines_of_run {a : Analyzer} {name source : String} {r : Report}
    (h : (a.run name source).1 = .ok r) (hname : '\n' ∉ name.toList) : r.OnLines := by
  refine ⟨by rwa [script_of_run h], fun e he => ?_⟩
  obtain ⟨tokens, p, htokens, hreached⟩ := reached_of_run h
  have htiling := tiling_of_tokenize htokens
  obtain ⟨env, hentries⟩ := hreached.entries_eq_flatMap (number_pairwise 1 tokens)
  rw [hentries] at he
  obtain ⟨l, hl, -, u, hu, -, hu', -⟩ := use_of_mem_entriesOf env htiling he
  obtain ⟨t, ht, hu⟩ := List.mem_flatMap.1 hu
  rw [hu', Use.name, String.toList_ofList]
  exact (htiling.wellFormed_line hl t ht).inLine_inner hu

/-- The listing of a run has one line for each entry, and it is read back. So two runs with the same
listing are about scripts of the same name, and tell the same but for the bytes. -/
theorem run_listing_unambiguous {a a' : Analyzer} {name name' source source' : String}
    {r r' : Report} (h : (a.run name source).1 = .ok r) (h' : (a'.run name' source').1 = .ok r')
    (hname : '\n' ∉ name.toList) (hname' : '\n' ∉ name'.toList) :
    (r.listed = utf8 r.listing ∧ r.ListedByLine ∧
      Listing.read? r.listed = some (r.script, r.entries.map Entry.told)) ∧
    (r.listed = r'.listed →
      r.script = r'.script ∧ r.entries.map Entry.told = r'.entries.map Entry.told) := by
  have hlines := onLines_of_run h hname
  have hlines' := onLines_of_run h' hname'
  refine ⟨⟨r.listed_eq, hlines.listedByLine, hlines.read?_listed⟩, fun hsame => ?_⟩
  have hread := hlines.read?_listed
  rw [hsame, hlines'.read?_listed] at hread
  obtain ⟨hscript, htold⟩ := Prod.mk.inj (Option.some.inj hread)
  exact ⟨hscript.symm, htold.symm⟩

/-- A script that reads a variable whose name looks like the end of a line, behind a given word. -/
def disguisedScript (word : String) : String := word ++ " \x7b_a\x7b\x7d -> text\x7d"

/-- Runs over two scripts that differ in a word are listed alike, and tell the same of a variable at
different bytes. -/
theorem run_listing_unambiguous_disguised :
    ∃ r r' : Report, (({} : Analyzer).run "a:" (disguisedScript "show")).1 = .ok r ∧
      (({} : Analyzer).run "a:" (disguisedScript "hide it")).1 = .ok r' ∧
      r.listing = "a::\n\t   1: \x7b_a\x7b\x7d -> text\x7d -> <no hint>\n" ∧ r ≠ r' ∧
      r.listed = r'.listed ∧ r.entries.map Entry.told = r'.entries.map Entry.told := by
  have hshow : (({} : Analyzer).run "a:" (disguisedScript "show")).1 = .ok
      ⟨"a:", [⟨"_a\x7b\x7d -> text", .reference, none, 1, ⟨5, 19⟩⟩]⟩ := by cbv
  have hhide : (({} : Analyzer).run "a:" (disguisedScript "hide it")).1 = .ok
      ⟨"a:", [⟨"_a\x7b\x7d -> text", .reference, none, 1, ⟨8, 22⟩⟩]⟩ := by cbv
  have hname : '\n' ∉ "a:".toList := by decide
  refine ⟨_, _, hshow, hhide, by cbv, by decide, rfl, ?_⟩
  exact ((run_listing_unambiguous hshow hhide hname hname).2 rfl).2

end ScriptHints
