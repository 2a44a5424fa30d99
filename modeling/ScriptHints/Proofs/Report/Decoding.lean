import Mathlib
import ScriptHints.Proofs.Report.Reader
import ScriptHints.Proofs.Report.Writer

/-!
# Reports are read back from their JSON form

The document of a report is a form of it by the grammar of JSON, laid out on lines, and a reader for
any layout gets the report back from its bytes.

* `Entry.value`, `Report.value` — entries and reports as values.
* `isChar_escapeChar`, `isValue_string`, `isValue_number` — the writer keeps to the grammar.
* `laidOut` — items on lines of their own; `toList_entry`, `toList_intercalate_entries` and
  `toList_report` say that documents are laid out so.
* `isValue_report` — the document of a report is a form of the report.
* `Value.report?`, `Report.decode?` — reports out of values and out of bytes.
* `json_decodes_to_report` — what is written for a report, and that it is decoded to the report.
-/

namespace ScriptHints

open Json

/-! ### Reports as values -/

/-- A hint as a value. -/
def Json.hintValue : Option ValueType → Value
  | some type => .string type.name
  | none => .null

/-- An entry as a value. -/
def Entry.value (e : Entry) : Value :=
  .object [("variable", .string e.name), ("kind", .string e.role.name), ("hint", hintValue e.hint),
    ("line", .number e.line),
    ("span", .object [("start", .number e.span.start), ("end", .number e.span.stop)])]

/-- A report as a value. -/
def Report.value (r : Report) : Value :=
  .object [("source_name", .string r.script), ("entries", .array (r.entries.map Entry.value))]

namespace Json

/-! ### The writer follows the grammar -/

/-- The form in which a character is written is one of its forms. -/
theorem isChar_escapeChar (c : Char) : IsChar c (escapeChar c) := by
  unfold escapeChar
  split_ifs with hmark hslash hb hf hn hr ht hcontrol
  · subst hmark
    exact .short rfl
  · subst hslash
    exact .short rfl
  · subst hb
    exact .short rfl
  · subst hf
    exact .short rfl
  · subst hn
    exact .short rfl
  · subst hr
    exact .short rfl
  · subst ht
    exact .short rfl
  · have hcode : ∀ k < 0x20,
        hexValue? ['0', '0', Nat.digitChar (k / 16), Nat.digitChar (k % 16)] = some k := by decide
    exact .code rfl (hcode _ hcontrol)
  · exact .plain hmark hslash (Nat.le_of_not_lt hcontrol)

/-- Characters in a row, each in the form it is written in, are a string. -/
theorem isString_escaped (s : List Char) : IsString s (s.flatMap escapeChar) := by
  induction s with
  | nil => exact .nil
  | cons c s ih =>
    rw [List.flatMap_cons]
    exact .cons (isChar_escapeChar c) ih

/-- A string is written as a value. -/
theorem isValue_string (s : String) : IsValue (.string s) (Json.string s).toList := by
  have h := IsValue.string (isString_escaped s.toList)
  simpa [Json.string] using h

/-- Only zero is written with a zero in front. -/
theorem toDigits_of_zero {n : Nat} (h : (Nat.toDigits 10 n).head? = some '0') :
    Nat.toDigits 10 n = ['0'] := by
  induction n using Nat.strong_induction_on with
  | _ n ih =>
    by_cases hn : n < 10
    · rw [Nat.toDigits_of_lt_base hn] at h ⊢
      rw [Option.some.inj h]
    · rw [Nat.toDigits_of_base_le (by decide) (Nat.le_of_not_lt hn),
        List.head?_append_of_ne_nil _ Nat.toDigits_ne_nil] at h
      -- the digits before the last are those of a smaller number, which is not zero
      have hzero := ih (n / 10) (by omega) h
      have hvalue : Nat.ofDigitChars 10 (Nat.toDigits 10 (n / 10)) 0 = n / 10 :=
        Nat.ofDigitChars_ten_toDigits
      rw [hzero] at hvalue
      have hten : n / 10 = 0 := hvalue.symm
      omega

/-- A number is written in digits without needless zeros. -/
theorem isNatural_toString (n : Nat) : IsNatural n (toString n).toList := by
  rw [Nat.toString_eq_ofList_toDigits, String.toList_ofList]
  refine ⟨Nat.toDigits_ne_nil, ?_, toDigits_of_zero, Nat.ofDigitChars_ten_toDigits⟩
  intro d hd
  exact Nat.isDigit_of_mem_toDigits (by decide) (by decide) hd

/-- A number is written as a value. -/
theorem isValue_number (n : Nat) : IsValue (.number n) (toString n).toList :=
  .number (isNatural_toString n)

/-- A hint is written as a value, also where there is none. -/
theorem isValue_hint (hint : Option ValueType) :
    IsValue (hintValue hint) (Json.hint hint).toList := by
  cases hint with
  | none => exact .null
  | some type => exact isValue_string type.name

/-- The indentation of a line. -/
def indentation (depth : Nat) : List Char := List.replicate (2 * depth) ' '

/-- Items on lines of their own, one level deeper than the bracket behind them. -/
def laidOut (depth : Nat) (close : Char) : List (List Char) → List Char
  | [] => []
  | [text] => '\n' :: (indentation (depth + 1) ++ (text ++ '\n' :: (indentation depth ++ [close])))
  | text :: texts =>
    '\n' :: (indentation (depth + 1) ++ (text ++ ',' :: laidOut depth close texts))

/-- A member with the given key. -/
def memberText (key : String) (text : List Char) : List Char :=
  '"' :: (key.toList ++ '"' :: ':' :: ' ' :: text)

/-- The beginning of a line is white space. -/
theorem isSpace_of_mem_indentation (depth : Nat) :
    ∀ c ∈ '\n' :: indentation depth, isSpace c = true := by
  refine List.forall_mem_cons.2 ⟨rfl, fun c hc => ?_⟩
  rw [List.eq_of_mem_replicate hc]
  rfl

section

variable {α : Type} {element : α → List Char → Prop} {close : Char} {a : α} {as : List α}
  {texts : List (List Char)}

/-- Behind their first indentation, items on lines of their own are a sequence. -/
theorem exists_isSequence_laidOut (depth : Nat) (h : List.Forall₂ element (a :: as) texts) :
    ∃ cs, laidOut depth close texts = ('\n' :: indentation (depth + 1)) ++ cs ∧
      IsSequence element close (a :: as) cs := by
  induction as generalizing a texts with
  | nil =>
    obtain ⟨text, texts, ha, hnil, rfl⟩ := List.forall₂_cons_left_iff.1 h
    obtain rfl := List.forall₂_nil_left_iff.1 hnil
    exact ⟨_, rfl, .last ha (isSpace_of_mem_indentation depth)⟩
  | cons b as ih =>
    obtain ⟨text, texts, ha, hrest, rfl⟩ := List.forall₂_cons_left_iff.1 h
    obtain ⟨cs, hcs, hsequence⟩ := ih hrest
    obtain ⟨next, others, -, -, rfl⟩ := List.forall₂_cons_left_iff.1 hrest
    refine ⟨text ++ ([] ++ ',' :: (('\n' :: indentation (depth + 1)) ++ cs)), ?_, ?_⟩
    · rw [laidOut, hcs]
      · rfl
      · nofun
    · exact .more ha nofun (isSpace_of_mem_indentation (depth + 1)) hsequence

/-- Items on lines of their own, with the bracket behind them, are what stands behind an opening
bracket. -/
theorem isEnclosed_laidOut (depth : Nat) (h : List.Forall₂ element (a :: as) texts) :
    IsEnclosed element close (a :: as) (laidOut depth close texts) := by
  obtain ⟨cs, hcs, hsequence⟩ := exists_isSequence_laidOut depth h
  rw [hcs]
  exact .some (isSpace_of_mem_indentation (depth + 1)) hsequence

end

/-- A member whose key needs no escapes. -/
theorem isMember_memberText {key : String} {v : Value} {text : List Char}
    (hkey : key.toList.flatMap escapeChar = key.toList) (h : IsValue v text) :
    IsMember IsValue (key, v) (memberText key text) := by
  have hplain := isString_escaped key.toList
  rw [hkey] at hplain
  have hspace : ∀ c ∈ [' '], isSpace c = true := List.forall_mem_singleton.2 rfl
  exact .mk hplain (List.forall_mem_nil _) hspace h

/-- The text of an entry behind its indentation. -/
def entryText (e : Entry) : List Char :=
  '{' :: laidOut 2 '}'
    [memberText "variable" (Json.string e.name).toList,
      memberText "kind" (Json.string e.role.name).toList,
      memberText "hint" (Json.hint e.hint).toList,
      memberText "line" (toString e.line).toList,
      memberText "span" ('{' :: laidOut 3 '}'
        [memberText "start" (toString e.span.start).toList,
          memberText "end" (toString e.span.stop).toList])]

/-- An entry is written as an object behind its indentation. -/
theorem toList_entry (e : Entry) : (Json.entry e).toList = indentation 2 ++ entryText e := by
  unfold Json.entry entryText
  -- what is written into the layout does not matter here
  generalize Json.string e.name = name, Json.string e.role.name = kind, Json.hint e.hint = hint,
    toString e.line = line, toString e.span.start = start, toString e.span.stop = stop
  simp only [laidOut, memberText, indentation, List.reduceReplicate, Nat.reduceMul, Nat.reduceAdd,
    String.toList_append, String.reduceToList, List.cons_append, List.nil_append,
    List.append_assoc]

/-- The text of an entry is a form of its value. -/
theorem isValue_entry (e : Entry) : IsValue e.value (entryText e) := by
  refine .object (isEnclosed_laidOut 2 ?_)
  refine .cons (isMember_memberText (by decide) (isValue_string _)) ?_
  refine .cons (isMember_memberText (by decide) (isValue_string _)) ?_
  refine .cons (isMember_memberText (by decide) (isValue_hint _)) ?_
  refine .cons (isMember_memberText (by decide) (isValue_number _)) ?_
  refine .cons (isMember_memberText (by decide) (.object (isEnclosed_laidOut 3 ?_))) .nil
  refine .cons (isMember_memberText (by decide) (isValue_number _)) ?_
  exact .cons (isMember_memberText (by decide) (isValue_number _)) .nil

/-- Entries with commas between them are laid out. -/
theorem toList_intercalate_entries (e : Entry) (es : List Entry) :
    '\n' :: ((String.intercalate ",\n" ((e :: es).map Json.entry)).toList ++ "\n  ]".toList) =
      laidOut 1 ']' ((e :: es).map entryText) := by
  induction es generalizing e with
  | nil =>
    rw [List.map_singleton, String.intercalate_singleton, toList_entry, List.append_assoc]
    rfl
  | cons e' es ih =>
    have hlaid : laidOut 1 ']' ((e :: e' :: es).map entryText) = '\n' :: (indentation 2 ++
        (entryText e ++ ',' :: laidOut 1 ']' ((e' :: es).map entryText))) := rfl
    rw [hlaid, ← ih, List.map_cons, List.map_cons, String.intercalate_cons_cons,
      String.toList_append, String.toList_append, toList_entry]
    simp

/-- The text of the entries is a form of their array. -/
theorem isValue_entries (es : List Entry) :
    IsValue (.array (es.map Entry.value)) (Json.entries es).toList := by
  cases es with
  | nil => exact .array (.none (List.forall_mem_nil _))
  | cons e es =>
    have htext : (Json.entries (e :: es)).toList =
        '[' :: laidOut 1 ']' ((e :: es).map entryText) := by
      rw [← toList_intercalate_entries, Json.entries, String.toList_append, String.toList_append]
      · rfl
      · nofun
    rw [htext]
    refine .array (isEnclosed_laidOut 1 ?_)
    rw [← List.map_cons, List.forall₂_map_left_iff, List.forall₂_map_right_iff, List.forall₂_same]
    exact fun e _ => isValue_entry e

/-- A report is written as an object of two members. -/
theorem toList_report (r : Report) :
    (Json.report r).toList = '{' :: laidOut 0 '}'
      [memberText "source_name" (Json.string r.script).toList,
        memberText "entries" (Json.entries r.entries).toList] := by
  unfold Json.report
  generalize Json.string r.script = name, Json.entries r.entries = entries
  simp only [laidOut, memberText, indentation, List.reduceReplicate, Nat.reduceMul, Nat.reduceAdd,
    String.toList_append, String.reduceToList, List.cons_append, List.nil_append,
    List.append_assoc]

/-- The document of a report is a form of the report. -/
theorem isValue_report (r : Report) : IsValue r.value (Json.report r).toList := by
  rw [toList_report]
  refine .object (isEnclosed_laidOut 0 ?_)
  refine .cons (isMember_memberText (by decide) (isValue_string _)) ?_
  exact .cons (isMember_memberText (by decide) (isValue_entries _)) .nil

/-! ### Reports out of values -/

/-- The member of an object with the given key. -/
def Value.member? (key : String) : Value → Option Value
  | .object members => members.lookup key
  | _ => none

/-- The text in a value. -/
def Value.text? : Value → Option String
  | .string s => some s
  | _ => none

/-- The number in a value. -/
def Value.natural? : Value → Option Nat
  | .number n => some n
  | _ => none

/-- The items of an array. -/
def Value.items? : Value → Option (List Value)
  | .array items => some items
  | _ => none

/-- The hint in a value. -/
def Value.hint? : Value → Option (Option ValueType)
  | .null => some none
  | v => v.text?.bind fun name => (ValueType.ofName? name).map some

/-- The role with a given name in reports. -/
def roleOfName? (name : String) : Option Role :=
  [Role.assignment, Role.reference].find? (·.name == name)

/-- The entry in a value. -/
def Value.entry? (v : Value) : Option Entry := do
  let name ← (← v.member? "variable").text?
  let role ← roleOfName? (← (← v.member? "kind").text?)
  let hint ← (← v.member? "hint").hint?
  let line ← (← v.member? "line").natural?
  let span ← v.member? "span"
  let start ← (← span.member? "start").natural?
  let stop ← (← span.member? "end").natural?
  return ⟨name, role, hint, line, start, stop⟩

/-- The report in a value. -/
def Value.report? (v : Value) : Option Report := do
  let script ← (← v.member? "source_name").text?
  let entries ← (← (← v.member? "entries").items?).mapM Value.entry?
  return ⟨script, entries⟩

/-- An entry can be taken out of its value again. -/
theorem entry?_value (e : Entry) : e.value.entry? = some e := by
  have hrole : roleOfName? e.role.name = some e.role := by cases e.role <;> rfl
  have hhint : (hintValue e.hint).hint? = some e.hint := by
    cases e.hint with
    | none => rfl
    | some type => cases type <;> rfl
  show ((roleOfName? e.role.name).bind fun role => (hintValue e.hint).hint?.bind fun hint =>
    some (Entry.mk e.name role hint e.line e.span)) = some e
  rw [hrole, hhint]
  rfl

/-- A report can be taken out of its value again. -/
theorem report?_value (r : Report) : r.value.report? = some r := by
  have hentries : (r.entries.map Entry.value).mapM Value.entry? = some r.entries := by
    induction r.entries with
    | nil => rfl
    | cons e es ih => simp [entry?_value, ih]
  show ((r.entries.map Entry.value).mapM Value.entry?).bind
    (fun entries => some (Report.mk r.script entries)) = _
  rw [hentries]
  rfl

end Json

/-! ### Bytes -/

/-- A text is read back from its bytes. -/
theorem fromUTF8?_utf8 (s : String) : String.fromUTF8? (Text.utf8 s).toByteArray = some s := by
  have hbytes : (Text.utf8 s).toByteArray = s.toByteArray := by
    rw [Text.utf8, ← List.utf8Encode, String.utf8Encode_toList]
  rw [hbytes, String.fromUTF8?, dif_pos s.isValidUTF8]
  rfl

/-- Reads a report from bytes that hold a document, perhaps with white space around it. -/
def Report.decode? (bytes : List UInt8) : Option Report := do
  let text ← String.fromUTF8? bytes.toByteArray
  let (v, rest) ← readValue text.toList.length (skip text.toList)
  if skip rest = [] then v.report? else none

/-- A document is decoded to the report it is about. -/
theorem Report.decode?_of_isValue {r : Report} {document : String}
    (h : IsValue r.value document.toList) :
    Report.decode? (Text.utf8 (document ++ "\n")) = some r := by
  have htext : (document ++ "\n").toList = document.toList ++ ['\n'] := by
    rw [String.toList_append]
    rfl
  have hskip : skip (document.toList ++ ['\n']) = document.toList ++ ['\n'] := by
    obtain ⟨c, cs, hcs, hc, -⟩ := h.exists_head
    rw [hcs, List.cons_append]
    exact skip_space (List.forall_mem_nil _) hc _
  have hstops : Stops ['\n'] := by
    rintro d ⟨⟩
    rfl
  have hread : readValue (document.toList ++ ['\n']).length (document.toList ++ ['\n']) =
      some (r.value, ['\n']) :=
    readValue_of_isValue h (by simp) hstops
  rw [Report.decode?, fromUTF8?_utf8]
  simp only [Option.bind_eq_bind, Option.bind_some, htext, hskip, hread]
  exact report?_value r

/-- The bytes of a report in its JSON form. -/
def Report.written (r : Report) : List UInt8 :=
  ((r.writeJson Sink.write).run.run { room := none, reason := "" }).2.contents

/-- What is written of a report is its document and a line feed. -/
theorem Report.written_eq (r : Report) : r.written = Text.utf8 (Json.report r ++ "\n") := by
  rw [Report.written, Report.writeJson_sink]
  show [] ++ Text.utf8 r.json = _
  rw [List.nil_append, Report.json]

/-- What is written for a report. -/
structure Report.WrittenAs (r : Report) (bytes : List UInt8) (document : String) : Prop where
  /-- The document and one line feed are all that is written, -/
  bytes_eq : bytes = Text.utf8 (document ++ "\n")
  /-- the document is a form of the report, -/
  isValue : IsValue r.value document.toList
  /-- and nothing below the space is in its strings. -/
  control : ∀ c ∈ insideStrings .outside document.toList, 0x20 ≤ c.toNat

/-- Writing a report in its JSON form succeeds where there is room, what is written is one document
and a line feed, and it is decoded to the report itself. So no two reports are written alike. -/
theorem json_decodes_to_report :
    (∀ r : Report,
      ((r.writeJson Sink.write).run.run { room := none, reason := "" }).1 = .ok () ∧
        (∃ document, r.WrittenAs r.written document) ∧ Report.decode? r.written = some r) ∧
      Function.Injective Report.written := by
  have hdecode : ∀ r : Report, Report.decode? r.written = some r := by
    intro r
    rw [r.written_eq]
    exact Report.decode?_of_isValue (isValue_report r)
  refine ⟨fun r => ⟨?_, ⟨Json.report r, r.written_eq, isValue_report r, ?_⟩, hdecode r⟩, ?_⟩
  · rw [Report.writeJson_sink]
  · exact ((isValue_report r).tidy (Nat.le_refl _)).control
  · intro r r' heq
    have hsame := hdecode r
    rw [heq, hdecode r'] at hsame
    exact (Option.some.inj hsame).symm

/-- Another layout, another order of the members and other escapes make no difference. -/
example : ((readValue 40 "\x7b\"entries\" :[ ],\"source_name\":\"\\u0061\\/\"\x7d".toList).bind
    (·.1.report?)) = some ⟨"a/", []⟩ := by
  decide

end ScriptHints
