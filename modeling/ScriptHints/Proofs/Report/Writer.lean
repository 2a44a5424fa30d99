import ScriptHints.Report.Json
import ScriptHints.Report.Listing

/-!
# Reports in a sink that runs full

A report is written in pieces, and a sink may run full between any two of their bytes. What a sink
holds in the end, and what it answers, nevertheless depends on the whole text alone: it takes the
beginning for which there is room, and refuses if that is not all of it. So the failure of writing a
report is told by a comparison of two numbers, and for the JSON form a single byte decides between
two failures.

* `run_bind_of_ok`, `run_adapt_of_ok`, … — steps that may fail, by what they give.
* `Sink.write_of_le`, `Sink.write_of_lt` — a text that fits a sink and one that does not.
* `Sink.write_append`, `Sink.writeAll_eq` — it makes no difference how a text is cut into pieces.
* `Report.JsonWithin`, `Report.ListingWithin` — how writing a report ends where there is room for a
  given number of bytes.
* `reports_within_room` — that it ends so, in whatever pieces the report is written.
-/

namespace ScriptHints

open Text

/-! ### Steps that may fail -/

section

variable {σ ε ε' α β : Type} {x : ExceptT ε (StateM σ) α} {f : α → ExceptT ε (StateM σ) β}
  {s s' : σ}

/-- Behind a step that succeeds, the next one goes on. -/
theorem run_bind_of_ok {a : α} (h : x.run.run s = (.ok a, s')) :
    (x >>= f).run.run s = (f a).run.run s' := by
  rw [ExceptT.run_bind, StateT.run_bind, h]
  rfl

/-- Behind a step that fails, nothing is done. -/
theorem run_bind_of_error {e : ε} (h : x.run.run s = (.error e, s')) :
    (x >>= f).run.run s = (.error e, s') := by
  rw [ExceptT.run_bind, StateT.run_bind, h]
  rfl

/-- A step that succeeds does so however failures are told. -/
theorem run_adapt_of_ok {g : ε → ε'} {a : α} (h : x.run.run s = (.ok a, s')) :
    (ExceptT.adapt g x).run.run s = (.ok a, s') := by
  rw [ExceptT.run_adapt, StateT.run_map, h]
  rfl

/-- A failure may be told in another way; the state stays. -/
theorem run_adapt_of_error {g : ε → ε'} {e : ε} (h : x.run.run s = (.error e, s')) :
    (ExceptT.adapt g x).run.run s = (.error (g e), s') := by
  rw [ExceptT.run_adapt, StateT.run_map, h]
  rfl

/-- A step that cannot fail is done, and the next one goes on. -/
theorem run_bind_lift {y : StateM σ α} {a : α} (h : y.run s = (a, s')) :
    ((liftM y : ExceptT ε (StateM σ) α) >>= f).run.run s = (f a).run.run s' := by
  apply run_bind_of_ok
  rw [ExceptT.run_liftM, StateT.run_map, h]
  rfl

end

/-! ### Sinks -/

/-- The bytes of two texts in a row. -/
theorem Text.utf8_append (a b : String) : utf8 (a ++ b) = utf8 a ++ utf8 b := by
  rw [utf8, String.toList_append, List.flatMap_append]
  rfl

/-- The bytes of any number of texts in a row. -/
theorem Text.utf8_join (texts : List String) : utf8 (String.join texts) = texts.flatMap utf8 := by
  induction texts with
  | nil => rfl
  | cons text texts ih => rw [String.join_cons, utf8_append, ih, List.flatMap_cons]

namespace Sink

section

variable {text : String} {n : Nat} {reason : String} {contents : List UInt8}

/-- A sink without a limit takes everything. -/
theorem write_unlimited : (Sink.write text).run.run ⟨none, reason, contents⟩ =
    (.ok (), ⟨none, reason, contents ++ utf8 text⟩) := rfl

/-- A text that fits is taken as a whole. -/
theorem write_of_le (h : (utf8 text).length ≤ n) :
    (Sink.write text).run.run ⟨some n, reason, contents⟩ =
      (.ok (), ⟨some (n - (utf8 text).length), reason, contents ++ utf8 text⟩) := by
  show (if (utf8 text).length ≤ n then _ else _) = _
  rw [if_pos h, List.take_of_length_le h]

/-- A text that does not fit fills the sink up. -/
theorem write_of_lt (h : n < (utf8 text).length) :
    (Sink.write text).run.run ⟨some n, reason, contents⟩ =
      (.error reason, ⟨some 0, reason, contents ++ (utf8 text).take n⟩) := by
  show (if (utf8 text).length ≤ n then _ else _) = _
  rw [if_neg (Nat.not_le_of_lt h), Nat.sub_eq_zero_of_le (Nat.le_of_lt h)]

end

/-- There is always room for nothing. -/
theorem write_empty : Sink.write "" = pure () := by
  apply ExceptT.ext
  apply StateT.ext
  rintro ⟨_ | n, reason, contents⟩
  · rw [write_unlimited, show utf8 "" = [] from rfl, List.append_nil]
    rfl
  · rw [write_of_le (Nat.zero_le n), show utf8 "" = [] from rfl, List.append_nil]
    rfl

/-- Two texts in a row are as good as one. -/
theorem write_append (a b : String) :
    Sink.write (a ++ b) = Sink.write a >>= fun _ => Sink.write b := by
  apply ExceptT.ext
  apply StateT.ext
  rintro ⟨_ | n, reason, contents⟩
  · rw [run_bind_of_ok write_unlimited, write_unlimited, write_unlimited, utf8_append,
      List.append_assoc]
  have hlength : (utf8 (a ++ b)).length = (utf8 a).length + (utf8 b).length := by
    rw [utf8_append, List.length_append]
  rcases Nat.lt_or_ge n (utf8 a).length with ha | ha
  · -- the second text is never offered
    rw [run_bind_of_error (write_of_lt ha), write_of_lt (by omega), utf8_append,
      List.take_append_of_le_length (Nat.le_of_lt ha)]
  rw [run_bind_of_ok (write_of_le ha)]
  rcases Nat.lt_or_ge (n - (utf8 a).length) (utf8 b).length with hb | hb
  · rw [write_of_lt hb, write_of_lt (by omega), utf8_append, List.take_append,
      List.take_of_length_le ha, List.append_assoc]
  · rw [write_of_le hb, write_of_le (by omega), hlength, utf8_append, Nat.sub_sub,
      List.append_assoc]

/-- It makes no difference how a text is cut into pieces. -/
theorem writeAll_eq (texts : List String) :
    Writer.writeAll Sink.write texts = Sink.write (String.join texts) := by
  induction texts with
  | nil => rw [String.join_nil, write_empty, Writer.writeAll]
  | cons text texts ih => rw [Writer.writeAll, ih, String.join_cons, write_append]

end Sink

/-! ### Reports -/

namespace Report

/-- Writes a JSON document that comes in pieces, then a line feed. -/
def writePieces {m : Type → Type} [Monad m] (pieces : List String) (write : Writer m) :
    ExceptT Failure m Unit := do
  ExceptT.adapt Failure.encoding (Writer.writeAll write pieces)
  ExceptT.adapt Failure.transfer (write "\n")

/-- How writing the JSON form of a report ends where there is room for `n` bytes and `reason` is
given for having no more. -/
structure JsonWithin (r : Report) (n : Nat) (reason : String)
    (ending : Except Failure Unit × Sink) : Prop where
  /-- It succeeds if there is room for the document and the line feed. -/
  ok_iff : ending.1 = .ok () ↔ (utf8 (Json.report r)).length + 1 ≤ n
  /-- Where there is no room for the line feed only, the transfer fails, -/
  transfer_iff : ∀ why, ending.1 = .error (.transfer why) ↔
    n = (utf8 (Json.report r)).length ∧ why = reason
  /-- and where there is no room for the document, the encoding. -/
  encoding_iff : ∀ why, ending.1 = .error (.encoding why) ↔
    n < (utf8 (Json.report r)).length ∧ why = reason
  /-- What there is room for has arrived. -/
  contents_eq : ending.2.contents = (utf8 r.json).take (min n (utf8 r.json).length)

/-- How writing the listing of a report ends where there is room for `n` bytes and `reason` is given
for having no more. -/
structure ListingWithin (r : Report) (n : Nat) (reason : String)
    (ending : Except String Unit × Sink) : Prop where
  /-- It succeeds if there is room for all lines. -/
  ok_iff : ending.1 = .ok () ↔ (utf8 r.listing).length ≤ n
  /-- Otherwise it fails for the reason that the sink gives. -/
  error_iff : ∀ why, ending.1 = .error why ↔ n < (utf8 r.listing).length ∧ why = reason
  /-- What there is room for has arrived. -/
  contents_eq : ending.2.contents = (utf8 r.listing).take (min n (utf8 r.listing).length)

section

variable (r : Report) {n : Nat} (reason : String) (contents : List UInt8)

/-- In whatever pieces a document is written, the sink cannot tell. -/
theorem writePieces_eq {pieces : List String} (h : String.join pieces = Json.report r) :
    writePieces pieces Sink.write = r.writeJson Sink.write := by
  rw [writePieces, Sink.writeAll_eq, h, writeJson]

/-- Nor can it tell that a listing is written line by line. -/
theorem writeListing_eq : r.writeListing Sink.write = Sink.write r.listing := by
  rw [writeListing, Sink.writeAll_eq, listing]

/-- The bytes of a report are those of its document and a line feed. -/
theorem utf8_json : utf8 r.json = utf8 (Json.report r) ++ utf8 "\n" := by
  rw [json, utf8_append]

/-- Writing into a sink without a limit. -/
theorem writeJson_sink :
    (r.writeJson Sink.write).run.run ⟨none, reason, contents⟩ =
      (.ok (), ⟨none, reason, contents ++ utf8 r.json⟩) := by
  rw [writeJson, run_bind_of_ok (run_adapt_of_ok Sink.write_unlimited),
    run_adapt_of_ok Sink.write_unlimited, utf8_json, List.append_assoc]

/-! The document and the line feed are two texts, and the first that is refused decides on the
failure. -/

/-- Without room for the document, the encoding fails. -/
theorem writeJson_of_lt (h : n < (utf8 (Json.report r)).length) :
    (r.writeJson Sink.write).run.run ⟨some n, reason, contents⟩ =
      (.error (.encoding reason), ⟨some 0, reason, contents ++ (utf8 r.json).take n⟩) := by
  rw [writeJson, run_bind_of_error (run_adapt_of_error (Sink.write_of_lt h)), utf8_json,
    List.take_append_of_le_length (Nat.le_of_lt h)]

/-- With room for the document only, the transfer of the line feed fails. -/
theorem writeJson_of_eq (h : n = (utf8 (Json.report r)).length) :
    (r.writeJson Sink.write).run.run ⟨some n, reason, contents⟩ =
      (.error (.transfer reason), ⟨some 0, reason, contents ++ (utf8 r.json).take n⟩) := by
  have hfull : n - (utf8 (Json.report r)).length < (utf8 "\n").length := by
    rw [h, Nat.sub_self]
    exact Nat.one_pos
  rw [writeJson, run_bind_of_ok (run_adapt_of_ok (Sink.write_of_le (Nat.le_of_eq h.symm))),
    run_adapt_of_error (Sink.write_of_lt hfull), utf8_json, List.append_assoc, List.take_append,
    List.take_of_length_le (Nat.le_of_eq h.symm)]

/-- With room for both, nothing fails. -/
theorem writeJson_of_gt (h : (utf8 (Json.report r)).length < n) :
    (r.writeJson Sink.write).run.run ⟨some n, reason, contents⟩ =
      (.ok (), ⟨some (n - (utf8 r.json).length), reason, contents ++ (utf8 r.json).take n⟩) := by
  have hroom : (utf8 "\n").length ≤ n - (utf8 (Json.report r)).length := Nat.sub_pos_of_lt h
  have hall : (utf8 r.json).length ≤ n := by
    rw [utf8_json, List.length_append]
    omega
  rw [writeJson, run_bind_of_ok (run_adapt_of_ok (Sink.write_of_le (Nat.le_of_lt h))),
    run_adapt_of_ok (Sink.write_of_le hroom), List.take_of_length_le hall, utf8_json,
    List.length_append, Nat.sub_sub, List.append_assoc]

/-- These are all the ways in which writing the JSON form ends. -/
theorem jsonWithin_writeJson (n : Nat) :
    r.JsonWithin n reason ((r.writeJson Sink.write).run.run { room := some n, reason }) := by
  rcases Nat.lt_trichotomy n (utf8 (Json.report r)).length with h | h | h
  · rw [writeJson_of_lt r reason [] h]
    constructor <;> grind
  · rw [writeJson_of_eq r reason [] h]
    constructor <;> grind
  · rw [writeJson_of_gt r reason [] h]
    constructor <;> grind

/-- A listing is written as a whole, or up to the last byte that fits. -/
theorem listingWithin_writeListing (n : Nat) :
    r.ListingWithin n reason ((r.writeListing Sink.write).run.run { room := some n, reason }) := by
  rw [writeListing_eq]
  rcases Nat.lt_or_ge n (utf8 r.listing).length with h | h
  · rw [Sink.write_of_lt h]
    constructor <;> grind
  · rw [Sink.write_of_le h]
    constructor <;> grind

end

end Report

/-- Where there is room for a limited number of bytes, a report is written up to the last byte that
fits, and the way in which writing it ends tells how much is missing. This holds in whatever pieces
the report is written. -/
theorem reports_within_room (r : Report) (n : Nat) (reason : String) :
    (r.JsonWithin n reason ((r.writeJson Sink.write).run.run { room := some n, reason }) ∧
      (r.writeJson Sink.write).run.run { room := none, reason } =
        (.ok (), ⟨none, reason, utf8 r.json⟩) ∧
      ∀ pieces, String.join pieces = Json.report r →
        Report.writePieces pieces Sink.write = r.writeJson Sink.write) ∧
    (r.ListingWithin n reason ((r.writeListing Sink.write).run.run { room := some n, reason }) ∧
      (r.writeListing Sink.write).run.run { room := none, reason } =
        (.ok (), ⟨none, reason, utf8 r.listing⟩) ∧
      ∀ pieces, String.join pieces = r.listing →
        Writer.writeAll Sink.write pieces = r.writeListing Sink.write) := by
  refine ⟨⟨r.jsonWithin_writeJson reason n, ?_, fun pieces h => r.writePieces_eq h⟩,
    r.listingWithin_writeListing reason n, ?_, fun pieces h => ?_⟩
  · rw [r.writeJson_sink, List.nil_append]
  · rw [r.writeListing_eq, Sink.write_unlimited, List.nil_append]
  · rw [Sink.writeAll_eq, h, r.writeListing_eq]

/-- The report on a script that assigns a text to a variable with an accent in its name. -/
def accentedReport : Report := ⟨"é", [⟨"_é", .assignment, some .text, 1, ⟨4, 9⟩⟩]⟩

/-- The document of that report, cut into pieces. -/
def accentedPieces : List String :=
  ["\x7b\n  ", "\"source_name\"", ": ", "\"é", "\"", ",\n  \"entries\": ", "[\n    ", "\x7b",
    "\n      \"variable\": \"_", "é", "\",\n", "      \"kind\": \"assignment\",\n      \"hint\": ",
    "", "\"text\"", ",\n      \"line\": ", "1", ",\n      \"span\": \x7b\n        \"start\": 4",
    ",\n        \"end\": 9\n", "      \x7d\n    \x7d\n  ", "]", "\n", "\x7d"]

/-- In pieces as well, the line feed is all that is missing where the document just fits, and the
listing may end in the middle of a character. -/
theorem reports_within_room_accented :
    (String.join accentedPieces = Json.report accentedReport ∧
      ((Report.writePieces accentedPieces Sink.write).run.run
        { room := some 210, reason := "full" }).1 = .error (.transfer "full")) ∧
    (String.join ["é:", "\n\t   1: ", "\x7b_é\x7d", " <- text\n"] = accentedReport.listing ∧
      ((Writer.writeAll Sink.write ["é:", "\n\t   1: ", "\x7b_é\x7d", " <- text\n"]).run.run
        { room := some 14, reason := "full" }).2.contents =
          utf8 "é:\n\t   1: \x7b_" ++ [0xc3]) := by
  have hdocument : String.join accentedPieces = Json.report accentedReport := by
    decide +kernel
  have hlisting : String.join ["é:", "\n\t   1: ", "\x7b_é\x7d", " <- text\n"] =
    accentedReport.listing := rfl
  refine ⟨⟨hdocument, ?_⟩, hlisting, ?_⟩
  · obtain ⟨⟨hjson, -, hpieces⟩, -⟩ := reports_within_room accentedReport 210 "full"
    rw [hpieces _ hdocument]
    refine (hjson.transfer_iff "full").2 ⟨?_, rfl⟩
    rw [← hdocument, utf8_join]
    decide +kernel
  · obtain ⟨-, hlist, -, hpieces⟩ := reports_within_room accentedReport 14 "full"
    rw [hpieces _ hlisting, hlist.contents_eq]
    rfl

end ScriptHints
