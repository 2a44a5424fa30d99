import ScriptHints.Proofs.Token.Grammar

/-!
# Errors, and how reading goes on behind them

A reading that comes to a place where no lexeme starts ends there, and the next reading of the same
script begins a little behind that place. This file says where such a place is, what is reported
about it, where reading goes on, and what all readings of a script come to together.

* `Stuck` — a text at the front of which neither a gap nor a lexeme starts.
* `Refusal` — what is reported about it: the cause, the text that is pointed at and the text that is
  skipped before reading goes on.
* `StopsAt` — what a failed reading says, in terms of the grammar alone.
* `readFrom_shift` — a reading does not depend on where in the script it begins.
* `Reader` — a reader whose refused pieces note their error in a channel, from which the error is
  taken when it is reported; `Reader.readTimes_eq` says that the channel makes no difference.
* `readings_resume` — all of it, for any number of readings of any script.
-/

namespace ScriptHints

open Text

/-! ### Places where no lexeme starts -/

/-- Neither a gap nor a lexeme starts at the front of the text, and the text is not at its end. -/
structure Stuck (text : List Char) : Prop where
  ne_nil : text ≠ []
  no_gap : ∀ gap rest, text = gap ++ rest → IsGap gap rest → gap = []
  no_lexeme : ∀ category chars rest, text = chars ++ rest → ¬IsLexeme category chars rest

/-- `Refusal text cause shown skipped`: no lexeme starts at the front of the text because of
`cause`; `shown` is pointed at, and `skipped` is not read again. -/
inductive Refusal : List Char → LexicalCause → List Char → List Char → Prop
  /-- A literal is not closed on its line: every mark on it is the first of a pair. -/
  | text {cs : List Char}
      (hopen : ∀ body rest, cs = body ++ '"' :: rest → TextBody body → rest.head? = some '"') :
      Refusal ('"' :: cs) .unclosedText ('"' :: cs.takeWhile (· != '\n')) ['"']
  /-- A group is not closed on its line: no brace on it balances the opening one. -/
  | group {cs : List Char} (hopen : ∀ name rest, cs = name ++ '}' :: rest → ¬Closes 0 name) :
      Refusal ('{' :: cs) .unclosedVariable ('{' :: cs.takeWhile (· != '\n')) ['{']
  | nameless (cs : List Char) :
      Refusal ('{' :: '}' :: cs) .namelessVariable ['{', '}'] ['{', '}']
  | stray {c : Char} (cs : List Char) (hmark : c ≠ '"') (hbrace : c ≠ '{') :
      Refusal (c :: cs) .strayCharacter [c] [c]

section

variable {c : Char} {cs shown : List Char} {cause : LexicalCause}

/-- A piece is refused only where no lexeme starts. -/
theorem stuck_of_bad (h : (piece c cs).verdict = .bad cause shown) : Stuck (c :: cs) := by
  refine ⟨List.cons_ne_nil c cs, ?_, ?_⟩
  · intro gap rest happ hgap
    rcases gap with _ | ⟨x, gap⟩
    · rfl
    · rw [List.cons_append] at happ
      obtain ⟨rfl, rfl⟩ := List.cons.inj happ
      rw [verdict_of_isGap hgap] at h
      cases h
  · intro category chars rest happ hlexeme
    obtain ⟨x, xs, happ', hpiece⟩ := piece_of_isLexeme hlexeme
    obtain ⟨rfl, rfl⟩ := List.cons.inj (happ.trans happ')
    rw [hpiece] at h
    cases h

/-- Where no lexeme starts, the piece is refused. -/
theorem Stuck.exists_bad {text : List Char} (h : Stuck text) :
    ∃ c cs cause shown, text = c :: cs ∧ (piece c cs).verdict = .bad cause shown := by
  obtain ⟨c, cs, rfl⟩ := List.exists_cons_of_ne_nil h.ne_nil
  have happ := (piece_append c cs).symm
  cases hv : (piece c cs).verdict with
  | gap => exact absurd (h.no_gap _ _ happ (isGap_of_piece hv)) (piece_chars_ne_nil c cs)
  | lexeme category => exact absurd (isLexeme_of_piece hv) (h.no_lexeme _ _ _ happ)
  | bad cause shown => exact ⟨c, cs, cause, shown, rfl, hv⟩

/-- What is reported about a refused piece. -/
theorem refusal_of_bad (h : (piece c cs).verdict = .bad cause shown) :
    Refusal (c :: cs) cause shown (piece c cs).chars := by
  have hcut := piece_cut c cs
  have hmark : cause = .strayCharacter → c ≠ '"' := by
    rintro rfl rfl
    rw [piece_mark] at h
    split at h <;> cases h
  have hbrace : cause = .strayCharacter → c ≠ '{' := by
    rintro rfl rfl
    rw [piece_brace] at h
    split at h <;> cases h
  generalize piece c cs = p at h hcut
  cases hcut with
  | openText hc hopen =>
    obtain ⟨rfl, rfl⟩ := Verdict.bad.inj h
    subst hc
    apply Refusal.text
    intro body rest happ hbody
    by_contra hstop
    rw [closeText?_eq_some_iff.2 ⟨body, hbody, hstop, rfl, happ⟩] at hopen
    cases hopen
  | openGroup hc hopen =>
    obtain ⟨rfl, rfl⟩ := Verdict.bad.inj h
    subst hc
    apply Refusal.group
    intro name rest happ hname
    rw [closeGroup?_eq_some_iff.2 ⟨hname, happ⟩] at hopen
    cases hopen
  | nameless hc hclose =>
    obtain ⟨rfl, rfl⟩ := Verdict.bad.inj h
    subst hc
    obtain ⟨-, rfl⟩ := closeGroup?_eq_some_iff.1 hclose
    exact .nameless _
  | stray hn hc =>
    obtain ⟨rfl, rfl⟩ := Verdict.bad.inj h
    exact .stray cs (hmark rfl) (hbrace rfl)
  | _ => cases h

end

/-! ### One reading -/

/-- The lexemes that spell a text spell it on its own as well. -/
theorem Fits.truncate {rest after : List Char} {ls : List Lexeme} (h : Fits (rest ++ after) ls) :
    Fits rest ls := by
  induction ls with
  | nil => trivial
  | cons l ls ih =>
    obtain ⟨hgap, hlexeme, hfits⟩ := h
    rw [← List.append_assoc] at hlexeme
    rw [← List.append_assoc, ← List.append_assoc] at hgap
    refine ⟨?_, hlexeme.truncate, ih hfits⟩
    rw [← List.append_assoc]
    exact hgap.truncate

/-- Lexemes spell their text also where nothing follows it. -/
theorem Spells.truncate {ls : List Lexeme} {text rest : List Char} (h : Spells ls text rest) :
    Spells ls text [] := by
  obtain ⟨tail, rfl, hfits, htail⟩ := h
  rw [← List.nil_append rest] at htail
  refine ⟨tail, rfl, ?_, htail.truncate⟩
  rw [List.append_nil]
  exact hfits.truncate

/-- What a failed reading from a cursor says: the text behind the cursor is spelled by lexemes up to
a place where none starts, and that place is reported. -/
structure StopsAt (cursor : Cursor) (e : LexicalError) (before stop : List Char) : Prop where
  text : cursor.rest = before ++ stop
  spelled : ∃ lexemes, Spells lexemes before stop
  stuck : Stuck stop
  /-- It is the only such place that is reached. -/
  unique : ∀ lexemes before' stop', cursor.rest = before' ++ stop' →
    Spells lexemes before' stop' → Stuck stop' → before' = before
  /-- The text up to there has tokens of its own. -/
  alone : ∃ tokens, tokenize (String.ofList before) = .ok tokens
  /-- What is reported, and where the next reading begins. -/
  reported : ∃ shown skipped rest, stop = skipped ++ rest ∧ Refusal stop e.cause shown skipped ∧
    e.span = ⟨cursor.offset + size before, cursor.offset + size before + size shown⟩ ∧
    cursor.read.2 = ⟨cursor.offset + size before + size skipped, rest⟩

/-- Parts of a text that are as long in bytes are the same. -/
theorem eq_of_size_eq {text before after before' after' : List Char} (h : text = before ++ after)
    (h' : text = before' ++ after') (hsize : size before = size before') : before = before' := by
  have hcut := splitBytes?_eq_some_iff.2 ⟨h, hsize⟩
  rw [splitBytes?_eq_some_iff.2 ⟨h', rfl⟩] at hcut
  exact (Prod.mk.inj (Option.some.inj hcut)).1.symm

section

variable {cursor : Cursor}

/-- A reading that fails stops at a place where no lexeme starts; any other comes to the end. -/
theorem Cursor.read_cases (cursor : Cursor) :
    (∃ tokens, cursor.read = (.ok tokens, ⟨cursor.offset + size cursor.rest, []⟩)) ∨
      ∃ e before stop, cursor.read.1 = .error e ∧ StopsAt cursor e before stop := by
  obtain ⟨ls, text, stop, happ, hspells, hstop⟩ := exists_spelling (.nil cursor.rest)
  rw [List.nil_append] at happ
  rcases hstop with rfl | ⟨c, cs, cause, shown, rfl, hbad⟩
  · rw [List.append_nil] at happ
    refine .inl ⟨tokensAt cursor.offset ls, ?_⟩
    rw [Cursor.read, happ, readFrom_of_spells hspells]
  · have hread : cursor.read =
        (.error ⟨cause, cursor.offset + size text, cursor.offset + size text + size shown⟩,
          ⟨cursor.offset + size text + size (piece c cs).chars, (piece c cs).rest⟩) := by
      rw [Cursor.read, happ, readFrom_of_spells_bad hspells hbad]
    refine .inr ⟨_, text, c :: cs, congrArg Prod.fst hread, happ, ⟨ls, hspells⟩,
      stuck_of_bad hbad, ?_, ?_, ?_⟩
    · intro ls' before' stop' happ' hspells' hstuck'
      obtain ⟨c', cs', cause', shown', rfl, hbad'⟩ := hstuck'.exists_bad
      have hread' : cursor.read.1 = .error ⟨cause', cursor.offset + size before',
          cursor.offset + size before' + size shown'⟩ := by
        rw [Cursor.read, happ', readFrom_of_spells_bad hspells' hbad']
      rw [hread] at hread'
      have hstart := congrArg (fun e => e.span.start) (Except.error.inj hread')
      exact eq_of_size_eq happ' happ (Nat.add_left_cancel hstart).symm
    · refine ⟨tokensAt 0 ls, tokenize_eq_ok_iff_spells.2 ⟨ls, ?_, rfl⟩⟩
      rw [String.toList_ofList]
      exact hspells.truncate
    · exact ⟨shown, (piece c cs).chars, (piece c cs).rest, (piece_append c cs).symm,
        refusal_of_bad hbad, rfl, congrArg Prod.snd hread⟩

end

/-- Something is skipped, so that no place is reported twice. -/
theorem Refusal.skipped_ne_nil {text shown skipped : List Char} {cause : LexicalCause}
    (h : Refusal text cause shown skipped) : skipped ≠ [] := by
  cases h <;> exact List.cons_ne_nil _ _

/-- Every character takes some bytes. -/
theorem size_pos_of_ne_nil {cs : List Char} (h : cs ≠ []) : 0 < size cs := by
  have hpos := List.length_pos_iff.2 h
  have hle := length_le_size cs
  omega

section

variable {cursor : Cursor} {e : LexicalError} {before stop : List Char}

/-- An error is not before the cursor. -/
theorem StopsAt.offset_le_start (h : StopsAt cursor e before stop) :
    cursor.offset ≤ e.span.start := by
  obtain ⟨shown, skipped, rest, -, -, hspan, -⟩ := h.reported
  rw [hspan]
  exact Nat.le_add_right _ _

/-- The next reading begins behind the place of the error. -/
theorem StopsAt.start_lt_offset (h : StopsAt cursor e before stop) :
    e.span.start < cursor.read.2.offset := by
  obtain ⟨shown, skipped, rest, -, hrefusal, hspan, hnext⟩ := h.reported
  have hpos := size_pos_of_ne_nil hrefusal.skipped_ne_nil
  rw [hspan, hnext]
  show cursor.offset + size before < cursor.offset + size before + size skipped
  omega

/-- The text left to the next reading is shorter. -/
theorem StopsAt.length_lt (h : StopsAt cursor e before stop) :
    cursor.read.2.rest.length < cursor.rest.length := by
  obtain ⟨shown, skipped, rest, hstop, hrefusal, -, hnext⟩ := h.reported
  have hpos := List.length_pos_iff.2 hrefusal.skipped_ne_nil
  rw [hnext, h.text, hstop, List.length_append, List.length_append]
  show rest.length < _
  omega

end

/-! ### Readings do not depend on where they begin -/

/-- The token as it would be read `d` bytes further on. -/
def Token.shift (d : Nat) (t : Token) : Token := { t with offset := d + t.offset }

/-- The error as it would be reported `d` bytes further on. -/
def LexicalError.shift (d : Nat) (e : LexicalError) : LexicalError :=
  ⟨e.cause, d + e.span.start, d + e.span.stop⟩

/-- What would be read `d` bytes further on. -/
def shiftReading (d : Nat) : Reading → Reading
  | .ok tokens => .ok (tokens.map (Token.shift d))
  | .error e => .error (e.shift d)

/-- A token ends later by as many bytes as it is shifted. -/
theorem Token.stop_shift (d : Nat) (t : Token) : (t.shift d).stop = d + t.stop := by
  simp [Token.stop, Token.start, Token.shift, Nat.add_assoc]

/-- The first token of a reading is shifted with the others. -/
theorem shiftReading_map_cons (d : Nat) (t : Token) (r : Reading) :
    shiftReading d (r.map (t :: ·)) = (shiftReading d r).map (t.shift d :: ·) := by
  rcases r with _ | _ <;> rfl

/-- What is read from a text does not depend on where the text begins. -/
theorem readFrom_shift (d offset : Nat) (lead cs : List Char) :
    (readFrom (d + offset) lead cs).1 = shiftReading d (readFrom offset lead cs).1 := by
  induction offset, lead, cs using readFrom_induction with
  | nil offset lead =>
    rw [readFrom_nil, readFrom_nil]
    rfl
  | gap offset lead c cs hv ih => rw [readFrom_gap hv, readFrom_gap hv, ih]
  | lexeme offset lead c cs category hv ih =>
    have htoken : Token.shift d ⟨category, offset, lead, (piece c cs).chars⟩ =
        ⟨category, d + offset, lead, (piece c cs).chars⟩ := rfl
    rw [readFrom_lexeme hv htoken, readFrom_lexeme hv rfl, Token.stop_shift, ih,
      shiftReading_map_cons]
  | bad offset lead c cs cause shown hv =>
    rw [readFrom_bad hv, readFrom_bad hv]
    simp only [shiftReading, LexicalError.shift, Nat.add_assoc]

/-- A reading from a cursor gives what the text behind the cursor has as a script of its own. -/
theorem Cursor.read_eq_shift (cursor : Cursor) :
    cursor.read.1 = shiftReading cursor.offset (tokenize (String.ofList cursor.rest)) := by
  rw [tokenize, Cursor.read, Cursor.read, Cursor.atStart, String.toList_ofList, ← readFrom_shift,
    Nat.add_zero]

/-! ### Several readings -/

/-- The cursor after a number of readings. -/
def Cursor.afterReads (cursor : Cursor) : Nat → Cursor
  | 0 => cursor
  | n + 1 => (cursor.afterReads n).read.2

/-- One reading and `n` more are `n + 1`. -/
theorem Cursor.afterReads_read (cursor : Cursor) (n : Nat) :
    cursor.read.2.afterReads n = cursor.afterReads (n + 1) := by
  induction n with
  | zero => rfl
  | succ n ih =>
    show (cursor.read.2.afterReads n).read.2 = (cursor.afterReads (n + 1)).read.2
    rw [ih]

/-- Reading several times gives the reading from each of the cursors in turn. -/
theorem Cursor.readTimes_eq_map (cursor : Cursor) (n : Nat) :
    cursor.readTimes n = (List.range n).map fun i => (cursor.afterReads i).read.1 := by
  induction n generalizing cursor with
  | zero => rfl
  | succ n ih =>
    rw [Cursor.readTimes, ih, List.range_succ_eq_map, List.map_cons, List.map_map]
    congr 1
    apply List.map_congr_left
    intro i _
    rw [Cursor.afterReads_read]
    rfl

/-- Offsets never go back. -/
theorem Cursor.offset_le_read (cursor : Cursor) : cursor.offset ≤ cursor.read.2.offset := by
  rcases cursor.read_cases with ⟨tokens, hread⟩ | ⟨e, before, stop, -, hstops⟩
  · rw [hread]
    exact Nat.le_add_right _ _
  · exact Nat.le_of_lt (Nat.lt_of_le_of_lt hstops.offset_le_start hstops.start_lt_offset)

/-- A cursor never goes back. -/
theorem Cursor.offset_afterReads_le (cursor : Cursor) {m n : Nat} (h : m ≤ n) :
    (cursor.afterReads m).offset ≤ (cursor.afterReads n).offset := by
  induction h with
  | refl => exact Nat.le_refl _
  | step h ih => exact Nat.le_trans ih (Cursor.offset_le_read _)

/-- A failed reading is one that stops where no lexeme starts. -/
theorem Cursor.stopsAt_of_error {cursor : Cursor} {e : LexicalError}
    (h : cursor.read.1 = .error e) : ∃ before stop, StopsAt cursor e before stop := by
  rcases cursor.read_cases with ⟨tokens, hread⟩ | ⟨e', before, stop, herror, hstops⟩
  · rw [hread] at h
    cases h
  · obtain rfl := Except.error.inj (herror.symm.trans h)
    exact ⟨before, stop, hstops⟩

/-- After a reading that succeeds nothing is left. -/
theorem Cursor.rest_of_ok {cursor : Cursor} {tokens : List Token} (h : cursor.read.1 = .ok tokens) :
    cursor.read.2.rest = [] := by
  rcases cursor.read_cases with ⟨tokens', hread⟩ | ⟨e, before, stop, herror, -⟩
  · rw [hread]
  · rw [herror] at h
    cases h

/-- Where nothing is left, nothing is read. -/
theorem Cursor.read_of_rest_nil {cursor : Cursor} (h : cursor.rest = []) :
    cursor.read = (.ok [], cursor) := by
  rcases cursor with ⟨offset, rest⟩
  obtain rfl : rest = [] := h
  exact readFrom_nil

/-- Every cursor of a script is at the place its offset says. -/
theorem Cursor.place_afterReads (source : String) (n : Nat) :
    ∃ front, source.toList = front ++ ((Cursor.atStart source).afterReads n).rest ∧
      ((Cursor.atStart source).afterReads n).offset = size front := by
  induction n with
  | zero => exact ⟨[], rfl, rfl⟩
  | succ n ih =>
    obtain ⟨front, htext, hoffset⟩ := ih
    rw [Cursor.afterReads]
    generalize (Cursor.atStart source).afterReads n = cursor at htext hoffset ⊢
    rcases cursor.read_cases with ⟨tokens, hread⟩ | ⟨e, before, stop, -, hstops⟩
    · rw [hread]
      refine ⟨source.toList, (List.append_nil _).symm, ?_⟩
      rw [htext, size_append, hoffset]
    · obtain ⟨shown, skipped, rest, hstop, -, -, hnext⟩ := hstops.reported
      rw [hnext]
      refine ⟨front ++ before ++ skipped, ?_, ?_⟩
      · rw [htext, hstops.text, hstop]
        simp
      · rw [size_append, size_append, hoffset]

/-- Each reading that fails uses up a character. -/
theorem Cursor.countP_readTimes_le (cursor : Cursor) (n : Nat) :
    (cursor.readTimes n).countP (!·.isOk) ≤ cursor.rest.length := by
  induction n generalizing cursor with
  | zero => exact Nat.zero_le _
  | succ n ih =>
    have hlater := ih cursor.read.2
    rw [Cursor.readTimes]
    cases hread : cursor.read.1 with
    | ok tokens =>
      rw [Cursor.rest_of_ok hread] at hlater
      rw [List.countP_cons_of_neg (by simp [Except.isOk, Except.toBool])]
      exact Nat.le_trans hlater (Nat.zero_le _)
    | error e =>
      obtain ⟨before, stop, hstops⟩ := Cursor.stopsAt_of_error hread
      have hlt := hstops.length_lt
      rw [List.countP_cons_of_pos (by simp [Except.isOk, Except.toBool])]
      omega

/-! ### Errors through a channel -/

/-- A reader that keeps the last error noted and not yet reported. -/
structure Reader where
  cursor : Cursor
  noted : Option LexicalError := none

/-- Reads like `readFrom`. A piece that looks for its end and misses it notes its error; what is
reported is the error noted, and a stray character where there is none. -/
def readNoting (noted : Option LexicalError) (offset : Nat) (lead : List Char) :
    List Char → Reading × Reader
  | [] => (.ok [], ⟨⟨offset + size lead, []⟩, noted⟩)
  | c :: cs =>
    let p := piece c cs
    match p.verdict with
    | .gap => readNoting noted offset (lead ++ p.chars) p.rest
    | .lexeme category =>
      let token : Token := ⟨category, offset, lead, p.chars⟩
      let (reading, reader) := readNoting noted token.stop [] p.rest
      (reading.map (token :: ·), reader)
    | .bad cause shown =>
      let start := offset + size lead
      let noted :=
        if cause = .strayCharacter then noted
        else some ⟨cause, start, start + size shown⟩
      (.error (noted.getD ⟨.strayCharacter, start, start + size p.chars⟩),
        ⟨⟨start + size p.chars, p.rest⟩, none⟩)
termination_by cs => cs.length
decreasing_by all_goals exact length_rest_piece_lt c cs

namespace Reader

/-- Reads tokens up to the next failure, with what the last reading has noted. -/
def read (reader : Reader) : Reading × Reader :=
  readNoting reader.noted reader.cursor.offset [] reader.cursor.rest

/-- Reads again and again, as often as told. -/
def readTimes : Nat → Reader → List Reading
  | 0, _ => []
  | n + 1, reader => reader.read.1 :: readTimes n reader.read.2

end Reader

/-- With nothing noted before, the error reported is the one at hand, and nothing is noted after. -/
theorem readNoting_eq (offset : Nat) (lead cs : List Char) :
    readNoting none offset lead cs =
      ((readFrom offset lead cs).1, ⟨(readFrom offset lead cs).2, none⟩) := by
  induction offset, lead, cs using readFrom_induction with
  | nil offset lead => rw [readNoting, readFrom_nil]
  | gap offset lead c cs hv ih =>
    rw [readNoting, readFrom_gap hv]
    simp only [hv, ih]
  | lexeme offset lead c cs category hv ih =>
    rw [readNoting, readFrom_lexeme hv rfl]
    simp only [hv, ih]
  | bad offset lead c cs cause shown hv =>
    rw [readNoting, readFrom_bad hv]
    simp only [hv]
    by_cases hcause : cause = .strayCharacter
    · -- then what is shown is what is skipped, the one character
      have hrefusal := refusal_of_bad hv
      subst hcause
      generalize (piece c cs).chars = chars at hrefusal ⊢
      cases hrefusal
      rfl
    · rw [if_neg hcause]
      rfl

/-- The channel makes no difference, however often a script is read. -/
theorem Reader.readTimes_eq (cursor : Cursor) (n : Nat) :
    Reader.readTimes n ⟨cursor, none⟩ = cursor.readTimes n := by
  induction n generalizing cursor with
  | zero => rfl
  | succ n ih =>
    rw [Reader.readTimes, Cursor.readTimes, Reader.read, readNoting_eq, ih]
    rfl

/-! ### All readings of a script -/

/-- The cursor from which a script is read for the `n`-th time, counting from zero. -/
def cursorAt (source : String) (n : Nat) : Cursor := (Cursor.atStart source).afterReads n

/-- What the readings of a script come to. -/
structure ReadingsResume (source : String) : Prop where
  /-- Each reading is made from its cursor, whether or not errors go through a channel. -/
  readings : ∀ n, (Cursor.atStart source).readTimes n =
      (List.range n).map (fun i => (cursorAt source i).read.1) ∧
    Reader.readTimes n ⟨Cursor.atStart source, none⟩ = (Cursor.atStart source).readTimes n
  /-- A cursor is a place of the script. -/
  place : ∀ n, ∃ front, source.toList = front ++ (cursorAt source n).rest ∧
    (cursorAt source n).offset = size front
  /-- A reading that fails does so at the first place where no lexeme starts. -/
  failed : ∀ n e, (cursorAt source n).read.1 = .error e →
    ∃ before stop, StopsAt (cursorAt source n) e before stop
  /-- The reading after it begins where that place was skipped. -/
  next : ∀ n, cursorAt source (n + 1) = (cursorAt source n).read.2
  /-- A reading gives what a script has that begins at the cursor. -/
  fresh : ∀ n, (cursorAt source n).read.1 =
    shiftReading (cursorAt source n).offset (tokenize (String.ofList (cursorAt source n).rest))
  /-- Errors are reported in order, and none of them twice. -/
  increasing : ∀ m n e e', m < n → (cursorAt source m).read.1 = .error e →
    (cursorAt source n).read.1 = .error e' → e.span.start < e'.span.start
  /-- There are no more errors than characters. -/
  bounded : ∀ n, ((Cursor.atStart source).readTimes n).countP (!·.isOk) ≤ source.length
  /-- Once a reading has succeeded nothing is left to be read. -/
  finished : ∀ m n tokens, m < n → (cursorAt source m).read.1 = .ok tokens →
    (cursorAt source n).read.1 = .ok []

/-- Every reading of every script stops where no lexeme starts and goes on behind that place. -/
theorem readings_resume (source : String) : ReadingsResume source where
  readings n := ⟨Cursor.readTimes_eq_map _ n, Reader.readTimes_eq _ n⟩
  place n := Cursor.place_afterReads source n
  failed _ _ h := Cursor.stopsAt_of_error h
  next _ := rfl
  fresh n := Cursor.read_eq_shift _
  increasing m n e e' hlt h h' := by
    obtain ⟨before, stop, hstops⟩ := Cursor.stopsAt_of_error h
    obtain ⟨before', stop', hstops'⟩ := Cursor.stopsAt_of_error h'
    calc e.span.start < (cursorAt source (m + 1)).offset := hstops.start_lt_offset
      _ ≤ (cursorAt source n).offset := Cursor.offset_afterReads_le _ hlt
      _ ≤ e'.span.start := hstops'.offset_le_start
  bounded n := by
    rw [← String.length_toList]
    exact Cursor.countP_readTimes_le _ n
  finished m n tokens hlt h := by
    have hnil : (cursorAt source n).rest = [] := by
      induction hlt with
      | refl => exact Cursor.rest_of_ok h
      | @step k _ ih =>
        show (cursorAt source k).read.2.rest = []
        rw [Cursor.read_of_rest_nil ih]
        exact ih
    rw [Cursor.read_of_rest_nil hnil]

end ScriptHints
