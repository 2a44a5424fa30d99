import ScriptHints.Proofs.Text.Slice
import ScriptHints.Proofs.Token.Cut

/-!
# Tokens tile the script

Reading a script cuts it into pieces and loses none of them: written out one after the other, each
behind what was skipped before it, the tokens give the script back up to a last gap, and the offset
kept in a token is the number of bytes in front of it.

* `Tiling offset text tokens` — the tokens tile a text that begins at `offset`.
* `tiling_of_tokenize` — the tokens of a script tile it.
* `Tiling.split` — where a token stands: behind the tokens before it, and nowhere else.
* `Tiling.slice?_span`, `Tiling.slice?_lead` — the text of a token, and what was skipped before it,
  is the text at its span.
* `slice?_of_tokenize_error` — a lexical error points at text that is there.
-/

namespace ScriptHints

open Text

/-! ### Tokens written out -/

/-- The part of a script that belongs to a token: what was skipped before it, and the token. -/
def Token.written (t : Token) : List Char := t.lead ++ t.chars

/-- Tokens written out one after the other. -/
def writtenOut (tokens : List Token) : List Char := tokens.flatMap Token.written

/-- Without tokens nothing is written. -/
@[simp] theorem writtenOut_nil : writtenOut [] = [] := rfl

/-- A token is written behind what was skipped before it. -/
@[simp] theorem writtenOut_cons (t : Token) (ts : List Token) :
    writtenOut (t :: ts) = t.lead ++ t.chars ++ writtenOut ts := by
  simp [writtenOut, Token.written]

/-- Tokens in a row are written in that row. -/
@[simp] theorem writtenOut_append (xs ys : List Token) :
    writtenOut (xs ++ ys) = writtenOut xs ++ writtenOut ys := by
  simp [writtenOut]

/-- Each token begins where the one before it ends, and the first at `offset`. -/
def Chained : Nat → List Token → Prop
  | _, [] => True
  | offset, t :: ts => t.offset = offset ∧ Chained t.stop ts

/-- Tokens follow on each other if both parts do and the second begins where the first ends. -/
theorem chained_append {offset : Nat} {xs ys : List Token} :
    Chained offset (xs ++ ys) ↔
      Chained offset xs ∧ Chained (offset + size (writtenOut xs)) ys := by
  induction xs generalizing offset with
  | nil => simp [Chained]
  | cons t ts ih =>
    simp only [List.cons_append, Chained, ih, writtenOut_cons, size_append]
    constructor
    · rintro ⟨rfl, hts, hys⟩
      refine ⟨⟨rfl, hts⟩, ?_⟩
      rw [Token.stop, Token.start] at hys
      rwa [← Nat.add_assoc, ← Nat.add_assoc]
    · rintro ⟨⟨rfl, hts⟩, hys⟩
      refine ⟨rfl, hts, ?_⟩
      rw [Token.stop, Token.start]
      rwa [← Nat.add_assoc, ← Nat.add_assoc] at hys

/-! ### Tilings -/

/-- What succeeds after a change of its result has succeeded before. -/
theorem exists_of_map_eq_ok {ε α β : Type} {f : α → β} {x : Except ε α} {b : β}
    (h : x.map f = .ok b) : ∃ a, x = .ok a ∧ f a = b := by
  cases x with
  | ok a => exact ⟨a, rfl, Except.ok.inj h⟩
  | error e => cases h

/-- A change of the result changes no failure. -/
theorem eq_error_of_map_eq_error {ε α β : Type} {f : α → β} {x : Except ε α} {e : ε}
    (h : x.map f = .error e) : x = .error e := by
  cases x with
  | ok a => cases h
  | error e' => rw [Except.error.inj h]

/-- The tokens tile a text that begins at `offset`. Behind the last token only a gap is left. -/
structure Tiling (offset : Nat) (text : List Char) (tokens : List Token) : Prop where
  /-- Offsets count the bytes before a token. -/
  chained : Chained offset tokens
  wellFormed : ∀ t ∈ tokens, t.WellFormed
  /-- Nothing but a gap on the last line is left out. -/
  covers : ∃ tail, '\n' ∉ tail ∧ text = writtenOut tokens ++ tail

/-- A text without line feeds may be a gap as a whole and have no tokens. -/
theorem Tiling.nil {offset : Nat} {text : List Char} (h : '\n' ∉ text) : Tiling offset text [] :=
  ⟨trivial, nofun, text, h, rfl⟩

/-- A token in front of a tiling. -/
theorem Tiling.cons {offset : Nat} {text : List Char} {t : Token} {ts : List Token}
    (ht : t.WellFormed) (ho : t.offset = offset) (h : Tiling t.stop text ts) :
    Tiling offset (t.lead ++ t.chars ++ text) (t :: ts) := by
  obtain ⟨tail, htail, rfl⟩ := h.covers
  refine ⟨⟨ho, h.chained⟩, ?_, tail, htail, by simp⟩
  intro x hx
  rcases List.mem_cons.1 hx with rfl | hx
  · exact ht
  · exact h.wellFormed x hx

/-- A successful reading tiles the text it was given, together with what was skipped before. -/
theorem tiling_of_readFrom {offset : Nat} {lead cs : List Char} {tokens : List Token}
    {cursor : Cursor} (hlead : '\n' ∉ lead) (h : readFrom offset lead cs = (.ok tokens, cursor)) :
    Tiling offset (lead ++ cs) tokens := by
  induction offset, lead, cs using readFrom_induction generalizing tokens cursor with
  | nil offset lead =>
    rw [readFrom_nil] at h
    obtain ⟨h, -⟩ := Prod.mk.inj h
    obtain rfl := Except.ok.inj h
    simpa using Tiling.nil hlead
  | gap offset lead c cs hv ih =>
    rw [readFrom_gap hv] at h
    have hgap : '\n' ∉ lead ++ (piece c cs).chars := by
      simpa [hlead] using inLine_of_gap hv
    have := ih hgap h
    rwa [List.append_assoc, piece_append] at this
  | lexeme offset lead c cs category hv ih =>
    rw [readFrom_lexeme hv rfl] at h
    obtain ⟨h, -⟩ := Prod.mk.inj h
    -- the reading behind the token succeeded too, or there would be no tokens at all
    obtain ⟨ts, hts, rfl⟩ := exists_of_map_eq_ok h
    have := Tiling.cons (wellFormed_of_lexeme hlead hv) rfl
      (ih List.not_mem_nil (Prod.ext hts rfl))
    rwa [List.nil_append, List.append_assoc, piece_append] at this
  | bad offset lead c cs cause shown hv =>
    rw [readFrom_bad hv] at h
    simp at h

/-- The tokens of a script tile it. -/
theorem tiling_of_tokenize {source : String} {tokens : List Token}
    (h : tokenize source = .ok tokens) : Tiling 0 source.toList tokens := by
  have hread : readFrom 0 [] source.toList = (.ok tokens, (Cursor.atStart source).read.2) :=
    Prod.ext h rfl
  exact tiling_of_readFrom List.not_mem_nil hread

/-! ### Where a token stands -/

/-- A token stands behind the tokens before it. -/
theorem Tiling.split {offset : Nat} {text : List Char} {xs ys : List Token} {t : Token}
    (h : Tiling offset text (xs ++ t :: ys)) :
    t.offset = offset + size (writtenOut xs) ∧
      ∃ after, text = writtenOut xs ++ t.lead ++ t.chars ++ after := by
  obtain ⟨tail, -, rfl⟩ := h.covers
  refine ⟨(chained_append.1 h.chained).2.1, writtenOut ys ++ tail, ?_⟩
  simp

/-- The text of a token is the text at its span. -/
theorem Tiling.slice?_span {text : List Char} {tokens : List Token} (h : Tiling 0 text tokens)
    {t : Token} (ht : t ∈ tokens) : slice? text t.span = some t.chars := by
  obtain ⟨xs, ys, rfl⟩ := List.append_of_mem ht
  obtain ⟨hoffset, after, rfl⟩ := h.split
  refine slice?_eq_some_iff.2 ⟨writtenOut xs ++ t.lead, after, rfl, ?_, ?_⟩
  · simp [Token.span, Token.start, hoffset]
  · simp [Token.span, Token.stop, Token.start, hoffset]

/-- What was skipped before a token is the text between the token before it and the token. -/
theorem Tiling.slice?_lead {text : List Char} {tokens : List Token} (h : Tiling 0 text tokens)
    {t : Token} (ht : t ∈ tokens) : slice? text ⟨t.offset, t.start⟩ = some t.lead := by
  obtain ⟨xs, ys, rfl⟩ := List.append_of_mem ht
  obtain ⟨hoffset, after, rfl⟩ := h.split
  refine slice?_eq_some_iff.2 ⟨writtenOut xs, t.chars ++ after, by simp, ?_, ?_⟩
  · simp [hoffset]
  · simp [Token.start, hoffset]

/-- Tokens do not overlap and stand in order. -/
theorem Chained.pairwise {offset : Nat} {tokens : List Token} (h : Chained offset tokens) :
    tokens.Pairwise fun a b => a.stop ≤ b.start := by
  induction tokens generalizing offset with
  | nil => exact List.Pairwise.nil
  | cons t ts ih =>
    refine List.pairwise_cons.2 ⟨?_, ih h.2⟩
    intro b hb
    obtain ⟨xs, ys, rfl⟩ := List.append_of_mem hb
    have hoffset := (chained_append.1 h.2).2.1
    rw [Token.start, hoffset]
    omega

/-! ### Lexical errors -/

/-- An error points at text that was given to the reading. -/
theorem split_of_readFrom_error {offset : Nat} {lead cs : List Char} {e : LexicalError}
    {cursor : Cursor} (h : readFrom offset lead cs = (.error e, cursor)) :
    ∃ before shown after, lead ++ cs = before ++ shown ++ after ∧ shown ≠ [] ∧
      e.span = ⟨offset + size before, offset + size before + size shown⟩ := by
  induction offset, lead, cs using readFrom_induction generalizing cursor with
  | nil offset lead =>
    rw [readFrom_nil] at h
    simp at h
  | gap offset lead c cs hv ih =>
    rw [readFrom_gap hv] at h
    have := ih h
    rwa [List.append_assoc, piece_append] at this
  | lexeme offset lead c cs category hv ih =>
    rw [readFrom_lexeme hv rfl] at h
    obtain ⟨h, -⟩ := Prod.mk.inj h
    obtain ⟨before, shown, after, happ, hne, hspan⟩ :=
      ih (Prod.ext (eq_error_of_map_eq_error h) rfl)
    refine ⟨lead ++ (piece c cs).chars ++ before, shown, after, ?_, hne, ?_⟩
    · rw [List.nil_append] at happ
      rw [← piece_append c cs, happ]
      simp
    · rw [hspan]
      simp [Token.stop, Token.start, Nat.add_assoc]
  | bad offset lead c cs cause shown hv =>
    rw [readFrom_bad hv] at h
    obtain ⟨h, -⟩ := Prod.mk.inj h
    obtain rfl := Except.error.inj h
    obtain ⟨hne, after, happ⟩ := shown_of_bad hv
    exact ⟨lead, shown, after, by rw [happ, List.append_assoc], hne, rfl⟩

/-- A lexical error points at text of the script, and not at nothing. -/
theorem slice?_of_tokenize_error {source : String} {e : LexicalError}
    (h : tokenize source = .error e) :
    ∃ shown, shown ≠ [] ∧ slice? source.toList e.span = some shown := by
  have hread : readFrom 0 [] source.toList = (.error e, (Cursor.atStart source).read.2) :=
    Prod.ext h rfl
  obtain ⟨before, shown, after, happ, hne, hspan⟩ := split_of_readFrom_error hread
  refine ⟨shown, hne, slice?_eq_some_iff.2 ⟨before, after, happ, ?_, ?_⟩⟩
  · simp [hspan]
  · simp [hspan]

end ScriptHints
