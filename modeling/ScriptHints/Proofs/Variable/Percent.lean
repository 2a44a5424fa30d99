import Mathlib
import ScriptHints.Proofs.Analysis.Coverage
import ScriptHints.Proofs.Variable.Nesting

/-!
# Percent signs

A text interpolates the variables between its percent signs. Which signs those are is said here by
counting: the signs inside a variable belong to its name, all others switch between plain text and
interpolation. Every variable that is found stands behind an odd number of such signs. That there is
another one behind it is certain only if the signs of the text come in pairs, for a variable counts
as found when its brace is closed.

* `Token.outermostUses` — the uses of a token that lie in no other. `filter_outermostIn_usesIn` says
  that those of a text are its outermost groups.
* `Token.outerSigns` — where the percent signs outside of these stand.
* `countP_signsIn_mod_two` — how many of them stand before an outermost group.
* `text_uses_behind_signs` — where the uses of a text stand between its percent signs.
* `lone_sign_interpolates` — a text with one percent sign that has a use.
-/

namespace ScriptHints

open Text

/-! ### Outermost uses -/

/-- The use lies in no other of the given uses. -/
def Use.OutermostIn (uses : List Use) (u : Use) : Prop := ∀ v ∈ uses, v.Encloses u → v = u

instance (uses : List Use) (u : Use) : Decidable (u.OutermostIn uses) :=
  inferInstanceAs (Decidable (∀ v ∈ uses, _))

/-- The uses of a token that lie in no other use of it. -/
def Token.outermostUses (t : Token) : List Use := t.uses.filter (Use.OutermostIn t.uses ·)

/-- Of a variable and the uses in its name, only the variable lies in no other. -/
theorem filter_outermostIn_withNested (u : Use) :
    u.withNested.filter (Use.OutermostIn u.withNested ·) = [u] := by
  have hself : u.OutermostIn u.withNested := by
    intro v hv hencloses
    rcases List.mem_cons.1 hv with rfl | hnested
    · rfl
    · exact absurd hencloses (not_encloses_of_nested hnested)
  have hname : ∀ v ∈ usesIn false (u.offset + 1) u.inner, ¬v.OutermostIn u.withNested := by
    intro v hv hout
    obtain rfl : u = v :=
      hout u List.mem_cons_self (encloses_of_mem_withNested (List.mem_cons_of_mem u hv))
    exact not_encloses_of_nested hv ⟨Nat.le_refl _, Nat.le_refl _⟩
  rw [Use.withNested] at hself hname ⊢
  rw [List.filter_cons_of_pos (by simpa using hself), List.filter_eq_nil_iff.2]
  intro v hv
  simpa using hname v hv

/-- Uses that stand one behind the other make no difference to each other. -/
theorem filter_outermostIn_append {front back : List Use}
    (h : ∀ u ∈ front, ∀ v ∈ back, u.stop ≤ v.offset) :
    (front ++ back).filter (Use.OutermostIn (front ++ back) ·) =
      front.filter (Use.OutermostIn front ·) ++ back.filter (Use.OutermostIn back ·) := by
  rw [List.filter_append]
  congr 1
  · apply List.filter_congr
    intro u hu
    apply decide_eq_decide.2
    rw [Use.OutermostIn, List.forall_mem_append]
    refine and_iff_left ?_
    intro v hv hencloses
    exact absurd hencloses (Use.not_encloses_of_stop_le (h u hu v hv)).2
  · apply List.filter_congr
    intro v hv
    apply decide_eq_decide.2
    rw [Use.OutermostIn, List.forall_mem_append]
    refine and_iff_right ?_
    intro u hu hencloses
    exact absurd hencloses (Use.not_encloses_of_stop_le (h u hu v hv)).1

/-- The uses of a text that lie in no other are its outermost groups. -/
theorem filter_outermostIn_usesIn (active : Bool) (offset : Nat) (cs : List Char) :
    (usesIn active offset cs).filter (Use.OutermostIn (usesIn active offset cs) ·) =
      outermost active offset cs := by
  induction active, offset, cs using usesIn_induction with
  | nil active offset => rw [usesIn_nil, outermost_nil]; rfl
  | percent active offset cs ih => rwa [usesIn_percent, outermost_percent]
  | openGroup offset cs h => rw [usesIn_openGroup h, outermost_openGroup h]; rfl
  | group offset cs inside rest h hinside hrest =>
    have hbehind : ∀ u ∈ Use.withNested ⟨offset, inside⟩,
        ∀ v ∈ usesIn true (Use.stop ⟨offset, inside⟩) rest, u.stop ≤ v.offset := by
      intro u hu v hv
      exact Nat.le_trans (encloses_of_mem_withNested hu).2 (writtenIn_of_mem_usesIn hv).le_offset
    rw [usesIn_group h, filter_outermostIn_append hbehind, filter_outermostIn_withNested, hrest,
      outermost_group h]
    rfl
  | plain active offset c cs hp hb ih => rwa [usesIn_plain hp hb, outermost_plain hp hb]

/-- In a literal, variables are looked for behind percent signs only. -/
theorem Token.outermostUses_of_text {t : Token} (h : t.category = .text) :
    t.outermostUses = outermost false t.start t.chars := by
  rw [Token.outermostUses, Token.uses_of_text h, filter_outermostIn_usesIn]

/-! ### Percent signs outside of them -/

/-- The offsets of the percent signs in a text that begins at `offset`. -/
def percentSigns (offset : Nat) : List Char → List Nat
  | [] => []
  | c :: cs =>
    if c = '%' then offset :: percentSigns (offset + c.utf8Size) cs
    else percentSigns (offset + c.utf8Size) cs

/-- The place lies in none of the uses. -/
def Outside (uses : List Use) (place : Nat) : Prop :=
  ∀ u ∈ uses, place < u.offset ∨ u.stop ≤ place

instance (uses : List Use) (place : Nat) : Decidable (Outside uses place) :=
  inferInstanceAs (Decidable (∀ u ∈ uses, _))

/-- The offsets of the percent signs of a token that stand in none of its outermost uses. -/
def Token.outerSigns (t : Token) : List Nat :=
  (percentSigns t.start t.chars).filter (Outside t.outermostUses ·)

/-- The offsets of the percent signs of a text that stand in none of its outermost groups. -/
def signsIn (active : Bool) (offset : Nat) (cs : List Char) : List Nat :=
  (percentSigns offset cs).filter (Outside (outermost active offset cs) ·)

/-- In a literal, the percent signs outside of variables count. -/
theorem Token.outerSigns_of_text {t : Token} (h : t.category = .text) :
    t.outerSigns = signsIn false t.start t.chars := by
  rw [Token.outerSigns, Token.outermostUses_of_text h, signsIn]

/-- The percent signs of texts in a row, the second counted from where the first ends. -/
theorem percentSigns_append (offset : Nat) (as bs : List Char) :
    percentSigns offset (as ++ bs) =
      percentSigns offset as ++ percentSigns (offset + size as) bs := by
  induction as generalizing offset with
  | nil => rfl
  | cons c as ih =>
    rw [List.cons_append, percentSigns, percentSigns, ih, size_cons, Nat.add_assoc]
    split <;> rfl

/-- A percent sign stands inside the text. -/
theorem mem_percentSigns {offset place : Nat} {cs : List Char}
    (h : place ∈ percentSigns offset cs) :
    offset ≤ place ∧ place < offset + size cs := by
  induction cs generalizing offset with
  | nil => cases h
  | cons c cs ih =>
    have hpos := c.utf8Size_pos
    rw [percentSigns] at h
    rw [size_cons]
    split at h
    · rcases List.mem_cons.1 h with rfl | h
      · omega
      · have := ih h
        omega
    · have := ih h
      omega

section

variable {active : Bool} {offset : Nat} {cs : List Char}

/-- No group begins before the text does. -/
theorem le_offset_of_mem_outermost {u : Use} (h : u ∈ outermost active offset cs) :
    offset ≤ u.offset :=
  (writtenIn_of_mem_usesIn (mem_usesIn_of_mem_outermost h).1).le_offset

/-- No percent sign stands before the text. -/
theorem le_of_mem_signsIn {place : Nat} (h : place ∈ signsIn active offset cs) : offset ≤ place :=
  (mem_percentSigns (List.mem_filter.1 h).1).1

/-- A percent sign outside of groups is one of the signs. -/
theorem signsIn_percent :
    signsIn active offset ('%' :: cs) = offset :: signsIn (!active) (offset + 1) cs := by
  have hsize : '%'.utf8Size = 1 := rfl
  rw [signsIn, outermost_percent, percentSigns, if_pos rfl, hsize, List.filter_cons_of_pos, signsIn]
  apply decide_eq_true
  intro u hu
  have := le_offset_of_mem_outermost hu
  exact .inl (by omega)

/-- The signs inside a group are none of the signs. -/
theorem signsIn_group {inside rest : List Char} (h : closeGroup? cs = some (inside, rest)) :
    signsIn true offset ('{' :: cs) = signsIn true (Use.stop ⟨offset, inside⟩) rest := by
  have hstop : offset + size (Use.written ⟨offset, inside⟩) = Use.stop ⟨offset, inside⟩ :=
    (Use.stop_eq ⟨offset, inside⟩).symm
  rw [signsIn, outermost_group h, group_eq_append h offset, percentSigns_append, hstop,
    List.filter_append, List.filter_eq_nil_iff.2, List.nil_append, signsIn]
  · apply List.filter_congr
    intro place hplace
    have hle := (mem_percentSigns hplace).1
    apply decide_eq_decide.2
    constructor
    · intro hout u hu
      exact hout u (List.mem_cons_of_mem _ hu)
    · intro hout u hu
      rcases List.mem_cons.1 hu with rfl | hu
      · exact .inr hle
      · exact hout u hu
  · intro place hplace hout
    obtain ⟨hle, hlt⟩ := mem_percentSigns hplace
    rw [hstop] at hlt
    rcases of_decide_eq_true hout ⟨offset, inside⟩ List.mem_cons_self with hbefore | hbehind
    · exact Nat.not_lt.2 hle hbefore
    · exact Nat.not_lt.2 hbehind hlt

/-- Any other character, and a brace in text that is not looked at, is passed over. -/
theorem signsIn_plain {c : Char} (hp : c ≠ '%') (hb : ¬(c = '{' ∧ active = true)) :
    signsIn active offset (c :: cs) = signsIn active (offset + c.utf8Size) cs := by
  rw [signsIn, outermost_plain hp hb, percentSigns, if_neg hp, signsIn]

end

/-- Before an outermost group stands an odd number of signs, or an even one if the text begins
between two signs. -/
theorem countP_signsIn_mod_two {active : Bool} {offset : Nat} {cs : List Char} {u : Use}
    (hu : u ∈ outermost active offset cs) :
    (signsIn active offset cs).countP (· < u.offset) % 2 = if active then 0 else 1 := by
  induction active, offset, cs using usesIn_induction with
  | nil active offset => simp [outermost_nil] at hu
  | percent active offset cs ih =>
    rw [outermost_percent] at hu
    have hlt : offset < u.offset := le_offset_of_mem_outermost hu
    rw [signsIn_percent, List.countP_cons_of_pos (by simpa using hlt), Nat.add_mod, ih hu]
    cases active <;> rfl
  | openGroup offset cs h => simp [outermost_openGroup h] at hu
  | group offset cs inside rest h hinside hrest =>
    rw [outermost_group h] at hu
    rw [signsIn_group h]
    rcases List.mem_cons.1 hu with rfl | hu
    · -- all signs that are left stand behind the group
      rw [List.countP_eq_zero.2]
      · rfl
      · intro place hplace
        have hle := le_of_mem_signsIn hplace
        have hlt : offset < Use.stop ⟨offset, inside⟩ := Use.offset_lt_stop ⟨offset, inside⟩
        simp only [decide_eq_true_eq]
        omega
    · exact hrest hu
  | plain active offset c cs hp hb ih =>
    rw [outermost_plain hp hb] at hu
    rw [signsIn_plain hp hb]
    exact ih hu

/-- Every sign stands before an outermost group or behind it. -/
theorem length_signsIn {active : Bool} {offset : Nat} {cs : List Char} {u : Use}
    (hu : u ∈ outermost active offset cs) :
    (signsIn active offset cs).length =
      (signsIn active offset cs).countP (· < u.offset) +
        (signsIn active offset cs).countP (u.stop ≤ ·) := by
  have hlt := u.offset_lt_stop
  rw [List.length_eq_countP_add_countP (· < u.offset)]
  congr 1
  apply List.countP_congr
  intro place hplace
  have := of_decide_eq_true (List.mem_filter.1 hplace).2 u hu
  simp only [decide_eq_true_eq]
  omega

/-- A text without percent signs has no uses. -/
theorem usesIn_of_percent_notMem {cs : List Char} (h : '%' ∉ cs) (offset : Nat) :
    usesIn false offset cs = [] := by
  induction cs generalizing offset with
  | nil => exact usesIn_nil false offset
  | cons c cs ih =>
    rw [usesIn_plain (fun hc => h (by simp [hc])) (by simp)]
    exact ih (fun hc => h (List.mem_cons_of_mem c hc)) _

/-! ### Texts in a script -/

/-- Two tokens of a script that are not the same stand one behind the other. -/
theorem Tiling.apart {script : List Char} {tokens : List Token} (h : Tiling 0 script tokens)
    {t t' : Token} (ht : t ∈ tokens) (ht' : t' ∈ tokens) (hne : t ≠ t') :
    t.stop ≤ t'.start ∨ t'.stop ≤ t.start := by
  have hapart : tokens.Pairwise fun a b => a.stop ≤ b.start ∨ b.stop ≤ a.start :=
    h.chained.pairwise.imp fun hle => .inl hle
  have hsymm : Std.Symm fun a b : Token => a.stop ≤ b.start ∨ b.stop ≤ a.start :=
    ⟨fun _ _ hab => hab.symm⟩
  exact hapart.forall ht ht' hne

/-- An entry that lies inside a token is about one of its uses. -/
theorem use_of_entry_in_token {script : List Char} {tokens : List Token}
    (h : Tiling 0 script tokens) {env : Line → String → Option ValueType} {e : Entry}
    (he : e ∈ entriesOf env tokens) {t : Token} (ht : t ∈ tokens)
    (hstart : t.start ≤ e.span.start) (hstop : e.span.stop ≤ t.stop) :
    ∃ u ∈ t.uses, e.span = u.span := by
  obtain ⟨l, hl, -, u, hu, -, -, hspan⟩ := use_of_mem_entriesOf env h he
  obtain ⟨t', ht', hu⟩ := List.mem_flatMap.1 hu
  have hmem := mem_of_mem_line hl ht'
  have hstart' := Token.start_le_of_mem_uses (h.wellFormed t' hmem) hu
  have hstop' := Token.stop_le_of_mem_uses (h.wellFormed t' hmem) hu
  have hlt := u.offset_lt_stop
  rw [hspan] at hstart hstop
  have heq : t = t' := by
    by_contra hne
    rcases h.apart ht hmem hne with hle | hle
    · exact absurd (Nat.le_trans hstop hle) (by simp only [Use.span]; omega)
    · exact absurd (Nat.le_trans hle hstart) (by simp only [Use.span]; omega)
  rw [heq]
  exact ⟨u, hu, hspan⟩

/-- How the uses of a text of a script stand to its percent signs. -/
structure BehindSigns (source : String) (t : Token) : Prop where
  /-- Before a use that lies in no other stands an odd number of signs. -/
  opened : ∀ u ∈ t.outermostUses, Odd (t.outerSigns.countP (· < u.span.start))
  /-- If the signs come in pairs, at least one of them stands behind it. -/
  closed : Even t.outerSigns.length → ∀ u ∈ t.outermostUses,
    0 < t.outerSigns.countP (u.span.stop ≤ ·)
  /-- A text without signs mentions nothing, and nothing in it is reported. -/
  silent : '%' ∉ t.chars → t.uses = [] ∧
    ∀ (a : Analyzer) (name : String) (report : Report), (a.run name source).1 = .ok report →
      ∀ e ∈ report.entries, ¬(t.span.start ≤ e.span.start ∧ e.span.stop ≤ t.span.stop)

/-- The uses of every text stand behind an odd number of percent signs, and before another one if
the signs of the text come in pairs. -/
theorem text_uses_behind_signs {source : String} {tokens : List Token} {t : Token}
    (h : tokenize source = .ok tokens) (ht : t ∈ tokens) (hx : t.category = .text) :
    BehindSigns source t := by
  have hopened : ∀ u ∈ t.outermostUses, Odd (t.outerSigns.countP (· < u.offset)) := by
    intro u hu
    rw [Token.outermostUses_of_text hx] at hu
    rw [Token.outerSigns_of_text hx, Nat.odd_iff, countP_signsIn_mod_two hu]
    rfl
  refine ⟨hopened, ?_, ?_⟩
  · intro heven u hu
    have hodd := hopened u hu
    rw [Token.outermostUses_of_text hx] at hu
    rw [Token.outerSigns_of_text hx] at heven hodd ⊢
    rw [length_signsIn hu, Nat.even_add'] at heven
    exact (heven.1 hodd).pos
  · intro hsigns
    have huses : t.uses = [] := by
      rw [Token.uses_of_text hx, usesIn_of_percent_notMem hsigns]
    refine ⟨huses, ?_⟩
    rintro a name report hrun e he ⟨hstart, hstop⟩
    obtain ⟨tokens', p, htokens', hreached⟩ := reached_of_run hrun
    obtain rfl : tokens = tokens' := Except.ok.inj (h.symm.trans htokens')
    obtain ⟨env, hentries⟩ := hreached.entries_eq_flatMap (number_pairwise 1 tokens)
    rw [hentries] at he
    obtain ⟨u, hu, -⟩ := use_of_entry_in_token (tiling_of_tokenize h) he ht hstart hstop
    rw [huses] at hu
    cases hu

/-- A script with a text whose percent signs come in pairs: one pair around a variable, with signs
of its own in its name, and one around nothing. -/
def pairedSignsScript : String := "\"%\x7b_a::%\x7b_b\x7d%\x7d% 100%%\""

/-- The variable of that text stands between two of its signs. -/
theorem text_uses_behind_signs_paired :
    ∃ t : Token, tokenize pairedSignsScript = .ok [t] ∧ t.category = .text ∧
      t.outermostUses.map Use.span = [⟨2, 14⟩] ∧ t.outerSigns = [1, 14, 19, 20] ∧
      BehindSigns pairedSignsScript t := by
  have htokens : tokenize pairedSignsScript = .ok
      [⟨.text, 0, [], "\"%\x7b_a::%\x7b_b\x7d%\x7d% 100%%\"".toList⟩] := by cbv
  have huses : Token.uses ⟨.text, 0, [], "\"%\x7b_a::%\x7b_b\x7d%\x7d% 100%%\"".toList⟩ =
      [⟨2, "_a::%\x7b_b\x7d%".toList⟩, ⟨8, "_b".toList⟩] := by cbv
  refine ⟨_, htokens, rfl, ?_, ?_, text_uses_behind_signs htokens List.mem_cons_self rfl⟩
  · rw [Token.outermostUses, huses]
    decide
  · rw [Token.outerSigns, Token.outermostUses, huses]
    decide

/-- A script with a text that has a variable behind its only percent sign. -/
def loneSignScript : String := "send \"100% \x7b_x\x7d\""

/-- The variable behind a percent sign without a partner is found, although no sign stands behind
it, and it is reported. -/
theorem lone_sign_interpolates :
    (∃ t : Token, tokenize loneSignScript = .ok [⟨.word, 0, [], "send".toList⟩, t] ∧
      t.category = .text ∧ t.chars.count '%' = 1 ∧
      t.outermostUses.map Use.span = [⟨11, 15⟩] ∧ t.outerSigns = [9] ∧
      t.outerSigns.countP (15 ≤ ·) = 0) ∧
    ∃ report, (({} : Analyzer).run "test.sk" loneSignScript).1 = .ok report ∧
      report.entries = [⟨"_x", .reference, none, 1, ⟨11, 15⟩⟩] := by
  have htokens : tokenize loneSignScript = .ok [⟨.word, 0, [], "send".toList⟩,
      ⟨.text, 4, [' '], "\"100% \x7b_x\x7d\"".toList⟩] := by cbv
  have huses : Token.uses ⟨.text, 4, [' '], "\"100% \x7b_x\x7d\"".toList⟩ =
      [⟨11, "_x".toList⟩] := by cbv
  have hsigns : Token.outerSigns ⟨.text, 4, [' '], "\"100% \x7b_x\x7d\"".toList⟩ = [9] := by
    rw [Token.outerSigns, Token.outermostUses, huses]
    decide
  have hrun : (({} : Analyzer).run "test.sk" loneSignScript).1 = .ok
      ⟨"test.sk", [⟨"_x", .reference, none, 1, ⟨11, 15⟩⟩]⟩ := by cbv
  refine ⟨⟨_, htokens, rfl, by decide, ?_, hsigns, by rw [hsigns]; decide⟩, _, hrun, rfl⟩
  rw [Token.outermostUses, huses]
  decide

end ScriptHints
