import Mathlib.Data.List.TakeWhile
import ScriptHints.Token.Piece

/-!
# How far a lexeme reaches

A literal, a group and a number are cut off a text by recursion on its characters. This file says
what the cut comes to without the recursion: what the part cut off looks like, and why it ends where
it does.

* `TextBody` — the inside of a literal: no line feed, and marks in pairs only.
  `closeText?_eq_some_iff` says that a literal ends at the first mark that is not one of a pair.
* `Closes` — a text that closes a number of groups and not the one around them.
  `closeGroup?_eq_some_iff` says that a group ends at the first brace that balances its opening one.
* `IsNumber` — digits, perhaps with a fraction. `isNumber_scannedNumber` and `prefix_scannedNumber`
  say that the number cut off is the longest one in front of the text.
-/

namespace ScriptHints

open Text

/-! ### Runs of a class -/

section

variable {p : Char → Bool} {run rest : List Char}

/-- Nothing is taken where the first character is outside the class. -/
theorem takeWhile_eq_nil_of_head (h : ∀ c ∈ rest.head?, p c = false) : rest.takeWhile p = [] := by
  cases rest with
  | nil => rfl
  | cons c cs =>
    apply List.takeWhile_cons_of_neg
    simp [h c rfl]

/-- A run of the class is taken whole, and nothing behind it. -/
theorem takeWhile_run (hrun : ∀ c ∈ run, p c = true) (hrest : ∀ c ∈ rest.head?, p c = false) :
    (run ++ rest).takeWhile p = run := by
  rw [List.takeWhile_append_of_pos hrun, takeWhile_eq_nil_of_head hrest, List.append_nil]

/-- What is left behind a run of the class starts outside of it. -/
theorem dropWhile_run (hrun : ∀ c ∈ run, p c = true) (hrest : ∀ c ∈ rest.head?, p c = false) :
    (run ++ rest).dropWhile p = rest := by
  have happ := List.takeWhile_append_dropWhile (p := p) (l := run ++ rest)
  rw [takeWhile_run hrun hrest] at happ
  exact List.append_cancel_left happ

/-- What is left begins with a character that is not in the class. -/
theorem head_dropWhile (p : Char → Bool) (cs : List Char) :
    ∀ c ∈ (cs.dropWhile p).head?, p c = false := by
  intro c hc
  have := List.head?_dropWhile_not p cs
  rw [Option.mem_def.1 hc] at this
  exact this

/-- A run of the class in front of a text is in front of all that is taken. -/
theorem prefix_takeWhile {cs : List Char} (hrun : ∀ c ∈ run, p c = true) (h : run <+: cs) :
    run <+: cs.takeWhile p := by
  obtain ⟨rest, rfl⟩ := h
  rw [List.takeWhile_append_of_pos hrun]
  exact List.prefix_append _ _

end

/-! ### Literals -/

/-- The inside of a literal: no line feed, and marks in pairs only. -/
inductive TextBody : List Char → Prop
  | nil : TextBody []
  | plain {c : Char} {body : List Char} (hmark : c ≠ '"') (hline : c ≠ '\n') (h : TextBody body) :
      TextBody (c :: body)
  | pair {body : List Char} (h : TextBody body) : TextBody ('"' :: '"' :: body)

/-- A literal ends on the line it begins on. -/
theorem TextBody.inLine {body : List Char} (h : TextBody body) : '\n' ∉ body := by
  induction h with
  | nil => exact List.not_mem_nil
  | plain hmark hline h ih => simp [ih, Ne.symm hline]
  | pair h ih => simp [ih]

/-- Two marks in a row do not end a literal. -/
theorem closeText?_pair (cs : List Char) :
    closeText? ('"' :: '"' :: cs) = (closeText? cs).map fun p => ('"' :: '"' :: p.1, p.2) := by
  rw [closeText?]

/-- A mark that is not the first of a pair closes the literal. -/
theorem closeText?_mark {cs : List Char} (h : cs.head? ≠ some '"') :
    closeText? ('"' :: cs) = some (['"'], cs) := by
  rw [closeText?, if_pos rfl]
  rintro cs' - rfl
  exact h rfl

/-- Neither does a character other than a mark or a line feed. -/
theorem closeText?_plain {c : Char} (hmark : c ≠ '"') (hline : c ≠ '\n') (cs : List Char) :
    closeText? (c :: cs) = (closeText? cs).map fun p => (c :: p.1, p.2) := by
  rw [closeText?, if_neg hmark, if_neg hline]
  rintro cs' rfl
  exact absurd rfl hmark

/-- What is cut off as the rest of a literal is a body with a closing mark. -/
theorem textBody_of_closeText? {cs inside rest : List Char}
    (h : closeText? cs = some (inside, rest)) :
    ∃ body, TextBody body ∧ inside = body ++ ['"'] ∧ rest.head? ≠ some '"' := by
  fun_induction closeText? cs generalizing inside with
  | case1 => cases h
  | case2 cs ih =>
    obtain ⟨⟨i, r⟩, hr, he⟩ := Option.map_eq_some_iff.1 h
    obtain ⟨rfl, rfl⟩ := Prod.mk.inj he
    obtain ⟨body, hbody, rfl, hrest⟩ := ih hr
    exact ⟨_, hbody.pair, rfl, hrest⟩
  | case3 cs hpair =>
    obtain ⟨rfl, rfl⟩ := Prod.mk.inj (Option.some.inj h)
    refine ⟨[], .nil, rfl, ?_⟩
    intro hhead
    obtain ⟨cs', rfl⟩ := List.head?_eq_some_iff.1 hhead
    exact hpair cs' rfl rfl
  | case4 => cases h
  | case5 c cs _ hmark hline ih =>
    obtain ⟨⟨i, r⟩, hr, he⟩ := Option.map_eq_some_iff.1 h
    obtain ⟨rfl, rfl⟩ := Prod.mk.inj he
    obtain ⟨body, hbody, rfl, hrest⟩ := ih hr
    exact ⟨_, hbody.plain hmark hline, rfl, hrest⟩

/-- A body with a closing mark is cut off. -/
theorem closeText?_of_textBody {body rest : List Char} (hbody : TextBody body)
    (hrest : rest.head? ≠ some '"') :
    closeText? (body ++ '"' :: rest) = some (body ++ ['"'], rest) := by
  induction hbody with
  | nil => exact closeText?_mark hrest
  | plain hmark hline h ih =>
    rw [List.cons_append, closeText?_plain hmark hline, ih]
    rfl
  | pair h ih =>
    rw [List.cons_append, List.cons_append, closeText?_pair, ih]
    rfl

/-- A literal ends at the first mark that is not one of a pair. -/
theorem closeText?_eq_some_iff {cs inside rest : List Char} :
    closeText? cs = some (inside, rest) ↔
      ∃ body, TextBody body ∧ rest.head? ≠ some '"' ∧ inside = body ++ ['"'] ∧
        cs = body ++ '"' :: rest := by
  constructor
  · intro h
    obtain ⟨body, hbody, rfl, hrest⟩ := textBody_of_closeText? h
    refine ⟨body, hbody, hrest, rfl, ?_⟩
    rw [← append_of_closeText? h, List.append_assoc]
    rfl
  · rintro ⟨body, hbody, hrest, rfl, rfl⟩
    exact closeText?_of_textBody hbody hrest

/-! ### Groups -/

/-- A text on one line that closes `depth` groups besides those it opens, with all groups it closes
opened before. The brace behind it then is the first to close the group around them. -/
structure Closes (depth : Nat) (inside : List Char) : Prop where
  /-- A group ends on the line it begins on. -/
  inLine : '\n' ∉ inside
  /-- At no place are more groups closed than there are. -/
  opened : ∀ front, front <+: inside → front.count '}' ≤ depth + front.count '{'
  /-- In the end all of them are closed. -/
  closed : inside.count '}' = depth + inside.count '{'

/-- A character in front of a text that closes groups: behind a brace that opens one there is one
more to close, and behind a brace that closes one there is one less. -/
theorem closes_cons_iff {c : Char} {inside : List Char} {depth depth' : Nat} (hline : c ≠ '\n')
    (hdepth : depth + [c].count '{' = depth' + [c].count '}') :
    Closes depth (c :: inside) ↔ Closes depth' inside := by
  have hcount : ∀ (x : Char) (front : List Char),
      (c :: front).count x = [c].count x + front.count x := by
    intro x front
    rw [← List.count_append, List.singleton_append]
  constructor
  · intro h
    refine ⟨fun hmem => h.inLine (List.mem_cons_of_mem c hmem), ?_, ?_⟩
    · intro front hfront
      have := h.opened (c :: front) ((List.prefix_cons_inj c).2 hfront)
      rw [hcount '}' front, hcount '{' front] at this
      omega
    · have := h.closed
      rw [hcount '}' inside, hcount '{' inside] at this
      omega
  · intro h
    refine ⟨?_, ?_, ?_⟩
    · intro hmem
      rcases List.mem_cons.1 hmem with heq | hmem
      · exact hline heq.symm
      · exact h.inLine hmem
    · intro front hfront
      rcases List.prefix_cons_iff.1 hfront with rfl | ⟨later, rfl, hlater⟩
      · exact Nat.zero_le _
      · have := h.opened later hlater
        rw [hcount '}' later, hcount '{' later]
        omega
    · have := h.closed
      rw [hcount '}' inside, hcount '{' inside]
      omega

/-- An empty text closes no groups. -/
theorem closes_nil_iff {depth : Nat} : Closes depth [] ↔ depth = 0 := by
  constructor
  · intro h
    exact h.closed.symm
  · rintro rfl
    refine ⟨List.not_mem_nil, ?_, rfl⟩
    intro front hfront
    rw [List.prefix_nil.1 hfront]
    exact Nat.le_refl _

/-- Where no group is open inside, a closing brace is one too many. -/
theorem not_closes_zero_cons (inside : List Char) : ¬Closes 0 ('}' :: inside) := by
  intro h
  have := h.opened ['}'] ((List.prefix_cons_inj _).2 List.nil_prefix)
  simp at this

/-- The group around the given text goes on behind `c`, which is no line feed and does not close
it. -/
theorem splitGroup?_step {c : Char} {cs inside rest : List Char} {depth depth' : Nat}
    (hline : c ≠ '\n') (hdepth : depth + [c].count '{' = depth' + [c].count '}')
    (ih : ∀ inside, splitGroup? depth' cs = some (inside, rest) ↔
      Closes depth' inside ∧ cs = inside ++ '}' :: rest) :
    (splitGroup? depth' cs).map (fun p => (c :: p.1, p.2)) = some (inside, rest) ↔
      Closes depth inside ∧ c :: cs = inside ++ '}' :: rest := by
  constructor
  · intro h
    obtain ⟨⟨i, r⟩, hr, he⟩ := Option.map_eq_some_iff.1 h
    obtain ⟨rfl, rfl⟩ := Prod.mk.inj he
    obtain ⟨hcloses, rfl⟩ := (ih i).1 hr
    exact ⟨(closes_cons_iff hline hdepth).2 hcloses, rfl⟩
  · rintro ⟨hcloses, happ⟩
    cases inside with
    | nil =>
      -- then `c` would be the brace that closes the group, with none open inside
      obtain ⟨rfl, -⟩ := List.cons.inj happ
      obtain rfl := closes_nil_iff.1 hcloses
      simp at hdepth
    | cons x inside =>
      obtain ⟨rfl, rfl⟩ := List.cons.inj happ
      rw [(ih inside).2 ⟨(closes_cons_iff hline hdepth).1 hcloses, rfl⟩]
      rfl

/-- A group is found exactly if it is closed on its line, and it ends at the first brace that closes
it. -/
theorem splitGroup?_eq_some_iff {depth : Nat} {cs inside rest : List Char} :
    splitGroup? depth cs = some (inside, rest) ↔
      Closes depth inside ∧ cs = inside ++ '}' :: rest := by
  induction cs generalizing depth inside with
  | nil => simp [splitGroup?]
  | cons c cs ih =>
    by_cases hline : c = '\n'
    · subst hline
      rw [splitGroup?_newline]
      constructor
      · intro h
        cases h
      · rintro ⟨hcloses, happ⟩
        cases inside with
        | nil => cases (List.cons.inj happ).1
        | cons x inside =>
          obtain ⟨rfl, -⟩ := List.cons.inj happ
          exact absurd List.mem_cons_self hcloses.inLine
    by_cases hopen : c = '{'
    · subst hopen
      rw [splitGroup?_open]
      exact splitGroup?_step hline (by simp) fun inside => ih
    by_cases hclose : c = '}'
    · subst hclose
      cases depth with
      | zero =>
        rw [splitGroup?_close_zero]
        constructor
        · intro h
          obtain ⟨rfl, rfl⟩ := Prod.mk.inj (Option.some.inj h)
          exact ⟨closes_nil_iff.2 rfl, rfl⟩
        · rintro ⟨hcloses, happ⟩
          cases inside with
          | nil => rw [(List.cons.inj happ).2]
          | cons x inside =>
            obtain ⟨rfl, -⟩ := List.cons.inj happ
            exact absurd hcloses (not_closes_zero_cons inside)
      | succ depth =>
        rw [splitGroup?_close_succ]
        exact splitGroup?_step hline (by simp) fun inside => ih
    rw [splitGroup?_plain hline hclose hopen]
    exact splitGroup?_step hline (by simp [hopen, hclose]) fun inside => ih

/-- A group ends at the first brace that balances its opening one. -/
theorem closeGroup?_eq_some_iff {cs inside rest : List Char} :
    closeGroup? cs = some (inside, rest) ↔ Closes 0 inside ∧ cs = inside ++ '}' :: rest :=
  splitGroup?_eq_some_iff

/-! ### Numbers -/

/-- Digits, perhaps with a point and further digits behind them. -/
inductive IsNumber : List Char → Prop
  | whole {ds : List Char} (hne : ds ≠ []) (hds : ∀ d ∈ ds, d.isDigit = true) : IsNumber ds
  | fraction {ds fs : List Char} (hne : ds ≠ []) (hds : ∀ d ∈ ds, d.isDigit = true)
      (hne' : fs ≠ []) (hfs : ∀ d ∈ fs, d.isDigit = true) : IsNumber (ds ++ '.' :: fs)

/-- A point with a digit behind it begins a fraction, which takes all digits that follow. -/
theorem splitFraction_point {d : Char} (h : d.isDigit = true) (cs : List Char) :
    splitFraction ('.' :: d :: cs) =
      ('.' :: d :: cs.takeWhile Char.isDigit, cs.dropWhile Char.isDigit) := by
  rw [splitFraction, if_pos h]

/-- A fraction is a point with digits behind it. -/
theorem fst_splitFraction (cs : List Char) :
    (splitFraction cs).1 = [] ∨
      ∃ fs, (splitFraction cs).1 = '.' :: fs ∧ fs ≠ [] ∧ ∀ d ∈ fs, d.isDigit = true := by
  unfold splitFraction
  split
  · rename_i d cs
    split
    · rename_i hd
      refine .inr ⟨_, rfl, by simp, ?_⟩
      intro x hx
      rcases List.mem_cons.1 hx with rfl | hx
      · exact hd
      · exact List.mem_takeWhile_imp hx
    · exact .inl rfl
  · exact .inl rfl

/-- The number at the front of a text that starts with digits. -/
def scannedNumber (cs : List Char) : List Char :=
  cs.takeWhile Char.isDigit ++ (splitFraction (cs.dropWhile Char.isDigit)).1

/-- A number and what is left make up the text. -/
theorem scannedNumber_append (cs : List Char) :
    scannedNumber cs ++ (splitFraction (cs.dropWhile Char.isDigit)).2 = cs := by
  rw [scannedNumber, List.append_assoc, splitFraction_append, List.takeWhile_append_dropWhile]

/-- What is taken for a number has the form of one. -/
theorem isNumber_scannedNumber {c : Char} (hc : c.isDigit = true) (cs : List Char) :
    IsNumber (scannedNumber (c :: cs)) := by
  have hne : (c :: cs).takeWhile Char.isDigit ≠ [] := by
    rw [List.takeWhile_cons_of_pos hc]
    exact List.cons_ne_nil _ _
  have hds : ∀ d ∈ (c :: cs).takeWhile Char.isDigit, d.isDigit = true := by
    intro d hd
    exact List.mem_takeWhile_imp hd
  unfold scannedNumber
  rcases fst_splitFraction ((c :: cs).dropWhile Char.isDigit) with hnil | ⟨fs, hfs, hne', hdigits⟩
  · rw [hnil, List.append_nil]
    exact .whole hne hds
  · rw [hfs]
    exact .fraction hne hds hne' hdigits

/-- No number at the front of a text is longer than the one that is cut off. -/
theorem prefix_scannedNumber {n cs : List Char} (hn : IsNumber n) (h : n <+: cs) :
    n <+: scannedNumber cs := by
  cases hn with
  | whole hne hds =>
    exact (prefix_takeWhile hds h).trans (List.prefix_append _ _)
  | @fraction ds fs hne hds hne' hfs =>
    obtain ⟨rest, rfl⟩ := h
    obtain ⟨d, fs, rfl⟩ := List.exists_cons_of_ne_nil hne'
    have hpoint : ∀ c ∈ ('.' :: (d :: fs ++ rest)).head?, c.isDigit = false := by
      intro c hc
      obtain rfl := Option.some.inj hc
      rfl
    -- the digits before the point are all there are, and those behind it are in the fraction
    rw [List.append_assoc, List.cons_append, scannedNumber, takeWhile_run hds hpoint,
      dropWhile_run hds hpoint, List.cons_append, splitFraction_point (hfs d List.mem_cons_self)]
    simp only [List.prefix_append_right_inj, List.prefix_cons_inj]
    apply prefix_takeWhile
    · intro x hx
      exact hfs x (List.mem_cons_of_mem d hx)
    · exact List.prefix_append _ _

/-- A number starts with a digit. -/
theorem IsNumber.starts {n : List Char} (h : IsNumber n) (rest : List Char) :
    ∃ c cs, n ++ rest = c :: cs ∧ c.isDigit = true := by
  cases h with
  | whole hne hds =>
    obtain ⟨d, ds, rfl⟩ := List.exists_cons_of_ne_nil hne
    exact ⟨d, ds ++ rest, rfl, hds d List.mem_cons_self⟩
  | fraction hne hds =>
    obtain ⟨d, ds, rfl⟩ := List.exists_cons_of_ne_nil hne
    exact ⟨d, _, rfl, hds d List.mem_cons_self⟩

/-- A number that what stands behind it cannot extend is the one that is cut off. -/
theorem scannedNumber_eq {n rest : List Char} (hn : IsNumber n)
    (hmax : ∀ more, more <+: rest → IsNumber (n ++ more) → more = []) :
    scannedNumber (n ++ rest) = n := by
  obtain ⟨more, hmore⟩ := prefix_scannedNumber hn (List.prefix_append n rest)
  obtain ⟨c, cs, happ, hc⟩ := hn.starts rest
  have hnumber : IsNumber (n ++ more) := by
    rw [hmore, happ]
    exact isNumber_scannedNumber hc cs
  have hprefix : more <+: rest := by
    apply (List.prefix_append_right_inj n).1
    rw [hmore]
    exact ⟨_, scannedNumber_append (n ++ rest)⟩
  rw [← hmore, hmax more hprefix hnumber, List.append_nil]

end ScriptHints
