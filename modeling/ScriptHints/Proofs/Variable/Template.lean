import Mathlib
import ScriptHints.Proofs.Token.Extent
import ScriptHints.Proofs.Variable.Uses

/-!
# Templates

A text or a name with variables in it is written down by rule: literal text as it is, and between
two percent signs the variables, whose names may be written by the same rule. This file has these
rules as a data type and proves that scanning what is written gives back the variables that were put
in, each at its place.

* `Template`, `Items` — literal text and interpolations, and what stands in an interpolation.
* `Template.print` — the template as it is written.
* `Template.WellFormed` — literals have no percent sign, and names have balanced braces.
* `Template.spans` — where the variables of a written template stand.
* `spans_usesIn_print` — scanning a written template finds its variables, whatever is behind it.
* `token_uses_of_template` — the uses of a text or a variable that is written by a template.
-/

namespace ScriptHints

open Text

/-! ### Templates and how they are written -/

mutual

/-- Literal text and interpolations, one after the other. -/
inductive Template
  | nil
  | literal (text : List Char) (more : Template)
  /-- What stands between two percent signs. -/
  | interpolation (items : Items) (more : Template)

/-- Plain text and variables, one after the other. -/
inductive Items
  | nil
  | plain (text : List Char) (more : Items)
  /-- A variable between braces, with a name that is itself a template. -/
  | group (name : Template) (more : Items)

end

mutual

/-- The template as it is written. -/
def Template.print : Template → List Char
  | .nil => []
  | .literal text more => text ++ more.print
  | .interpolation items more => '%' :: items.print ++ '%' :: more.print

/-- The inside of an interpolation as it is written. -/
def Items.print : Items → List Char
  | .nil => []
  | .plain text more => text ++ more.print
  | .group name more => '{' :: name.print ++ '}' :: more.print

end

/-- Every brace that closes has one before it that opens, and every brace that opens is closed. -/
def Balanced (text : List Char) : Prop :=
  (∀ front ∈ text.inits, front.count '}' ≤ front.count '{') ∧ text.count '}' = text.count '{'

instance (text : List Char) : Decidable (Balanced text) := inferInstanceAs (Decidable (_ ∧ _))

mutual

/-- Literals have no percent sign. Braces in them need not match. -/
def Template.WellFormed : Template → Prop
  | .nil => True
  | .literal text more => '%' ∉ text ∧ more.WellFormed
  | .interpolation items more => items.WellFormed ∧ more.WellFormed

/-- Plain text has neither percent signs nor braces, and the braces in a name match. -/
def Items.WellFormed : Items → Prop
  | .nil => True
  | .plain text more => ('%' ∉ text ∧ '{' ∉ text ∧ '}' ∉ text) ∧ more.WellFormed
  | .group name more => name.WellFormed ∧ Balanced name.print ∧ more.WellFormed

end

mutual

/-- The regions of the variables in a template that is written from `offset` on, each followed by
those in its name. Literals have none, whatever braces are in them, and neither has a pair of
percent signs with nothing between. -/
def Template.spans (offset : Nat) : Template → List Span
  | .nil => []
  | .literal text more => more.spans (offset + size text)
  | .interpolation items more =>
    items.spans (offset + 1) ++ more.spans (offset + 1 + size items.print + 1)

/-- The regions of the variables inside an interpolation that is written from `offset` on. -/
def Items.spans (offset : Nat) : Items → List Span
  | .nil => []
  | .plain text more => more.spans (offset + size text)
  | .group name more =>
    let stop := offset + 1 + size name.print + 1
    ⟨offset, stop⟩ :: (name.spans (offset + 1) ++ more.spans stop)

end

/-! ### Scanning what is written -/

/-- Braces that match are closed, on one line, by the next brace behind them. -/
theorem Balanced.closes {text : List Char} (h : Balanced text) (hline : '\n' ∉ text) :
    Closes 0 text where
  inLine := hline
  opened front hfront := by
    rw [Nat.zero_add]
    exact h.1 front ((List.mem_inits front text).2 hfront)
  closed := by
    rw [Nat.zero_add]
    exact h.2

/-- Text without signs that mean anything is passed over. -/
theorem usesIn_skip {active : Bool} {text : List Char} (hp : '%' ∉ text)
    (hb : active = true → '{' ∉ text) (offset : Nat) (rest : List Char) :
    usesIn active offset (text ++ rest) = usesIn active (offset + size text) rest := by
  induction text generalizing offset with
  | nil => rfl
  | cons c text ih =>
    have hpercent : c ≠ '%' := fun hc => hp (by simp [hc])
    have hbrace : ¬(c = '{' ∧ active = true) := by
      rintro ⟨rfl, hactive⟩
      exact hb hactive List.mem_cons_self
    have htext : '%' ∉ text := fun hc => hp (List.mem_cons_of_mem c hc)
    have htext' : active = true → '{' ∉ text := fun ha hc => hb ha (List.mem_cons_of_mem c hc)
    rw [List.cons_append, usesIn_plain hpercent hbrace, ih htext htext', size_cons, Nat.add_assoc]

mutual

/-- Scanning a written template finds its variables, and then those of what is behind it. -/
theorem Template.spans_usesIn_print (T : Template) (hT : T.WellFormed) (hline : '\n' ∉ T.print)
    (offset : Nat) (rest : List Char) :
    (usesIn false offset (T.print ++ rest)).map Use.span =
      T.spans offset ++ (usesIn false (offset + size T.print) rest).map Use.span := by
  match T with
  | .nil => rfl
  | .literal text more =>
    obtain ⟨htext, hmore⟩ := hT
    have hline' : '\n' ∉ more.print := fun hn => hline (List.mem_append_right _ hn)
    rw [Template.print, List.append_assoc, @usesIn_skip false _ htext nofun,
      more.spans_usesIn_print hmore hline', Template.spans, size_append, Nat.add_assoc]
  | .interpolation items more =>
    obtain ⟨hitems, hmore⟩ := hT
    have hitems' : '\n' ∉ items.print := fun hn => hline (by simp [Template.print, hn])
    have hmore' : '\n' ∉ more.print := fun hn => hline (by simp [Template.print, hn])
    have hpercent : '%'.utf8Size = 1 := rfl
    have hsize : offset + size (Template.interpolation items more).print =
        offset + 1 + size items.print + 1 + size more.print := by
      simp only [Template.print, size_append, size_cons, hpercent]
      omega
    rw [hsize, Template.print, List.append_assoc, List.cons_append, usesIn_percent, Bool.not_false,
      items.spans_usesIn_print hitems hitems', List.cons_append, usesIn_percent, Bool.not_true,
      more.spans_usesIn_print hmore hmore', Template.spans, List.append_assoc]

/-- Scanning the inside of an interpolation finds its variables, and then those of what is behind
it. -/
theorem Items.spans_usesIn_print (I : Items) (hI : I.WellFormed) (hline : '\n' ∉ I.print)
    (offset : Nat) (rest : List Char) :
    (usesIn true offset (I.print ++ rest)).map Use.span =
      I.spans offset ++ (usesIn true (offset + size I.print) rest).map Use.span := by
  match I with
  | .nil => rfl
  | .plain text more =>
    obtain ⟨⟨hpercent, hbrace, -⟩, hmore⟩ := hI
    have hline' : '\n' ∉ more.print := fun hn => hline (List.mem_append_right _ hn)
    rw [Items.print, List.append_assoc, usesIn_skip hpercent (fun _ => hbrace),
      more.spans_usesIn_print hmore hline', Items.spans, size_append, Nat.add_assoc]
  | .group name more =>
    obtain ⟨hname, hbalanced, hmore⟩ := hI
    have hname' : '\n' ∉ name.print := fun hn => hline (by simp [Items.print, hn])
    have hmore' : '\n' ∉ more.print := fun hn => hline (by simp [Items.print, hn])
    have hclose : closeGroup? (name.print ++ '}' :: (more.print ++ rest)) =
        some (name.print, more.print ++ rest) :=
      closeGroup?_eq_some_iff.2 ⟨hbalanced.closes hname', rfl⟩
    have hopen : '{'.utf8Size = 1 := rfl
    have hclose' : '}'.utf8Size = 1 := rfl
    have hsize : offset + size (Items.group name more).print =
        offset + 1 + size name.print + 1 + size more.print := by
      simp only [Items.print, size_append, size_cons, hopen, hclose']
      omega
    -- the name is scanned on its own, from its first character on
    have hnested := name.spans_usesIn_print hname hname' (offset + 1) []
    rw [List.append_nil, usesIn_nil, List.map_nil, List.append_nil] at hnested
    rw [hsize, Items.print, List.append_assoc, List.cons_append, List.cons_append,
      usesIn_group hclose, Use.withNested, List.map_append, List.map_cons, hnested, Use.stop,
      more.spans_usesIn_print hmore hmore', Items.spans]
    simp [Use.span, Use.stop]

end

/-! ### Tokens written by a template -/

/-- A text written by a template mentions the variables of the template, and a variable with a name
written by one mentions itself and the variables of its name. -/
theorem token_uses_of_template {source : String} {tokens : List Token} {t : Token} {T : Template}
    (h : tokenize source = .ok tokens) (ht : t ∈ tokens) (hT : T.WellFormed) :
    (t.category = .text → t.chars = '"' :: T.print ++ ['"'] →
      t.uses.map Use.span = T.spans (t.start + 1)) ∧
    (t.category = .var → t.chars = '{' :: T.print ++ ['}'] →
      t.uses.map Use.span = t.span :: T.spans (t.start + 1)) := by
  have hwell := (tiling_of_tokenize h).wellFormed t ht
  have hline : ∀ first last, t.category ≠ .newline → t.chars = first :: T.print ++ [last] →
      '\n' ∉ T.print := by
    intro first last hcategory hchars hn
    apply hwell.chars_inLine hcategory
    rw [hchars]
    simp [hn]
  constructor
  · intro hx hchars
    have hline := hline _ _ (by simp [hx]) hchars
    have hmark : usesIn false (t.start + 1 + size T.print) ['"'] = [] := by
      rw [usesIn_plain (by decide) (by simp), usesIn_nil]
    rw [Token.uses_of_text hx, hchars, List.cons_append, usesIn_plain (by decide) (by simp)]
    show (usesIn false (t.start + 1) _).map Use.span = _
    rw [T.spans_usesIn_print hT hline, hmark, List.map_nil, List.append_nil]
  · intro hv hchars
    have hline := hline _ _ (by simp [hv]) hchars
    have hinner : t.inner = T.print := by
      simp [Token.inner, hchars]
    have hname := T.spans_usesIn_print hT hline (t.start + 1) []
    rw [List.append_nil, usesIn_nil, List.map_nil, List.append_nil] at hname
    rw [Token.uses_of_var hv, Use.withNested, List.map_cons, hwell.span_head hv]
    show t.span :: (usesIn false (t.start + 1) t.inner).map Use.span = _
    rw [hinner, hname]

/-- A template with a brace in a literal, an empty interpolation, and an interpolation of a variable
that has another one in its name, next to a character of two bytes. -/
def indexTemplate : Template :=
  .literal "\x7bx\x7d 100".toList <| .interpolation .nil <| .interpolation
    (.group (.literal "_a::".toList
      (.interpolation (.group (.literal "_b".toList .nil) .nil) .nil))
      (.plain "é".toList .nil)) .nil

/-- A script with that template in a text and in a name. -/
def indexScript : String :=
  "\"\x7bx\x7d 100%%%\x7b_a::%\x7b_b\x7d%\x7dé%\" " ++
    "\x7b\x7bx\x7d 100%%%\x7b_a::%\x7b_b\x7d%\x7dé%\x7d"

/-- In that template no literal has a percent sign, and the braces in names match. -/
theorem wellFormed_indexTemplate : indexTemplate.WellFormed :=
  ⟨by decide, trivial,
    ⟨⟨by decide, ⟨⟨by decide, trivial⟩, by decide, trivial⟩, trivial⟩, by decide,
      by decide, trivial⟩,
    trivial⟩

/-- The text mentions the two variables of the template, and the name besides them the variable it
is the name of. -/
theorem token_uses_of_template_indexed :
    ∃ text name : Token, tokenize indexScript = .ok [text, name] ∧ indexTemplate.WellFormed ∧
      text.chars = '"' :: indexTemplate.print ++ ['"'] ∧
      text.uses.map Use.span = [⟨11, 23⟩, ⟨17, 21⟩] ∧
      name.chars = '{' :: indexTemplate.print ++ ['}'] ∧
      name.uses.map Use.span = [⟨28, 55⟩, ⟨39, 51⟩, ⟨45, 49⟩] := by
  have htokens : tokenize indexScript = .ok
      [⟨.text, 0, [], '"' :: indexTemplate.print ++ ['"']⟩,
        ⟨.var, 27, [' '], '{' :: indexTemplate.print ++ ['}']⟩] := by cbv
  have htext := (token_uses_of_template htokens List.mem_cons_self wellFormed_indexTemplate).1
  have hname := (token_uses_of_template htokens (List.mem_cons_of_mem _ List.mem_cons_self)
    wellFormed_indexTemplate).2
  exact ⟨_, _, htokens, wellFormed_indexTemplate, rfl, htext rfl rfl, rfl, hname rfl rfl⟩

end ScriptHints
