import Mathlib
import ScriptHints.Report.Json

/-!
# The grammar of JSON documents

Which texts are written forms of a value. White space between the parts is free, and a character of
a string has several forms, but none of them is a character below the space: no document has one
between the marks of a string.

Of the numbers of JSON only the natural ones are here, and an escaped code is always the code of a
character.

* `Value` — the values of documents.
* `IsChar`, `IsString`, `IsNatural`, `IsSequence`, `IsMember`, `IsValue` — the grammar.
* `insideStrings` — the characters of a text that stand in strings, found without the grammar.
* `IsValue.tidy` — in a document none of them is below the space.
-/

namespace ScriptHints.Json

/-- A value of a JSON document. -/
inductive Value
  | null
  | string (s : String)
  | number (n : Nat)
  | array (items : List Value)
  | object (members : List (String × Value))

/-! ### The grammar -/

/-- White space of a document. -/
def isSpace (c : Char) : Bool := [' ', '\t', '\n', '\r'].contains c

/-- Escapes of a single character: what is behind the backslash, and what it means. -/
def shortEscapes : List (Char × Char) :=
  [('"', '"'), ('\\', '\\'), ('/', '/'), ('b', '\x08'), ('f', '\x0c'), ('n', '\n'), ('r', '\r'),
    ('t', '\t')]

/-- The value of a hexadecimal digit. -/
def hexDigit? (d : Char) : Option Nat :=
  if d.isDigit then some (d.toNat - 48)
  else if 'a' ≤ d ∧ d ≤ 'f' then some (d.toNat - 87)
  else if 'A' ≤ d ∧ d ≤ 'F' then some (d.toNat - 55)
  else none

/-- The value of hexadecimal digits. -/
def hexValue? (digits : List Char) : Option Nat :=
  digits.foldlM (fun n d => (hexDigit? d).map (16 * n + ·)) 0

/-- `IsChar c text`: in a string, the text is a form of the character. -/
inductive IsChar (c : Char) : List Char → Prop
  | plain (hmark : c ≠ '"') (hslash : c ≠ '\\') (hcontrol : 0x20 ≤ c.toNat) : IsChar c [c]
  | short {x : Char} (hx : shortEscapes.lookup x = some c) : IsChar c ['\\', x]
  | code {digits : List Char} (hlength : digits.length = 4)
      (hvalue : hexValue? digits = some c.toNat) : IsChar c ('\\' :: 'u' :: digits)

/-- What stands between the marks of a string. -/
inductive IsString : List Char → List Char → Prop
  | nil : IsString [] []
  | cons {c : Char} {s text cs : List Char} (hc : IsChar c text) (h : IsString s cs) :
      IsString (c :: s) (text ++ cs)

/-- A natural number in decimal digits, without needless zeros. -/
structure IsNatural (n : Nat) (digits : List Char) : Prop where
  ne_nil : digits ≠ []
  isDigit : ∀ d ∈ digits, d.isDigit = true
  no_zero : digits.head? = some '0' → digits = ['0']
  value : Nat.ofDigitChars 10 digits 0 = n

section

variable {α : Type} (element : α → List Char → Prop) (close : Char)

/-- Items with commas between them and a bracket behind them. -/
inductive IsSequence : List α → List Char → Prop
  | last {a : α} {text space : List Char} (h : element a text)
      (hspace : ∀ c ∈ space, isSpace c = true) : IsSequence [a] (text ++ (space ++ [close]))
  | more {a : α} {as : List α} {text space space' cs : List Char} (h : element a text)
      (hspace : ∀ c ∈ space, isSpace c = true) (hspace' : ∀ c ∈ space', isSpace c = true)
      (hrest : IsSequence as cs) : IsSequence (a :: as) (text ++ (space ++ ',' :: (space' ++ cs)))

/-- What stands behind an opening bracket: perhaps some items, and the closing bracket. -/
inductive IsEnclosed : List α → List Char → Prop
  | none {space : List Char} (hspace : ∀ c ∈ space, isSpace c = true) :
      IsEnclosed [] (space ++ [close])
  | some {as : List α} {space cs : List Char} (hspace : ∀ c ∈ space, isSpace c = true)
      (h : IsSequence element close as cs) : IsEnclosed as (space ++ cs)

end

/-- A member of an object: its key, a colon and its value. -/
inductive IsMember (value : Value → List Char → Prop) : String × Value → List Char → Prop
  | mk {key : String} {v : Value} {ks space space' text : List Char} (hkey : IsString key.toList ks)
      (hspace : ∀ c ∈ space, isSpace c = true) (hspace' : ∀ c ∈ space', isSpace c = true)
      (hv : value v text) :
      IsMember value (key, v) ('"' :: (ks ++ '"' :: (space ++ ':' :: (space' ++ text))))

/-- `IsValue v text`: the text is a form of the value. -/
inductive IsValue : Value → List Char → Prop
  | null : IsValue .null ['n', 'u', 'l', 'l']
  | string {s : String} {cs : List Char} (h : IsString s.toList cs) :
      IsValue (.string s) ('"' :: (cs ++ ['"']))
  | number {n : Nat} {digits : List Char} (h : IsNatural n digits) : IsValue (.number n) digits
  | array {items : List Value} {cs : List Char} (h : IsEnclosed IsValue ']' items cs) :
      IsValue (.array items) ('[' :: cs)
  | object {members : List (String × Value)} {cs : List Char}
      (h : IsEnclosed (IsMember IsValue) '}' members cs) : IsValue (.object members) ('{' :: cs)

/-! ### How forms begin -/

/-- White space is no digit. -/
theorem isDigit_of_isSpace {c : Char} (h : isSpace c = true) : c.isDigit = false := by
  simp only [isSpace, List.contains_iff_mem, List.mem_cons, List.not_mem_nil, or_false] at h
  rcases h with rfl | rfl | rfl | rfl <;> decide

/-- A value begins with neither white space nor the end of an array. -/
theorem IsValue.exists_head {v : Value} {cs : List Char} (h : IsValue v cs) :
    ∃ c cs', cs = c :: cs' ∧ isSpace c = false ∧ c ≠ ']' := by
  cases h with
  | number h =>
    obtain ⟨d, digits, rfl⟩ := List.exists_cons_of_ne_nil h.ne_nil
    have hd := h.isDigit d List.mem_cons_self
    refine ⟨d, digits, rfl, ?_, ?_⟩
    · rw [Bool.eq_false_iff]
      intro hspace
      rw [isDigit_of_isSpace hspace] at hd
      cases hd
    · rintro rfl
      cases hd
  | _ => exact ⟨_, _, rfl, by decide, by decide⟩

/-! ### Strings of a document -/

/-- Where in a document a character stands. -/
inductive Place
  | outside
  /-- In a string. -/
  | inside
  /-- In a string, right behind a backslash. -/
  | escaped
  deriving DecidableEq, Repr

/-- The place behind a character. -/
def Place.next : Place → Char → Place
  | .outside, c => if c = '"' then .inside else .outside
  | .inside, c => if c = '"' then .outside else if c = '\\' then .escaped else .inside
  | .escaped, _ => .inside

/-- The characters of a document that stand in strings, as they are written. -/
def insideStrings : Place → List Char → List Char
  | _, [] => []
  | .outside, c :: cs => insideStrings (Place.outside.next c) cs
  | place, c :: cs => c :: insideStrings (place.next c) cs

/-- From one place to another, nothing below the space is in a string. -/
structure Tidy (start : Place) (cs : List Char) (stop : Place) : Prop where
  stop : cs.foldl Place.next start = stop
  control : ∀ c ∈ insideStrings start cs, 0x20 ≤ c.toNat

section

variable {p q r : Place} {c : Char} {s cs ds : List Char}

/-- The strings of a document go on where the text before has left off. -/
theorem insideStrings_append (p : Place) (cs ds : List Char) :
    insideStrings p (cs ++ ds) =
      insideStrings p cs ++ insideStrings (cs.foldl Place.next p) ds := by
  induction cs generalizing p with
  | nil => rfl
  | cons c cs ih => cases p <;> simp [insideStrings, ih]

/-- Tidy texts in a row are tidy. -/
theorem Tidy.append (h : Tidy p cs q) (h' : Tidy q ds r) : Tidy p (cs ++ ds) r where
  stop := by rw [List.foldl_append, h.stop, h'.stop]
  control c hc := by
    rw [insideStrings_append, h.stop] at hc
    rcases List.mem_append.1 hc with hc | hc
    · exact h.control c hc
    · exact h'.control c hc

/-- A character that is not below the space may be anywhere. -/
theorem tidy_single (p : Place) (h : 0x20 ≤ c.toNat) : Tidy p [c] (p.next c) := by
  refine ⟨rfl, fun x hx => ?_⟩
  cases p with
  | outside => cases hx
  | inside => rwa [List.mem_singleton.1 hx]
  | escaped => rwa [List.mem_singleton.1 hx]

/-- Text without marks is in no string. -/
theorem tidy_outside (h : '"' ∉ cs) : Tidy .outside cs .outside := by
  have hall : cs.foldl Place.next .outside = .outside ∧ insideStrings .outside cs = [] := by
    induction cs with
    | nil => exact ⟨rfl, rfl⟩
    | cons c cs ih =>
      rw [List.mem_cons, not_or] at h
      have hnext : Place.outside.next c = .outside := if_neg (Ne.symm h.1)
      rw [List.foldl_cons, insideStrings, hnext]
      exact ih h.2
  exact ⟨hall.1, by rw [hall.2]; nofun⟩

/-- Text that neither ends a string nor escapes anything. -/
theorem tidy_inside (h : ∀ c ∈ cs, c ≠ '"' ∧ c ≠ '\\' ∧ 0x20 ≤ c.toNat) :
    Tidy .inside cs .inside := by
  have hall : cs.foldl Place.next .inside = .inside ∧ insideStrings .inside cs = cs := by
    induction cs with
    | nil => exact ⟨rfl, rfl⟩
    | cons c cs ih =>
      obtain ⟨⟨hmark, hslash, -⟩, hcs⟩ := List.forall_mem_cons.1 h
      have hnext : Place.inside.next c = .inside := by rw [Place.next, if_neg hmark, if_neg hslash]
      obtain ⟨hstop, hinside⟩ := ih hcs
      rw [List.foldl_cons, insideStrings, hnext, hinside]
      · exact ⟨hstop, rfl⟩
      · nofun
  exact ⟨hall.1, by rw [hall.2]; exact fun c hc => (h c hc).2.2⟩

/-- Hexadecimal digits are ordinary characters. -/
theorem plain_of_hexDigit? {d : Char} {n : Nat} (h : hexDigit? d = some n) :
    d ≠ '"' ∧ d ≠ '\\' ∧ 0x20 ≤ d.toNat := by
  refine ⟨?_, ?_, ?_⟩
  · rintro rfl
    cases h
  · rintro rfl
    cases h
  · by_contra hlow
    have hnone : ∀ k < 0x20, hexDigit? (Char.ofNat k) = none := by decide
    have hd := hnone d.toNat (Nat.lt_of_not_le hlow)
    rw [Char.ofNat_toNat, h] at hd
    cases hd

/-- Where digits have a value, each of them has one. -/
theorem exists_hexDigit? {digits : List Char} {m n : Nat}
    (h : digits.foldlM (fun n d => (hexDigit? d).map (16 * n + ·)) m = some n) :
    ∀ d ∈ digits, ∃ k, hexDigit? d = some k := by
  induction digits generalizing m with
  | nil => nofun
  | cons d digits ih =>
    rw [List.foldlM_cons] at h
    obtain ⟨m', hd, hrest⟩ := Option.bind_eq_some_iff.1 h
    obtain ⟨k, hk, -⟩ := Option.map_eq_some_iff.1 hd
    exact List.forall_mem_cons.2 ⟨⟨k, hk⟩, ih hrest⟩

/-- No form of a character has a control character in it or ends the string. -/
theorem IsChar.tidy (h : IsChar c cs) : Tidy .inside cs .inside := by
  cases h with
  | plain hmark hslash hcontrol =>
    apply tidy_inside
    rintro x hx
    rw [List.mem_singleton.1 hx]
    exact ⟨hmark, hslash, hcontrol⟩
  | @short x hx =>
    have hkeys : shortEscapes.all (0x20 ≤ ·.1.toNat) = true := by decide
    have hmem : (x, c) ∈ shortEscapes := by
      obtain ⟨front, back, happ, -⟩ := List.lookup_eq_some_iff.1 hx
      rw [happ]
      simp
    have hlow : 0x20 ≤ x.toNat := by simpa using List.all_eq_true.1 hkeys _ hmem
    exact (tidy_single .inside (by decide)).append (tidy_single .escaped hlow)
  | @code digits hlength hvalue =>
    have hescape : Tidy .inside ['\\', 'u'] .inside :=
      (tidy_single .inside (by decide)).append (tidy_single .escaped (by decide))
    refine hescape.append (tidy_inside fun d hd => ?_)
    obtain ⟨k, hk⟩ := exists_hexDigit? hvalue d hd
    exact plain_of_hexDigit? hk

/-- A string with its marks is tidy. -/
theorem IsString.tidy (h : IsString s cs) : Tidy .outside ('"' :: (cs ++ ['"'])) .outside := by
  have hbody : Tidy .inside cs .inside := by
    induction h with
    | nil => exact ⟨rfl, nofun⟩
    | cons hc _ ih => exact hc.tidy.append ih
  exact (tidy_single .outside (by decide)).append
    (hbody.append (tidy_single .inside (by decide)))

/-- White space outside strings is tidy. -/
theorem tidy_space {space : List Char} (h : ∀ c ∈ space, isSpace c = true) :
    Tidy .outside space .outside := by
  apply tidy_outside
  intro hmark
  exact absurd (h _ hmark) (by decide)

/-- So is any sign that does not begin a string. -/
theorem tidy_sign (h : c ≠ '"') : Tidy .outside [c] .outside :=
  tidy_outside (by simpa using h.symm)

variable {α : Type} {element : α → List Char → Prop} {close : Char} {as : List α} {n : Nat}

/-- What is between brackets is tidy if the items are. -/
theorem IsEnclosed.tidy (hclose : close ≠ '"')
    (helement : ∀ a text, element a text → text.length ≤ n → Tidy .outside text .outside)
    (h : IsEnclosed element close as cs) (hlength : cs.length ≤ n) :
    Tidy .outside cs .outside := by
  cases h with
  | none hspace => exact (tidy_space hspace).append (tidy_sign hclose)
  | @some as space cs hspace h =>
    rw [List.length_append] at hlength
    refine (tidy_space hspace).append ?_
    replace hlength : cs.length ≤ n := by omega
    induction h with
    | @last a text space h hspace =>
      rw [List.length_append] at hlength
      exact (helement a text h (by omega)).append ((tidy_space hspace).append (tidy_sign hclose))
    | @more a as text space space' cs h hspace hspace' _ ih =>
      simp only [List.length_append, List.length_cons] at hlength
      have hcomma := tidy_sign (c := ',') (by decide)
      exact (helement a text h (by omega)).append ((tidy_space hspace).append
        (hcomma.append ((tidy_space hspace').append (ih (by omega)))))

/-- In a document nothing below the space is in a string. -/
theorem IsValue.tidy {v : Value} (h : IsValue v cs) (hlength : cs.length ≤ n) :
    Tidy .outside cs .outside := by
  induction n generalizing v cs with
  | zero =>
    obtain ⟨c, cs', rfl, -⟩ := h.exists_head
    cases hlength
  | succ n ih =>
    cases h with
    | null => exact tidy_outside (by decide)
    | string h => exact h.tidy
    | number h =>
      apply tidy_outside
      intro hmark
      exact absurd (h.isDigit _ hmark) (by decide)
    | array h =>
      refine (tidy_sign (by decide)).append (h.tidy (n := n) (by decide) ?_ ?_)
      · exact fun v text hv hle => ih hv hle
      · exact Nat.le_of_succ_le_succ hlength
    | object h =>
      refine (tidy_sign (by decide)).append (h.tidy (n := n) (by decide) ?_ ?_)
      · rintro p text ⟨hkey, hspace, hspace', hv⟩ hle
        have hcolon := tidy_sign (c := ':') (by decide)
        simp only [List.length_cons, List.length_append] at hle
        have hmember := hkey.tidy.append ((tidy_space hspace).append
          (hcolon.append ((tidy_space hspace').append (ih hv (by omega)))))
        simpa using hmember
      · exact Nat.le_of_succ_le_succ hlength

end
end ScriptHints.Json
