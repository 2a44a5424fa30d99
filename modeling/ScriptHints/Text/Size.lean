/-!
# Sizes of texts

Script text is read character by character, while spans count the bytes of its UTF-8 form.
`Text.size` is the bridge between the two: the number of bytes a list of characters takes.
-/

namespace ScriptHints.Text

/-- Bytes taken by the UTF-8 form of a text. -/
def size : List Char → Nat
  | [] => 0
  | c :: cs => c.utf8Size + size cs

/-- An empty text takes no bytes. -/
@[simp] theorem size_nil : size [] = 0 := rfl

/-- A character adds the bytes of its UTF-8 form. -/
@[simp] theorem size_cons (c : Char) (cs : List Char) : size (c :: cs) = c.utf8Size + size cs := rfl

/-- Sizes add up. -/
@[simp] theorem size_append (as bs : List Char) : size (as ++ bs) = size as + size bs := by
  induction as with
  | nil => rw [List.nil_append, size_nil, Nat.zero_add]
  | cons c as ih => rw [List.cons_append, size_cons, size_cons, ih, Nat.add_assoc]

/-- A text takes at least one byte per character. -/
theorem length_le_size (cs : List Char) : cs.length ≤ size cs := by
  induction cs with
  | nil => exact Nat.le_refl 0
  | cons c cs ih =>
    have := c.utf8Size_pos
    simp only [List.length_cons, size_cons]
    omega

end ScriptHints.Text
