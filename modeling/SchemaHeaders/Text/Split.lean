/-!
# Pieces of a text between separators

`pieces sep` cuts a text at every separator. There is always a first piece, so the result
is that piece and the list of the others; `pieces_append` says how the pieces of two texts
joined by a separator are those of the one and then those of the other, and a text without
the separator is the one piece of it (`pieces_of_sep_not_mem`).
-/

namespace SchemaHeaders.Text

/-- The piece before the first separator, and the pieces that follow a separator each. -/
def pieces (sep : Char) : List Char → List Char × List (List Char)
  | [] => ([], [])
  | c :: cs =>
    let (p, ps) := pieces sep cs
    if c = sep then ([], p :: ps) else (c :: p, ps)

theorem pieces_append (sep : Char) (a b : List Char) :
    pieces sep (a ++ sep :: b) =
      ((pieces sep a).1, (pieces sep a).2 ++ (pieces sep b).1 :: (pieces sep b).2) := by
  induction a with
  | nil => simp [pieces]
  | cons c cs ih =>
    simp only [List.cons_append, pieces, ih]
    split <;> simp

theorem pieces_of_sep_not_mem {sep : Char} {cs : List Char} (h : sep ∉ cs) :
    pieces sep cs = (cs, []) := by
  induction cs with
  | nil => rfl
  | cons c cs ih =>
    simp only [List.mem_cons, not_or] at h
    rw [pieces, ih h.2]
    exact if_neg (Ne.symm h.1)

end SchemaHeaders.Text
