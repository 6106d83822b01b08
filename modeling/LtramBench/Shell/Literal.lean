import LtramBench.Shell.Fields

/-!
# String literals of `awk`

A literal starts after a double quote and ends at the next double quote that is
not escaped.  Inside it a backslash and what follows denote one character; which
one, and how many characters it takes, is left open.  A line cannot end inside a
literal.
-/

namespace LtramBench.Shell

/-- The body of the literal at the front of a program text, up to its closing
quote, and the text behind that quote. -/
def readLiteral : Text → Option (Text × Text)
  | [] => none
  | [char] => if char = '"' then some ([], []) else none
  | char :: next :: rest =>
      if char = '"' then some ([], next :: rest)
      else if char = '\n' then none
      else if char = '\\' then
        (readLiteral rest).map fun found => (char :: next :: found.1, found.2)
      else (readLiteral (next :: rest)).map fun found => (char :: found.1, found.2)

/-- No literal is still open when the line ends.  The first argument says whether
the text starts inside one.  Outside a literal a `#` starts a comment. -/
def literalsClosed : Bool → Text → Bool
  | inside, [] => !inside
  | false, char :: rest =>
      if char = '"' then literalsClosed true rest
      else if char = '#' ∨ char = '\n' then true
      else literalsClosed false rest
  | true, [char] => char = '"'
  | true, char :: next :: rest =>
      if char = '"' then literalsClosed false (next :: rest)
      else if char = '\n' then false
      else if char = '\\' then literalsClosed true rest
      else literalsClosed true (next :: rest)

/-- What a body denotes.  `escape` gives the character for the text behind a
backslash, and how many characters after the first one belong to it; the first
argument counts the characters that the last escape still covers. -/
def decode (escape : Text → Char × Nat) : Nat → Text → Text
  | _, [] => []
  | skip + 1, _ :: rest => decode escape skip rest
  | 0, char :: rest =>
      if char = '\\' then (escape rest).1 :: decode escape ((escape rest).2 + 1) rest
      else char :: decode escape 0 rest

/-- A body in which every backslash has something to escape, and every quote is
escaped. -/
inductive Closed : Text → Prop
  | nil : Closed []
  | plain {char : Char} {rest : Text} :
      char ≠ '"' → char ≠ '\\' → Closed rest → Closed (char :: rest)
  | escape {next : Char} {rest : Text} : Closed rest → Closed ('\\' :: next :: rest)

/-- A literal that is found ends at a quote, and its body is closed. -/
theorem readLiteral_eq_some {text body rest : Text} (found : readLiteral text = some (body, rest)) :
    text = body ++ '"' :: rest ∧ Closed body := by
  fun_induction readLiteral text generalizing body with
  | case1 => cases found
  | case2 =>
      cases found
      exact ⟨rfl, .nil⟩
  | case3 char other => cases found
  | case4 next others =>
      cases found
      exact ⟨rfl, .nil⟩
  | case5 => cases found
  | case6 next others _ _ ih =>
      obtain ⟨⟨inner, behind⟩, innerFound, parts⟩ := Option.map_eq_some_iff.mp found
      cases parts
      obtain ⟨rfl, closed⟩ := ih innerFound
      exact ⟨rfl, .escape closed⟩
  | case7 char next others quote _ backslash ih =>
      obtain ⟨⟨inner, behind⟩, innerFound, parts⟩ := Option.map_eq_some_iff.mp found
      cases parts
      obtain ⟨textEq, closed⟩ := ih innerFound
      exact ⟨by rw [textEq]; rfl, .plain quote backslash closed⟩

/-- Without a backslash there is no quote inside a body. -/
theorem Closed.quote_not_mem {text : Text} (closed : Closed text) (absent : '\\' ∉ text) :
    '"' ∉ text := by
  induction closed with
  | nil => exact List.not_mem_nil
  | plain quote _ _ ih =>
      rw [List.mem_cons, not_or] at absent ⊢
      exact ⟨Ne.symm quote, ih absent.2⟩
  | escape _ _ => exact absurd List.mem_cons_self absent

/-- A text without quote, backslash and line end is the body of its literal. -/
theorem readLiteral_append {text : Text}
    (plain : ∀ char ∈ text, char ≠ '"' ∧ char ≠ '\\' ∧ char ≠ '\n') (rest : Text) :
    readLiteral (text ++ '"' :: rest) = some (text, rest) := by
  induction text with
  | nil => cases rest <;> rfl
  | cons char text ih =>
      obtain ⟨quote, backslash, newline⟩ := plain char List.mem_cons_self
      have inner := ih fun other member => plain other (List.mem_cons_of_mem char member)
      obtain ⟨next, others, shape⟩ : ∃ next others, text ++ '"' :: rest = next :: others := by
        cases text <;> exact ⟨_, _, rfl⟩
      rw [List.cons_append, shape, readLiteral, if_neg quote, if_neg newline, if_neg backslash,
        ← shape, inner]
      rfl

section Decode

variable (escape : Text → Char × Nat)

/-- A text without backslash denotes itself. -/
theorem decode_of_not_mem {text : Text} (absent : '\\' ∉ text) : decode escape 0 text = text := by
  induction text with
  | nil => rfl
  | cons char rest ih =>
      rw [List.mem_cons, not_or] at absent
      rw [decode, if_neg (Ne.symm absent.1), ih absent.2]

theorem length_decode_le (skip : Nat) (text : Text) :
    (decode escape skip text).length ≤ text.length := by
  fun_induction decode escape skip text with
  | case1 => exact Nat.le_refl _
  | case2 skip char rest ih => exact Nat.le_succ_of_le ih
  | case3 rest ih => exact Nat.succ_le_succ ih
  | case4 char rest _ ih => exact Nat.succ_le_succ ih

/-- A body with a backslash denotes a shorter text. -/
theorem length_decode_lt {text : Text} (closed : Closed text) (escaped : '\\' ∈ text) :
    (decode escape 0 text).length < text.length := by
  induction closed with
  | nil => cases escaped
  | plain _ other _ ih =>
      rcases List.mem_cons.mp escaped with same | later
      · exact absurd same.symm other
      · rw [decode, if_neg other]
        exact Nat.succ_lt_succ (ih later)
  | @escape next rest _ _ =>
      rw [decode, if_pos rfl, decode]
      exact Nat.succ_lt_succ (Nat.lt_succ_of_le (length_decode_le escape _ rest))

/-- A closed body denotes itself exactly when it has no backslash. -/
theorem decode_eq_self_iff {text : Text} (closed : Closed text) :
    decode escape 0 text = text ↔ '\\' ∉ text := by
  constructor
  · intro same escaped
    have shorter := length_decode_lt escape closed escaped
    rw [same] at shorter
    exact Nat.lt_irrefl _ shorter
  · exact decode_of_not_mem escape

end Decode

end LtramBench.Shell
