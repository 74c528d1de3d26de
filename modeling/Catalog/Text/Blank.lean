/-!
# Blanks, trimming and splitting

A *blank* is a character of white space in any script, or one of the separator controls. Trimming
removes blanks from the ends of a text, `words` cuts it at runs of blanks, and `splitOn` cuts it
at every occurrence of one character, which gives one part more than there are occurrences.
-/

namespace Catalog.Text

/-- A blank: a space, a line or paragraph end, a tab or a separator control. -/
def isBlank (c : Char) : Bool :=
  let n := c.toNat
  (9 ≤ n && n ≤ 13) || (28 ≤ n && n ≤ 32) || n == 0x85 || n == 0xA0 || n == 0x1680 ||
    (0x2000 ≤ n && n ≤ 0x200A) || n == 0x2028 || n == 0x2029 || n == 0x202F || n == 0x205F ||
    n == 0x3000

/-- Removes from the end all characters of a class. -/
def dropEndWhile (p : Char → Bool) (cs : List Char) : List Char :=
  (cs.reverse.dropWhile p).reverse

/-- Removes from both ends all characters of a class. -/
def trimWhile (p : Char → Bool) (cs : List Char) : List Char :=
  dropEndWhile p (cs.dropWhile p)

/-- The text without the blanks at its ends. -/
def trim (s : String) : String := String.ofList (trimWhile isBlank s.toList)

/-- The maximal runs of characters that are no blanks; `current` is the run under way. -/
def wordsFrom (current : List Char) : List Char → List (List Char)
  | [] => if current.isEmpty then [] else [current]
  | c :: cs =>
    if isBlank c then
      if current.isEmpty then wordsFrom [] cs else current :: wordsFrom [] cs
    else wordsFrom (current ++ [c]) cs

/-- The words of a text: its maximal runs of characters that are no blanks. -/
def words (s : String) : List String := (wordsFrom [] s.toList).map String.ofList

/-- The parts between the occurrences of a character, at least one. -/
def splitChars (sep : Char) : List Char → List (List Char)
  | [] => [[]]
  | c :: cs =>
    if c = sep then [] :: splitChars sep cs
    else
      match splitChars sep cs with
      | [] => [[c]]
      | part :: parts => (c :: part) :: parts

/-- The parts of a text between the occurrences of a character, at least one. -/
def splitOn (sep : Char) (s : String) : List String :=
  (splitChars sep s.toList).map String.ofList

/-- Splitting gives at least one part. -/
theorem splitChars_ne_nil (sep : Char) (cs : List Char) : splitChars sep cs ≠ [] := by
  cases cs with
  | nil => simp [splitChars]
  | cons c cs =>
    simp only [splitChars]
    split
    · simp
    · split <;> simp

/-- The parts, joined with the character they were split at, give the text back. -/
theorem intercalate_splitChars (sep : Char) (cs : List Char) :
    [sep].intercalate (splitChars sep cs) = cs := by
  induction cs with
  | nil => rfl
  | cons c cs ih =>
    simp only [splitChars]
    cases h : splitChars sep cs with
    | nil => exact absurd h (splitChars_ne_nil sep cs)
    | cons part parts =>
      rw [h] at ih
      split
      · next hc =>
        subst hc
        rw [← ih]
        simp [List.intercalate, List.intersperse]
      · cases parts with
        | nil => simpa [List.intercalate, List.intersperse] using ih
        | cons q qs => simpa [List.intercalate, List.intersperse] using ih

theorem splitChars_cons {sep c : Char} (h : c ≠ sep) (cs : List Char) :
    splitChars sep (c :: cs) = (splitChars sep cs).modifyHead (c :: ·) := by
  rw [splitChars, if_neg h]
  cases hcs : splitChars sep cs with
  | nil => exact absurd hcs (splitChars_ne_nil sep cs)
  | cons part parts => rfl

/-- What holds no separator stays together with what follows it up to the first one. -/
theorem splitChars_append_of_not_mem {sep : Char} {cs : List Char} (h : sep ∉ cs)
    (rest : List Char) :
    splitChars sep (cs ++ rest) = (splitChars sep rest).modifyHead (cs ++ ·) := by
  induction cs with
  | nil =>
    rw [List.nil_append]
    cases splitChars sep rest <;> rfl
  | cons c cs ih =>
    rw [List.mem_cons, not_or] at h
    rw [List.cons_append, splitChars_cons (Ne.symm h.1), ih h.2]
    cases splitChars sep rest <;> rfl

theorem splitChars_of_not_mem {sep : Char} {cs : List Char} (h : sep ∉ cs) :
    splitChars sep cs = [cs] := by
  have whole := splitChars_append_of_not_mem h []
  rwa [List.append_nil, splitChars, List.modifyHead_cons, List.append_nil] at whole

/-- What stands before the first separator is the first part. -/
theorem splitChars_append {sep : Char} {cs : List Char} (h : sep ∉ cs) (rest : List Char) :
    splitChars sep (cs ++ sep :: rest) = cs :: splitChars sep rest := by
  rw [splitChars_append_of_not_mem h, splitChars, if_pos rfl, List.modifyHead_cons,
    List.append_nil]

end Catalog.Text
