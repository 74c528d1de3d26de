import Catalog.Proofs.Query.Comparison
import Catalog.Text.PatternReader
import Mathlib.Data.List.Forall2

/-!
# Wildcard patterns

A text fits a wildcard pattern if it is the parts between the signs, in their order, with any texts
before, between and after them (`Fits`). Taking the first occurrence of each part leaves the most of
the text (`exists_afterFirst?`), so it finds the parts if they can be found at all
(`occur_iff_spread`), whatever characters count as the same.

A wildcard pattern can also be written as a regular expression (`regexp`): special characters after
a backslash, and `.*` between the parts. It is read back character by character
(`readFrom_regexp`) and, tried from a place, goes through the parts from there
(`isSome_run_parts`), so that it is found in the very texts that fit (`exists_found_iff_fits`).
`Leaf.like_exact` says what this means for fields.
-/

namespace Catalog

namespace Text.Wildcard

variable {same : Char → Char → Bool} {part cs rest : List Char} {parts : List (List Char)}

/-! ## Parts spread over a text -/

/-- A text begins with a part, whose characters are the same, and goes on with the rest. -/
def Leads (same : Char → Char → Bool) (part cs rest : List Char) : Prop :=
  ∃ found, List.Forall₂ (fun p c => same p c = true) part found ∧ cs = found ++ rest

/-- Parts are spread over a text: they occur in it one after the other, with gaps. -/
inductive Spread (same : Char → Char → Bool) : List (List Char) → List Char → Prop where
  | nil (cs : List Char) : Spread same [] cs
  | cons {part : List Char} {parts : List (List Char)} (gap : List Char) {cs rest : List Char}
      (hpart : Leads same part cs rest) (h : Spread same parts rest) :
      Spread same (part :: parts) (gap ++ cs)

theorem afterPart?_eq_some : afterPart? same part cs = some rest ↔ Leads same part cs rest := by
  induction part generalizing cs with
  | nil =>
    rw [afterPart?, Option.some.injEq]
    constructor
    · rintro rfl
      exact ⟨[], .nil, rfl⟩
    · rintro ⟨found, hfound, rfl⟩
      cases hfound
      rfl
  | cons p part ih =>
    cases cs with
    | nil =>
      refine iff_of_false (fun h => by cases h) ?_
      rintro ⟨found, hfound, h⟩
      cases hfound
      cases h
    | cons c cs =>
      rw [afterPart?]
      constructor
      · intro h
        split at h
        · next hsame =>
          obtain ⟨found, hfound, rfl⟩ := ih.1 h
          exact ⟨c :: found, .cons hsame hfound, rfl⟩
        · cases h
      · rintro ⟨found, hfound, h⟩
        cases hfound with
        | cons hsame hfound =>
          obtain ⟨rfl, rfl⟩ := List.cons.inj h
          rw [if_pos hsame, ih]
          exact ⟨_, hfound, rfl⟩

theorem exists_of_afterFirst? (h : afterFirst? same part cs = some rest) :
    ∃ gap cs', cs = gap ++ cs' ∧ Leads same part cs' rest := by
  induction cs with
  | nil => exact ⟨[], [], rfl, afterPart?_eq_some.1 h⟩
  | cons c cs ih =>
    rw [afterFirst?] at h
    split at h
    · next rest' hpart =>
      cases h
      exact ⟨[], c :: cs, rfl, afterPart?_eq_some.1 hpart⟩
    · obtain ⟨gap, cs', rfl, hlead⟩ := ih h
      exact ⟨c :: gap, cs', rfl, hlead⟩

theorem Leads.length (h : Leads same part cs rest) : cs.length = part.length + rest.length := by
  obtain ⟨found, hfound, rfl⟩ := h
  rw [List.length_append, hfound.length_eq]

theorem Leads.suffix (h : Leads same part cs rest) : rest <:+ cs := by
  obtain ⟨found, -, rfl⟩ := h
  exact List.suffix_append found rest

/-- The first occurrence of a part leaves the most of a text. -/
theorem exists_afterFirst? (gap : List Char) {cs' : List Char} (h : Leads same part cs' rest) :
    ∃ most, afterFirst? same part (gap ++ cs') = some most ∧ rest <:+ most := by
  -- An occurrence at the beginning leaves more than one further on, since both are as long.
  have here {cs : List Char} (hcs : cs' <:+ cs) {most : List Char}
      (hmost : afterPart? same part cs = some most) : rest <:+ most := by
    have hlead := afterPart?_eq_some.1 hmost
    refine List.suffix_of_suffix_length_le (h.suffix.trans hcs) hlead.suffix ?_
    have := hcs.length_le
    rw [h.length, hlead.length] at this
    omega
  induction gap with
  | nil =>
    refine ⟨rest, ?_, List.suffix_rfl⟩
    have hpart := afterPart?_eq_some.2 h
    cases cs' with
    | nil => exact hpart
    | cons c cs' => rw [List.nil_append, afterFirst?, hpart]
  | cons c gap ih =>
    rw [List.cons_append, afterFirst?]
    split
    · next most hmost => exact ⟨most, rfl, here (List.suffix_append (c :: gap) cs') hmost⟩
    · exact ih

theorem Spread.of_suffix (h : Spread same parts rest) (hrest : rest <:+ cs) :
    Spread same parts cs := by
  obtain ⟨before, rfl⟩ := hrest
  cases h with
  | nil => exact .nil _
  | cons gap hpart h =>
    rw [← List.append_assoc]
    exact .cons (before ++ gap) hpart h

theorem occur_cons : occur same (part :: parts) cs = true ↔
    ∃ rest, afterFirst? same part cs = some rest ∧ occur same parts rest = true := by
  rw [occur, List.foldlM_cons]
  cases afterFirst? same part cs with
  | none => exact iff_of_false (fun h => by cases h) fun ⟨_, h, _⟩ => by cases h
  | some rest => exact ⟨fun h => ⟨rest, rfl, h⟩, fun ⟨_, h, h'⟩ => by cases h; exact h'⟩

/-- Taking the first occurrence of each part finds them one after the other if there is any way. -/
theorem occur_iff_spread : occur same parts cs = true ↔ Spread same parts cs := by
  induction parts generalizing cs with
  | nil => exact iff_of_true rfl (.nil cs)
  | cons part parts ih =>
    rw [occur_cons]
    constructor
    · rintro ⟨rest, hfirst, h⟩
      obtain ⟨gap, cs', rfl, hpart⟩ := exists_of_afterFirst? hfirst
      exact .cons gap hpart (ih.1 h)
    · intro h
      cases h with
      | cons gap hpart h =>
        obtain ⟨most, hmost, hsuffix⟩ := exists_afterFirst? gap hpart
        exact ⟨most, hmost, ih.2 (h.of_suffix hsuffix)⟩

/-! ## Texts that fit -/

/-- A text fits a wildcard pattern: it is the parts between the signs, in their order, with a text
    before each of them and one after the last. -/
def Fits (pattern s : String) : Prop :=
  ∃ (gaps : List String) (rest : String), gaps.length = (splitOn '%' pattern).length ∧
    s = String.join (List.zipWith (· ++ ·) gaps (splitOn '%' pattern)) ++ rest

/-- Characters that are the same if they are equal. -/
abbrev equal (a b : Char) : Bool := a == b

theorem leads_equal : Leads equal part cs rest ↔ cs = part ++ rest := by
  have same : (fun p c => equal p c = true) = Eq := by
    funext p c
    rw [equal, beq_iff_eq]
  rw [Leads, same, List.forall₂_eq_eq_eq, exists_eq_left']

theorem spread_equal_iff {parts : List String} {s : String} :
    Spread equal (parts.map String.toList) s.toList ↔ ∃ (gaps : List String) (rest : String),
      gaps.length = parts.length ∧
        s = String.join (List.zipWith (· ++ ·) gaps parts) ++ rest := by
  induction parts generalizing s with
  | nil =>
    refine iff_of_true (.nil _) ⟨[], s, rfl, ?_⟩
    simp
  | cons part parts ih =>
    rw [List.map_cons]
    constructor
    · intro h
      generalize hcs : s.toList = cs at h
      cases h with
      | @cons _ _ gap cs' after hpart h =>
        obtain rfl := leads_equal.1 hpart
        rw [← String.toList_ofList (l := after), ih] at h
        obtain ⟨gaps, rest, hlength, hjoin⟩ := h
        refine ⟨String.ofList gap :: gaps, rest, congrArg (· + 1) hlength, ?_⟩
        rw [List.zipWith_cons_cons, String.join_cons, String.append_assoc, ← hjoin]
        exact String.toList_injective (by simp [hcs])
    · rintro ⟨gaps, rest, hlength, rfl⟩
      cases gaps with
      | nil => cases hlength
      | cons gap gaps =>
        rw [List.zipWith_cons_cons, String.join_cons]
        simp only [String.toList_append, List.append_assoc]
        refine .cons gap.toList (leads_equal.2 rfl) ?_
        rw [← String.toList_append, ih]
        exact ⟨gaps, rest, Nat.succ.inj hlength, rfl⟩

theorem matched_iff_fits {pattern s : String} :
    matched false pattern s = true ↔ Fits pattern s := by
  have hparts : splitChars '%' pattern.toList = (splitOn '%' pattern).map String.toList := by
    rw [splitOn, List.map_map]
    simp
  change occur equal (splitChars '%' pattern.toList) s.toList = true ↔ _
  rw [occur_iff_spread, hparts, spread_equal_iff, Fits]

/-! ## The regular expression of a wildcard pattern -/

/-- The characters that are written after a backslash in a regular expression: those that may mean
    something else there. -/
def special : List Char :=
  ['(', ')', '[', ']', '{', '}', '?', '*', '+', '-', '|', '^', '$', '\\', '.', '&', '~', '#', ' ',
    '\t', '\n', '\r', '\x0b', '\x0c']

/-- A character as it is written in a regular expression. -/
def escaped (c : Char) : List Char := if c ∈ special then ['\\', c] else [c]

/-- A regular expression for a wildcard pattern: its parts as they are, with any characters between
    them. -/
def regexp (cs : List Char) : List Char :=
  ".*".toList.intercalate ((splitChars '%' cs).map fun part => part.flatMap escaped)

theorem regexp_percent (cs : List Char) : regexp ('%' :: cs) = '.' :: '*' :: regexp cs := by
  rw [regexp, regexp, splitChars, if_pos rfl]
  cases h : splitChars '%' cs with
  | nil => exact absurd h (splitChars_ne_nil '%' cs)
  | cons part parts => rfl

theorem regexp_cons {c : Char} (hc : c ≠ '%') (cs : List Char) :
    regexp (c :: cs) = escaped c ++ regexp cs := by
  rw [regexp, regexp, splitChars_cons hc]
  cases h : splitChars '%' cs with
  | nil => exact absurd h (splitChars_ne_nil '%' cs)
  | cons part parts =>
    cases parts with
    | nil => simp [List.intercalate]
    | cons part' parts => simp [List.intercalate]

open PatternReader

/-- The mark that a character is written as. -/
def mark (c : Char) : Mark := if c ∈ special then .escaped c else .plain c

theorem marks_escaped (c : Char) (cs : List Char) :
    marks (escaped c ++ cs) = mark c :: marks cs := by
  rw [escaped, mark]
  split
  · rfl
  · next h =>
    have hc : c ≠ '\\' := by
      rintro rfl
      exact h (by decide)
    rw [List.singleton_append, marks]
    · exact fun h => absurd h hc
    · exact fun _ _ h => absurd h hc

/-- Special characters are no letters or digits, and so have no other meaning after a backslash. -/
theorem meaningless_of_mem_special {c : Char} (hc : c ∈ special) : category? c = none ∧
    anchor? c = none ∧ control? c = none ∧ isOctal c = false ∧ c.isAlphanum = false := by
  have all : (special.all fun c => decide (category? c = none ∧ anchor? c = none ∧
      control? c = none ∧ isOctal c = false ∧ c.isAlphanum = false)) = true := by decide
  exact of_decide_eq_true (List.all_eq_true.1 all c hc)

/-- Every character is read as itself. -/
theorem piece_mark (flags : PatternFlags) (c : Char) (rest : List Mark) :
    piece flags (mark c) rest = .ok (charItem flags c.toNat, rest) := by
  rw [mark]
  split
  · next h =>
    obtain ⟨hcategory, hanchor, hcontrol, hoctal, halpha⟩ := meaningless_of_mem_special h
    have apart (d : Char) (hd : d.isAlphanum = true) : c ≠ d := by
      rintro rfl
      exact absurd (halpha.symm.trans hd) (by decide)
    have hcode : outerCode? c rest = some (c.toNat, rest) := by
      rw [outerCode?, commonCode?, hcontrol]
      simp [apart '0' rfl, apart 'x' rfl, apart 'u' rfl, apart 'U' rfl, hoctal, halpha]
    rw [piece]
    dsimp only
    rw [hcategory, hanchor, hcode]
    rfl
  · next h =>
    have apart {d : Char} (hd : d ∈ special) : c ≠ d := by
      rintro rfl
      exact h hd
    rw [piece]
    all_goals exact apart (by decide)

/-- What a character of a wildcard pattern is read as. -/
def partOf (c : Char) : Part :=
  if c = '%' then .repeated (.repeated (.one .all) .more 0 none) else .item (.one (.one false c))

/-- A quantifier is not followed by a sign that changes its preference. -/
theorem quantifier_marks_regexp (cs : List Char) : quantifier 0 none (marks (regexp cs)) =
    (.quantifier .more 0 none, marks (regexp cs)) := by
  cases cs with
  | nil => rfl
  | cons c cs =>
    by_cases hc : c = '%'
    · subst hc
      rw [regexp_percent]
      rfl
    · rw [regexp_cons hc, marks_escaped, mark]
      split
      · rfl
      · next h =>
        have apart {d : Char} (hd : d ∈ special) : Mark.plain c ≠ .plain d := by
          rintro ⟨⟩
          exact h hd
        rw [quantifier]
        · exact fun _ h => apart (by decide) (List.cons.inj h).1
        · exact fun _ h => apart (by decide) (List.cons.inj h).1

/-- One mark that is a piece by itself. -/
theorem readFrom_step {s s' : Stack} {m : Mark} {ms : List Mark} {p : Piece}
    (hpiece : piece s.inner.flags m ms = .ok (p, ms)) (hstep : s.step? p = some s') :
    readFrom s 0 (m :: ms) = readFrom s' 0 ms := by
  rw [readFrom, hpiece]
  change (do
    let s ← orMalformed (s.step? p)
    readFrom s (ms.length - ms.length) ms) = _
  rw [hstep, Nat.sub_self]
  rfl

/-- The groups under way after the expression for a wildcard pattern. -/
def after (s : Stack) (cs : List Char) : Stack :=
  { s with inner := { s.inner with parts := (cs.map partOf).reverse ++ s.inner.parts } }

theorem after_cons (s : Stack) (c : Char) (cs : List Char) :
    after { s with inner := s.inner.add (partOf c) } cs = after s (c :: cs) := by
  rw [after, after, List.map_cons, List.reverse_cons, List.append_assoc]
  rfl

/-- The expression is read character by character of the pattern. -/
theorem readFrom_regexp (cs : List Char) {s : Stack} (hs : s.inner.flags = { dotAll := true }) :
    readFrom s 0 (marks (regexp cs)) = .ok (after s cs) := by
  induction cs generalizing s with
  | nil => rfl
  | cons c cs ih =>
    rw [← after_cons]
    refine Eq.trans ?_ (ih hs)
    by_cases hc : c = '%'
    · -- The point is read as an item, which the sign after it then repeats.
      subst hc
      have hquantifier (flags : PatternFlags) : piece flags (.plain '*') (marks (regexp cs)) =
          .ok (.quantifier .more 0 none, marks (regexp cs)) :=
        congrArg Except.ok (quantifier_marks_regexp cs)
      have hpoint : piece s.inner.flags (.plain '.') (.plain '*' :: marks (regexp cs)) =
          .ok (.item (.one .all), .plain '*' :: marks (regexp cs)) := by
        rw [hs]
        rfl
      rw [regexp_percent]
      exact (readFrom_step hpoint rfl).trans (readFrom_step (hquantifier _) rfl)
    · have hstep : s.step? (charItem s.inner.flags c.toNat) =
          some { s with inner := s.inner.add (partOf c) } := by
        rw [hs, partOf, if_neg hc]
        rfl
      rw [regexp_cons hc, marks_escaped]
      exact readFrom_step (piece_mark _ c _) hstep

theorem readPlain_regexp (cs : List Char) :
    Pattern.readPlain { dotAll := true } (regexp cs) = .ok (inSequence (cs.map partOf)) := by
  rw [Pattern.readPlain, readFrom_regexp cs rfl]
  change Except.ok (oneOf _ [((cs.map partOf).reverse ++ []).reverse]) = _
  rw [List.append_nil, List.reverse_reverse]
  rfl

/-! ## Finding the regular expression -/

theorem run_inSequence_cons (x : Part) (xs : List Part) (p : Place) (k : Rest) :
    (inSequence (x :: xs)).run p k = x.pattern.run p fun q => (inSequence xs).run q k := by
  cases xs with
  | nil => rfl
  | cons => rfl

theorem holds_one {c d : Char} : (CharClass.one false c).holds d = true ↔ d = c := by
  rw [CharClass.holds, CharClass.one]
  simp [CharClass.holdsItem, Char.toNat_inj]

theorem isSome_run_one {c : Char} {p : Place} {k : Rest} {K : List Char → Prop}
    (hk : ∀ q, (k q).isSome = true ↔ K q.after) :
    ((Pattern.one (.one false c)).run p k).isSome = true ↔
      ∃ rest, p.after = c :: rest ∧ K rest := by
  obtain ⟨offset, before, cs⟩ := p
  cases cs with
  | nil => exact iff_of_false (fun h => by cases h) fun ⟨_, h, _⟩ => by cases h
  | cons d cs =>
    rw [Pattern.run]
    dsimp only
    split
    · next h =>
      obtain rfl := holds_one.1 h
      rw [hk]
      exact ⟨fun h => ⟨cs, rfl, h⟩, fun ⟨_, h, h'⟩ => by cases h; exact h'⟩
    · next h =>
      refine iff_of_false (fun h => by cases h) ?_
      rintro ⟨_, ⟨⟩, -⟩
      exact h (holds_one.2 rfl)

theorem isSome_upTo_succ (round : Matcher) (n : Nat) (p : Place) (k : Rest) :
    (Matcher.upTo round (n + 1) p k).isSome = true ↔
      (round p fun q => if q.offset = p.offset then k q else
        Matcher.upTo round n q k).isSome = true ∨ (k p).isSome = true := by
  rw [Matcher.upTo]
  cases round p fun q => if q.offset = p.offset then k q else Matcher.upTo round n q k with
  | some e => exact iff_of_true rfl (.inl rfl)
  | none => exact (or_iff_right (fun h => by cases h)).symm

section Suffix

variable {K : List Char → Prop}

theorem exists_suffix_nil : (∃ rest, rest <:+ [] ∧ K rest) ↔ K [] := by
  simp only [List.suffix_nil, exists_eq_left]

theorem exists_suffix_cons {c : Char} : (∃ rest, rest <:+ c :: cs ∧ K rest) ↔
    K (c :: cs) ∨ ∃ rest, rest <:+ cs ∧ K rest := by
  simp only [List.suffix_cons_iff, or_and_right, exists_or, exists_eq_left]

variable {k : Rest} (hk : ∀ q, (k q).isSome = true ↔ K q.after)
include hk

/-- Any number of characters, with enough rounds for all there are. -/
theorem isSome_upTo_all (n : Nat) {p : Place} (hn : p.after.length ≤ n) :
    (Matcher.upTo (Pattern.one .all).run n p k).isSome = true ↔
      ∃ rest, rest <:+ p.after ∧ K rest := by
  induction n generalizing p with
  | zero =>
    rw [Matcher.upTo, hk, List.length_eq_zero_iff.1 (Nat.le_zero.1 hn), exists_suffix_nil]
  | succ n ih =>
    obtain ⟨offset, before, cs⟩ := p
    cases cs with
    | nil => exact (hk _).trans exists_suffix_nil.symm
    | cons c cs =>
      -- Every round but the last consumes a character, and so counts.
      have round : ((Pattern.one .all).run ⟨offset, before, c :: cs⟩ fun q =>
          if q.offset = offset then k q else Matcher.upTo (Pattern.one .all).run n q k) =
          Matcher.upTo (Pattern.one .all).run n ⟨offset + 1, some c, cs⟩ k :=
        if_neg (Nat.succ_ne_self offset)
      have more := ih (p := ⟨offset + 1, some c, cs⟩) (Nat.le_of_succ_le_succ hn)
      rw [isSome_upTo_succ, round, more, hk, exists_suffix_cons, or_comm]

theorem any_allFrom (offset : Nat) (before : Option Char) (cs : List Char) :
    ((Place.allFrom offset before cs).any fun p => (k p).isSome) = true ↔
      ∃ rest, rest <:+ cs ∧ K rest := by
  induction cs generalizing offset before with
  | nil =>
    rw [Place.allFrom, List.any_cons, List.any_nil, Bool.or_false, hk, exists_suffix_nil]
  | cons c cs ih =>
    rw [Place.allFrom, List.any_cons, Bool.or_eq_true, hk, ih, exists_suffix_cons]

end Suffix

/-- A text begins with the first of several parts, and the others are spread over what follows. -/
def Begins : List (List Char) → List Char → Prop
  | [], _ => True
  | part :: parts, cs => ∃ rest, cs = part ++ rest ∧ Spread equal parts rest

theorem spread_iff_begins (hparts : parts ≠ []) :
    Spread equal parts cs ↔ ∃ rest, rest <:+ cs ∧ Begins parts rest := by
  cases parts with
  | nil => exact absurd rfl hparts
  | cons part parts =>
    constructor
    · intro h
      cases h with
      | cons gap hpart h =>
        exact ⟨_, List.suffix_append gap _, _, leads_equal.1 hpart, h⟩
    · rintro ⟨_, ⟨gap, rfl⟩, rest, hpart, h⟩
      exact .cons gap (leads_equal.2 hpart) h

theorem begins_nil_cons : Begins ([] :: parts) cs ↔ Spread equal parts cs :=
  ⟨fun ⟨_, h, h'⟩ => h ▸ h', fun h => ⟨cs, rfl, h⟩⟩

theorem begins_cons_cons {c : Char} :
    Begins ((c :: part) :: parts) cs ↔ ∃ rest, cs = c :: rest ∧ Begins (part :: parts) rest := by
  constructor
  · rintro ⟨rest, rfl, h⟩
    exact ⟨part ++ rest, rfl, rest, rfl, h⟩
  · rintro ⟨_, rfl, rest, rfl, h⟩
    exact ⟨rest, rfl, h⟩

/-- From a place the expression goes through the parts, the first of them right there. -/
theorem isSome_run_parts (pattern : List Char) (p : Place) :
    ((inSequence (pattern.map partOf)).run p some).isSome = true ↔
      Begins (splitChars '%' pattern) p.after := by
  induction pattern generalizing p with
  | nil => exact iff_of_true rfl ⟨p.after, rfl, .nil _⟩
  | cons c pattern ih =>
    rw [List.map_cons, run_inSequence_cons]
    by_cases hc : c = '%'
    · subst hc
      rw [splitChars, if_pos rfl, begins_nil_cons,
        spread_iff_begins (splitChars_ne_nil '%' pattern)]
      exact isSome_upTo_all ih (p.after.length + 1) (Nat.le_succ _)
    · rw [partOf, if_neg hc, splitChars_cons hc]
      refine (isSome_run_one ih).trans ?_
      cases h : splitChars '%' pattern with
      | nil => exact absurd h (splitChars_ne_nil '%' pattern)
      | cons part parts => rw [List.modifyHead_cons, begins_cons_cons]

/-- The parts of a wildcard pattern, written as they are with any characters between them, are a
    regular expression that is found in the texts that fit the pattern. -/
theorem exists_found_iff_fits (pattern : String) : ∃ x,
    Pattern.readPlain { dotAll := true } (regexp pattern.toList) = .ok x ∧
      ∀ s, x.found s = true ↔ Fits pattern s := by
  refine ⟨_, readPlain_regexp pattern.toList, fun s => ?_⟩
  rw [← matched_iff_fits, Pattern.found, Place.all, any_allFrom (isSome_run_parts pattern.toList),
    ← spread_iff_begins (splitChars_ne_nil '%' _), ← occur_iff_spread]
  rfl

end Text.Wildcard

/-! ## Leaves -/

namespace Leaf

open Text Wildcard

/-- The leaf that compares a field with a pattern. -/
def withPattern (path : String) (operator : Operator) (pattern : String) : Leaf :=
  { path, operator, operand := .text pattern }

theorem itemwise_like (path pattern : String) : (withPattern path .like pattern).Itemwise where
  apt := .of_mem (by decide)
  notNegated := rfl
  notWhole := rfl

theorem test_like (path pattern : String) (v : Value) :
    (withPattern path .like pattern).test v = textWith (matched false pattern) v := rfl

theorem holds_like (path pattern : String) (doc : Value) :
    ∃ answer, (withPattern path .like pattern).holds doc = .ok answer := by
  rw [(itemwise_like path pattern).holds_eq]
  refine Condition.anyM_total fun v _ => ?_
  rw [test_like]
  cases v <;> exact ⟨_, rfl⟩

theorem matches_like (path pattern : String) (doc : Value) :
    (withPattern path .like pattern).Matches doc ↔
      ∃ s, Value.text s ∈ (Value.orNull (doc.path? path)).items ∧ Fits pattern s := by
  obtain ⟨answer, hanswer⟩ := holds_like path pattern doc
  have hany := (itemwise_like path pattern).holds_eq doc ▸ hanswer
  rw [Matches, hanswer]
  constructor
  · intro htrue
    obtain ⟨v, hv, ht⟩ := Condition.exists_of_anyM (hany.trans htrue)
    obtain ⟨s, rfl⟩ := text_of_textWith ht
    exact ⟨s, hv, matched_iff_fits.1 (Except.ok.inj ht)⟩
  · rintro ⟨s, hs, hfits⟩
    exact congrArg Except.ok (Condition.eq_true_of_anyM hany hs
      (congrArg Except.ok (matched_iff_fits.2 hfits)))

/-- A wildcard pattern as an operand always gives an answer: a field matches if it is a text, or an
    array with a text, that fits the pattern, which is one that a regular expression with the same
    parts is found in. The negated operator gives the other answer. -/
theorem like_exact (path : String) (hint : Value) (pattern : String) : ∃ like nlike : Leaf,
    Leaf.read path hint .like (.text pattern) = .ok like ∧
      Leaf.read path hint .nlike (.text pattern) = .ok nlike ∧
      (∀ doc : Value,
        (like.Matches doc ↔
          ∃ s, .text s ∈ (Value.orNull (doc.path? path)).items ∧ Fits pattern s) ∧
        ∃ answer, like.holds doc = .ok answer ∧ nlike.holds doc = .ok !answer) ∧
      ∃ x, Pattern.readPlain { dotAll := true } (regexp pattern.toList) = .ok x ∧
        ∀ s, x.found s = true ↔ Fits pattern s := by
  refine ⟨withPattern path .like pattern, withPattern path .nlike pattern, rfl, rfl, fun doc => ?_,
    exists_found_iff_fits pattern⟩
  obtain ⟨answer, hanswer⟩ := holds_like path pattern doc
  have negated : (withPattern path .nlike pattern).holds doc =
      (withPattern path .like pattern).holds doc >>= fun b => pure !b := rfl
  refine ⟨matches_like path pattern doc, answer, hanswer, ?_⟩
  rw [negated, hanswer]
  rfl

end Leaf

end Catalog
