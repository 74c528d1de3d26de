import Catalog.Proofs.Number.Text
import Catalog.Proofs.Query.Equality
import Catalog.Query.FilterReader

/-!
# What a text is inferred to be

A plain numeral is a sign, digits, and perhaps a point and more digits
(`isPlainNumeral_sign_append`, `exists_of_isPlainNumeral`). It is read as a number unless it is
whole and too long (`exists_numberOfText`). So a number is inferred from its own text
(`inferText_int`, `inferText_double`), and every text is equal to what is inferred from it but for
the word for null, the whole numerals that are too long and the timestamps outside the calendar
(`equalTo_inferText`). A text next to a field is a condition on what is inferred from it
(`Condition.read_text`).
-/

namespace Catalog

open Text

variable {cs : List Char} {s : String}

/-! ## Plain numerals -/

/-- The text after a minus sign, or all of it if it begins with none. -/
def withoutMinus : List Char → List Char
  | '-' :: rest => rest
  | cs => cs

/-- Whether a numeral may end here: at the end of the text or at a line feed that ends it. -/
def isNumeralEnd (cs : List Char) : Bool := cs.isEmpty || cs == ['\n']

/-- Whether what follows the first digits of a text ends a plain numeral. -/
def endsNumeral : List Char → Bool
  | '.' :: rest =>
    rest.length != (rest.dropWhile isDecimalDigit).length &&
      isNumeralEnd (rest.dropWhile isDecimalDigit)
  | rest => isNumeralEnd rest

theorem isPlainNumeral_eq (cs : List Char) : isPlainNumeral cs =
    ((withoutMinus cs).length != ((withoutMinus cs).dropWhile isDecimalDigit).length &&
      endsNumeral ((withoutMinus cs).dropWhile isDecimalDigit)) := rfl

theorem exists_sign_append (cs : List Char) :
    ∃ negative, cs = Numeral.sign negative ++ withoutMinus cs := by
  unfold withoutMinus
  split
  · exact ⟨true, rfl⟩
  · exact ⟨false, rfl⟩

theorem withoutMinus_sign_append {negative : Bool}
    (h : ∀ c, cs.head? = some c → isDecimalDigit c = true) :
    withoutMinus (Numeral.sign negative ++ cs) = cs := by
  cases negative with
  | true => rfl
  | false =>
    unfold withoutMinus
    split
    · next heq =>
      obtain rfl : cs = '-' :: _ := heq
      exact absurd (h _ rfl) (by decide)
    · rfl

/-- Digits after a sign, and what may follow them, make a plain numeral. -/
theorem isPlainNumeral_sign_append {negative : Bool} {whole rest : List Char}
    (hwhole : ∀ c ∈ whole, isDecimalDigit c = true) (hne : whole ≠ [])
    (hrest : ∀ c, rest.head? = some c → isDecimalDigit c = false) (hend : endsNumeral rest = true) :
    isPlainNumeral (Numeral.sign negative ++ (whole ++ rest)) = true := by
  have hlength := List.length_pos_iff.2 hne
  rw [isPlainNumeral_eq, withoutMinus_sign_append (Numeral.head_digit_of_digits hwhole hne _),
    (takeWhile_dropWhile_append hwhole hrest).2, hend, Bool.and_true, bne_iff_ne,
    List.length_append]
  omega

/-- What stands before the end of a run of digits. -/
theorem exists_digits_append (cs : List Char) :
    ∃ digits, cs = digits ++ cs.dropWhile isDecimalDigit ∧
      ∀ c ∈ digits, isDecimalDigit c = true :=
  ⟨cs.takeWhile isDecimalDigit, List.takeWhile_append_dropWhile.symm, fun _ hc =>
    List.all_eq_true.1 List.all_takeWhile _ hc⟩

theorem isSpace_of_isNumeralEnd (h : isNumeralEnd cs = true) :
    ∀ c ∈ cs, Numeral.isSpace c = true := by
  rw [isNumeralEnd, Bool.or_eq_true, List.isEmpty_iff, beq_iff_eq] at h
  rcases h with rfl | rfl
  · exact List.forall_mem_nil _
  · rw [List.forall_mem_singleton]
    decide

/-- What a plain numeral is made of; white space may stand at its end. -/
theorem exists_of_isPlainNumeral (h : isPlainNumeral cs = true) :
    ∃ negative whole ending, whole ≠ [] ∧ (∀ c ∈ whole, isDecimalDigit c = true) ∧
      (∀ c ∈ ending, Numeral.isSpace c = true) ∧
      (cs = Numeral.sign negative ++ whole ++ ending ∨
        ∃ fraction, (∀ c ∈ fraction, isDecimalDigit c = true) ∧
          cs = Numeral.sign negative ++ (whole ++ '.' :: fraction) ++ ending) := by
  obtain ⟨negative, hcs⟩ := exists_sign_append cs
  obtain ⟨whole, hwhole, hdigits⟩ := exists_digits_append (withoutMinus cs)
  rw [isPlainNumeral_eq, Bool.and_eq_true, bne_iff_ne] at h
  obtain ⟨hlength, hend⟩ := h
  generalize (withoutMinus cs).dropWhile isDecimalDigit = rest at *
  rw [hwhole] at hcs hlength
  have hne : whole ≠ [] := by
    rintro rfl
    exact hlength rfl
  unfold endsNumeral at hend
  split at hend
  · next more =>
    obtain ⟨fraction, hmore, hfraction⟩ := exists_digits_append more
    refine ⟨negative, whole, more.dropWhile isDecimalDigit, hne, hdigits,
      isSpace_of_isNumeralEnd (Bool.and_eq_true_iff.1 hend).2, .inr ⟨fraction, hfraction, ?_⟩⟩
    rw [hcs, List.append_assoc, List.append_assoc, List.cons_append, ← hmore]
  · refine ⟨negative, whole, rest, hne, hdigits, isSpace_of_isNumeralEnd hend, .inl ?_⟩
    rw [hcs, List.append_assoc]

/-! ## Numbers -/

/-- A plain numeral is read as a number unless it is whole and too long. -/
theorem numberOfText_eq_error {f : Fault} (h : isPlainNumeral s.toList = true) :
    numberOfText s = .error f ↔ f = .notANumeral ∧ '.' ∉ s.toList ∧
      Numeral.maxDigits < (s.toList.filter isDecimalDigit).length := by
  obtain ⟨negative, whole, ending, hne, hwhole, hend, hcs | ⟨fraction, hfraction, hcs⟩⟩ :=
    exists_of_isPlainNumeral h
  · have hpoint : '.' ∉ s.toList := by
      rw [hcs, List.mem_append, List.mem_append, not_or, not_or]
      exact ⟨⟨Numeral.not_mem_sign (by decide), fun hmem => absurd (hwhole _ hmem) (by decide)⟩,
        fun hmem => absurd (hend _ hmem) (by decide)⟩
    have unsigned : (Numeral.sign negative).filter isDecimalDigit = [] :=
      List.filter_eq_nil_iff.2 fun c hc => by
        cases Numeral.eq_of_mem_sign hc
        decide
    have blank : ending.filter isDecimalDigit = [] := List.filter_eq_nil_iff.2 fun c hc hdigit =>
      absurd ((isSpace_of_isDecimalDigit hdigit).symm.trans (hend c hc)) (by decide)
    have digits : s.toList.filter isDecimalDigit = whole := by
      rw [hcs, List.filter_append, List.filter_append, unsigned, blank, List.nil_append,
        List.append_nil, List.filter_eq_self.2 hwhole]
    have hread := Numeral.int?_eq hwhole hne hend negative
    rw [← hcs, String.ofList_toList] at hread
    rw [numberOfText, if_neg (by simpa using hpoint), digits, orFault_eq_error,
      Option.map_eq_none_iff, hread, Option.map_eq_none_iff, Numeral.boundedValue?_eq_none hwhole,
      and_iff_right hpoint]
  · have hpoint : '.' ∈ s.toList := by
      rw [hcs]
      simp
    have hdigits : ∀ c ∈ whole ++ fraction, isDecimalDigit c = true := fun c hc =>
      (List.mem_append.1 hc).elim (hwhole c) (hfraction c)
    obtain ⟨n, hn⟩ := Option.isSome_iff_exists.1 (isSome_digitsValueFrom hdigits 0)
    have hread := Numeral.double?_eq hwhole hne hfraction hend negative
    rw [← hcs, String.ofList_toList, digitsValue?, hn] at hread
    rw [numberOfText, if_pos (by simpa using hpoint), hread]
    exact iff_of_false (fun h => by cases h) fun h => h.2.1 hpoint

theorem exists_numberOfText (h : isPlainNumeral s.toList = true)
    (hshort : '.' ∉ s.toList → (s.toList.filter isDecimalDigit).length ≤ Numeral.maxDigits) :
    ∃ n, numberOfText s = .ok n := by
  cases hn : numberOfText s with
  | ok n => exact ⟨n, rfl⟩
  | error f =>
    obtain ⟨-, hpoint, hlong⟩ := (numberOfText_eq_error h).1 hn
    exact absurd (hshort hpoint) (Nat.not_le.2 hlong)

/-- A text that begins with a date and a time has a `T`. -/
theorem not_beginsWithDateAndTime (h : 'T' ∉ cs) :
    Timestamp.beginsWithDateAndTime cs = false := by
  unfold Timestamp.beginsWithDateAndTime
  split
  · next d rest heq =>
    exfalso
    unfold Timestamp.date? at heq
    split at heq
    · obtain ⟨year, -, heq⟩ := Option.bind_eq_some_iff.1 heq
      obtain ⟨month, -, heq⟩ := Option.bind_eq_some_iff.1 heq
      obtain ⟨day, -, heq⟩ := Option.bind_eq_some_iff.1 heq
      obtain ⟨-, rfl⟩ := Prod.mk.inj (Option.some.inj heq)
      exact h (by simp)
    · cases heq
  · rfl

theorem not_mem_of_isPlainNumeral (h : isPlainNumeral cs = true) : 'T' ∉ cs := by
  have noDigit {ds : List Char} (h : ∀ c ∈ ds, isDecimalDigit c = true) : 'T' ∉ ds :=
    fun hmem => absurd (h _ hmem) (by decide)
  obtain ⟨negative, whole, ending, -, hwhole, hend, rfl | ⟨fraction, hfraction, rfl⟩⟩ :=
    exists_of_isPlainNumeral h
  all_goals
    have noSign : 'T' ∉ Numeral.sign negative := Numeral.not_mem_sign (by decide)
    have noBlank : 'T' ∉ ending := fun hmem => absurd (hend _ hmem) (by decide)
    simp only [List.mem_append, List.mem_cons, not_or]
  · exact ⟨⟨noSign, noDigit hwhole⟩, noBlank⟩
  · exact ⟨⟨noSign, noDigit hwhole, by decide, noDigit hfraction⟩, noBlank⟩

/-- A value is inferred from every text but a timestamp outside the calendar and a whole numeral
    that is too long. -/
theorem inferText_eq_error {f : Fault} : inferText s = .error f ↔
    (f = .outOfCalendar ∧ Timestamp.beginsWithDateAndTime s.toList = true ∧
      Timestamp.read s false = .outOfRange) ∨
    (f = .notANumeral ∧ isPlainNumeral s.toList = true ∧ '.' ∉ s.toList ∧
      Numeral.maxDigits < (s.toList.filter isDecimalDigit).length) := by
  -- The words for null and the truth values are neither timestamps nor numerals.
  have apart {word : String} (hbegins : Timestamp.beginsWithDateAndTime word.toList = false)
      (hplain : isPlainNumeral word.toList = false)
      (h : Timestamp.beginsWithDateAndTime s.toList = true ∨ isPlainNumeral s.toList = true) :
      s ≠ word := by
    rintro rfl
    rcases h with h | h
    · exact absurd (hbegins.symm.trans h) (by decide)
    · exact absurd (hplain.symm.trans h) (by decide)
  by_cases hbegins : Timestamp.beginsWithDateAndTime s.toList = true
  · have hplain : ¬isPlainNumeral s.toList = true := fun h => absurd
      ((not_beginsWithDateAndTime (not_mem_of_isPlainNumeral h)).symm.trans hbegins) (by decide)
    rw [inferText, if_neg (apart (by decide) (by decide) (.inl hbegins)),
      if_neg (not_or.2 ⟨apart (by decide) (by decide) (.inl hbegins),
        apart (by decide) (by decide) (.inl hbegins)⟩), if_pos hbegins, instantOfText,
      or_iff_left fun h => hplain h.2.1]
    cases hread : Timestamp.read s false with
    | outOfRange =>
      exact ⟨fun h => by cases h; exact ⟨rfl, hbegins, rfl⟩, fun h => by rw [h.1]; rfl⟩
    | malformed => exact iff_of_false (fun h => by cases h) fun h => by cases h.2.2
    | instant t => exact iff_of_false (fun h => by cases h) fun h => by cases h.2.2
  · rw [or_iff_right fun h => hbegins h.2.1]
    by_cases hplain : isPlainNumeral s.toList = true
    · rw [inferText, if_neg (apart (by decide) (by decide) (.inr hplain)),
        if_neg (not_or.2 ⟨apart (by decide) (by decide) (.inr hplain),
          apart (by decide) (by decide) (.inr hplain)⟩), if_neg hbegins, if_pos hplain,
        bind_pure_eq_error, numberOfText_eq_error hplain, and_iff_right hplain]
    · refine iff_of_false ?_ fun h => hplain h.2.1
      rw [inferText]
      split
      · exact fun h => by cases h
      split
      · exact fun h => by cases h
      exact fun h => by cases h

/-- A plain numeral without a `T` is inferred to be the number that it is read as. -/
theorem inferText_of_isPlainNumeral (h : isPlainNumeral s.toList = true) (htime : 'T' ∉ s.toList) :
    inferText s = (numberOfText s).map fun n => (.number n, some s) := by
  have apart {word : String} (hword : isPlainNumeral word.toList = false) : s ≠ word := by
    rintro rfl
    exact absurd (h.symm.trans hword) (by decide)
  rw [inferText, if_neg (apart (by decide)),
    if_neg (not_or.2 ⟨apart (by decide), apart (by decide)⟩), not_beginsWithDateAndTime htime,
    if_neg Bool.false_ne_true, if_pos h]
  cases numberOfText s <;> rfl

theorem not_mem_of_isDigit {c : Char} (h : ∀ d ∈ cs, d.isDigit = true) (hc : c.isDigit = false) :
    c ∉ cs := fun hmem => absurd ((h c hmem).symm.trans hc) (by decide)

/-- A whole number is inferred from its text, unless that is too long. -/
theorem inferText_int (n : Int) :
    inferText (toString n) = if n.natAbs < 10 ^ Numeral.maxDigits
      then .ok (.int n, some (toString n)) else .error .notANumeral := by
  have written : (toString n).toList =
      Numeral.sign (decide (n < 0)) ++ (Nat.toDigits 10 n.natAbs ++ []) := by
    rw [Numeral.toString_int, String.toList_ofList, List.append_nil]
  have without {c : Char} (hsign : c ≠ '-') (hdigit : c.isDigit = false) :
      c ∉ (toString n).toList := by
    rw [written, List.append_nil, List.mem_append, not_or]
    exact ⟨Numeral.not_mem_sign hsign, not_mem_of_isDigit (Numeral.digits_isDigit _) hdigit⟩
  have plain : isPlainNumeral (toString n).toList = true := by
    rw [written]
    exact isPlainNumeral_sign_append (Numeral.isDecimalDigit_toDigits _) Nat.toDigits_ne_nil
      (fun _ hc => nomatch hc) rfl
  have hpoint : ¬(toString n).toList.contains '.' = true := by
    rw [List.contains_iff_mem]
    exact without (by decide) (by decide)
  rw [inferText_of_isPlainNumeral plain (without (by decide) (by decide)), numberOfText,
    if_neg hpoint, Numeral.int?_toString]
  by_cases hshort : n.natAbs < 10 ^ Numeral.maxDigits
  · rw [if_pos hshort, if_pos hshort]
    rfl
  · rw [if_neg hshort, if_neg hshort]
    rfl

/-- A finite double is inferred from its text, unless that has an exponent. -/
theorem inferText_double {negative : Bool} {mantissa exponent : Nat}
    {hcanonical : Double.Canonical mantissa exponent}
    (h : 'e' ∉ (Double.finite negative mantissa exponent hcanonical).text.toList) :
    inferText (Double.finite negative mantissa exponent hcanonical).text =
      .ok (.number (.double (.finite negative mantissa exponent hcanonical)),
        some (Double.finite negative mantissa exponent hcanonical).text) := by
  obtain ⟨whole, fraction, hwhole, hfraction, hdigits, htext, hread⟩ := Double.exists_text h
  generalize (Double.finite negative mantissa exponent hcanonical).text = text at *
  have written : text.toList = Numeral.sign negative ++ (whole ++ '.' :: fraction) := by
    rw [htext, String.toList_ofList]
  rw [List.forall_mem_append] at hdigits
  have decimal : ∀ c ∈ fraction, isDecimalDigit c = true := fun c hc =>
    (isDecimalDigit_of_isDigit (hdigits.2 c hc)).2
  have plain : isPlainNumeral text.toList = true := by
    rw [written]
    refine isPlainNumeral_sign_append
      (fun c hc => (isDecimalDigit_of_isDigit (hdigits.1 c hc)).2) hwhole ?_ ?_
    · intro c hc
      cases hc
      decide
    · rw [endsNumeral, (Numeral.takeWhile_all_digits decimal).2]
      simpa [isNumeralEnd] using hfraction
  have htime : 'T' ∉ text.toList := by
    rw [written, List.mem_append, List.mem_append, List.mem_cons]
    have := not_mem_of_isDigit hdigits.1 (by decide : 'T'.isDigit = false)
    have := not_mem_of_isDigit hdigits.2 (by decide : 'T'.isDigit = false)
    simp [*, Numeral.not_mem_sign (by decide : 'T' ≠ '-')]
  rw [inferText_of_isPlainNumeral plain htime, numberOfText, if_pos (by simp [written]), hread]
  rfl

/-! ## Texts -/

/-- A text is equal to what is inferred from it. -/
theorem equalTo_inferText (hnull : s ≠ "null")
    (hcalendar : Timestamp.beginsWithDateAndTime s.toList = true →
      Timestamp.read s false ≠ .outOfRange)
    (hshort : isPlainNumeral s.toList = true → '.' ∉ s.toList →
      (s.toList.filter isDecimalDigit).length ≤ Numeral.maxDigits) :
    ∃ v literal, inferText s = .ok (v, literal) ∧
      equalTo (.text s) v (literal.map .text) = .ok true := by
  have itself : equalTo (.text s) (.text s) none = .ok true := (Value.JsonEq.text s).equalTo
  have literal : isLiteral (.text s) (some s) = true := beq_self_eq_true s
  rw [inferText, if_neg hnull]
  by_cases hbool : s = "true" ∨ s = "false"
  · rw [if_pos hbool]
    exact ⟨_, _, rfl, congrArg Except.ok literal⟩
  rw [if_neg hbool]
  by_cases htime : Timestamp.beginsWithDateAndTime s.toList = true
  · rw [if_pos htime]
    -- A text that only begins like a time stays a text; a time is the same as the one that it is
    -- read as.
    cases hread : Timestamp.read s false with
    | malformed =>
      rw [instantOfText, hread]
      exact ⟨_, _, rfl, itself⟩
    | outOfRange => exact absurd hread (hcalendar htime)
    | instant t =>
      have moment : instantOfText s false = .ok (some (.ofInstant t)) := by
        rw [instantOfText, hread]
      rw [moment]
      refine ⟨_, _, rfl, ?_⟩
      change scalarEquals (.text s) (.instant (.ofInstant t)) (some s) = .ok true
      dsimp only [scalarEquals, instantOf]
      rw [moment]
      exact congrArg Except.ok (beq_self_eq_true (Moment.ofInstant t).micros)
  rw [if_neg htime]
  by_cases hplain : isPlainNumeral s.toList = true
  · obtain ⟨n, hn⟩ := exists_numberOfText hplain (hshort hplain)
    rw [if_pos hplain, hn]
    exact ⟨_, _, rfl, congrArg Except.ok literal⟩
  · rw [if_neg hplain]
    exact ⟨_, _, rfl, itself⟩

/-- What is inferred from a text that is no timestamp is equal to no other text, nor to null. To the
    text itself it is equal unless this is the word for null. -/
theorem equalTo_inferred (htime : Timestamp.beginsWithDateAndTime s.toList = false) {v : Value}
    {literal : Option String} (h : inferText s = .ok (v, literal)) :
    (∀ t, equalTo (.text t) v (literal.map .text) = .ok (t == s && s != "null")) ∧
      (s ≠ "null" → equalTo .null v (literal.map .text) = .ok false) := by
  rw [inferText] at h
  by_cases hnull : s = "null"
  · rw [if_pos hnull] at h
    cases h
    refine ⟨fun t => ?_, fun hne => absurd hnull hne⟩
    rw [hnull, bne_self_eq_false, Bool.and_false]
    rfl
  have plain (t : String) : (t == s && s != "null") = (t == s) := by
    rw [bne_iff_ne.2 hnull, Bool.and_true]
  rw [if_neg hnull] at h
  by_cases hbool : s = "true" ∨ s = "false"
  · rw [if_pos hbool] at h
    cases h
    exact ⟨fun t => congrArg Except.ok (plain t).symm, fun _ => rfl⟩
  rw [if_neg hbool, htime, if_neg Bool.false_ne_true] at h
  by_cases hplain : isPlainNumeral s.toList = true
  · rw [if_pos hplain] at h
    obtain ⟨n, -, h⟩ := bind_eq_ok.1 h
    cases h
    exact ⟨fun t => congrArg Except.ok (plain t).symm, fun _ => rfl⟩
  · rw [if_neg hplain] at h
    cases h
    refine ⟨fun t => ?_, fun _ => ?_⟩
    · rw [plain, ← Bool.or_false (t == s)]
      rfl
    · rfl

/-- A text next to a field says that the field is equal to what is inferred from the text. -/
theorem Condition.read_text {p : String} (hp : connective? "" p = none) (text : String) :
    Condition.read (.object [(p, .text text)]) =
      (inferText text : Outcome _).map fun found => .leaf
        { path := p, operator := .eq, operand := found.1, literal := found.2.map .text } := by
  have field : readField p (.text text) =
      (inferText text : Outcome _).map fun found => .leaf
        { path := p, operator := .eq, operand := found.1, literal := found.2.map .text } := by
    rw [readField, coerce, infer]
    · cases inferText text <;> rfl
    all_goals
      intros
      contradiction
  rw [read, readMembers, hp]
  change (do return conj (← (do
    return (← readField ("" ++ p) (.text text)) :: (← readMembers "" [])))) = _
  rw [String.empty_append, field]
  cases inferText text <;> rfl

end Catalog
