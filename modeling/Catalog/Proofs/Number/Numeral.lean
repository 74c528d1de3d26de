import Catalog.Number.Numeral

/-!
# Numerals, read back

A numeral of a sign, decimal digits of any script, perhaps a point with more digits after it, and
white space at its end is read as the number that the digits write: a whole one by
`Numeral.int?_eq`, one with a point by `Numeral.double?_eq`. So a whole number that is written in
decimal is read as itself, unless it is too long (`Numeral.int?_toString`).
-/

namespace Catalog

open Text

namespace Text

/-! ## Digits and blanks -/

theorem isDecimalDigit_of_isDigit {c : Char} (h : c.isDigit = true) :
    digitValue? c = some (c.toNat - 48) ∧ isDecimalDigit c = true := by
  have bounds : 48 ≤ c.toNat ∧ c.toNat ≤ 57 := by
    simpa [Char.isDigit, UInt32.le_iff_toNat_le] using h
  have value : digitValue? c = some (c.toNat - 48) := by
    simp only [digitValue?]
    rw [if_pos (by omega), if_pos bounds]
  exact ⟨value, by rw [isDecimalDigit, value]; rfl⟩

/-- A character of ASCII that is seen is no blank. -/
theorem not_isBlank_of_visible {c : Char} (h : 33 ≤ c.toNat ∧ c.toNat ≤ 126) :
    isBlank c = false := by
  simp only [isBlank, Bool.or_eq_false_iff, Bool.and_eq_false_iff, decide_eq_false_iff_not,
    beq_eq_false_iff_ne]
  omega

/-- No decimal system has a blank among its digits. -/
theorem not_isBlank_of_isDecimalDigit {c : Char} (h : isDecimalDigit c = true) :
    isBlank c = false := by
  have apart : ∀ z ∈ decimalZeros, 160 < z ∧
      (z + 10 ≤ 5760 ∨ 5760 < z ∧ z + 10 ≤ 8192 ∨ 8287 < z ∧ z + 10 ≤ 12288 ∨ 12288 < z) := by
    decide
  simp only [isDecimalDigit, digitValue?] at h
  simp only [isBlank, Bool.or_eq_false_iff, Bool.and_eq_false_iff, decide_eq_false_iff_not,
    beq_eq_false_iff_ne]
  split at h
  · split at h
    · omega
    · cases h
  · rw [Option.isSome_map, List.find?_isSome] at h
    obtain ⟨z, hz, hn⟩ := h
    rw [Bool.and_eq_true, decide_eq_true_eq, decide_eq_true_eq] at hn
    have := apart z hz
    omega

theorem isSpace_of_isDecimalDigit {c : Char} (h : isDecimalDigit c = true) :
    Numeral.isSpace c = false := by
  rw [Numeral.isSpace, not_isBlank_of_isDecimalDigit h]
  rfl

/-- A text is cut where a run of characters of a class ends. -/
theorem takeWhile_dropWhile_append {p : Char → Bool} {cs rest : List Char}
    (h : ∀ c ∈ cs, p c = true) (hrest : ∀ c, rest.head? = some c → p c = false) :
    (cs ++ rest).takeWhile p = cs ∧ (cs ++ rest).dropWhile p = rest := by
  rw [List.takeWhile_append_of_pos h, List.dropWhile_append_of_pos h]
  cases rest with
  | nil => exact ⟨List.append_nil cs, rfl⟩
  | cons c rest =>
    rw [List.takeWhile_cons, List.dropWhile_cons, hrest c rfl, if_neg Bool.false_ne_true,
      if_neg Bool.false_ne_true, List.append_nil]
    exact ⟨rfl, rfl⟩

/-- Trimming keeps what is not of the class. -/
theorem mem_trimWhile {p : Char → Bool} {cs : List Char} {c : Char} (h : c ∈ cs)
    (hc : p c = false) : c ∈ trimWhile p cs := by
  have kept {cs : List Char} (h : c ∈ cs) : c ∈ cs.dropWhile p := by
    rw [← List.takeWhile_append_dropWhile (p := p) (l := cs), List.mem_append] at h
    refine h.resolve_left fun hmem => ?_
    have := List.all_eq_true.1 List.all_takeWhile c hmem
    exact absurd (hc.symm.trans this) (by decide)
  exact List.mem_reverse.2 (kept (List.mem_reverse.2 (kept h)))

/-- What is not blank is left of a text without the blanks around it. -/
theorem not_isEmpty_trim {s : String} {c : Char} (h : c ∈ s.toList) (hc : isBlank c = false) :
    ¬(trim s).isEmpty = true := by
  rw [String.isEmpty_iff, trim, String.ofList_eq_empty_iff]
  exact List.ne_nil_of_mem (mem_trimWhile h hc)

theorem trimWhile_append {p : Char → Bool} {cs ds : List Char} (hcs : ∀ c ∈ cs, p c = false)
    (hds : ∀ d ∈ ds, p d = true) : trimWhile p (cs ++ ds) = cs := by
  have kept {cs : List Char} (h : ∀ c ∈ cs, p c = false) : cs.dropWhile p = cs := by
    cases cs with
    | nil => rfl
    | cons c cs => rw [List.dropWhile_cons, h c List.mem_cons_self, if_neg Bool.false_ne_true]
  have dropped : (cs ++ ds).dropWhile p = cs ++ ds ∨ cs = [] := by
    cases cs with
    | nil => exact .inr rfl
    | cons c cs =>
      rw [List.cons_append, List.dropWhile_cons, hcs c List.mem_cons_self,
        if_neg Bool.false_ne_true]
      exact .inl rfl
  rcases dropped with dropped | rfl
  · rw [trimWhile, dropped, dropEndWhile, List.reverse_append,
      List.dropWhile_append_of_pos fun d hd => hds d (List.mem_reverse.1 hd),
      kept fun c hc => hcs c (List.mem_reverse.1 hc), List.reverse_reverse]
  · have gone : (ds ++ []).dropWhile p = [] := List.dropWhile_append_of_pos hds
    rw [List.append_nil] at gone
    rw [trimWhile, List.nil_append, gone]
    rfl

theorem trimWhile_of_none {p : Char → Bool} {cs : List Char} (h : ∀ c ∈ cs, p c = false) :
    trimWhile p cs = cs := by
  have trimmed : trimWhile p (cs ++ []) = cs := trimWhile_append h (List.forall_mem_nil _)
  rwa [List.append_nil] at trimmed

/-- Digits write a number. -/
theorem isSome_digitsValueFrom {cs : List Char} (h : ∀ c ∈ cs, isDecimalDigit c = true)
    (acc : Nat) :
    (digitsValueFrom acc cs).isSome = true := by
  induction cs generalizing acc with
  | nil => rfl
  | cons c cs ih =>
    rw [List.forall_mem_cons] at h
    obtain ⟨d, hd⟩ := Option.isSome_iff_exists.1 h.1
    rw [digitsValueFrom, hd]
    exact ih h.2 _

theorem digitsValueFrom_of_isDigit {cs : List Char} (h : ∀ c ∈ cs, c.isDigit = true) (acc : Nat) :
    digitsValueFrom acc cs = some (Nat.ofDigitChars 10 cs acc) := by
  induction cs generalizing acc with
  | nil => rfl
  | cons c cs ih =>
    rw [List.forall_mem_cons] at h
    rw [digitsValueFrom, (isDecimalDigit_of_isDigit h.1).1]
    exact ih h.2 _

end Text

namespace Numeral

/-- The sign of a numeral: there is none before a number that is not negative. -/
def sign (negative : Bool) : List Char := if negative then ['-'] else []

variable {negative : Bool} {whole fraction ending : List Char}

theorem eq_of_mem_sign {c : Char} (h : c ∈ sign negative) : c = '-' := by
  cases negative with
  | true => exact List.mem_singleton.1 h
  | false => cases h

theorem not_mem_sign {c : Char} (h : c ≠ '-') : c ∉ sign negative :=
  fun hmem => h (eq_of_mem_sign hmem)

theorem splitSign_sign {cs : List Char} (h : ∀ c, cs.head? = some c → isDecimalDigit c = true) :
    splitSign (sign negative ++ cs) = (negative, cs) := by
  cases negative with
  | true => rfl
  | false =>
    rw [sign, if_neg Bool.false_ne_true, List.nil_append]
    unfold splitSign
    split
    · exact absurd (h _ rfl) (by decide)
    · exact absurd (h _ rfl) (by decide)
    · rfl

/-- The sign is part of no white space around a numeral. -/
theorem trim_sign_append {cs : List Char} (hcs : ∀ c ∈ cs, isSpace c = false)
    (hend : ∀ c ∈ ending, isSpace c = true) :
    trimWhile isSpace (sign negative ++ cs ++ ending) = sign negative ++ cs := by
  refine trimWhile_append (fun c hc => ?_) hend
  rcases List.mem_append.1 hc with hc | hc
  · cases eq_of_mem_sign hc
    decide
  · exact hcs c hc

/-! ## Whole numbers -/

theorem joinDigits_eq {digitBefore : Bool} {cs : List Char}
    (h : ∀ c ∈ cs, isDecimalDigit c = true) (hne : cs = [] → digitBefore = true) :
    joinDigits digitBefore cs = some cs := by
  induction cs generalizing digitBefore with
  | nil => rw [joinDigits, if_pos (hne rfl)]
  | cons c cs ih =>
    rw [List.forall_mem_cons] at h
    have hline : c ≠ '_' := by
      rintro rfl
      exact absurd h.1 (by decide)
    rw [joinDigits, if_neg hline, if_pos h.1, ih h.2 fun _ => rfl]
    rfl

theorem head_digit_of_digits {cs : List Char} (h : ∀ c ∈ cs, isDecimalDigit c = true)
    (hne : cs ≠ []) (rest : List Char) :
    ∀ c, (cs ++ rest).head? = some c → isDecimalDigit c = true := by
  intro c hc
  cases cs with
  | nil => exact absurd rfl hne
  | cons d ds =>
    cases hc
    exact h c List.mem_cons_self

/-- Digits write no number only if there are too many of them. -/
theorem boundedValue?_eq_none (hwhole : ∀ c ∈ whole, isDecimalDigit c = true) :
    boundedValue? whole = none ↔ maxDigits < whole.length := by
  obtain ⟨n, hn⟩ := Option.isSome_iff_exists.1 (isSome_digitsValueFrom hwhole 0)
  rw [boundedValue?, digitsValue?, hn]
  split
  · next hshort => exact iff_of_false (Option.some_ne_none n) (Nat.not_lt.2 hshort)
  · next hlong => exact iff_of_true rfl (Nat.not_le.1 hlong)

/-- A whole numeral is read as the number that its digits write, unless there are too many. -/
theorem int?_eq (hwhole : ∀ c ∈ whole, isDecimalDigit c = true) (hne : whole ≠ [])
    (hend : ∀ c ∈ ending, isSpace c = true) (negative : Bool) :
    int? (String.ofList (sign negative ++ whole ++ ending)) =
      (boundedValue? whole).map fun (n : Nat) => if negative then -(n : Int) else (n : Int) := by
  have head := head_digit_of_digits hwhole hne []
  rw [List.append_nil] at head
  rw [int?, String.toList_ofList,
    trim_sign_append (fun c hc => isSpace_of_isDecimalDigit (hwhole c hc)) hend,
    splitSign_sign head]
  dsimp only
  rw [joinDigits_eq hwhole fun h => absurd h hne, Option.bind_eq_bind, Option.bind_some]
  cases boundedValue? whole <;> rfl

theorem digits_isDigit (n : Nat) : ∀ c ∈ Nat.toDigits 10 n, c.isDigit = true := fun _ hc =>
  Nat.isDigit_of_mem_toDigits (by decide) (by decide) hc

theorem isDecimalDigit_toDigits (n : Nat) : ∀ c ∈ Nat.toDigits 10 n, isDecimalDigit c = true :=
  fun c hc => (isDecimalDigit_of_isDigit (digits_isDigit n c hc)).2

theorem digitsValue?_toDigits (n : Nat) : digitsValue? (Nat.toDigits 10 n) = some n := by
  rw [digitsValue?, digitsValueFrom_of_isDigit (digits_isDigit n), Nat.ofDigitChars_ten_toDigits]

/-- How a whole number is written in decimal. -/
theorem toString_int (n : Int) :
    toString n = String.ofList (sign (decide (n < 0)) ++ Nat.toDigits 10 n.natAbs) := by
  cases n with
  | ofNat m =>
    have hm : ¬Int.ofNat m < 0 := Int.not_lt.2 (Int.natCast_nonneg m)
    rw [decide_eq_false hm, Int.natAbs_ofNat', sign, if_neg Bool.false_ne_true,
      List.nil_append, ← Nat.toString_eq_ofList_toDigits]
    rfl
  | negSucc m =>
    rw [decide_eq_true (Int.negSucc_lt_zero m), Int.natAbs_negSucc, sign, if_pos rfl,
      String.ofList_append, ← Nat.toString_eq_ofList_toDigits]
    rfl

/-- Around a whole number in decimal there are no blanks. -/
theorem trim_toString (n : Int) : trim (toString n) = toString n := by
  rw [toString_int, trim, String.toList_ofList]
  refine congrArg String.ofList (trimWhile_of_none fun c hc => ?_)
  rcases List.mem_append.1 hc with hc | hc
  · cases eq_of_mem_sign hc
    decide
  · exact not_isBlank_of_isDecimalDigit (isDecimalDigit_toDigits _ c hc)

/-- A whole number that is written in decimal is read as itself, unless it is too long. -/
theorem int?_toString (n : Int) :
    int? (toString n) = if n.natAbs < 10 ^ maxDigits then some n else none := by
  have read := int?_eq (isDecimalDigit_toDigits n.natAbs) Nat.toDigits_ne_nil
    (List.forall_mem_nil (isSpace · = true)) (decide (n < 0))
  have short : (Nat.toDigits 10 n.natAbs).length ≤ maxDigits ↔ n.natAbs < 10 ^ maxDigits :=
    Nat.length_toDigits_le_iff (by decide) (by decide)
  rw [List.append_nil, ← toString_int, boundedValue?, digitsValue?_toDigits] at read
  have signed : (if decide (n < 0) = true then -(n.natAbs : Int) else n.natAbs) = n := by
    by_cases hneg : n < 0
    · rw [if_pos (decide_eq_true hneg)]
      omega
    · rw [if_neg (by simpa using hneg)]
      omega
  by_cases hshort : n.natAbs < 10 ^ maxDigits
  · rw [read, if_pos (short.2 hshort), if_pos hshort, Option.map_some, signed]
  · rw [read, if_neg (mt short.1 hshort), if_neg hshort, Option.map_none]

/-! ## Numbers with a point -/

theorem linesBetweenDigits_of_not_mem {digitBefore : Bool} {cs : List Char} (h : '_' ∉ cs) :
    linesBetweenDigits digitBefore cs = true := by
  induction cs generalizing digitBefore with
  | nil => rfl
  | cons c cs ih =>
    rw [List.mem_cons, not_or] at h
    rw [linesBetweenDigits]
    · exact ih h.2
    · exact fun hc => h.1 hc.symm

theorem takeWhile_all_digits {cs : List Char} (h : ∀ c ∈ cs, isDecimalDigit c = true) :
    cs.takeWhile isDecimalDigit = cs ∧ cs.dropWhile isDecimalDigit = [] := by
  have := takeWhile_dropWhile_append h (fun c (h : [].head? = some c) => nomatch h)
  rwa [List.append_nil] at this

/-- Digits with a point among them are no low lines and no white space. -/
theorem of_mem_pointed (hwhole : ∀ c ∈ whole, isDecimalDigit c = true)
    (hfraction : ∀ c ∈ fraction, isDecimalDigit c = true) {c : Char}
    (hc : c ∈ whole ++ '.' :: fraction) : c ≠ '_' ∧ isSpace c = false := by
  have digit {d : Char} (hd : isDecimalDigit d = true) : d ≠ '_' ∧ isSpace d = false := by
    refine ⟨?_, isSpace_of_isDecimalDigit hd⟩
    rintro rfl
    exact absurd hd (by decide)
  rcases List.mem_append.1 hc with hc | hc
  · exact digit (hwhole c hc)
  · rcases List.mem_cons.1 hc with rfl | hc
    · decide
    · exact digit (hfraction c hc)

/-- A numeral with a point is read as the number that its digits write, as many places down as stand
    after the point. -/
theorem double?_eq (hwhole : ∀ c ∈ whole, isDecimalDigit c = true) (hne : whole ≠ [])
    (hfraction : ∀ c ∈ fraction, isDecimalDigit c = true)
    (hend : ∀ c ∈ ending, isSpace c = true) (negative : Bool) :
    double? (String.ofList (sign negative ++ (whole ++ '.' :: fraction) ++ ending)) =
      (digitsValue? (whole ++ fraction)).map fun n =>
        .ofDecimal negative n (0 - (fraction.length : Int)) := by
  have line : '_' ∉ sign negative ++ (whole ++ '.' :: fraction) := fun hmem => by
    rcases List.mem_append.1 hmem with hmem | hmem
    · exact not_mem_sign (by decide) hmem
    · exact (of_mem_pointed hwhole hfraction hmem).1 rfl
  have nolines : (sign negative ++ (whole ++ '.' :: fraction)).filter (· ≠ '_') =
      sign negative ++ (whole ++ '.' :: fraction) := by
    refine List.filter_eq_self.2 fun c hc => decide_eq_true ?_
    rintro rfl
    exact line hc
  have point : ∀ c, ('.' :: fraction).head? = some c → isDecimalDigit c = false := fun c hc => by
    cases hc
    decide
  have wholes := takeWhile_dropWhile_append hwhole point
  have fractions := takeWhile_all_digits hfraction
  rw [double?, String.toList_ofList,
    trim_sign_append (fun _ hc => (of_mem_pointed hwhole hfraction hc).2) hend]
  dsimp only
  rw [linesBetweenDigits_of_not_mem line, nolines,
    splitSign_sign (head_digit_of_digits hwhole hne _), wholes.1, wholes.2]
  -- What is left after the digits before the point begins with the point, so there is a fraction.
  change (do
    guard true
    guard (!(whole.isEmpty && (fraction.takeWhile isDecimalDigit).isEmpty))
    let exponent ← exponent? (fraction.dropWhile isDecimalDigit)
    let n ← digitsValue? (whole ++ fraction.takeWhile isDecimalDigit)
    return Double.ofDecimal negative n
      (exponent - (fraction.takeWhile isDecimalDigit).length)) = _
  rw [fractions.1, fractions.2, List.isEmpty_eq_false_iff.2 hne]
  cases digitsValue? (whole ++ fraction) <;> rfl

end Numeral

end Catalog
