import Catalog.Proofs.Number.Text
import Catalog.Proofs.Time.Calendar
import Catalog.Time.Timestamp

/-!
# Timestamps, read back

A timestamp is read as the instant that it writes, without what is less than a millisecond
(`Timestamp.read_timestamp`), and what is read is written in the same way again
(`Instant.timestamp_truncateToMillis`). The year must have four digits: it is written without zeros
before it, but only read with four.
-/

namespace Catalog

open Text

namespace Timestamp

/-! ## Numbers of a fixed width -/

theorem number?_of_isDigit {cs : List Char} (h : ∀ c ∈ cs, c.isDigit = true) (acc : Nat) :
    number? acc cs = some (Nat.ofDigitChars 10 cs acc) := by
  induction cs generalizing acc with
  | nil => rfl
  | cons c cs ih =>
    rw [List.forall_mem_cons] at h
    rw [number?, asciiDigit?, if_pos h.1]
    exact ih h.2 _

theorem isDigit_padded (width n : Nat) : ∀ c ∈ padded width n, c.isDigit = true := by
  intro c hc
  rcases List.mem_append.1 hc with hc | hc
  · exact Double.isDigit_replicate hc
  · exact Numeral.digits_isDigit n c hc

theorem number?_padded (width n : Nat) : number? 0 (padded width n) = some n := by
  rw [number?_of_isDigit (isDigit_padded width n), padded, Double.ofDigitChars_zeros_append,
    Nat.ofDigitChars_ten_toDigits]

theorem length_padded {width n : Nat} (hw : 0 < width) (h : n < 10 ^ width) :
    (padded width n).length = width := by
  have short := (Nat.length_toDigits_le_iff (by decide) hw).2 h
  rw [padded, List.length_append, List.length_replicate]
  omega

/-- A year of four digits needs no zeros before it. -/
theorem length_year {n : Nat} (hn : 1000 ≤ n) (h : n < 10000) : (padded 1 n).length = 4 := by
  have long : ¬(Nat.toDigits 10 n).length ≤ 3 :=
    fun h => absurd ((Nat.length_toDigits_le_iff (by decide) (by decide)).1 h) (by omega)
  have short : (Nat.toDigits 10 n).length ≤ 4 :=
    (Nat.length_toDigits_le_iff (by decide) (by decide)).2 h
  rw [padded, List.length_append, List.length_replicate]
  omega

/-! ## Dates and times of day -/

variable {year month day hour minute second : List Char}

theorem date?_eq {y m d : Nat} (hyear : year.length = 4) (hmonth : month.length = 2)
    (hday : day.length = 2) (hy : number? 0 year = some y) (hm : number? 0 month = some m)
    (hd : number? 0 day = some d) (rest : List Char) :
    date? (year ++ '-' :: month ++ '-' :: day ++ rest) = some (⟨y, m, d⟩, rest) := by
  match year, hyear, month, hmonth, day, hday with
  | [_, _, _, _], _, [_, _], _, [_, _], _ =>
    simp only [List.cons_append, List.nil_append, date?, hy, hm, hd]
    rfl

/-- A field before a colon, and the fields after it. -/
theorem fields?_colon {field rest : List Char} {n : Nat} (hfield : field.length = 2)
    (hn : number? 0 field = some n) {colons : Option Bool} (hcolons : colons.getD true = true)
    (left : Nat) (hrest : rest ≠ []) : fields? (left + 1) colons (field ++ ':' :: rest) =
      (fields? left (some true) rest).map fun r => (n :: r.1, r.2) := by
  match field, hfield, rest, hrest with
  | [a, b], _, c :: more, _ =>
    have two : twoDigits? ([a, b] ++ ':' :: c :: more) = some (n, ':' :: c :: more) := by
      rw [List.cons_append, List.cons_append, twoDigits?, hn]
      rfl
    rw [fields?, two]
    change (if colons.getD true = true ∧ ':' = ':' then
      (fields? left (some (colons.getD true)) (c :: more)).bind fun r => some (n :: r.1, r.2)
      else _) = _
    rw [if_pos ⟨hcolons, rfl⟩, hcolons]
    exact Option.map_eq_bind.symm

/-- A field before a point, and the fraction after it. -/
theorem fields?_point {field rest : List Char} {n : Nat} (hfield : field.length = 2)
    (hn : number? 0 field = some n) (left : Nat) (hrest : rest ≠ []) :
    fields? (left + 1) (some true) (field ++ '.' :: rest) =
      (fraction? rest).map fun r => ([n], r) := by
  match field, hfield, rest, hrest with
  | [a, b], _, c :: more, _ =>
    have two : twoDigits? ([a, b] ++ '.' :: c :: more) = some (n, '.' :: c :: more) := by
      rw [List.cons_append, List.cons_append, twoDigits?, hn]
      rfl
    rw [fields?, two]
    change ((fraction? (c :: more)).bind fun r => some ([n], r)) = _
    exact Option.map_eq_bind.symm

/-- Milliseconds are read as microseconds. -/
theorem fraction?_eq {fraction : List Char} {f : Nat} (hfraction : fraction.length = 3)
    (hf : number? 0 fraction = some f) : fraction? fraction = some (f * 1000, true) := by
  match fraction, hfraction with
  | [_, _, _], _ =>
    rw [fraction?, List.take_of_length_le (Nat.le_add_left 3 3), hf]
    rfl

/-- Hour, minute and second between colons, and a fraction of three digits. -/
theorem clock?_eq {fraction : List Char} {h m s f : Nat} (hhour : hour.length = 2)
    (hminute : minute.length = 2) (hsecond : second.length = 2) (hfraction : fraction.length = 3)
    (hh : number? 0 hour = some h) (hm : number? 0 minute = some m)
    (hs : number? 0 second = some s) (hf : number? 0 fraction = some f) :
    clock? (hour ++ ':' :: (minute ++ ':' :: (second ++ '.' :: fraction))) =
      some (⟨h, m, s, f * 1000⟩, true) := by
  have afterPoint : fraction ≠ [] := List.ne_nil_of_length_pos (by omega)
  rw [clock?, fields?_colon hhour hh rfl 2 (by simp), fields?_colon hminute hm rfl 1 (by simp),
    fields?_point hsecond hs 0 afterPoint, fraction?_eq hfraction hf]
  rfl

/-! ## Whole timestamps -/

/-- The mark of universal time is read as its offset. -/
theorem spellOutZulu_eq (cs : List Char) : spellOutZulu (cs ++ ['Z']) = cs ++ "+00:00".toList := by
  rw [spellOutZulu, List.reverse_append]
  change (if 'Z' = 'Z' ∨ 'Z' = 'z' then cs.reverse.reverse ++ _ else _) = _
  rw [if_pos (.inl rfl), List.reverse_reverse]

/-- A time of day without marks of an offset, and that of universal time. -/
theorem clockAndOffset?_eq {cs : List Char} {c : Clock} (h : clock? cs = some (c, true))
    (hcs : ∀ d ∈ cs, d ≠ '+' ∧ d ≠ '-' ∧ d ≠ 'Z') :
    clockAndOffset? (cs ++ "+00:00".toList) = some (c, 0) := by
  have unmarked : ∀ d ∈ cs, (!(d == '+' || d == '-' || d == 'Z')) = true := fun d hd => by
    simp [hcs d hd]
  have utc : offset? false "00:00".toList = some 0 := by decide
  rw [clockAndOffset?]
  dsimp only
  rw [List.takeWhile_append_of_pos unmarked, List.dropWhile_append_of_pos unmarked]
  change (clock? (cs ++ [])).bind (fun r => (offset? false "00:00".toList).bind fun o =>
    some (r.1, o)) = _
  rw [List.append_nil, h, utc]
  rfl

end Timestamp

namespace Instant

variable (t : Instant)

/-- The instant keeps its date and time of day, but for what is less than a millisecond. -/
theorem date_truncateToMillis : t.truncateToMillis.date = t.date := by
  have day : t.micros / 1000 * 1000 / microsOfDay = t.micros / microsOfDay := by
    rw [microsOfDay]
    omega
  rw [date, date, truncateToMillis, day]

theorem clock_truncateToMillis : t.truncateToMillis.clock =
    { t.clock with micro := t.clock.micro / 1000 * 1000 } := by
  simp only [clock, truncateToMillis, Clock.ofMicros, microsOfDay, Clock.mk.injEq]
  omega

/-- What is less than a millisecond is not written. -/
theorem timestamp_truncateToMillis : t.truncateToMillis.timestamp = t.timestamp := by
  have millis : t.clock.micro / 1000 * 1000 / 1000 = t.clock.micro / 1000 :=
    Nat.mul_div_cancel _ (by decide)
  rw [timestamp, timestamp, date_truncateToMillis, clock_truncateToMillis, millis]

end Instant

namespace Timestamp

/-- A time of day to the millisecond. -/
def clockText (c : Clock) : List Char :=
  padded 2 c.hour ++ ':' :: (padded 2 c.minute ++ ':' :: (padded 2 c.second ++ '.' ::
    padded 3 (c.micro / 1000)))

theorem of_mem_clockText {k : Clock} {c : Char} (h : c ∈ clockText k) :
    c.isDigit = true ∨ c = ':' ∨ c = '.' := by
  simp only [clockText, List.mem_append, List.mem_cons] at h
  rcases h with h | rfl | h | rfl | h | rfl | h
  · exact .inl (isDigit_padded _ _ c h)
  · exact .inr (.inl rfl)
  · exact .inl (isDigit_padded _ _ c h)
  · exact .inr (.inl rfl)
  · exact .inl (isDigit_padded _ _ c h)
  · exact .inr (.inr rfl)
  · exact .inl (isDigit_padded _ _ c h)

theorem toList_timestamp (t : Instant) : t.timestamp.toList =
    padded 1 t.date.year ++ '-' :: padded 2 t.date.month ++ '-' :: padded 2 t.date.day ++
      'T' :: (clockText t.clock ++ ['Z']) := by
  simp only [Instant.timestamp, clockText, String.toList_ofList, List.append_assoc,
    List.cons_append]

/-- A timestamp is digits and signs. -/
theorem not_isBlank_timestamp (t : Instant) : ∀ c ∈ t.timestamp.toList, isBlank c = false := by
  have digit {width n : Nat} {c : Char} (h : c ∈ padded width n) : isBlank c = false :=
    not_isBlank_of_isDecimalDigit (isDecimalDigit_of_isDigit (isDigit_padded width n c h)).2
  intro c hc
  simp only [toList_timestamp, List.append_assoc, List.cons_append, List.mem_append,
    List.mem_cons, List.not_mem_nil, or_false] at hc
  rcases hc with hc | rfl | hc | rfl | hc | rfl | hc | rfl
  · exact digit hc
  · decide
  · exact digit hc
  · decide
  · exact digit hc
  · decide
  · rcases of_mem_clockText hc with hc | rfl | rfl
    · exact not_isBlank_of_isDecimalDigit (isDecimalDigit_of_isDigit hc).2
    · decide
    · decide
  · decide

theorem clockAndOffset?_clockText {c : Clock} (h : c.Valid) :
    clockAndOffset? (spellOutZulu (clockText c ++ ['Z'])) =
      some ({ c with micro := c.micro / 1000 * 1000 }, 0) := by
  obtain ⟨hour, minute, second, micro⟩ := h
  have unmarked : ∀ d ∈ clockText c, d ≠ '+' ∧ d ≠ '-' ∧ d ≠ 'Z' := by
    intro d hd
    rcases of_mem_clockText hd with hd | rfl | rfl
    · refine ⟨?_, ?_, ?_⟩ <;> (rintro rfl; revert hd; decide)
    · decide
    · decide
  rw [spellOutZulu_eq]
  exact clockAndOffset?_eq (clock?_eq (length_padded (by decide) (by omega))
    (length_padded (by decide) (by omega)) (length_padded (by decide) (by omega))
    (length_padded (by decide) (by omega)) (number?_padded _ _) (number?_padded _ _)
    (number?_padded _ _) (number?_padded _ _)) unmarked

/-- A timestamp consists of the date and the time of day that it writes. -/
theorem parts?_timestamp (t : Instant) (h : 1000 ≤ t.date.year) (dateAlone : Bool) :
    parts? t.timestamp dateAlone =
      some (t.date, { t.clock with micro := t.clock.micro / 1000 * 1000 }, 0) := by
  obtain ⟨-, year, -, month, -, day⟩ := t.valid_date
  have days : t.date.day < 10 ^ 2 :=
    Nat.lt_of_le_of_lt (Nat.le_trans day (Date.daysInMonth_le _ _)) (by decide)
  rw [parts?, trimWhile_of_none (not_isBlank_timestamp t), toList_timestamp,
    date?_eq (length_year h (by omega)) (length_padded (by decide) (by omega))
      (length_padded (by decide) days) (number?_padded _ _) (number?_padded _ _)
      (number?_padded _ _)]
  change (clockAndOffset? (spellOutZulu (clockText t.clock ++ ['Z']))).bind (fun r =>
    some (t.date, r)) = _
  rw [clockAndOffset?_clockText t.valid_clock]
  rfl

/-- A date and a time of day that exist write, in universal time, the instant that they say. -/
theorem ofParts_eq {d : Date} {c : Clock} {t : Instant} (hd : d.Valid) (hc : c.Valid)
    (h : d.ordinal * microsOfDay + c.micros = t.micros) : ofParts d c 0 = .instant t := by
  rw [ofParts, if_pos ⟨hd, hc⟩, h, Int.sub_zero, Instant.ofMicros?_micros]

/-- A timestamp is read as the instant that it writes, to the millisecond. -/
theorem read_timestamp (t : Instant) (h : 1000 ≤ t.date.year) (dateAlone : Bool) :
    read t.timestamp dateAlone = .instant t.truncateToMillis := by
  have valid := t.truncateToMillis.valid_clock
  have micros := t.truncateToMillis.micros_date_clock
  rw [Instant.clock_truncateToMillis, Instant.date_truncateToMillis] at micros
  rw [Instant.clock_truncateToMillis] at valid
  rw [read, parts?_timestamp t h]
  exact ofParts_eq t.valid_date valid micros

end Timestamp

end Catalog
