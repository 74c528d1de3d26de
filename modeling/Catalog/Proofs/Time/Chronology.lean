import Catalog.Proofs.Plan.Sorting
import Catalog.Proofs.Query.Met
import Catalog.Proofs.Time.Order
import Catalog.Proofs.Time.Timestamp
import Mathlib.Data.String.Basic

/-!
# The order of timestamps

After the year the fields of a timestamp are written with a fixed number of digits each, so that of
two timestamps of one year the one of the earlier instant comes first among texts
(`Timestamp.fieldsText_lt`). The year is written without zeros before it. If it has four digits, the
text is read back, and texts are in the order of the instants; earlier years are compared like
words, the year 999 after the year 1000, and are not read back (`Timestamp.chronology`).
-/

namespace Catalog

open Text

/-! ## Lists of digits -/

section Lists

variable {as bs rest rest' : List Char}

/-- Of lists of one length, the first difference is that of whatever they begin. -/
theorem append_lt_append (hlen : as.length = bs.length) (h : as < bs) :
    as ++ rest < bs ++ rest' := by
  induction as generalizing bs with
  | nil =>
    rw [List.length_nil, eq_comm, List.length_eq_zero_iff] at hlen
    rw [hlen] at h
    exact absurd h (List.lt_irrefl [])
  | cons a as ih =>
    cases bs with
    | nil => cases hlen
    | cons b bs =>
      rw [List.cons_lt_cons_iff] at h
      rw [List.cons_append, List.cons_append, List.cons_lt_cons_iff]
      exact h.imp_right fun ⟨hab, h⟩ => ⟨hab, ih (Nat.succ.inj hlen) h⟩

/-- Digits do not make up for what is less before them. -/
theorem ofDigitChars_lt_of_lt (hlen : as.length = bs.length) (ha : ∀ c ∈ as, c.isDigit = true)
    {m n : Nat} (h : m < n) : Nat.ofDigitChars 10 as m < Nat.ofDigitChars 10 bs n := by
  induction as generalizing bs m n with
  | nil =>
    rw [List.length_nil, eq_comm, List.length_eq_zero_iff] at hlen
    rw [hlen]
    exact h
  | cons a as ih =>
    cases bs with
    | nil => cases hlen
    | cons b bs =>
      rw [List.forall_mem_cons, Char.isDigit_iff_toNat] at ha
      have nine : '9'.toNat = '0'.toNat + 9 := by decide
      rw [Nat.ofDigitChars_cons, Nat.ofDigitChars_cons]
      exact ih (Nat.succ.inj hlen) ha.2 (by omega)

/-- Of lists of digits of one length, the lesser one writes the lesser number. -/
theorem ofDigitChars_lt (hlen : as.length = bs.length) (ha : ∀ c ∈ as, c.isDigit = true)
    (h : as < bs) (acc : Nat) : Nat.ofDigitChars 10 as acc < Nat.ofDigitChars 10 bs acc := by
  induction as generalizing bs acc with
  | nil =>
    rw [List.length_nil, eq_comm, List.length_eq_zero_iff] at hlen
    rw [hlen] at h
    exact absurd h (List.lt_irrefl [])
  | cons a as ih =>
    cases bs with
    | nil => cases hlen
    | cons b bs =>
      rw [List.forall_mem_cons] at ha
      rw [Nat.ofDigitChars_cons, Nat.ofDigitChars_cons]
      rcases List.cons_lt_cons_iff.1 h with hab | ⟨rfl, hrest⟩
      · have digit := Char.isDigit_iff_toNat.1 ha.1
        have less : a.toNat < b.toNat := hab
        exact ofDigitChars_lt_of_lt (Nat.succ.inj hlen) ha.2 (by omega)
      · exact ih (Nat.succ.inj hlen) ha.2 hrest _

/-- Digits before a dash are in the order of the digits. -/
theorem dashed_lt_dashed (ha : ∀ c ∈ as, c.isDigit = true) (hb : ∀ c ∈ bs, c.isDigit = true)
    (hne : as ≠ bs) : as ++ '-' :: rest < bs ++ '-' :: rest' ↔ as < bs := by
  have below {c : Char} (h : c.isDigit = true) : '-' < c := by
    have digit := (Char.isDigit_iff_toNat.1 h).1
    exact Nat.lt_of_lt_of_le (by decide) digit
  induction as generalizing bs with
  | nil =>
    cases bs with
    | nil => exact absurd rfl hne
    | cons b bs =>
      exact iff_of_true (List.cons_lt_cons_iff.2 (.inl (below (List.forall_mem_cons.1 hb).1)))
        (List.nil_lt_cons b bs)
  | cons a as ih =>
    cases bs with
    | nil =>
      refine iff_of_false (fun h => ?_) (List.not_lt_nil _)
      have digit := below (List.forall_mem_cons.1 ha).1
      rcases List.cons_lt_cons_iff.1 h with hlt | ⟨rfl, -⟩
      · exact lt_asymm hlt digit
      · exact lt_irrefl _ digit
    | cons b bs =>
      rw [List.cons_append, List.cons_append, List.cons_lt_cons_iff, List.cons_lt_cons_iff]
      refine or_congr_right (and_congr_right fun hab => ?_)
      rw [List.forall_mem_cons] at ha hb
      exact ih ha.2 hb.2 fun h => hne (by rw [hab, h])

end Lists

namespace Timestamp

theorem ofDigitChars_padded (width n : Nat) : Nat.ofDigitChars 10 (padded width n) 0 = n := by
  rw [padded, Double.ofDigitChars_zeros_append, Nat.ofDigitChars_ten_toDigits]

theorem eq_of_padded_eq {width width' m n : Nat} (h : padded width m = padded width' n) :
    m = n := by
  rw [← ofDigitChars_padded width m, h, ofDigitChars_padded]

/-- Numbers that are written with as many digits are in the order of their texts. -/
theorem padded_lt_padded {width width' m n : Nat}
    (hlen : (padded width m).length = (padded width' n).length) (h : m < n) :
    padded width m < padded width' n := by
  rcases lt_trichotomy (padded width m) (padded width' n) with hlt | heq | hgt
  · exact hlt
  · exact absurd (eq_of_padded_eq heq) (Nat.ne_of_lt h)
  · have less := ofDigitChars_lt hlen.symm (isDigit_padded _ _) hgt 0
    rw [ofDigitChars_padded, ofDigitChars_padded] at less
    exact absurd less (Nat.lt_asymm h)

/-! ## Fields after the year -/

/-- Fields as they are written, each with its width and with the sign that follows it. -/
def fieldsText : List (Nat × Char) → List Nat → List Char
  | (width, sign) :: shape, n :: ns => padded width n ++ sign :: fieldsText shape ns
  | _, _ => []

/-- What a field of a width can be is less than the power of ten. -/
def Fit (shape : List (Nat × Char)) (ns : List Nat) : Prop :=
  List.Forall₂ (fun field n => 0 < field.1 ∧ n < 10 ^ field.1) shape ns

/-- The text of fields of some widths comes first if the fields do. -/
theorem fieldsText_lt {shape : List (Nat × Char)} {ms ns : List Nat} (hm : Fit shape ms)
    (hn : Fit shape ns) (h : ms < ns) : fieldsText shape ms < fieldsText shape ns := by
  induction hm generalizing ns with
  | nil =>
    cases hn
    exact absurd h (List.lt_irrefl [])
  | @cons field m shape ms hfield _ ih =>
    obtain ⟨width, sign⟩ := field
    obtain _ | ⟨hfield', hn⟩ := hn
    rw [fieldsText, fieldsText]
    rcases List.cons_lt_cons_iff.1 h with hlt | ⟨rfl, hrest⟩
    · have hlen := (length_padded hfield.1 hfield.2).trans (length_padded hfield'.1 hfield'.2).symm
      exact append_lt_append hlen (padded_lt_padded hlen hlt)
    · exact List.append_left_lt (List.cons_lt_cons_iff.2 (.inr ⟨rfl, ih hn hrest⟩))

/-- The widths of the fields after the year, and the signs that follow them. -/
def shape : List (Nat × Char) := [(2, '-'), (2, 'T'), (2, ':'), (2, ':'), (2, '.'), (3, 'Z')]

/-- The fields after the year. -/
def fields (t : Instant) : List Nat :=
  [t.date.month, t.date.day, t.clock.hour, t.clock.minute, t.clock.second, t.clock.micro / 1000]

theorem fit_fields (t : Instant) : Fit shape (fields t) := by
  obtain ⟨-, -, -, month, -, day⟩ := t.valid_date
  obtain ⟨hour, minute, second, micro⟩ := t.valid_clock
  have days := Nat.le_trans day (Date.daysInMonth_le _ _)
  refine .cons ⟨by decide, ?_⟩ <| .cons ⟨by decide, ?_⟩ <| .cons ⟨by decide, ?_⟩ <|
    .cons ⟨by decide, ?_⟩ <| .cons ⟨by decide, ?_⟩ <| .cons ⟨by decide, ?_⟩ .nil <;>
    dsimp only <;> omega

theorem toList_timestamp_eq (t : Instant) :
    t.timestamp.toList = padded 1 t.date.year ++ '-' :: fieldsText shape (fields t) := by
  rw [toList_timestamp, clockText]
  simp only [fieldsText, shape, fields, List.append_assoc, List.cons_append]

/-- Of two instants of one year the earlier one has no greater fields. -/
theorem fields_le {t u : Instant} (h : t ≤ u) (hyear : t.date.year = u.date.year) :
    fields t ≤ fields u := by
  refine not_lt.1 fun hlt => ?_
  have before (hdate : u.date.Before t.date) : False :=
    absurd h (Nat.not_le.2 (Instant.micros_lt_of_before hdate))
  simp only [fields, List.cons_lt_cons_iff, List.lt_irrefl, and_false, or_false] at hlt
  rcases hlt with month | ⟨month, day | ⟨day, clock⟩⟩
  · exact before (.inr ⟨hyear.symm, .inl month⟩)
  · exact before (.inr ⟨hyear.symm, .inr ⟨month, day⟩⟩)
  · have date : u.date = t.date := by
      cases hu : u.date
      cases ht : t.date
      rw [hu, ht] at month day hyear
      rw [Date.mk.injEq]
      exact ⟨hyear.symm, month, day⟩
    obtain ⟨hour, minute, second, micro⟩ := t.valid_clock
    obtain ⟨hour', minute', second', micro'⟩ := u.valid_clock
    have earlier : u.clock.micros < t.clock.micros := by
      rw [Clock.micros, Clock.micros]
      omega
    exact absurd h (Nat.not_le.2 (Instant.micros_lt_of_clock date earlier))

/-! ## Texts in order -/

/-- Of two instants of one year the earlier one has no greater timestamp. -/
theorem timestamp_le_of_year {t u : Instant} (h : t ≤ u) (hyear : t.date.year = u.date.year) :
    t.timestamp ≤ u.timestamp := by
  rw [String.le_iff_toList_le, toList_timestamp_eq, toList_timestamp_eq, hyear]
  rcases lt_or_eq_of_le (fields_le h hyear) with hlt | heq
  · have fields := fieldsText_lt (fit_fields t) (fit_fields u) hlt
    exact le_of_lt (List.append_left_lt (List.cons_lt_cons_iff.2 (.inr ⟨rfl, fields⟩)))
  · rw [heq]

/-- The year as it is written. -/
theorem toList_toString (n : Nat) : (toString n).toList = padded 1 n := by
  have long := Nat.length_toDigits_pos (b := 10) (n := n)
  rw [Nat.toString_eq_ofList_toDigits, String.toList_ofList, padded,
    Nat.sub_eq_zero_of_le (Nat.succ_le_of_lt long), List.replicate_zero, List.nil_append]

theorem year_le {t u : Instant} (h : t ≤ u) : t.date.year ≤ u.date.year :=
  Nat.not_lt.1 fun hlt =>
    absurd h (Nat.not_le.2 (Instant.micros_lt_of_before (.inl hlt)))

/-- The timestamps of two instants, the first of which is no later, are in the order of their years
    as texts. -/
theorem timestamp_le_iff {t u : Instant} (h : t ≤ u) :
    t.timestamp ≤ u.timestamp ↔ toString t.date.year ≤ toString u.date.year := by
  rcases Nat.lt_or_eq_of_le (year_le h) with hlt | heq
  · have hne : padded 1 t.date.year ≠ padded 1 u.date.year :=
      fun h => Nat.ne_of_lt hlt (eq_of_padded_eq h)
    have order :
        padded 1 u.date.year ++ '-' :: fieldsText shape (fields u) <
            padded 1 t.date.year ++ '-' :: fieldsText shape (fields t) ↔
          padded 1 u.date.year < padded 1 t.date.year :=
      dashed_lt_dashed (isDigit_padded _ _) (isDigit_padded _ _) hne.symm
    rw [String.le_iff_toList_le, String.le_iff_toList_le, toList_timestamp_eq, toList_timestamp_eq,
      toList_toString, toList_toString, ← not_lt, ← not_lt, order]
  · exact iff_of_true (timestamp_le_of_year h heq) (by rw [heq])

/-- Years of four digits are in order as texts. -/
theorem toString_year_le {m n : Nat} (hm : 1000 ≤ m) (hn : n < 10000) (h : m ≤ n) :
    toString m ≤ toString n := by
  rw [String.le_iff_toList_le, toList_toString, toList_toString]
  rcases Nat.lt_or_eq_of_le h with hlt | rfl
  · have hlen := (length_year hm (by omega)).trans (length_year (by omega) hn).symm
    exact le_of_lt (padded_lt_padded hlen hlt)
  · exact le_refl _

/-! ## Years of less than four digits -/

theorem number?_eq_none {cs : List Char} {c : Char} (hc : c.isDigit = false) (h : c ∈ cs)
    (acc : Nat) : number? acc cs = none := by
  induction cs generalizing acc with
  | nil => cases h
  | cons d cs ih =>
    rw [number?, asciiDigit?]
    split
    · next digit =>
      rcases List.mem_cons.1 h with rfl | h
      · cases hc.symm.trans digit
      · exact ih h _
    · rfl

/-- A year of less than four digits is not read. -/
theorem date?_eq_none {year rest : List Char} (h : year.length < 4) :
    date? (year ++ '-' :: rest) = none := by
  have dash : (year ++ '-' :: rest)[year.length]? = some '-' := by
    rw [List.getElem?_append_right (Nat.le_refl _), Nat.sub_self]
    rfl
  unfold date?
  split
  · next y1 y2 y3 y4 m1 m2 d1 d2 rest' heq =>
    have among : '-' ∈ [y1, y2, y3, y4] := by
      rw [heq, ← List.getElem?_take_of_lt h] at dash
      exact List.mem_of_getElem? dash
    rw [number?_eq_none (by decide) among]
    rfl
  · rfl

/-- A timestamp is read back exactly if its year has four digits. -/
theorem read_timestamp_eq (t : Instant) (dateAlone : Bool) : read t.timestamp dateAlone =
    if 1000 ≤ t.date.year then .instant t.truncateToMillis else .malformed := by
  split
  · next four => exact read_timestamp t four dateAlone
  · next fewer =>
    have short : (padded 1 t.date.year).length < 4 := by
      have digits := (Nat.length_toDigits_le_iff (b := 10) (k := 3) (by decide) (by decide)).2
        (Nat.not_le.1 fewer)
      rw [padded, List.length_append, List.length_replicate]
      omega
    rw [read, parts?, trimWhile_of_none (not_isBlank_timestamp t), toList_timestamp_eq,
      date?_eq_none short]
    rfl

/-! ## Sorting by timestamps -/

/-- From the year 1000 on timestamps are in the order of the instants. -/
theorem timestamp_le {t u : Instant} (h : t ≤ u) (hyear : 1000 ≤ t.date.year) :
    t.timestamp ≤ u.timestamp :=
  (timestamp_le_iff h).2
    (toString_year_le hyear (Nat.lt_succ_of_le u.valid_date.2.1) (year_le h))

/-- From the year 1000 on timestamps are in the order of what they are read back as. -/
theorem timestamp_le_iff_truncateToMillis {t u : Instant} (ht : 1000 ≤ t.date.year)
    (hu : 1000 ≤ u.date.year) :
    t.timestamp ≤ u.timestamp ↔ t.truncateToMillis ≤ u.truncateToMillis := by
  have written {t u : Instant} (ht : 1000 ≤ t.date.year)
      (h : t.truncateToMillis ≤ u.truncateToMillis) : t.timestamp ≤ u.timestamp := by
    have truncated := timestamp_le h (by rwa [Instant.date_truncateToMillis])
    rwa [Instant.timestamp_truncateToMillis, Instant.timestamp_truncateToMillis] at truncated
  refine ⟨fun h => ?_, written ht⟩
  rcases Nat.le_total t.truncateToMillis.micros u.truncateToMillis.micros with hle | hle
  · exact hle
  · -- The texts are then the same, and are read back as one instant.
    have same : read t.timestamp false = read u.timestamp false := by
      rw [le_antisymm h (written hu hle)]
    rw [read_timestamp t ht, read_timestamp u hu, Timestamp.instant.injEq] at same
    exact Nat.le_of_eq (congrArg Instant.micros same)

end Timestamp

/-- Documents that are sorted by timestamps of years of four digits are in the order of time. -/
theorem pairwise_sortDocuments_timestamps {key : OrderKey} {docs : List Document}
    {time : Document → Instant}
    (h : ∀ d ∈ docs, key.valueOf (.object d) = .text (time d).timestamp ∧
      1000 ≤ (time d).date.year) :
    (sortDocuments [key] docs).Pairwise fun d e =>
      if key.descending then (time e).truncateToMillis ≤ (time d).truncateToMillis
      else (time d).truncateToMillis ≤ (time e).truncateToMillis := by
  have reads : ∀ k ∈ [key], ∀ d ∈ docs, k.Reads d := by
    rintro _ hk d hd
    rw [List.mem_singleton.1 hk, OrderKey.Reads, (h d hd).1]
    rfl
  obtain ⟨arranged, hperm, hfirst, hsorted⟩ := exists_arranged reads
  rw [← hsorted, List.pairwise_map]
  refine hfirst.imp_of_mem fun {p q} hp hq hpq => ?_
  have mem {p : Document × Nat} (hp : p ∈ arranged) : p.1 ∈ docs :=
    List.fst_mem_of_mem_zipIdx (hperm.mem_iff.1 hp)
  have hback : ¬key.Before q.1 p.1 :=
    (OrderKey.comesFirst_cons.1 hpq).elim (·.asymm) fun ⟨level, _⟩ => level.2
  obtain ⟨hp, hpyear⟩ := h p.1 (mem hp)
  obtain ⟨hq, hqyear⟩ := h q.1 (mem hq)
  rw [OrderKey.Before, hp, hq] at hback
  by_cases hk : key.descending = true
  · rw [if_pos hk] at hback ⊢
    exact (Timestamp.timestamp_le_iff_truncateToMillis hqyear hpyear).1
      (not_lt.1 fun hlt => hback (.text hlt))
  · rw [if_neg hk] at hback ⊢
    exact (Timestamp.timestamp_le_iff_truncateToMillis hpyear hqyear).1
      (not_lt.1 fun hlt => hback (.text hlt))

namespace Timestamp

/-- A timestamp is read back as the instant that it writes, to the millisecond, exactly if its year
    has four digits. Of two timestamps the one of the earlier instant comes first among texts if its
    year does, as it does from the year 1000 on; and so sorting by timestamps of such years is
    sorting by time. -/
theorem chronology (t u : Instant) (dateAlone : Bool) (key : OrderKey) (docs : List Document)
    (time : Document → Instant) :
    (read t.timestamp dateAlone =
      if 1000 ≤ t.date.year then .instant t.truncateToMillis else .malformed) ∧
    (t ≤ u →
      (t.timestamp ≤ u.timestamp ↔ toString t.date.year ≤ toString u.date.year) ∧
      (1000 ≤ t.date.year → t.timestamp ≤ u.timestamp)) ∧
    ((∀ d ∈ docs, key.valueOf (.object d) = .text (time d).timestamp ∧
        1000 ≤ (time d).date.year) →
      (sortDocuments [key] docs).Pairwise fun d e =>
        if key.descending then (time e).truncateToMillis ≤ (time d).truncateToMillis
        else (time d).truncateToMillis ≤ (time e).truncateToMillis) :=
  ⟨read_timestamp_eq t dateAlone, fun h => ⟨timestamp_le_iff h, timestamp_le h⟩,
    pairwise_sortDocuments_timestamps⟩

/-- The end of a year and the beginning of the next one. -/
def newYear (year : Nat) : Instant × Instant :=
  ((Instant.ofFields? ⟨year, 12, 31⟩ ⟨23, 59, 59, 999999⟩).getD .first,
    (Instant.ofFields? ⟨year + 1, 1, 1⟩ ⟨0, 0, 0, 0⟩).getD .first)

/-- A record that was created at an instant. -/
def createdAt (t : Instant) : Document := [("_createdDateTime", .text t.timestamp)]

/-- The time that a record says it was created at. -/
def creationTime (d : Document) : Instant :=
  match d.get? "_createdDateTime" with
  | some (.text s) => (read s false).instant?.getD .first
  | _ => .first

/-- A record of the end of a year is put before one of the next year, wherever the two stood. -/
theorem chronology_newYear :
    (newYear 2024).1 ≤ (newYear 2024).2 ∧ 1000 ≤ (newYear 2024).1.date.year ∧
      (newYear 2024).1.timestamp ≤ (newYear 2024).2.timestamp ∧
      (∀ d ∈ [createdAt (newYear 2024).2, createdAt (newYear 2024).1],
        OrderKey.valueOf ⟨"_createdDateTime", false⟩ (.object d) =
            .text (creationTime d).timestamp ∧
          1000 ≤ (creationTime d).date.year) ∧
      (sortDocuments [⟨"_createdDateTime", false⟩]
          [createdAt (newYear 2024).2, createdAt (newYear 2024).1]).Pairwise fun d e =>
        (creationTime d).truncateToMillis ≤ (creationTime e).truncateToMillis := by
  have earlier : (newYear 2024).1 ≤ (newYear 2024).2 := by
    change (newYear 2024).1.micros ≤ (newYear 2024).2.micros
    decide
  have year : 1000 ≤ (newYear 2024).1.date.year := by decide
  have times : ∀ d ∈ [createdAt (newYear 2024).2, createdAt (newYear 2024).1],
      OrderKey.valueOf ⟨"_createdDateTime", false⟩ (.object d) = .text (creationTime d).timestamp ∧
        1000 ≤ (creationTime d).date.year := by
    have value (t : Instant) : OrderKey.valueOf ⟨"_createdDateTime", false⟩
        (.object (createdAt t)) = .text t.timestamp := by
      have key : '.' ∉ "_createdDateTime".toList := by decide
      rw [OrderKey.valueOf, Document.path?_key key]
      rfl
    have written : (creationTime (createdAt (newYear 2024).2)).timestamp =
          (newYear 2024).2.timestamp ∧
        (creationTime (createdAt (newYear 2024).1)).timestamp = (newYear 2024).1.timestamp := by
      decide
    rw [List.forall_mem_cons, List.forall_mem_singleton, value, value, written.1, written.2]
    exact ⟨⟨rfl, by decide⟩, rfl, by decide⟩
  obtain ⟨-, ordered, sorted⟩ := chronology (newYear 2024).1 (newYear 2024).2 false
    ⟨"_createdDateTime", false⟩ [createdAt (newYear 2024).2, createdAt (newYear 2024).1]
    creationTime
  exact ⟨earlier, year, (ordered earlier).2 year, times, sorted times⟩

/-- The end of the year 999 is not read back, and comes after the beginning of the next year among
    texts. -/
theorem not_chronology :
    (newYear 999).1 ≤ (newYear 999).2 ∧ read (newYear 999).1.timestamp false = .malformed ∧
      ¬(newYear 999).1.timestamp ≤ (newYear 999).2.timestamp := by
  have earlier : (newYear 999).1 ≤ (newYear 999).2 := by
    change (newYear 999).1.micros ≤ (newYear 999).2.micros
    decide
  exact ⟨earlier, by decide, by decide⟩

end Timestamp

end Catalog
