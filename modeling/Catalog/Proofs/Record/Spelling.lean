import Catalog.Record.Reference

/-!
# How references are spelled

A reference to a record on a host may have blanks around it and reads the same. If it begins as the
references to the records of a family on the host do, there can be blanks at its end only, so that
it is the reference to the record that it reads as, and then blanks (`Reference.eq_of_read?`).

Blanks at the end of a text are its *padding* here.
-/

namespace Catalog

namespace Text

variable {p : Char → Bool} {xs ys zs : List Char} {c : Char}

/-! ## Ends of lists of characters -/

/-- What is dropped stands before the first character of another class. -/
theorem dropWhile_append_cons (hc : p c = false) (xs ys : List Char) :
    (xs ++ c :: ys).dropWhile p = xs.dropWhile p ++ c :: ys := by
  induction xs with
  | nil => rw [List.nil_append, List.dropWhile_cons_of_neg (by simp [hc])]; rfl
  | cons x xs ih =>
    by_cases hx : p x = true
    · rw [List.cons_append, List.dropWhile_cons_of_pos hx, List.dropWhile_cons_of_pos hx, ih]
    · rw [List.cons_append, List.dropWhile_cons_of_neg hx, List.dropWhile_cons_of_neg hx]
      rfl

theorem dropEndWhile_append_cons (hc : p c = false) (xs ys : List Char) :
    dropEndWhile p (xs ++ c :: ys) = xs ++ c :: dropEndWhile p ys := by
  rw [dropEndWhile, dropEndWhile, List.reverse_append, List.reverse_cons, List.append_assoc,
    List.singleton_append, dropWhile_append_cons hc]
  simp

theorem dropEndWhile_append (h : ∀ c ∈ ys, p c = true) (xs : List Char) :
    dropEndWhile p (xs ++ ys) = dropEndWhile p xs := by
  rw [dropEndWhile, dropEndWhile, List.reverse_append,
    List.dropWhile_append_of_pos fun c hc => h c (List.mem_reverse.1 hc)]

/-- What is dropped from the end comes back with characters of the class. -/
theorem exists_dropEndWhile (p : Char → Bool) (xs : List Char) :
    ∃ ys, (∀ c ∈ ys, p c = true) ∧ xs = dropEndWhile p xs ++ ys := by
  refine ⟨(xs.reverse.takeWhile p).reverse, fun c hc => ?_, ?_⟩
  · exact List.all_eq_true.1 List.all_takeWhile c (List.mem_reverse.1 hc)
  · rw [dropEndWhile, ← List.reverse_append, List.takeWhile_append_dropWhile,
      List.reverse_reverse]

/-- The last character that is left is of another class. -/
theorem last_dropEndWhile (h : dropEndWhile p xs = ys ++ [c]) : p c = false := by
  have first : xs.reverse.dropWhile p = c :: ys.reverse := by
    rw [← List.reverse_reverse (xs.reverse.dropWhile p)]
    change (dropEndWhile p xs).reverse = _
    rw [h, List.reverse_append]
    rfl
  have := List.head?_dropWhile_not p xs.reverse
  rw [first] at this
  simpa using this

theorem dropEndWhile_idem (p : Char → Bool) (xs : List Char) :
    dropEndWhile p (dropEndWhile p xs) = dropEndWhile p xs := by
  obtain ⟨ys, hys, h⟩ := exists_dropEndWhile p xs
  rw [← dropEndWhile_append hys, ← h]

/-- Splitting splits what stands on both sides of a separator. -/
theorem splitChars_append_sep (sep : Char) (xs ys : List Char) :
    splitChars sep (xs ++ sep :: ys) = splitChars sep xs ++ splitChars sep ys := by
  induction xs with
  | nil => exact splitChars_append List.not_mem_nil ys
  | cons x xs ih =>
    rw [List.cons_append, splitChars, splitChars, ih]
    split
    · rfl
    · cases h : splitChars sep xs with
      | nil => exact absurd h (splitChars_ne_nil sep xs)
      | cons part parts => rfl

theorem eq_of_splitChars {sep : Char} (h : splitChars sep xs = [ys]) : xs = ys := by
  have joined := intercalate_splitChars sep xs
  rw [h] at joined
  simpa [List.intercalate] using joined.symm

/-! ## Padding -/

/-- A text of blanks only. -/
def IsPadding (s : String) : Prop := ∀ c ∈ s.toList, isBlank c = true

/-- A text does not end in a blank. -/
def Unpadded (s : String) : Prop := dropEndWhile isBlank s.toList = s.toList

instance (s : String) : Decidable (Unpadded s) := inferInstanceAs (Decidable (_ = _))

/-- A text and its padding can be told apart. -/
theorem Unpadded.eq_of_append {s t a b : String} (hs : Unpadded s) (ht : Unpadded t)
    (ha : IsPadding a) (hb : IsPadding b) (h : s ++ a = t ++ b) : s = t := by
  have chars := congrArg (dropEndWhile isBlank) (congrArg String.toList h)
  rw [String.toList_append, String.toList_append, dropEndWhile_append ha, dropEndWhile_append hb,
    hs, ht] at chars
  exact String.toList_inj.1 chars

/-- Where a text does not end in a blank, it has no padding. -/
theorem IsPadding.eq_empty {s a : String} (ha : IsPadding a) (h : Unpadded (s ++ a)) : a = "" := by
  obtain ⟨dropped, -, hs⟩ := exists_dropEndWhile isBlank s.toList
  rw [Unpadded, String.toList_append, dropEndWhile_append ha] at h
  have lengths := congrArg List.length hs
  rw [h, List.length_append, List.length_append] at lengths
  exact String.toList_inj.1 (List.eq_nil_of_length_eq_zero (by omega))

end Text

/-! ## References -/

open Text

namespace Reference

variable {host t : String} {f : Family} {r : Reference}

/-- Where a text has a slash after one that ends in none, the scheme stands before it, with the
    slashes after it and the authority. -/
theorem afterScheme?_eq_some {start seg rest found : List Char}
    (hends : ∀ ys, start ≠ ys ++ ['/']) (hseg : '/' ∉ seg) (hne : seg ≠ [])
    (h : afterScheme? (start ++ '/' :: (seg ++ rest)) = some found) :
    ∃ authority, found = authority ++ '/' :: (seg ++ rest) := by
  obtain ⟨c, seg, rfl⟩ := List.exists_cons_of_ne_nil hne
  have hc : c ≠ '/' := fun h => hseg (h ▸ List.mem_cons_self)
  rcases start with _ | ⟨first, start⟩
  · cases h
  rw [List.cons_append, afterScheme?] at h
  split at h
  · rw [dropWhile_append_cons (by decide)] at h
    have hends' : ∀ ys, start.dropWhile isSchemeChar ≠ ys ++ ['/'] := by
      intro ys hys
      have whole := List.takeWhile_append_dropWhile (p := isSchemeChar) (l := start)
      rw [hys] at whole
      exact hends (first :: (start.takeWhile isSchemeChar ++ ys)) (by
        rw [List.cons_append, List.append_assoc, whole])
    -- The colon and the slashes are before the slash, as no two slashes come one after the other.
    split at h
    · next authority hauthority =>
      cases h
      rcases hscheme : start.dropWhile isSchemeChar with _ | ⟨a, _ | ⟨b, _ | ⟨d, left⟩⟩⟩
      · rw [hscheme] at hauthority
        cases hauthority
      · rw [hscheme] at hauthority
        cases hauthority
        exact absurd rfl hc
      · rw [hscheme] at hauthority
        cases hauthority
        exact absurd hscheme (hends' [':'])
      · rw [hscheme] at hauthority
        cases hauthority
        exact ⟨left, rfl⟩
    · cases h
  · cases h

theorem toList_write (host : String) (f : Family) (id : String) : (write host ⟨f, id⟩).toList =
    dropEndWhile (· == '/') host.toList ++
      '/' :: (f.segment.toList ++ '/' :: id.toList) := by
  simp [write]

/-- What follows the host and the segment is written in one. -/
theorem toList_write_append (host : String) (f : Family) (id : List Char) :
    (write host ⟨f, ""⟩).toList ++ id =
      dropEndWhile (· == '/') host.toList ++ '/' :: (f.segment.toList ++ '/' :: id) := by
  simp [toList_write]

theorem segment_plain (f : Family) : '/' ∉ f.segment.toList ∧ f.segment.toList ≠ [] := by
  cases f <;> decide

/-- A text that begins as the references to the records of a family on a host names by what follows
    it, without the padding. -/
theorem id_of_read? {id : List Char} (ht : t.toList = (write host ⟨f, ""⟩).toList ++ id)
    (hread : read? t = some r) : r.id = String.ofList (dropEndWhile isBlank id) := by
  obtain ⟨hplain, hne⟩ := segment_plain f
  have trimmed : trimWhile isBlank t.toList =
      (dropEndWhile (· == '/') host.toList).dropWhile isBlank ++
        '/' :: (f.segment.toList ++ '/' :: dropEndWhile isBlank id) := by
    rw [ht, toList_write_append, trimWhile, dropWhile_append_cons (by decide),
      dropEndWhile_append_cons (by decide), dropEndWhile_append_cons (by decide)]
  have hends (ys : List Char) :
      (dropEndWhile (· == '/') host.toList).dropWhile isBlank ≠ ys ++ ['/'] := by
    intro hys
    have whole := List.takeWhile_append_dropWhile (p := isBlank)
      (l := dropEndWhile (· == '/') host.toList)
    rw [hys, ← List.append_assoc] at whole
    exact Bool.noConfusion (last_dropEndWhile whole.symm)
  rw [read?, trimmed] at hread
  obtain ⟨found, hfound, hread⟩ := Option.bind_eq_some_iff.1 hread
  obtain ⟨authority, rfl⟩ := afterScheme?_eq_some hends hplain hne hfound
  rw [splitChars_append_sep, splitChars_append hplain] at hread
  split at hread
  · next a segment name hparts =>
    -- Of the three parts one stands before the segment and one after it.
    obtain ⟨x, xs, hx⟩ := List.exists_cons_of_ne_nil (splitChars_ne_nil '/' authority)
    obtain ⟨y, ys, hy⟩ := List.exists_cons_of_ne_nil (splitChars_ne_nil '/'
      (dropEndWhile isBlank id))
    rw [hx, hy] at hparts
    have alone : xs = [] ∧ ys = [] := by
      have lengths := congrArg List.length hparts
      simp only [List.length_append, List.length_cons, List.length_nil] at lengths
      exact ⟨List.eq_nil_of_length_eq_zero (by omega), List.eq_nil_of_length_eq_zero (by omega)⟩
    obtain ⟨rfl, rfl⟩ := alone
    cases hparts
    obtain ⟨-, -, hread⟩ := Option.bind_eq_some_iff.1 hread
    obtain ⟨family, -, hread⟩ := Option.bind_eq_some_iff.1 hread
    cases hread
    rw [eq_of_splitChars hy]
  · cases hread

/-- A text that begins as the references to the records of a family on a host is the reference to
    the record that it names, with padding. -/
theorem eq_of_read? (hbegins : (write host ⟨f, ""⟩).toList <+: t.toList)
    (hread : read? t = some r) : Unpadded r.id ∧
      ∃ padding, IsPadding padding ∧ t = write host ⟨f, r.id⟩ ++ padding := by
  obtain ⟨id, ht⟩ := hbegins
  obtain ⟨padding, hpadding, hid⟩ := exists_dropEndWhile isBlank id
  rw [id_of_read? ht.symm hread]
  constructor
  · rw [Unpadded, String.toList_ofList]
    exact dropEndWhile_idem _ _
  · refine ⟨String.ofList padding, ?_, String.toList_inj.1 ?_⟩
    · rw [IsPadding, String.toList_ofList]
      exact hpadding
    · rw [← ht, String.toList_append, toList_write_append, toList_write, String.toList_ofList,
        String.toList_ofList]
      simp only [List.append_assoc, List.cons_append]
      rw [← hid]

/-- References with padding name the same record only if they are written for the same id. -/
theorem id_eq_of_append {id id' a b : String} (hid : Unpadded id) (hid' : Unpadded id')
    (ha : IsPadding a) (hb : IsPadding b)
    (h : write host ⟨f, id⟩ ++ a = write host ⟨f, id'⟩ ++ b) : id = id' := by
  refine hid.eq_of_append hid' ha hb (String.toList_inj.1 ?_)
  have chars := congrArg String.toList h
  rw [String.toList_append, String.toList_append, toList_write, toList_write] at chars
  simpa only [List.append_assoc, List.cons_append, List.append_cancel_left_eq, List.cons.injEq,
    true_and, ← String.toList_append] using chars

end Reference

end Catalog
