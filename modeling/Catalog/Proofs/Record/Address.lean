import Catalog.Proofs.Number.Numeral
import Catalog.Proofs.Record.Spelling

/-!
# References on hosts

A *host* is `scheme://authority`, and `scheme://authority/segment/id` is the reference on it to a
record. If the id is *plain* (not empty, without `/`, `?` and `#`, and with no blank at its end),
the reference is what `Reference.write` makes of the host, with any number of slashes after it, and
`Reference.read?` gives the record back (`Host.read?_reference`).

Nothing else is read as a reference to the record: all texts that are have such a reference between
their blanks, on one host or another (`Reference.read?_eq_some_iff`). So texts that are read as the
same record differ in their hosts and in the blanks around them at most.
-/

namespace Catalog

namespace Text

variable {sep : Char} {cs : List Char}

/-- The parts that a list is split into at a separator do not have it. -/
theorem not_mem_of_mem_splitChars {part : List Char} (h : part ∈ splitChars sep cs) :
    sep ∉ part := by
  induction cs generalizing part with
  | nil =>
    rw [splitChars, List.mem_singleton] at h
    simp [h]
  | cons c cs ih =>
    by_cases hc : c = sep
    · rw [splitChars, if_pos hc] at h
      rcases List.mem_cons.1 h with rfl | h
      · exact List.not_mem_nil
      · exact ih h
    · obtain ⟨first, parts, hcs⟩ := List.exists_cons_of_ne_nil (splitChars_ne_nil sep cs)
      rw [splitChars_cons hc, hcs, List.modifyHead_cons] at h
      rw [hcs] at ih
      rcases List.mem_cons.1 h with rfl | h
      · simpa [Ne.symm hc] using ih List.mem_cons_self
      · exact ih (List.mem_cons_of_mem _ h)

/-- A list is split into three parts if they stand around two separators. -/
theorem splitChars_eq_three_iff {xs ys zs : List Char} :
    splitChars sep cs = [xs, ys, zs] ↔
      sep ∉ xs ∧ sep ∉ ys ∧ sep ∉ zs ∧ cs = xs ++ sep :: (ys ++ sep :: zs) := by
  constructor
  · intro h
    have part {p : List Char} (hp : p ∈ [xs, ys, zs]) : sep ∉ p :=
      not_mem_of_mem_splitChars (h ▸ hp)
    have joined := intercalate_splitChars sep cs
    rw [h] at joined
    exact ⟨part (by simp), part (by simp), part (by simp), by simpa using joined.symm⟩
  · rintro ⟨hx, hy, hz, rfl⟩
    rw [splitChars_append hx, splitChars_append hy, splitChars_of_not_mem hz]

/-- A text has blanks around what is left of it without them. -/
theorem exists_trim (s : String) :
    ∃ before after, IsPadding before ∧ IsPadding after ∧ s = before ++ trim s ++ after := by
  obtain ⟨after, hafter, hs⟩ := exists_dropEndWhile isBlank (s.toList.dropWhile isBlank)
  refine ⟨String.ofList (s.toList.takeWhile isBlank), String.ofList after, ?_, ?_, ?_⟩
  · intro c hc
    rw [String.toList_ofList] at hc
    exact List.all_eq_true.1 List.all_takeWhile c hc
  · rwa [IsPadding, String.toList_ofList]
  · rw [← String.toList_inj, String.toList_append, String.toList_append, trim, trimWhile,
      String.toList_ofList, String.toList_ofList, String.toList_ofList, List.append_assoc, ← hs,
      List.takeWhile_append_dropWhile]

end Text

open Text

namespace Reference

/-! ## Hosts -/

/-- Whether a text is a scheme: a letter, and then letters, digits, `+`, `.` or `-`. -/
def isScheme (s : String) : Bool :=
  match s.toList with
  | [] => false
  | c :: cs => c.isAlpha && cs.all isSchemeChar

/-- Where references point to. -/
structure Host where
  /-- The scheme. -/
  scheme : String
  /-- The authority. -/
  authority : String
  /-- The scheme is one. -/
  isScheme_scheme : isScheme scheme = true
  /-- The authority is not empty. -/
  authority_ne_empty : authority ≠ ""
  /-- There is no slash in the authority. -/
  slash_not_mem_authority : '/' ∉ authority.toList

/-- An id that is read back from a reference. -/
structure Plain (id : String) : Prop where
  /-- It is not empty. -/
  ne_empty : id ≠ ""
  /-- It has none of the characters that are no part of an id. -/
  not_mem : '/' ∉ id.toList ∧ '?' ∉ id.toList ∧ '#' ∉ id.toList
  /-- It does not end in a blank, which would be one after the reference. -/
  unpadded : Unpadded id

instance (id : String) : Decidable (Plain id) :=
  decidable_of_iff
    (id ≠ "" ∧ ('/' ∉ id.toList ∧ '?' ∉ id.toList ∧ '#' ∉ id.toList) ∧ Unpadded id)
    ⟨fun ⟨hne, hmem, hpad⟩ => ⟨hne, hmem, hpad⟩, fun h => ⟨h.ne_empty, h.not_mem, h.unpadded⟩⟩

theorem exists_of_isScheme {s : String} (h : isScheme s = true) :
    ∃ c cs, s.toList = c :: cs ∧ c.isAlpha = true ∧ ∀ d ∈ cs, isSchemeChar d = true := by
  rw [isScheme] at h
  split at h
  · cases h
  · next c cs hs =>
    rw [Bool.and_eq_true, List.all_eq_true] at h
    exact ⟨c, cs, hs, h.1, h.2⟩

/-- A letter is no blank. -/
theorem not_isBlank_of_isAlpha {c : Char} (h : c.isAlpha = true) : isBlank c = false := by
  have bounds : 65 ≤ c.toNat ∧ c.toNat ≤ 90 ∨ 97 ≤ c.toNat ∧ c.toNat ≤ 122 := by
    unfold Char.isAlpha Char.isUpper Char.isLower at h
    simpa [UInt32.le_iff_toNat_le] using h
  exact not_isBlank_of_visible (by omega)

namespace Host

variable (h : Host) {r : Reference}

/-- The text of a host. -/
def address : String := h.scheme ++ "://" ++ h.authority

/-- The reference to a record on a host. -/
def reference (r : Reference) : String :=
  h.address ++ "/" ++ r.family.segment ++ "/" ++ r.id

theorem toList_reference (r : Reference) : (h.reference r).toList =
    h.scheme.toList ++ ':' :: '/' :: '/' ::
      (h.authority.toList ++ '/' :: (r.family.segment.toList ++ '/' :: r.id.toList)) := by
  simp [reference, address, String.toList_append]

/-- A reference ends in a blank if the id does. -/
theorem unpadded_reference_iff : Unpadded (h.reference r) ↔ Unpadded r.id := by
  have last : (h.reference r).toList =
      (h.address ++ "/" ++ r.family.segment).toList ++ '/' :: r.id.toList := by
    simp [reference, String.toList_append]
  rw [Unpadded, last, dropEndWhile_append_cons (by decide)]
  simp [Unpadded]

/-- There are no blanks around a reference, if none is at the end of the id. -/
theorem trim_reference (hid : Unpadded r.id) : trim (h.reference r) = h.reference r := by
  obtain ⟨c, cs, hscheme, hc, -⟩ := exists_of_isScheme h.isScheme_scheme
  have first : (h.reference r).toList.dropWhile isBlank = (h.reference r).toList := by
    rw [toList_reference, hscheme, List.cons_append,
      List.dropWhile_cons_of_neg (by simp [not_isBlank_of_isAlpha hc])]
  rw [trim, trimWhile, first, h.unpadded_reference_iff.2 hid, String.ofList_toList]

/-- Slashes after a host do not count. -/
theorem write_address (slashes : Nat) (r : Reference) :
    write (h.address ++ String.ofList (List.replicate slashes '/')) r = h.reference r := by
  -- The last character of the host is one of the authority, and no slash.
  have hne : h.authority.toList ≠ [] := mt String.toList_eq_nil_iff.1 h.authority_ne_empty
  have hlast : (h.authority.toList.getLast hne == '/') = false :=
    beq_eq_false_iff_ne.2 fun heq =>
      h.slash_not_mem_authority (heq ▸ List.getLast_mem hne)
  have ends : h.address.toList = (h.scheme ++ "://").toList ++ h.authority.toList.dropLast ++
      h.authority.toList.getLast hne :: [] := by
    rw [List.append_assoc, List.dropLast_concat_getLast, address, String.toList_append]
  have kept : dropEndWhile (· == '/') h.address.toList = h.address.toList := by
    rw [ends, dropEndWhile_append_cons (p := (· == '/')) hlast]
    rfl
  rw [write, String.toList_append, String.toList_ofList,
    dropEndWhile_append (fun c hc => by simp [List.eq_of_mem_replicate hc]), kept,
    String.ofList_toList, reference]

end Host

/-! ## Reading -/

variable {s : String} {r : Reference}

theorem afterScheme?_eq_some_iff {cs rest : List Char} : afterScheme? cs = some rest ↔
    ∃ scheme, isScheme scheme = true ∧ cs = scheme.toList ++ ':' :: '/' :: '/' :: rest := by
  constructor
  · intro h
    rcases cs with _ | ⟨c, cs⟩
    · cases h
    rw [afterScheme?] at h
    split at h
    · next hc =>
      split at h
      · next left hleft =>
        cases h
        refine ⟨String.ofList (c :: cs.takeWhile isSchemeChar), ?_, ?_⟩
        · rw [isScheme, String.toList_ofList]
          simp [hc]
        · rw [String.toList_ofList, List.cons_append, ← hleft, List.takeWhile_append_dropWhile]
      · cases h
    · cases h
  · rintro ⟨scheme, hscheme, rfl⟩
    obtain ⟨c, cs, hs, hc, hcs⟩ := exists_of_isScheme hscheme
    rw [hs, List.cons_append, afterScheme?, if_pos hc, List.dropWhile_append_of_pos hcs,
      List.dropWhile_cons_of_neg (by decide)]
    rfl

/-- A guard lets pass what is so. -/
theorem guard_eq_some_iff {p : Prop} [Decidable p] {u : Unit} : guard p = some u ↔ p := by
  unfold guard
  split
  · next hp => exact iff_of_true rfl hp
  · next hp => exact iff_of_false (fun h => by cases h) hp

/-- What is read, part by part: after the scheme come the authority, the segment and the id. -/
theorem read?_eq_some_iff_parts : read? s = some r ↔
    ∃ rest authority, afterScheme? (trim s).toList = some rest ∧
      splitChars '/' rest = [authority, r.family.segment.toList, r.id.toList] ∧
      authority ≠ [] ∧ r.id ≠ "" ∧ '?' ∉ r.id.toList ∧ '#' ∉ r.id.toList := by
  have trimmed : (trim s).toList = trimWhile isBlank s.toList := String.toList_ofList
  rw [read?, trimmed]
  constructor
  · intro h
    obtain ⟨rest, hrest, h⟩ := Option.bind_eq_some_iff.1 h
    split at h
    · next authority segment id hparts =>
      obtain ⟨_, hvalid, h⟩ := Option.bind_eq_some_iff.1 h
      obtain ⟨family, hfamily, h⟩ := Option.bind_eq_some_iff.1 h
      cases h
      refine ⟨rest, authority, hrest, ?_, ?_⟩
      · rw [hparts, ← Family.eq_segment_of_ofSegment? hfamily, String.toList_ofList,
          String.toList_ofList]
      · simpa [and_assoc] using guard_eq_some_iff.1 hvalid
    · cases h
  · rintro ⟨rest, authority, hrest, hparts, hvalid⟩
    have valid : (!authority.isEmpty && !r.id.toList.isEmpty && !r.id.toList.contains '?' &&
        !r.id.toList.contains '#') = true := by
      simpa [and_assoc] using hvalid
    rw [hrest, Option.bind_eq_bind, Option.bind_some, hparts]
    dsimp only
    rw [(guard_eq_some_iff (u := ())).2 valid]
    simp [Family.ofSegment?_segment]

/-- What is read as a record is a reference to it on some host, between blanks. -/
theorem read?_eq_some_iff : read? s = some r ↔
    Plain r.id ∧ ∃ h : Host, trim s = h.reference r := by
  have unpadded : Unpadded (trim s) := by
    rw [Unpadded, trim, String.toList_ofList, trimWhile, dropEndWhile_idem]
  rw [read?_eq_some_iff_parts]
  constructor
  · rintro ⟨rest, authority, hrest, hparts, hne, hid, hquery, hfragment⟩
    obtain ⟨scheme, hscheme, htrim⟩ := afterScheme?_eq_some_iff.1 hrest
    obtain ⟨hauthority, -, hslash, rfl⟩ := splitChars_eq_three_iff.1 hparts
    obtain ⟨h, rfl, hauth⟩ : ∃ h : Host, h.scheme = scheme ∧ h.authority.toList = authority :=
      ⟨⟨scheme, String.ofList authority, hscheme, mt String.ofList_eq_empty_iff.1 hne,
        by rwa [String.toList_ofList]⟩, rfl, String.toList_ofList⟩
    have written : trim s = h.reference r := by
      rw [← String.toList_inj, htrim, h.toList_reference, hauth]
    refine ⟨⟨hid, ⟨hslash, hquery, hfragment⟩, ?_⟩, h, written⟩
    -- The id stands at the end of a text that is trimmed.
    rw [← h.unpadded_reference_iff, ← written]
    exact unpadded
  · rintro ⟨hplain, h, htrim⟩
    refine ⟨_, h.authority.toList, afterScheme?_eq_some_iff.2 ⟨h.scheme, h.isScheme_scheme, ?_⟩,
      splitChars_eq_three_iff.2 ⟨h.slash_not_mem_authority, (segment_plain r.family).1,
        hplain.not_mem.1, rfl⟩,
      mt String.toList_eq_nil_iff.1 h.authority_ne_empty, hplain.ne_empty, hplain.not_mem.2⟩
    rw [htrim, h.toList_reference]

/-- The reference to a record on a host is read as the record. -/
theorem Host.read?_reference (h : Host) (hid : Plain r.id) : read? (h.reference r) = some r :=
  read?_eq_some_iff.2 ⟨hid, h, h.trim_reference hid.unpadded⟩

/-- Only texts are read. -/
theorem ofValue?_eq_some_iff {v : Value} :
    ofValue? v = some r ↔ ∃ s, v = .text s ∧ read? s = some r := by
  cases v <;> simp [ofValue?]

/-- What is read has blanks around the reference. -/
theorem exists_reference (h : read? s = some r) : ∃ (host : Host) (before after : String),
    IsPadding before ∧ IsPadding after ∧ s = before ++ host.reference r ++ after := by
  obtain ⟨-, host, htrim⟩ := read?_eq_some_iff.1 h
  obtain ⟨before, after, hbefore, hafter, hs⟩ := exists_trim s
  exact ⟨host, before, after, hbefore, hafter, htrim ▸ hs⟩

/-- A reference that is written for a plain id, on a host with any number of slashes after it, is
    read as what it was written for. Conversely, of all values only texts are read, and these are
    the references on hosts with blanks around them; so two texts that are read as one record have
    the same segment and id, and differ in scheme, authority and blanks only. -/
theorem round_trip :
    (∀ (h : Host) (slashes : Nat) (r : Reference), Plain r.id →
      read? (write (h.address ++ String.ofList (List.replicate slashes '/')) r) = some r) ∧
    (∀ (v : Value) (r : Reference), ofValue? v = some r ↔
      Plain r.id ∧ ∃ (s : String) (h : Host), v = .text s ∧ trim s = h.reference r) ∧
    ∀ (s t : String) (r : Reference), read? s = some r → read? t = some r →
      ∃ (h k : Host) (a b c d : String),
        (IsPadding a ∧ IsPadding b ∧ IsPadding c ∧ IsPadding d) ∧
        s = a ++ h.reference r ++ b ∧ t = c ++ k.reference r ++ d := by
  refine ⟨?written, ?read, ?alike⟩
  case written =>
    intro h slashes r hid
    rw [h.write_address, h.read?_reference hid]
  case read =>
    intro v r
    simp only [ofValue?_eq_some_iff, read?_eq_some_iff]
    constructor
    · rintro ⟨s, hv, hid, h, hs⟩
      exact ⟨hid, s, h, hv, hs⟩
    · rintro ⟨hid, s, h, hv, hs⟩
      exact ⟨s, hv, hid, h, hs⟩
  case alike =>
    intro s t r hs ht
    obtain ⟨h, a, b, ha, hb, rfl⟩ := exists_reference hs
    obtain ⟨k, c, d, hc, hd, rfl⟩ := exists_reference ht
    exact ⟨h, k, a, b, c, d, ⟨ha, hb, hc, hd⟩, rfl, rfl⟩

/-- An id may begin with a blank and have others in it. One is read back from a reference on a host
    with slashes after it, another one from two texts that have not much else in common. -/
theorem round_trip_blanks :
    (∃ h : Host, h.address = "tapp://localhost" ∧ Plain " 7\n:8" ∧
      read? (write (h.address ++ String.ofList (List.replicate 2 '/')) ⟨.entities, " 7\n:8"⟩) =
        some ⟨.entities, " 7\n:8"⟩) ∧
    read? "a://b/lists/ 7" = some ⟨.lists, " 7"⟩ ∧
    read? "\u00a0x+1://u@h:8?/lists/ 7\n" = some ⟨.lists, " 7"⟩ ∧
      ∃ (h k : Host) (a b c d : String),
        (IsPadding a ∧ IsPadding b ∧ IsPadding c ∧ IsPadding d) ∧
        "a://b/lists/ 7" = a ++ h.reference ⟨.lists, " 7"⟩ ++ b ∧
        "\u00a0x+1://u@h:8?/lists/ 7\n" = c ++ k.reference ⟨.lists, " 7"⟩ ++ d := by
  have plain : Plain " 7\n:8" := by decide
  have one : read? "a://b/lists/ 7" = some ⟨.lists, " 7"⟩ := by decide
  have other : read? "\u00a0x+1://u@h:8?/lists/ 7\n" = some ⟨.lists, " 7"⟩ := by decide
  refine ⟨⟨⟨"tapp", "localhost", by decide, by decide, by decide⟩, by decide, plain, ?_⟩, one,
    other, round_trip.2.2 _ _ _ one other⟩
  exact round_trip.1 _ 2 ⟨.entities, " 7\n:8"⟩ plain

end Reference

end Catalog
