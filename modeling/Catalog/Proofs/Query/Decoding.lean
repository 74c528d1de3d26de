import Catalog.Proofs.Keyed
import Catalog.Proofs.Number.Numeral
import Catalog.Proofs.Query.Bracket
import Catalog.Service.Read
import Mathlib.Data.Set.Basic

/-!
# What bracket queries decode to

A query string is decoded as an object of texts, arrays and objects, whose members have the names
that the keys of the query start with, with two exceptions (`decodeQuery_cases`):

* if all keys start with numerals, the whole query is an array, and no parameter can be looked up;
* if all keys of an object are numerals, but one of them writes no number, the query cannot be
  decoded (`Bracket.listed_eq_error`). A numeral of digit signs that are no decimal digits writes
  none, and neither does one that is too long (`Bracket.int?_eq_none_iff`).

The values are made of what the query says (`Value.MadeOf`), which each pair that is written keeps
(`Value.MadeOf.assign`).
-/

namespace Catalog

open Text

namespace Text

/-- No digit sign is a blank. -/
theorem not_isBlank_of_isDigitLike {c : Char} (h : isDigitLike c = true) : isBlank c = false := by
  have apart : ∀ r ∈ digitSigns, 160 < r.1 ∧
      (r.2 < 5760 ∨ 5760 < r.1 ∧ r.2 < 8192 ∨ 8287 < r.1 ∧ r.2 < 12288 ∨ 12288 < r.1) := by
    decide
  rw [isDigitLike, Bool.or_eq_true] at h
  rcases h with h | h
  · exact not_isBlank_of_isDecimalDigit h
  · obtain ⟨r, hr, hbounds⟩ := Ranges.contains_iff.1 h
    have := apart r hr
    simp only [isBlank, Bool.or_eq_false_iff, Bool.and_eq_false_iff, decide_eq_false_iff_not,
      beq_eq_false_iff_ne]
    omega

end Text

namespace Bracket

/-! ## Numerals that write no number -/

/-- A numeral that writes no number: it has a digit sign that is no decimal digit, or too many. -/
def Unreadable (key : String) : Prop :=
  (∃ c ∈ key.toList, isDecimalDigit c = false) ∨ Numeral.maxDigits < key.toList.length

theorem splitSign_of_head {cs : List Char} (h : ∀ c, cs.head? = some c → c ≠ '-' ∧ c ≠ '+') :
    Numeral.splitSign cs = (false, cs) := by
  unfold Numeral.splitSign
  split
  · exact absurd rfl (h _ rfl).1
  · exact absurd rfl (h _ rfl).2
  · rfl

theorem joinDigits_eq_none {digitBefore : Bool} {cs : List Char} {c : Char} (hc : c ∈ cs)
    (hline : c ≠ '_') (hdigit : isDecimalDigit c = false) :
    Numeral.joinDigits digitBefore cs = none := by
  induction cs generalizing digitBefore with
  | nil => cases hc
  | cons d ds ih =>
    rw [Numeral.joinDigits]
    rcases List.mem_cons.1 hc with rfl | hc
    · rw [if_neg hline, if_neg (Bool.eq_false_iff.1 hdigit)]
    · rw [ih hc, ih hc, Option.map_none, ite_self, ite_self, ite_self]

/-- A numeral of decimal digits writes a number, unless there are too many of them. -/
theorem int?_eq_none_of_digits {key : String} (hne : key.toList ≠ [])
    (h : ∀ c ∈ key.toList, isDecimalDigit c = true) :
    Numeral.int? key = none ↔ Numeral.maxDigits < key.toList.length := by
  have read := Numeral.int?_eq h hne (List.forall_mem_nil (Numeral.isSpace · = true)) false
  rw [Numeral.sign, if_neg Bool.false_ne_true, List.nil_append, List.append_nil,
    String.ofList_toList] at read
  rw [read, Option.map_eq_none_iff, Numeral.boundedValue?_eq_none h]

/-- A digit sign that is no decimal digit spoils a numeral. -/
theorem int?_eq_none_of_sign {key : String} (h : ∀ c ∈ key.toList, isDigitLike c = true) {c : Char}
    (hc : c ∈ key.toList) (hdigit : isDecimalDigit c = false) : Numeral.int? key = none := by
  have noSpace : ∀ d ∈ key.toList, Numeral.isSpace d = false := fun d hd => by
    rw [Numeral.isSpace, not_isBlank_of_isDigitLike (h d hd), Bool.false_and]
  have unsigned : ∀ d, key.toList.head? = some d → d ≠ '-' ∧ d ≠ '+' := by
    intro d hd
    have like := h d (List.mem_of_head? hd)
    constructor
    · rintro rfl
      exact absurd like (by decide)
    · rintro rfl
      exact absurd like (by decide)
  have hline : c ≠ '_' := by
    rintro rfl
    exact absurd (h _ hc) (by decide)
  rw [Numeral.int?, trimWhile_of_none noSpace, splitSign_of_head unsigned]
  dsimp only
  rw [joinDigits_eq_none hc hline hdigit]
  rfl

theorem int?_eq_none_iff {key : String} (h : isNumeral key = true) :
    Numeral.int? key = none ↔ Unreadable key := by
  rw [isNumeral, Bool.and_eq_true, List.all_eq_true, Bool.not_eq_true', String.isEmpty_eq_false_iff]
    at h
  have hne : key.toList ≠ [] := mt String.toList_eq_nil_iff.1 h.1
  by_cases hdigits : ∀ c ∈ key.toList, isDecimalDigit c = true
  · rw [int?_eq_none_of_digits hne hdigits, Unreadable, or_iff_right]
    rintro ⟨c, hc, hdigit⟩
    exact absurd (hdigit.symm.trans (hdigits c hc)) (by decide)
  · have sign : ∃ c ∈ key.toList, isDecimalDigit c = false := by
      simpa using hdigits
    obtain ⟨c, hc, hdigit⟩ := sign
    exact iff_of_true (int?_eq_none_of_sign h.2 hc hdigit) (.inl ⟨c, hc, hdigit⟩)

/-! ## Arrays -/

/-- Some object within a value has numerals for keys, one of which writes no number. -/
inductive Misnumbered : Value → Prop where
  /-- The value is such an object. -/
  | here {members : Document} : (∀ key ∈ members.keys, isNumeral key = true) →
      (∃ key ∈ members.keys, Unreadable key) → Misnumbered (.object members)
  /-- It is within the value of a member. -/
  | member {members : Document} {m : String × Value} : m ∈ members → Misnumbered m.2 →
      Misnumbered (.object members)
  /-- It is within an item. -/
  | item {items : List Value} {v : Value} : v ∈ items → Misnumbered v → Misnumbered (.array items)

/-- Two outcomes one after the other fail if one of them does. -/
theorem both_eq_error {α β γ : Type} {x : Except Fault α} {y : Except Fault β} {g : α → β → γ}
    {P Q : Prop} (hx : ∀ f, x = .error f ↔ f = .notANumeral ∧ P)
    (hy : ∀ f, y = .error f ↔ f = .notANumeral ∧ Q) {f : Fault} :
    (do return g (← x) (← y)) = .error f ↔ f = .notANumeral ∧ (P ∨ Q) := by
  cases x with
  | error e =>
    obtain ⟨rfl, hp⟩ := (hx e).1 rfl
    exact ⟨fun h => by cases h; exact ⟨rfl, .inl hp⟩, fun h => by rw [h.1]; rfl⟩
  | ok a =>
    have hp : ¬P := fun hp => by cases (hx .notANumeral).2 ⟨rfl, hp⟩
    rw [or_iff_right hp]
    exact bind_pure_eq_error.trans (hy f)

theorem mapM_numbered_eq_error {members : List (String × Value)} {f : Fault} :
    members.mapM numbered = .error f ↔
      f = .notANumeral ∧ ∃ m ∈ members, Numeral.int? m.1 = none := by
  induction members generalizing f with
  | nil => exact iff_of_false (fun h => by cases h) fun ⟨_, _, hmem, _⟩ => List.not_mem_nil hmem
  | cons m rest ih =>
    have first (f : Fault) :
        numbered m = .error f ↔ f = .notANumeral ∧ Numeral.int? m.1 = none := by
      rw [numbered]
      cases Numeral.int? m.1 with
      | none => exact ⟨fun h => by cases h; exact ⟨rfl, rfl⟩, fun h => by rw [h.1]; rfl⟩
      | some n => exact iff_of_false (fun h => by cases h) fun h => by cases h.2
    rw [List.mapM_cons]
    simp only [List.mem_cons, exists_eq_or_imp]
    exact both_eq_error first fun _ => ih

/-- Members make no array or object only if their keys are numerals, and one writes no number. -/
theorem arranged_eq_error {members : Document} {f : Fault} :
    arranged members = .error f ↔ f = .notANumeral ∧
      (∀ key ∈ members.keys, isNumeral key = true) ∧ ∃ key ∈ members.keys, Unreadable key := by
  rw [arranged, Document.keys, List.forall_mem_map]
  simp only [List.mem_map, exists_exists_and_eq_and]
  by_cases hall : ∀ m ∈ members, isNumeral m.1 = true
  · have unreadable : (∃ m ∈ members, Numeral.int? m.1 = none) ↔ ∃ m ∈ members, Unreadable m.1 :=
      exists_congr fun m => and_congr_right fun hm => int?_eq_none_iff (hall m hm)
    rw [List.all_eq_true.2 hall, and_iff_right hall, ← unreadable]
    cases members with
    | nil =>
      refine iff_of_false (fun h => by cases h) ?_
      rintro ⟨-, m, hmem, -⟩
      exact List.not_mem_nil hmem
    | cons m rest =>
      refine map_eq_error.trans ?_
      rw [inOrder_eq]
      exact map_eq_error.trans mapM_numbered_eq_error
  · rw [if_neg fun h => hall (List.all_eq_true.1 (Bool.and_eq_true_iff.1 h).2)]
    exact iff_of_false (fun h => by cases h) fun h => hall h.2.1

mutual

/-- A value cannot be put in its final form only if an object within it has numerals for keys, one
    of which writes no number. -/
theorem listed_eq_error : ∀ {v : Value} {f : Fault},
    listed v = .error f ↔ f = .notANumeral ∧ Misnumbered v
  | .null, f => iff_of_false (fun h => by cases h) fun h => by cases h.2
  | .bool _, f => iff_of_false (fun h => by cases h) fun h => by cases h.2
  | .number _, f => iff_of_false (fun h => by cases h) fun h => by cases h.2
  | .text _, f => iff_of_false (fun h => by cases h) fun h => by cases h.2
  | .instant _, f => iff_of_false (fun h => by cases h) fun h => by cases h.2
  | .array items, f => by
    rw [listed, map_eq_error, listedItems_eq_error]
    refine and_congr_right fun _ => ⟨fun ⟨v, hv, h⟩ => .item hv h, fun h => ?_⟩
    cases h with
    | item hv h => exact ⟨_, hv, h⟩
  | .object members, f => by
    rw [listed, bind_eq_error, listedMembers_eq_error]
    constructor
    · rintro (⟨hf, m, hm, h⟩ | ⟨members', hmembers, h⟩)
      · exact ⟨hf, .member hm h⟩
      · obtain ⟨hf, hall, hsome⟩ := arranged_eq_error.1 h
        rw [keys_of_listedMembers hmembers] at hall hsome
        exact ⟨hf, .here hall hsome⟩
    · rintro ⟨rfl, h⟩
      cases h with
      | member hm h => exact .inl ⟨rfl, _, hm, h⟩
      | here hall hsome =>
        cases hmembers : listedMembers members with
        | error f => exact .inl ⟨rfl, (listedMembers_eq_error.1 hmembers).2⟩
        | ok members' =>
          refine .inr ⟨members', rfl, arranged_eq_error.2 ⟨rfl, ?_⟩⟩
          rw [keys_of_listedMembers hmembers]
          exact ⟨hall, hsome⟩

theorem listedItems_eq_error : ∀ {items : List Value} {f : Fault},
    listedItems items = .error f ↔ f = .notANumeral ∧ ∃ v ∈ items, Misnumbered v
  | [], f => iff_of_false (fun h => by cases h) fun ⟨_, _, hmem, _⟩ => List.not_mem_nil hmem
  | v :: rest, f => by
    rw [listedItems]
    simp only [List.mem_cons, exists_eq_or_imp]
    exact both_eq_error (fun _ => listed_eq_error) fun _ => listedItems_eq_error

theorem listedMembers_eq_error : ∀ {members : List (String × Value)} {f : Fault},
    listedMembers members = .error f ↔ f = .notANumeral ∧ ∃ m ∈ members, Misnumbered m.2
  | [], f => iff_of_false (fun h => by cases h) fun ⟨_, _, hmem, _⟩ => List.not_mem_nil hmem
  | (key, v) :: rest, f => by
    rw [listedMembers]
    simp only [List.mem_cons, exists_eq_or_imp]
    exact both_eq_error (fun _ => listed_eq_error) fun _ => listedMembers_eq_error

end

end Bracket

/-! ## What values are made of -/

namespace Value

open Catalog.Bracket

/-- A value is made of texts, arrays, and objects with different keys that are given steps. -/
inductive MadeOf (steps : Set String) : Value → Prop where
  /-- A text. -/
  | text (s : String) : MadeOf steps (.text s)
  /-- An array of such values. -/
  | array {items : List Value} : (∀ v ∈ items, MadeOf steps v) → MadeOf steps (.array items)
  /-- An object of such values. -/
  | object {members : Document} : members.Distinct → (∀ key ∈ members.keys, key ∈ steps) →
      (∀ m ∈ members, MadeOf steps m.2) → MadeOf steps (.object members)

namespace MadeOf

variable {steps : Set String} {doc : Document} {key text : String} {v : Value}

theorem nil : MadeOf steps (.object []) :=
  .object List.nodup_nil (List.forall_mem_nil _) (List.forall_mem_nil _)

theorem get? (h : MadeOf steps (.object doc)) (hv : doc.get? key = some v) : MadeOf steps v := by
  cases h with
  | object _ _ hvalues => exact hvalues _ (Document.mem_of_get? hv)

theorem put (h : MadeOf steps (.object doc)) (hkey : key ∈ steps) (hv : MadeOf steps v) :
    MadeOf steps (.object (doc.put key v)) := by
  cases h with
  | object hd hkeys hvalues =>
    refine .object (hd.put key v) (fun k hk => ?_) fun m hm => ?_
    · rcases Document.mem_keys_put.1 hk with rfl | hk
      · exact hkey
      · exact hkeys k hk
    · rcases Document.mem_of_mem_put hm with ⟨-, hw⟩ | hm
      · rw [hw]
        exact hv
      · exact hvalues m hm

/-- One more item. -/
theorem append {items : List Value} (h : MadeOf steps (.array items)) (text : String) :
    MadeOf steps (.array (items ++ [.text text])) := by
  cases h with
  | array h => exact .array (List.forall_mem_append.2 ⟨h, List.forall_mem_singleton.2 (.text text)⟩)

theorem assignLast (h : MadeOf steps (.object doc)) (hkey : key ∈ steps) :
    MadeOf steps (.object (Bracket.assignLast key text doc)) := by
  rw [Bracket.assignLast]
  split
  · exact h.put hkey (.text text)
  · next hv => exact h.put hkey ((h.get? hv).append text)
  · exact h
  · next hv =>
    exact h.put hkey (.array (List.forall_mem_cons.2
      ⟨h.get? hv, List.forall_mem_singleton.2 (.text text)⟩))

theorem collect (h : MadeOf steps (.object doc)) (hkey : key ∈ steps) :
    MadeOf steps (.object (Bracket.collect key text doc)) := by
  rw [Bracket.collect]
  split
  · exact h.put hkey (.array (List.forall_mem_singleton.2 (.text text)))
  · next hv => exact h.put hkey ((h.get? hv).append text)
  · exact h

theorem objectAt (h : MadeOf steps (.object doc)) :
    MadeOf steps (.object (Bracket.objectAt key doc)) := by
  rw [Bracket.objectAt]
  split
  · next hv => exact h.get? hv
  · exact .nil

/-- A text is written where the steps of its path lead. -/
theorem assign {path : List String} (hpath : ∀ s ∈ path, s ∈ steps)
    (h : MadeOf steps (.object doc)) : MadeOf steps (.object (Bracket.assign text path doc)) := by
  induction path generalizing doc with
  | nil => exact h
  | cons key rest ih =>
    rw [List.forall_mem_cons] at hpath
    cases rest with
    | nil => exact h.assignLast hpath.1
    | cons next rest =>
      rw [Bracket.assign]
      split
      · exact h.collect hpath.1
      · exact h.put hpath.1 (ih hpath.2 h.objectAt)

end MadeOf

end Value

namespace Bracket

open Value

/-- The steps that the keys of a query are made of. -/
def stepsOf (parts : List (String × String)) : Set String := {s | ∃ part ∈ parts, s ∈ path part.1}

theorem madeOf_written (parts : List (String × String)) :
    MadeOf (stepsOf parts) (.object (written parts)) := by
  have from_any {doc : Document} {steps : Set String} (h : MadeOf steps (.object doc))
      (hsteps : ∀ part ∈ parts, ∀ s ∈ path part.1, s ∈ steps) :
      MadeOf steps (.object
        (parts.foldl (fun doc part => assign part.2 (path part.1) doc) doc)) := by
    induction parts generalizing doc with
    | nil => exact h
    | cons part parts ih =>
      rw [List.forall_mem_cons] at hsteps
      exact ih (h.assign hsteps.1) hsteps.2
  exact from_any .nil fun part hpart s hs => ⟨part, hpart, hs⟩

/-- What is misnumbered has a numeral among its steps that writes no number. -/
theorem Misnumbered.exists_step {steps : Set String} {v : Value} (h : Misnumbered v)
    (hmade : MadeOf steps v) : ∃ key ∈ steps, isNumeral key = true ∧ Unreadable key := by
  induction h with
  | here hall hsome =>
    obtain ⟨key, hkey, hunreadable⟩ := hsome
    cases hmade with
    | object _ hkeys _ => exact ⟨key, hkeys key hkey, hall key hkey, hunreadable⟩
  | member hm _ ih =>
    cases hmade with
    | object _ _ hvalues => exact ih (hvalues _ hm)
  | item hv _ ih =>
    cases hmade with
    | array hitems => exact ih (hitems _ hv)

theorem mem_of_listedItems {items items' : List Value} (h : listedItems items = .ok items')
    {w : Value} (hw : w ∈ items') : ∃ v ∈ items, listed v = .ok w := by
  have mapped : listedItems items = items.mapM listed := by
    clear h
    induction items with
    | nil => rfl
    | cons v rest ih => rw [listedItems, ih, List.mapM_cons]
  exact mem_of_mapM (mapped.symm.trans h) hw

theorem mem_of_listedMembers {members members' : List (String × Value)}
    (h : listedMembers members = .ok members') {m' : String × Value} (hm' : m' ∈ members') :
    ∃ m ∈ members, listed m.2 = .ok m'.2 := by
  induction members generalizing members' with
  | nil =>
    cases h
    cases hm'
  | cons m rest ih =>
    obtain ⟨w, hw, h⟩ := bind_eq_ok.1 h
    obtain ⟨rest', hrest, h⟩ := bind_eq_ok.1 h
    cases h
    rcases List.mem_cons.1 hm' with rfl | hm'
    · exact ⟨m, List.mem_cons_self, hw⟩
    · obtain ⟨m₀, hm₀, hv⟩ := ih hrest hm'
      exact ⟨m₀, List.mem_cons_of_mem _ hm₀, hv⟩

theorem mem_of_inOrder {members : List (String × Value)} {items : List Value}
    (h : inOrder members = .ok items) {v : Value} (hv : v ∈ items) :
    ∃ m ∈ members, m.2 = v := by
  rw [inOrder_eq] at h
  cases hns : members.mapM numbered with
  | error e =>
    rw [hns] at h
    cases h
  | ok ns =>
    rw [hns] at h
    cases h
    obtain ⟨n, hn, rfl⟩ := List.mem_map.1 hv
    obtain ⟨m, hm, hnumbered⟩ := mem_of_mapM hns (List.mem_mergeSort.1 hn)
    refine ⟨m, hm, ?_⟩
    rw [numbered] at hnumbered
    cases hread : Numeral.int? m.1 with
    | none =>
      rw [hread] at hnumbered
      cases hnumbered
    | some i =>
      rw [hread] at hnumbered
      cases hnumbered
      rfl

theorem madeOf_arranged {steps : Set String} {members : Document} {w : Value}
    (h : MadeOf steps (.object members)) (hw : arranged members = .ok w) : MadeOf steps w := by
  rw [arranged] at hw
  split at hw
  · obtain ⟨items, hitems, rfl⟩ := map_eq_ok.1 hw
    cases h with
    | object _ _ hvalues =>
      refine .array fun v hv => ?_
      obtain ⟨m, hm, rfl⟩ := mem_of_inOrder hitems hv
      exact hvalues m hm
  · cases hw
    exact h

/-- Making arrays of objects keeps what a value is made of. -/
theorem madeOf_listed {steps : Set String} {v w : Value} (h : MadeOf steps v)
    (hw : listed v = .ok w) : MadeOf steps w := by
  induction h generalizing w with
  | text s =>
    cases hw
    exact .text s
  | array _ ih =>
    obtain ⟨items', hitems, rfl⟩ := map_eq_ok.1 hw
    refine .array fun v' hv' => ?_
    obtain ⟨v, hv, hlisted⟩ := mem_of_listedItems hitems hv'
    exact ih v hv hlisted
  | object hd hkeys _ ih =>
    obtain ⟨members', hmembers, hw⟩ := bind_eq_ok.1 hw
    have keys := keys_of_listedMembers hmembers
    refine madeOf_arranged (.object ?_ (keys ▸ hkeys) fun m' hm' => ?_) hw
    · rw [Document.Distinct, keys]
      exact hd
    · obtain ⟨m, hm, hlisted⟩ := mem_of_listedMembers hmembers hm'
      exact ih m hm hlisted

/-- The name that a key starts with. -/
def head (key : String) : String := String.ofList (key.toList.takeWhile (· ≠ '['))

/-- All keys of a query start with numerals, and there are some. -/
def AllNumbered (parts : List (String × String)) : Prop :=
  parts ≠ [] ∧ ∀ part ∈ parts, isNumeral (head part.1) = true

theorem mem_keys_written_iff_head {parts : List (String × String)} {key : String} :
    key ∈ (written parts).keys ↔ ∃ part ∈ parts, head part.1 = key := by
  rw [mem_keys_written]
  refine exists_congr fun part => and_congr_right fun _ => ?_
  rw [path, List.head?_cons, Option.some.injEq]
  rfl

/-- The members that a query writes make an array if all its keys start with numerals, and an object
    otherwise. -/
theorem numbered_iff_allNumbered {parts : List (String × String)} {members : Document}
    (hkeys : members.keys = (written parts).keys) :
    (!members.isEmpty && members.all fun m => isNumeral m.1) = true ↔ AllNumbered parts := by
  have names (key : String) : key ∈ members.keys ↔ ∃ part ∈ parts, head part.1 = key := by
    rw [hkeys, mem_keys_written_iff_head]
  rw [Bool.and_eq_true, List.all_eq_true, AllNumbered]
  refine and_congr ?_ ⟨fun h part hpart => ?_, fun h m hm => ?_⟩
  · cases members with
    | nil =>
      refine iff_of_false (by decide) (not_not.2 (List.eq_nil_iff_forall_not_mem.2 ?_))
      exact fun part hpart => List.not_mem_nil ((names _).2 ⟨part, hpart, rfl⟩)
    | cons m rest =>
      obtain ⟨part, hpart, -⟩ := (names m.1).1 List.mem_cons_self
      exact iff_of_true rfl (List.ne_nil_of_mem hpart)
  · obtain ⟨m, hm, hname⟩ := List.mem_map.1 ((names _).2 ⟨part, hpart, rfl⟩)
    exact hname ▸ h m hm
  · obtain ⟨part, hpart, hname⟩ := (names m.1).1 (List.mem_map_of_mem hm)
    exact hname ▸ h part hpart

/-- A query whose parts are not misnumbered is decoded as what its members make. -/
theorem decodeQuery_eq_arranged {query : String}
    (h : ¬Misnumbered (.object (written (pairs query)))) :
    ∃ members : Document, members.keys = (written (pairs query)).keys ∧
      decodeQuery query = arranged members ∧ ∀ f, arranged members ≠ .error f := by
  have noError (f : Fault) : decodeQuery query ≠ .error f := fun hf => h (listed_eq_error.1 hf).2
  cases hmembers : listedMembers (written (pairs query)) with
  | error f => exact absurd (bind_eq_error.2 (.inl hmembers)) (noError f)
  | ok members =>
    have decoded : decodeQuery query = arranged members := by
      rw [decodeQuery, listed, hmembers, ok_bind]
    exact ⟨members, keys_of_listedMembers hmembers, decoded, decoded ▸ noError⟩

theorem exists_array {query : String} (h : ¬Misnumbered (.object (written (pairs query))))
    (hall : AllNumbered (pairs query)) : ∃ items, decodeQuery query = .ok (.array items) := by
  obtain ⟨members, hkeys, hdecoded, hnoError⟩ := decodeQuery_eq_arranged h
  rw [arranged, if_pos ((numbered_iff_allNumbered hkeys).2 hall)] at hdecoded hnoError
  cases hitems : inOrder members with
  | error f => exact absurd (map_eq_error.2 hitems) (hnoError f)
  | ok items => exact ⟨items, hdecoded.trans (map_eq_ok.2 ⟨items, hitems, rfl⟩)⟩

theorem exists_object {query : String} (h : ¬Misnumbered (.object (written (pairs query))))
    (hall : ¬AllNumbered (pairs query)) : ∃ members : Document,
      decodeQuery query = .ok (.object members) ∧ members.keys = (written (pairs query)).keys := by
  obtain ⟨members, hkeys, hdecoded, -⟩ := decodeQuery_eq_arranged h
  rw [arranged, if_neg (mt (numbered_iff_allNumbered hkeys).1 hall)] at hdecoded
  exact ⟨members, hdecoded, hkeys⟩

end Bracket

open Catalog.Bracket Value

/-- How decoding a query ends. It is an object of what the query says, under the names that its keys
    start with, and every parameter can be looked up; or, if all these names are numerals, an array,
    in which none can be; or it has no end, if an object in it has numerals for keys of which one
    writes no number. -/
theorem decodeQuery_cases (query : String) :
    ((∃ members : Document, decodeQuery query = .ok (.object members) ∧
        MadeOf (stepsOf (pairs query)) (.object members) ∧
        (∀ name, name ∈ members.keys ↔ ∃ part ∈ pairs query, head part.1 = name) ∧
        ∀ name, ∃ v, Service.param (.object members) name = .ok v) ↔
      ¬Misnumbered (.object (written (pairs query))) ∧ ¬AllNumbered (pairs query)) ∧
    ((∃ items, decodeQuery query = .ok (.array items) ∧
        MadeOf (stepsOf (pairs query)) (.array items) ∧
        ∀ name, Service.param (.array items) name = giveUp .shape) ↔
      ¬Misnumbered (.object (written (pairs query))) ∧ AllNumbered (pairs query)) ∧
    ∀ f, decodeQuery query = .error f ↔ f = .notANumeral ∧
      Misnumbered (.object (written (pairs query))) ∧
      ∃ key ∈ stepsOf (pairs query), isNumeral key = true ∧ Unreadable key := by
  have made := madeOf_written (pairs query)
  have notMisnumbered {v : Value} (hv : decodeQuery query = .ok v) :
      ¬Misnumbered (.object (written (pairs query))) := fun h => by
    cases hv.symm.trans (listed_eq_error.2 ⟨rfl, h⟩)
  refine ⟨⟨?_, fun ⟨h, hall⟩ => ?_⟩, ⟨?_, fun ⟨h, hall⟩ => ?_⟩, fun f => ?_⟩
  · rintro ⟨members, hmembers, -⟩
    refine ⟨notMisnumbered hmembers, fun hall => ?_⟩
    obtain ⟨items, hitems⟩ := exists_array (notMisnumbered hmembers) hall
    cases hmembers.symm.trans hitems
  · obtain ⟨members, hmembers, hkeys⟩ := exists_object h hall
    refine ⟨members, hmembers, madeOf_listed made hmembers, fun name => ?_, fun name => ⟨_, rfl⟩⟩
    rw [hkeys, mem_keys_written_iff_head]
  · rintro ⟨items, hitems, -⟩
    refine ⟨notMisnumbered hitems, ?_⟩
    by_contra hall
    obtain ⟨members, hmembers, -⟩ := exists_object (notMisnumbered hitems) hall
    cases hitems.symm.trans hmembers
  · obtain ⟨items, hitems⟩ := exists_array h hall
    exact ⟨items, hitems, madeOf_listed made hitems, fun _ => rfl⟩
  · exact listed_eq_error.trans
      (and_congr_right fun _ => (and_iff_left_of_imp fun h => h.exists_step made).symm)

/-- A query of numbered parameters is an array, and one with a digit sign for a key is nothing. -/
theorem not_decoded_as_object :
    decodeQuery "0=a" = .ok (.array [.text "a"]) ∧ decodeQuery "a[²]=x" = .error .notANumeral := by
  have numbered : pairs "0=a" = [("0", "a")] := by decide
  have signed : pairs "a[²]=x" = [("a[²]", "x")] := by decide
  have inner : path "a[²]" = ["a", "²"] := by decide
  have outer : path "0" = ["0"] := by decide
  refine ⟨?_, ?_⟩
  · have zero : Numeral.int? "0" = some 0 := by decide
    have ordered : Bracket.inOrder [("0", .text "a")] = .ok [.text "a"] := by
      rw [inOrder_eq, List.mapM_cons, Bracket.numbered, zero]
      exact congrArg (fun ns => Except.ok (List.map Prod.snd ns)) (List.mergeSort_singleton _)
    rw [decodeQuery, numbered, written, List.foldl_cons, List.foldl_nil, outer]
    change arranged [("0", .text "a")] = _
    rw [arranged, if_pos (by decide), ordered]
    rfl
  · refine listed_eq_error.2 ⟨rfl, ?_⟩
    rw [signed, written, List.foldl_cons, List.foldl_nil, inner]
    refine .member (m := ("a", .object [("²", .text "x")])) (List.mem_singleton.2 ?_) ?_
    · rfl
    · refine .here ?_ ⟨"²", ?_, .inl ⟨'²', ?_, ?_⟩⟩ <;> decide

end Catalog
