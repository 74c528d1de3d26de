import Catalog.Policy.Reading
import Catalog.Proofs.Query.Inference
import Catalog.Proofs.Query.Parts
import Catalog.Proofs.Rule.Kept
import Catalog.Proofs.Rule.Rendering
import Catalog.Proofs.Rule.Room

/-!
# Scopes that a record says itself

The scope `filter[where][p]=${p}` is about the records with the same value of a field as the record
that it is filled in for. The template has one pair, whose key leads to the field and whose value is
the text of the record's value (`Template.filled_ownScope`), and the scope that is read from it has
one condition, on what is inferred from this text (`Scope.read_ownScope`).

So a record is in its own scope if its value can be read back (`Value.Recoverable`), and then the
check of a limit with this scope counts for it (`met_ownScope`). The text `null`, doubles with an
exponent, timestamps outside the calendar and whole numbers of too many digits are not read back
(`not_met_ownScope`).
-/

namespace Catalog

open Text

/-- A plain field name: letters and digits of ASCII and low lines, not digits alone, and no word
    that connects conditions. -/
structure PlainName (p : String) : Prop where
  chars : ∀ c ∈ p.toList, c.isAlphanum = true ∨ c = '_'
  not_digits : ∃ c ∈ p.toList, c.isDigit = false
  ne_and : p ≠ "and"
  ne_or : p ≠ "or"

instance (p : String) : Decidable (PlainName p) :=
  decidable_of_iff ((p.toList.all fun c => c.isAlphanum || c = '_') = true ∧
      (p.toList.any fun c => !c.isDigit) = true ∧ p ≠ "and" ∧ p ≠ "or")
    ⟨fun h => ⟨by simpa using h.1, by simpa using h.2.1, h.2.2.1, h.2.2.2⟩,
    fun h => ⟨by simpa using h.chars, by simpa using h.not_digits, h.ne_and, h.ne_or⟩⟩

namespace PlainName

variable {p : String}

theorem not_mem (hp : PlainName p) {c : Char} (hc : c.isAlphanum = false) (hline : c ≠ '_') :
    c ∉ p.toList := fun hmem =>
  (hp.chars c hmem).elim (fun h => absurd (h.symm.trans hc) (by decide)) hline

theorem toList_ne (hp : PlainName p) : p.toList ≠ [] := by
  obtain ⟨c, hc, -⟩ := hp.not_digits
  exact List.ne_nil_of_mem hc

theorem ne_empty (hp : PlainName p) : p ≠ "" := fun h => hp.toList_ne (by rw [h]; rfl)

theorem code_bounds (hp : PlainName p) {c : Char} (hc : c ∈ p.toList) :
    48 ≤ c.toNat ∧ c.toNat ≤ 122 := by
  have within {low high : UInt32} (hlow : low ≤ c.val) (hhigh : c.val ≤ high)
      (hbounds : 48 ≤ low.toNat ∧ high.toNat ≤ 122) : 48 ≤ c.toNat ∧ c.toNat ≤ 122 :=
    ⟨Nat.le_trans hbounds.1 (UInt32.le_iff_toNat_le.1 hlow),
      Nat.le_trans (UInt32.le_iff_toNat_le.1 hhigh) hbounds.2⟩
  rcases hp.chars c hc with h | rfl
  · rcases (Bool.or_eq_true _ _).mp h with halpha | hdigit
    · rcases (Bool.or_eq_true _ _).mp halpha with hupper | hlower
      · have bounds := of_decide_eq_true hupper
        exact within bounds.1 bounds.2 (by decide)
      · obtain ⟨hlow, hhigh⟩ := (Bool.and_eq_true _ _).mp hlower
        exact within (of_decide_eq_true hlow) (of_decide_eq_true hhigh) (by decide)
    · obtain ⟨hlow, hhigh⟩ := (Bool.and_eq_true _ _).mp hdigit
      exact within (of_decide_eq_true hlow) (of_decide_eq_true hhigh) (by decide)
  · decide

/-- A plain name is no numeral. -/
theorem not_isNumeral (hp : PlainName p) : Bracket.isNumeral p = false := by
  obtain ⟨c, hc, hdigit⟩ := hp.not_digits
  have hcode := hp.code_bounds hc
  have signs : ∀ n < 123, digitSigns.contains n = false := by decide
  have digit : isDecimalDigit c = false := by
    have outside : ¬(48 ≤ c.toNat ∧ c.toNat ≤ 57) := by
      simpa [Char.isDigit, UInt32.le_iff_toNat_le] using hdigit
    simp only [isDecimalDigit, digitValue?]
    rw [if_pos (by omega), if_neg outside]
    rfl
  have like : isDigitLike c = false := by
    rw [isDigitLike, digit, signs _ (by omega)]
    rfl
  rw [Bracket.isNumeral, Bool.and_eq_false_iff]
  exact .inr (List.all_eq_false.2 ⟨c, hc, by rw [like]; exact Bool.false_ne_true⟩)

/-- There are no blanks around a plain name. -/
theorem trim_eq (hp : PlainName p) : trim p = p := by
  rw [trim, trimWhile_of_none fun c hc => ?_, String.ofList_toList]
  have hcode := hp.code_bounds hc
  exact not_isBlank_of_visible (by omega)

end PlainName

namespace Template

/-- The scope of the records with the same value of a field. -/
def ownScope (p : String) : String := "filter[where][" ++ p ++ "]=$\x7b" ++ p ++ "\x7d"

/-! ## The parts of the template -/

/-- The key of the template, which leads to the field. -/
def ownKey (p : String) : String := "filter[where][" ++ p ++ "]"

theorem toList_around (a b c : String) :
    (a ++ b ++ c).toList = a.toList ++ (b.toList ++ c.toList) := by
  rw [String.toList_append, String.toList_append, List.append_assoc]

theorem toList_ownKey (p : String) :
    (ownKey p).toList = "filter[where][".toList ++ (p.toList ++ [']']) :=
  toList_around ..

theorem toList_ownScope (p : String) :
    (ownScope p).toList =
      (ownKey p).toList ++ ['='] ++ ('$' :: '\x7b' :: (p.toList ++ ['\x7d'])) := by
  have cut (start : List Char) : start ++ (p.toList ++ [']', '=', '$', '\x7b']) ++
        (p.toList ++ ['\x7d']) =
      start ++ (p.toList ++ [']']) ++ ['='] ++ ('$' :: '\x7b' :: (p.toList ++ ['\x7d'])) := by
    simp
  have start : ("filter[where][" ++ p ++ "]=$\x7b").toList =
      "filter[where][".toList ++ (p.toList ++ [']', '=', '$', '\x7b']) := toList_around ..
  have whole : (ownScope p).toList =
      ("filter[where][" ++ p ++ "]=$\x7b").toList ++ (p.toList ++ ['\x7d']) := toList_around ..
  rw [toList_ownKey]
  exact (whole.trans (congrArg (· ++ (p.toList ++ ['\x7d'])) start)).trans (cut _)

/-- The key has only the characters of the field besides letters and brackets. -/
theorem not_mem_ownKey {p : String} (hp : PlainName p) {c : Char} (hc : c.isAlphanum = false)
    (hother : c ≠ '_' ∧ c ≠ '[' ∧ c ≠ ']') : c ∉ (ownKey p).toList := by
  have fixed : ∀ d ∈ "filter[where][".toList, (d.isAlphanum || decide (d = '[' ∨ d = ']')) = true :=
    List.all_eq_true.1 (by decide)
  rw [toList_ownKey, List.mem_append, List.mem_append, List.mem_singleton, not_or, not_or]
  refine ⟨fun hmem => ?_, hp.not_mem hc hother.1, hother.2.2⟩
  rcases (Bool.or_eq_true _ _).mp (fixed c hmem) with h | h
  · exact absurd (h.symm.trans hc) (by decide)
  · exact (decide_eq_true_iff.1 h).elim hother.2.1 hother.2.2

theorem partsFrom_chars {cs : List Char} (h : '$' ∉ cs) (rest : List Char) :
    partsFrom 0 (cs ++ rest) = cs.map .char ++ partsFrom 0 rest := by
  induction cs with
  | nil => rfl
  | cons c cs ih =>
    rw [List.mem_cons, not_or] at h
    rw [List.cons_append, partsFrom, if_neg fun hc => h.1 hc.1.symm, ih h.2]
    rfl

theorem partsFrom_skip (cs rest : List Char) :
    partsFrom cs.length (cs ++ rest) = partsFrom 0 rest := by
  induction cs with
  | nil => rfl
  | cons c cs ih => rw [List.cons_append, List.length_cons, partsFrom, ih]

/-- A placeholder with a path between its braces. -/
theorem partsFrom_placeholder {path : List Char} (hne : path ≠ []) (h : '\x7d' ∉ path)
    (rest : List Char) :
    partsFrom 0 ('$' :: '\x7b' :: (path ++ '\x7d' :: rest)) =
      .placeholder (trim (String.ofList path)) :: partsFrom 0 rest := by
  have taken : (path ++ '\x7d' :: rest).takeWhile (· ≠ '\x7d') = path := by
    rw [List.takeWhile_append_of_pos fun c hc => decide_eq_true (p := c ≠ '\x7d') fun heq =>
      h (heq ▸ hc)]
    exact List.append_nil path
  have found : path? (path ++ '\x7d' :: rest) = some path := by
    rw [path?, taken]
    simp [hne]
  have skipped := partsFrom_skip ('\x7b' :: (path ++ ['\x7d'])) rest
  rw [partsFrom]
  simp only [List.head?_cons, List.tail_cons, and_self, if_true, found]
  rw [← skipped]
  simp

theorem parts_ownScope {p : String} (hp : PlainName p) :
    parts (ownScope p) = (ownKey p).toList.map .char ++ [.char '=', .placeholder p] := by
  have literal : '$' ∉ (ownKey p).toList ++ ['='] := by
    rw [List.mem_append, not_or]
    exact ⟨not_mem_ownKey hp (by decide) (by decide), by decide⟩
  rw [parts, toList_ownScope, partsFrom_chars literal, partsFrom_placeholder hp.toList_ne
    (hp.not_mem (by decide) (by decide)), String.ofList_toList, hp.trim_eq, List.map_append,
    List.append_assoc]
  rfl

theorem not_mem_parts_ownScope {p : String} (hp : PlainName p) {c : Char}
    (hc : c.isAlphanum = false) (hother : c ≠ '_' ∧ c ≠ '[' ∧ c ≠ ']') (heq : c ≠ '=') :
    .char c ∉ parts (ownScope p) := by
  have hkey := not_mem_ownKey hp hc hother
  simp [parts_ownScope hp, hkey, heq]

theorem cut_of_not_mem {sep : Part} {ps : List Part} (h : sep ∉ ps) : cut sep ps = [ps] := by
  induction ps with
  | nil => rfl
  | cons p ps ih =>
    rw [List.mem_cons, not_or] at h
    rw [cut, if_neg (Ne.symm h.1), ih h.2]
    rfl

/-- The template has one pair. -/
theorem pairs_ownScope {p : String} (hp : PlainName p) :
    pairs (ownScope p) = [((ownKey p).toList.map .char, [.placeholder p])] := by
  have hkey : ∀ part ∈ (ownKey p).toList.map Part.char, decide (part ≠ .char '=') = true := by
    intro part hpart
    obtain ⟨c, hc, rfl⟩ := List.mem_map.1 hpart
    refine decide_eq_true fun heq => ?_
    cases heq
    exact not_mem_ownKey hp (by decide) (by decide) hc
  have hcut := cut_of_not_mem (not_mem_parts_ownScope hp (by decide : '&'.isAlphanum = false)
    (by decide) (by decide))
  rw [pairs, hcut, parts_ownScope hp]
  have kept : ((ownKey p).toList.map Part.char ++ [Part.char '=', Part.placeholder p]).isEmpty =
      false := by
    simp
  rw [List.filter_cons_of_pos (by rw [kept]; rfl), List.filter_nil, List.map_singleton, pairOf,
    List.takeWhile_append_of_pos hkey, List.dropWhile_append_of_pos hkey]
  simp

theorem valuesOnly_ownScope {p : String} (hp : PlainName p) : ValuesOnly (ownScope p) := by
  intro pair hpair part hpart
  rw [pairs_ownScope hp, List.mem_singleton] at hpair
  subst hpair
  obtain ⟨c, -, rfl⟩ := List.mem_map.1 hpart
  rfl

/-- What the template says for a record: its value at the field, in plain text. -/
theorem filled_ownScope {p : String} (hp : PlainName p) (record : Value) :
    filled (ownScope p) record = [(ownKey p, valueText (Value.orNull (record.path? p)))] := by
  have value : fill record [.placeholder p] = valueText (Value.orNull (record.path? p)) := by
    rw [fill, List.flatMap_cons, List.flatMap_nil, List.append_nil, Part.plain,
      String.ofList_toList]
  rw [filled, pairs_ownScope hp, List.map_singleton, value,
    fill_chars (not_mem_ownKey hp (by decide) (by decide)), String.ofList_toList]

end Template

namespace Bracket

/-! ## What the query writes -/

theorem path_ownKey {p : String} (hp : PlainName p) :
    path (Template.ownKey p) = ["filter", "where", p] := by
  have opening : "filter[where][".toList =
      ['f', 'i', 'l', 't', 'e', 'r', '[', 'w', 'h', 'e', 'r', 'e', ']', '['] := by
    decide
  have last := steps_bracket [] (hp.not_mem (by decide : ']'.isAlphanum = false) (by decide)) []
  rw [path, Template.toList_ownKey, opening]
  change String.ofList ['f', 'i', 'l', 't', 'e', 'r'] :: String.ofList ['w', 'h', 'e', 'r', 'e'] ::
    steps (some []) (p.toList ++ ']' :: []) = _
  rw [last, List.reverse_nil, List.nil_append, String.ofList_toList, steps]

theorem listed_own {p : String} (hp : PlainName p) (text : String) :
    listed (.object (written [(Template.ownKey p, text)])) =
      .ok (.object [("filter", .object [("where", .object [(p, .text text)])])]) := by
  have assigned : written [(Template.ownKey p, text)] =
      [("filter", .object [("where", .object [(p, .text text)])])] := by
    rw [written, List.foldl_cons, List.foldl_nil, path_ownKey hp, assign, if_neg (by decide),
      assign, if_neg hp.ne_empty, assign]
    rfl
  have filter : isNumeral "filter" = false := by decide
  have where_ : isNumeral "where" = false := by decide
  rw [assigned]
  simp [listed, listedMembers, arranged, hp.not_isNumeral, filter, where_, bind, Except.bind,
    pure, Except.pure]

end Bracket

/-! ## The scope -/

theorem Filter.read_where {w : Value} (hw : w.isBlank = false) :
    Filter.read {} (.object [("where", w)]) =
      (Condition.read w).map fun c => { condition := c } := by
  have given : readCondition (Document.field "where" [("where", w)]) = Condition.read w :=
    if_neg (by rw [show Document.field "where" [("where", w)] = w from rfl, hw]; decide)
  have levels : ({} : FilterBounds).depth + 1 = (({} : FilterBounds).depth.toNat + 1 : Nat) := rfl
  rw [read, levels, Int.toNat_natCast, readLevels_object, given]
  cases Condition.read w <;> rfl

/-- The condition that a field is equal to what has been inferred from a text. -/
def Condition.inferred (p : String) (v : Value) (literal : Option String) : Condition :=
  .leaf { path := p, operator := .eq, operand := v, literal := literal.map .text }

theorem Condition.read_inferred {p : String} (hp : PlainName p) (text : String) :
    Condition.read (.object [(p, .text text)]) =
      (inferText text : Outcome _).map fun found => inferred p found.1 found.2 := by
  have unconnected : connective? "" p = none := by
    rw [connective?, if_neg (by decide), if_neg hp.ne_and, if_neg hp.ne_or]
  exact read_text unconnected text

/-- The query that the template makes for a record has the text of the record's value at the
    field. -/
theorem Template.decodeQuery_ownScope {p : String} (hp : PlainName p) (record : Document) :
    decodeQuery (render (ownScope p) (.object record)) = .ok (.object [("filter", .object
      [("where", .object [(p, .text (valueText (Value.orNull (record.get? p))))])])]) := by
  have hpath : '.' ∉ p.toList := hp.not_mem (by decide) (by decide)
  rw [decodeQuery, pairs_render (valuesOnly_ownScope hp)
    (not_mem_parts_ownScope hp (by decide) (by decide) (by decide)), filled_ownScope hp,
    Document.path?_key hpath, Bracket.listed_own hp]

theorem Template.not_isEmpty_ownScope {p : String} (hp : PlainName p) (record : Value) :
    ¬(trim (render (ownScope p) record)).isEmpty = true := by
  -- Its first letter is no blank, whatever the record says.
  have first : 'f' ∈ (render (ownScope p) record).toList := by
    rw [render, String.toList_ofList, parts_ownScope hp]
    refine List.mem_flatMap.2 ⟨.char 'f', List.mem_append_left _ (List.mem_map_of_mem ?_),
      List.mem_cons_self⟩
    rw [toList_ownKey]
    exact List.mem_append_left _ (by decide)
  exact not_isEmpty_trim first (by decide)

/-- The scope that the template makes for a record has one condition, on what is inferred from the
    text of the record's value. -/
theorem Scope.read_ownScope {p : String} (hp : PlainName p) (record : Document)
    (owners : Option Audience) :
    Scope.read (Template.render (Template.ownScope p) (.object record)) owners =
      (inferText (Template.valueText (Value.orNull (record.get? p))) : Outcome _).map fun found =>
        { filter := { condition := Condition.inferred p found.1 found.2 } } := by
  have decoded := Template.decodeQuery_ownScope hp record
  generalize Template.valueText (Value.orNull (record.get? p)) = text at *
  have filter : Filter.read {} (.object [("where", .object [(p, .text text)])]) =
      (inferText text : Outcome _).map fun found =>
        { condition := Condition.inferred p found.1 found.2 } := by
    rw [Filter.read_where rfl, Condition.read_inferred hp]
    cases inferText text <;> rfl
  rw [read, if_neg (Template.not_isEmpty_ownScope hp _), decoded, lift_ok, ok_bind]
  change (do
    let found ← Filter.read {} (.object [("where", .object [(p, .text text)])])
    return { filter := found, set := _ : Scope }) = _
  rw [filter]
  cases owners <;> cases inferText text <;> rfl

/-- The scope that the template makes for a record whose text is inferred to be something. -/
theorem Scope.read_ownScope_of_infer {p : String} (hp : PlainName p) {record : Document} {v : Value}
    {literal : Option String}
    (h : inferText (Template.valueText (Value.orNull (record.get? p))) = .ok (v, literal))
    (owners : Option Audience) :
    Scope.read (Template.render (Template.ownScope p) (.object record)) owners =
      .ok { filter := { condition := Condition.inferred p v literal } } := by
  rw [read_ownScope hp, h]
  rfl

/-- There is no such scope for a record whose text cannot be read. -/
theorem Scope.read_ownScope_of_fault {p : String} (hp : PlainName p) {record : Document}
    {fault : Fault}
    (h : inferText (Template.valueText (Value.orNull (record.get? p))) = .error fault)
    (owners : Option Audience) :
    Scope.read (Template.render (Template.ownScope p) (.object record)) owners =
      .error (.broken fault) := by
  rw [read_ownScope hp, h]
  rfl

/-! ## Values that are read back -/

/-- A value whose own text is read back. There is none for null, and the text `null` is taken for
    it; a whole numeral may have so many digits only, a double no exponent; and a timestamp lies in
    the calendar. -/
inductive Value.Recoverable : Value → Prop where
  /-- A truth value. -/
  | bool (b : Bool) : Recoverable (.bool b)
  /-- A whole number that is not too long. -/
  | int {n : Int} : n.natAbs < 10 ^ Numeral.maxDigits → Recoverable (.int n)
  /-- A finite double that is written without an exponent. -/
  | double {negative : Bool} {mantissa exponent : Nat}
      {canonical : Double.Canonical mantissa exponent} :
      'e' ∉ (Double.finite negative mantissa exponent canonical).text.toList →
      Recoverable (.number (.double (.finite negative mantissa exponent canonical)))
  /-- A text. -/
  | text {s : String} : s ≠ "null" →
      (Timestamp.beginsWithDateAndTime s.toList = true → Timestamp.read s false ≠ .outOfRange) →
      (isPlainNumeral s.toList = true → '.' ∉ s.toList →
        (s.toList.filter isDecimalDigit).length ≤ Numeral.maxDigits) →
      Recoverable (.text s)

theorem Number.same_self {n : Number} {p : Position} (h : n.position? = some p) :
    n.same n = true := Number.same_iff.2 ⟨p, h, h⟩

/-- A value that is read back is equal to what is inferred from its own text. -/
theorem Value.Recoverable.equalTo {v : Value} (h : v.Recoverable) :
    ∃ w literal, inferText (Template.valueText v) = .ok (w, literal) ∧
      Catalog.equalTo v w (literal.map .text) = .ok true := by
  cases h with
  | bool b =>
    cases b with
    | true => exact ⟨.bool true, some "true", rfl, rfl⟩
    | false => exact ⟨.bool false, some "false", rfl, rfl⟩
  | @int n h =>
    have inferred : inferText (toString n) = .ok (.int n, some (toString n)) := by
      rw [inferText_int, if_pos h]
    exact ⟨_, _, inferred, congrArg Except.ok (Number.same_self rfl)⟩
  | double h => exact ⟨_, _, inferText_double h, congrArg Except.ok (Number.same_self rfl)⟩
  | text hnull hcalendar hshort => exact equalTo_inferText hnull hcalendar hshort

/-- A text is read back if it is not the word for null and something is inferred from it. -/
theorem Value.recoverable_text_iff {s : String} :
    (Value.text s).Recoverable ↔ s ≠ "null" ∧ ∃ found, inferText s = .ok found := by
  constructor
  · intro h
    cases h with
    | text hnull hcalendar hshort =>
      obtain ⟨v, literal, hinfer, -⟩ := equalTo_inferText hnull hcalendar hshort
      exact ⟨hnull, _, hinfer⟩
  · rintro ⟨hnull, found, hinfer⟩
    have readable {fault : Fault} (h : inferText s = .error fault) : False := by
      cases hinfer.symm.trans h
    refine .text hnull (fun htime hread => ?_) fun hplain hpoint => Nat.le_of_not_lt fun hlong => ?_
    · exact readable (inferText_eq_error.2 (.inl ⟨rfl, htime, hread⟩))
    · exact readable (inferText_eq_error.2 (.inr ⟨rfl, hplain, hpoint, hlong⟩))

/-! ## Records in their own scopes -/

/-- A record is in the scope that it says itself if its value can be read back: it meets the
    condition of the scope, whoever owns it. So the check of a limit with this scope always counts
    for it. -/
theorem met_ownScope {p : String} (hp : PlainName p) {record : Document} {v : Value}
    (hv : record.get? p = some v) (hback : v.Recoverable) :
    ∃ scope, (∀ owners, Scope.read (Template.render (Template.ownScope p) (.object record)) owners =
        .ok scope) ∧
      scope.filter.condition.Met record ∧
      ∀ (ctx : Context) (store : Store) (f : Family) (rule : LimitRule) (exclude : Value)
        (after : Context) (owners : Audience), rule.scope = Template.ownScope p →
        afterWriting ctx.unrestricted = .ok after → ownersOf record = .ok owners →
        rule.check ctx.unrestricted store f record exclude = (do
          let count ← countInScope ctx.unrestricted store f scope (leavingOut exclude)
          if rule.limit ≤ count then
            refuse (.limitExceeded f rule.limit
              (Template.render rule.scope (.object record)))) := by
  obtain ⟨w, literal, hinfer, hequal⟩ := hback.equalTo
  have hown : inferText (Template.valueText (Value.orNull (record.get? p))) = .ok (w, literal) := by
    rw [hv]
    exact hinfer
  have hread := Scope.read_ownScope_of_infer hp hown
  have hmet : (Condition.inferred p w literal).Met record := by
    rw [Condition.Met, Condition.inferred, Condition.holds, Leaf.holds,
      Document.path?_key (hp.not_mem (by decide) (by decide)), hv]
    exact hequal
  refine ⟨_, hread, hmet, ?_⟩
  intro ctx store f rule exclude after owners hrule hafter howners
  -- The check reads and counts without access control, so that nothing is added to the condition.
  have hbase : baseCondition after f { condition := Condition.inferred p w literal } none .always =
      .ok (Condition.conj [.inferred p w literal, .always, .always, .always, .always]) := by
    rw [baseCondition, access_afterWriting hafter, Service.access_unrestricted]
    rfl
  refine (LimitRule.check_of_holds (b := true) hafter howners ?_ hbase ?_ exclude).trans
    (if_pos rfl)
  · rw [hrule]
    exact hread (some owners)
  · rw [Condition.holds_conj_neutral Condition.conjuncts?_neutral]
    exact hmet

/-- A numeral with zeros before it may be meant as a text, and an entity with this text is in its
    own scope. -/
theorem met_ownScope_numeral :
    let ctx : Context := { config := Configuration.standard, now := ⟨.first, 0⟩ }
    let record : Document := [("code", .text "007")]
    let rule : LimitRule := { scope := "filter[where][code]=$\x7bcode\x7d", limit := 0 }
    ∃ scope, Scope.read (Template.render rule.scope (.object record)) none = .ok scope ∧
      scope.filter.condition.Met record ∧
      rule.check ctx.unrestricted {} .entities record .null = (do
        let count ← countInScope ctx.unrestricted {} .entities scope (leavingOut .null)
        if rule.limit ≤ count then refuse (.limitExceeded .entities rule.limit
          (Template.render rule.scope (.object record)))) := by
  intro ctx record rule
  have plain : PlainName "code" := by decide
  have back : (Value.text "007").Recoverable :=
    .text (by decide) (fun h => absurd h (by decide)) fun _ _ => by decide
  have given : record.get? "code" = some (.text "007") := rfl
  obtain ⟨scope, hread, hmet, hcheck⟩ := met_ownScope plain given back
  obtain ⟨after, hafter⟩ := Option.isSome_iff_exists.1
    (by decide : (afterWriting ctx.unrestricted).toOption.isSome = true)
  exact ⟨scope, hread none, hmet,
    hcheck ctx {} .entities rule .null after {} rfl (toOption_eq_some.1 hafter) rfl⟩

/-- Records that are not in the scopes that they say themselves: the text of the word for null is
    taken for null, and the text of a double with an exponent for a text. A whole number of too many
    digits and a timestamp outside the calendar cannot be read, so that there is no scope at all. -/
theorem not_met_ownScope :
    PlainName "x" ∧
      (∀ v ∈ [Value.text "null", .number (.double (.ofDecimal false 1 16))], ∃ scope,
        (∀ owners, Scope.read (Template.render (Template.ownScope "x") (.object [("x", v)]))
          owners = .ok scope) ∧
        scope.filter.condition.holds (.object [("x", v)]) = .ok false) ∧
      ∀ v ∈ [Value.int (10 ^ Numeral.maxDigits), .text (toString (10 ^ Numeral.maxDigits : Int)),
          .text "0001-01-01T00:00:00+05:00"],
        ∃ fault, ∀ owners, Scope.read (Template.render (Template.ownScope "x")
          (.object [("x", v)])) owners = .error (.broken fault) := by
  have plain : PlainName "x" := by decide
  have long : inferText (toString (10 ^ Numeral.maxDigits : Int)) = .error .notANumeral := by
    have same (n : Nat) : (10 ^ n : Int).natAbs = 10 ^ n := Int.natAbs_pow ..
    rw [inferText_int, same, if_neg (Nat.lt_irrefl _)]
  have outside : inferText "0001-01-01T00:00:00+05:00" = .error .outOfCalendar := rfl
  have null : inferText "null" = .ok (.null, none) := rfl
  have exponent : inferText (Double.ofDecimal false 1 16).text = .ok (.text "1e+16", none) := by
    have written : (Double.ofDecimal false 1 16).text = "1e+16" := by decide +kernel
    rw [written]
    rfl
  refine ⟨plain, ?_, ?_⟩
  · simp only [List.forall_mem_cons]
    exact ⟨⟨_, Scope.read_ownScope_of_infer plain null, rfl⟩,
      ⟨_, Scope.read_ownScope_of_infer plain exponent, rfl⟩, List.forall_mem_nil _⟩
  · simp only [List.forall_mem_cons]
    exact ⟨⟨_, Scope.read_ownScope_of_fault plain long⟩,
      ⟨_, Scope.read_ownScope_of_fault plain long⟩,
      ⟨_, Scope.read_ownScope_of_fault plain outside⟩, List.forall_mem_nil _⟩

end Catalog
