import Catalog.Proofs.Query.Comparison
import Mathlib.Data.List.Forall2

/-!
# Texts that are inferred to be something else

A text is a mere text unless it writes null, a boolean, an instant or a number (`Inferred`). What is
inferred from it keeps the text, so that a field with the very same text is equal to it and stands
nowhere else in order (`Inferred.equals`): every comparison with a text holds of that text, whatever
it is taken for, if it holds of what is equal (`Condition.comparisons_keep_text`).

An array of texts is compared as a whole, which does not look at the texts that are kept. So a field
with the very same array is equal to it only if all its items are mere texts
(`Condition.equals_own_texts_iff`).
-/

namespace Catalog

open Text Value

variable {s : String} {p : Value × Option String}

/-! ## What is inferred from a text -/

/-- A text that writes nothing else. -/
structure MereText (s : String) : Prop where
  notWord : s ∉ ["null", "true", "false"]
  notTimestamp : Timestamp.beginsWithDateAndTime s.toList = true →
    Timestamp.read s false = .malformed
  notNumeral : isPlainNumeral s.toList = false

/-- What a text is inferred to be, and whether the text is kept. -/
inductive Inferred (s : String) : Value × Option String → Prop where
  | null (h : s = "null") : Inferred s (.null, none)
  | bool (h : s = "true" ∨ s = "false") : Inferred s (.bool (s = "true"), some s)
  | moment {t : Instant} (h : Timestamp.beginsWithDateAndTime s.toList = true)
      (hread : Timestamp.read s false = .instant t) :
      Inferred s (.instant (.ofInstant t), some s)
  | number {n : Number} (h : isPlainNumeral s.toList = true) (hread : numberOfText s = .ok n) :
      Inferred s (.number n, some s)
  | text (h : MereText s) : Inferred s (.text s, none)

theorem gives_inferred (s : String) : Gives (Inferred s) (inferText s) := by
  rw [inferText]
  by_cases hnull : s = "null"
  · rw [if_pos hnull]
    exact .ok (.null hnull)
  rw [if_neg hnull]
  by_cases hbool : s = "true" ∨ s = "false"
  · rw [if_pos hbool]
    exact .ok (.bool hbool)
  rw [if_neg hbool]
  have hword : s ∉ ["null", "true", "false"] := by simpa [hnull] using hbool
  by_cases htime : Timestamp.beginsWithDateAndTime s.toList = true
  · -- What begins with a date and a time has a letter in it, which no numeral has.
    have hplain : isPlainNumeral s.toList = false := Bool.eq_false_iff.2 fun h => absurd
      ((not_beginsWithDateAndTime (not_mem_of_isPlainNumeral h)).symm.trans htime) (by decide)
    rw [if_pos htime, instantOfText]
    cases hread : Timestamp.read s false with
    | malformed => exact .ok (.text ⟨hword, fun _ => hread, hplain⟩)
    | outOfRange => exact .error _
    | instant t => exact .ok (.moment htime hread)
  rw [if_neg htime]
  by_cases hplain : isPlainNumeral s.toList = true
  · rw [if_pos hplain]
    cases hread : numberOfText s with
    | error f => exact .error _
    | ok n => exact .ok (.number hplain hread)
  · rw [if_neg hplain]
    exact .ok (.text ⟨hword, fun h => absurd h htime, Bool.eq_false_iff.2 hplain⟩)

namespace Inferred

theorem notNull (h : Inferred s p) (hs : s ≠ "null") : p.1 ≠ .null := by
  cases h with
  | null h => exact absurd h hs
  | _ => exact fun h => (by cases h)

theorem notArray (h : Inferred s p) (vs : List Value) : p.1 ≠ .array vs := by
  cases h <;> exact fun h => (by cases h)

/-- A text is taken for itself exactly if it is a mere text. -/
theorem eq_text_iff (h : Inferred s p) : p.1 = .text s ↔ MereText s := by
  cases h with
  | null h =>
    exact iff_of_false (fun h => by cases h) fun hmere => hmere.notWord (by simp [h])
  | bool h =>
    refine iff_of_false (fun h => by cases h) fun hmere => hmere.notWord ?_
    rcases h with rfl | rfl <;> simp
  | moment h hread =>
    refine iff_of_false (fun h => by cases h) fun hmere => ?_
    cases hread.symm.trans (hmere.notTimestamp h)
  | number h hread =>
    exact iff_of_false (fun h => by cases h) fun hmere =>
      absurd (h.symm.trans hmere.notNumeral) (by decide)
  | text h => exact iff_of_true rfl h

theorem same_iff (h : Inferred s p) : (Value.text s).same p.1 = true ↔ MereText s := by
  rw [← h.eq_text_iff]
  cases h with
  | text => exact iff_of_true (by simp [same]) rfl
  | _ => exact iff_of_false (fun h => by simp [same] at h) fun h => by cases h

end Inferred

/-- A value that is equal to an operand, and in no other order to it. -/
structure Value.Equals (v : Value) (p : Value × Option String) : Prop where
  equal : scalarEquals v p.1 p.2 = .ok true
  order : order? v p.1 (p.2.map .text) = .ok (some .eq)

/-- A text is equal to what is inferred from it. -/
theorem Inferred.equals (h : Inferred s p) (hs : s ≠ "null") : (Value.text s).Equals p := by
  have literal : isLiteral (.text s) (some s) = true := beq_self_eq_true s
  have order : compare s s = .eq := Std.compare_self
  cases h with
  | null h => exact absurd h hs
  -- A text is neither a boolean nor a number, so what decides is the text that is kept.
  | bool | number => exact ⟨congrArg Except.ok literal, congrArg (Except.ok ∘ some) order⟩
  | text => exact ⟨(Value.JsonEq.text s).equalTo, congrArg (Except.ok ∘ some) order⟩
  | @moment t _ hread =>
    have itself : instantOf (.text s) = .ok (some (.ofInstant t)) := by
      rw [instantOf, instantOfText, hread]
    constructor
    · rw [scalarEquals_instant, itself]
      exact congrArg Except.ok (beq_self_eq_true (Moment.ofInstant t).micros)
    · rw [order?_moment (fun h => by cases h), itself]
      exact congrArg (Except.ok ∘ some) Std.compare_self

/-! ## Leaves -/

namespace Leaf

variable {path : String} {operator : Operator} {doc : Value}

theorem holds_neq : (on path .neq p).holds doc =
    (on path .eq p).holds doc >>= fun b => pure !b := rfl

theorem holds_nin {ps : List (Value × Option String)} : (onEach path .nin ps).holds doc =
    (onEach path .inq ps).holds doc >>= fun b => pure !b := rfl

/-- An array as an operand is compared as a whole, without the texts that are kept. -/
theorem holds_whole {ps : List (Value × Option String)} : (onEach path .eq ps).holds doc =
    .ok ((Value.orNull (doc.path? path)).same (.array (ps.map Prod.fst))) := by
  change equalTo (Value.orNull (doc.path? path)) (.array (ps.map Prod.fst)) _ = _
  cases Value.orNull (doc.path? path) <;> rfl

section Equal

variable (hnull : p.1 ≠ .null) (harray : ∀ vs, p.1 ≠ .array vs)
  (hv : (Value.orNull (doc.path? path)).IsScalar)
  (hequal : (Value.orNull (doc.path? path)).Equals p)

include hv hequal

include hnull harray in
theorem holds_eq_of_equals : (on path .eq p).holds doc = .ok true := by
  rw [(itemwise_on (by decide) hnull harray).holds_scalar hv, test_equal harray]
  exact hequal.equal

include hnull harray in
theorem holds_order_of_equals (hop : operator ∈ [.gt, .gte, .lt, .lte]) :
    (on path operator p).holds doc = .ok (operator.allows .eq) := by
  rw [(itemwise_on (List.mem_cons_of_mem _ hop) hnull harray).holds_scalar hv, test_order hop]
  exact congrArg (· >>= fun o => pure ((Option.map operator.allows o).getD false)) hequal.order

theorem holds_inq_of_equals : (onEach path .inq [p]).holds doc = .ok true := by
  rw [itemwise_inq.holds_scalar hv, test_inq, anyM_singleton]
  exact hequal.equal

theorem holds_between_of_equals : (onEach path .between [p, p]).holds doc = .ok true := by
  rw [(itemwise_between p p).holds_scalar hv, test_between, within]
  change (order? (Value.orNull (doc.path? path)) p.1 (p.2.map .text) >>= fun above =>
    order? (Value.orNull (doc.path? path)) p.1 (p.2.map .text) >>= fun below => _) = _
  rw [hequal.order]
  rfl

end Equal

/-- The leaf that compares a field with what is inferred from one text. -/
def ofText (path : String) (p : Value × Option String) : Operator → Leaf
  | .inq => onEach path .inq [p]
  | .nin => onEach path .nin [p]
  | .between => onEach path .between [p, p]
  | operator => on path operator p

end Leaf

/-- What is written next to an operator to compare a field with one text. -/
def Operator.operandOf (t : String) : Operator → Value
  | .inq | .nin => .array [.text t]
  | .between => .array [.text t, .text t]
  | _ => .text t

/-- The operators that compare a field with operands. -/
def Operator.comparisons : List Operator :=
  [.eq, .neq, .gt, .gte, .lt, .lte, .between, .inq, .nin]

namespace Leaf

theorem read_ofText (path : String) {t : String} (ht : inferText t = .ok p) {operator : Operator}
    (hop : operator ∈ Operator.comparisons) :
    Leaf.read path .null operator (operator.operandOf t) = .ok (ofText path p operator) := by
  have hread : coerce .null (.text t) = .ok p := lift_eq_ok.2 ht
  have hone : [Value.text t].mapM (coerce .null) = .ok [p] := by
    rw [List.mapM_cons, hread]
    rfl
  have hboth : [Value.text t, .text t].mapM (coerce .null) = .ok [p, p] := by
    rw [List.mapM_cons, hread, hone]
    rfl
  cases operator with
  | eq | neq | gt | gte | lt | lte =>
    rw [read_on (by decide), Operator.operandOf, hread]
    · rfl
    all_goals exact fun h => (by cases h)
  | inq | nin =>
    rw [read_onEach (by decide), Operator.operandOf, operandsOf, hone]
    rfl
  | between =>
    rw [read_between _ _ rfl, Operator.operandOf, operandsOf, hboth]
    rfl
  | _ => exact absurd hop (by decide)

/-- A text has to itself, as it is inferred, the comparisons that equals have. -/
theorem holds_ofText {path t : String} (hp : Inferred t p) (ht : t ≠ "null") {doc : Value}
    (hdoc : doc.path? path = some (.text t)) {operator : Operator}
    (hop : operator ∈ Operator.comparisons) :
    (ofText path p operator).holds doc =
      .ok (decide (operator ∈ [.eq, .gte, .lte, .between, .inq])) := by
  have hfield : Value.orNull (doc.path? path) = .text t := by rw [hdoc]; rfl
  have hv : (Value.orNull (doc.path? path)).IsScalar := by
    rw [hfield]
    exact ⟨fun _ h => (by cases h), rfl⟩
  have hequal : (Value.orNull (doc.path? path)).Equals p := hfield ▸ hp.equals ht
  cases operator with
  | eq => exact holds_eq_of_equals (hp.notNull ht) hp.notArray hv hequal
  | neq =>
    rw [ofText, holds_neq, holds_eq_of_equals (hp.notNull ht) hp.notArray hv hequal]
    · rfl
    all_goals exact fun h => (by cases h)
  | gt | gte | lt | lte =>
    exact holds_order_of_equals (hp.notNull ht) hp.notArray hv hequal (by decide)
  | inq => exact holds_inq_of_equals hv hequal
  | nin =>
    rw [ofText, holds_nin, holds_inq_of_equals hv hequal]
    rfl
  | between => exact holds_between_of_equals hv hequal
  | _ => exact absurd hop (by decide)

end Leaf

/-! ## Conditions -/

namespace Condition

variable {f : String}

theorem connective?_eq_none (hand : f ≠ "and") (hor : f ≠ "or") : connective? "" f = none := by
  rw [connective?, if_neg (by decide), if_neg hand, if_neg hor]

/-- A field alone in an object says what stands next to it. -/
theorem read_field (hf : connective? "" f = none) (v : Value) :
    Condition.read (.object [(f, v)]) = (readField f v).map fun c => conj [c] := by
  rw [read, readMembers, hf]
  change (do return conj (← (do
    return (← readField ("" ++ f) v) :: (← readMembers "" [])))) = _
  rw [String.empty_append]
  cases readField f v <;> rfl

/-- An operator next to a field says one comparison. -/
theorem read_operator (hf : connective? "" f = none) (operator : Operator) (v : Value) :
    Condition.read (.object [(f, .object [(operator.name, v)])]) =
      (Leaf.read f .null operator v).map .leaf := by
  have hkey : isLeafKey operator.name = true := by
    rw [isLeafKey, Operator.ofName?_name]
    rfl
  have hmembers : ([(operator.name, v)].all fun m => isLeafKey m.1) = true := by
    rw [List.all_cons, hkey]
    rfl
  have hhint : Value.orNull (Document.get? "type" [(operator.name, v)]) = .null := by
    cases operator <;> rfl
  have hoptions : lower ((Document.get? "options" [(operator.name, v)]).getD (.text "")).display =
      "" := by
    cases operator <;> rfl
  have hsaid : operatorOf? "" operator.name = some operator := by
    rw [operatorOf?, Operator.ofName?_name]
    cases operator <;> rfl
  rw [read_field hf, readField, if_pos hmembers, readOperators]
  · simp only [hhint, hoptions, List.filterMapM_cons, hsaid]
    cases Leaf.read f .null operator v <;> rfl
  · intro h
    cases h

/-- An array next to a field says that the field is equal to what its items are read as. -/
theorem read_items (hf : connective? "" f = none) (items : List Value) :
    Condition.read (.object [(f, .array items)]) =
      (items.mapM (coerce .null)).map fun ps => .leaf (.onEach f .eq ps) := by
  rw [read_field hf, readField, coerceEach]
  cases items.mapM (coerce .null) <;> rfl

/-- What is inferred from a text keeps it. A field with the text that is written next to it is met
    by the text and by the comparisons with it that equals have, and by no other. -/
theorem comparisons_keep_text {t : String} {doc : Document} (hand : f ≠ "and") (hor : f ≠ "or")
    (hdot : '.' ∉ f.toList) (ht : t ≠ "null")
    (hread : ∃ c, Condition.read (.object [(f, .text t)]) = .ok c)
    (hdoc : doc.get? f = some (.text t)) :
    (∃ c, Condition.read (.object [(f, .text t)]) = .ok c ∧ c.holds (.object doc) = .ok true) ∧
      ∀ operator ∈ Operator.comparisons, ∃ c,
        Condition.read (.object [(f, .object [(operator.name, operator.operandOf t)])]) = .ok c ∧
        c.holds (.object doc) =
          .ok (decide (operator ∈ [.eq, .gte, .lte, .between, .inq])) := by
  have hf := connective?_eq_none hand hor
  obtain ⟨c, hread⟩ := hread
  obtain ⟨p, hp, rfl⟩ := map_eq_ok.1 ((read_text hf t).symm.trans hread)
  have ht' : inferText t = .ok p := lift_eq_ok.1 hp
  have holds (operator : Operator) (hop : operator ∈ Operator.comparisons) :
      (leaf (.ofText f p operator)).holds (.object doc) =
        .ok (decide (operator ∈ [.eq, .gte, .lte, .between, .inq])) :=
    Leaf.holds_ofText (gives_inferred t p ht') ht ((Document.path?_key hdot doc).trans hdoc) hop
  refine ⟨⟨_, hread, holds .eq (by decide)⟩, fun operator hop => ⟨_, ?_, holds operator hop⟩⟩
  rw [read_operator hf, Leaf.read_ofText f ht' hop]
  rfl

/-- A numeral with a zero before it, which its number is written without. -/
theorem comparisons_keep_text_leadingZero :
    (∃ c, Condition.read (.object [("code", .text "0441")]) = .ok c ∧
      c.holds (.object [("code", .text "0441")]) = .ok true) ∧
      ∀ operator ∈ Operator.comparisons, ∃ c,
        Condition.read (.object [("code", .object [(operator.name, operator.operandOf "0441")])]) =
          .ok c ∧
        c.holds (.object [("code", .text "0441")]) =
          .ok (decide (operator ∈ [.eq, .gte, .lte, .between, .inq])) :=
  comparisons_keep_text (by decide) (by decide) (by decide) (by decide) ⟨_, rfl⟩ rfl

/-- Texts that are all mere texts are the same as what is inferred from them, and no others are. -/
theorem sameItems_iff_mereText {texts : List String} {values : List Value}
    (h : List.Forall₂ (fun t v => ∃ literal, inferText t = .ok (v, literal)) texts values) :
    sameItems (texts.map .text) values = true ↔ ∀ t ∈ texts, MereText t := by
  induction h with
  | nil => exact iff_of_true rfl (List.forall_mem_nil _)
  | cons h _ ih =>
    obtain ⟨literal, h⟩ := h
    have hfirst := (gives_inferred _ _ h).same_iff
    rw [List.map_cons, sameItems, Bool.and_eq_true, ih, List.forall_mem_cons]
    exact and_congr_left fun _ => hfirst

/-- A field is equal to an array of texts exactly if it has an array that is the same as that of
    what is inferred from the texts, whether or not they are kept: so an array of the texts
    themselves is, exactly if they are all mere texts. -/
theorem equals_own_texts_iff (texts : List String) {c : Condition} (hand : f ≠ "and")
    (hor : f ≠ "or") (hdot : '.' ∉ f.toList)
    (hread : Condition.read (.object [(f, .array (texts.map .text))]) = .ok c) :
    (∃ values, List.Forall₂ (fun t v => ∃ literal, inferText t = .ok (v, literal)) texts values ∧
      ∀ doc : Document, c.holds (.object doc) =
        .ok ((Value.orNull (doc.get? f)).same (.array values))) ∧
      ∀ doc : Document, doc.get? f = some (.array (texts.map .text)) →
        (c.Met doc ↔ ∀ t ∈ texts, MereText t) := by
  rw [read_items (connective?_eq_none hand hor)] at hread
  obtain ⟨ps, hps, rfl⟩ := map_eq_ok.1 hread
  have whole : ∃ values,
      List.Forall₂ (fun t v => ∃ literal, inferText t = .ok (v, literal)) texts values ∧
      ∀ doc : Document, (leaf (.onEach f .eq ps)).holds (.object doc) =
        .ok ((Value.orNull (doc.get? f)).same (.array values)) := by
    obtain ⟨g, hg, rfl⟩ := exists_map_of_mapM hps
    refine ⟨texts.map fun t => (g (.text t)).1, ?_, fun doc => ?_⟩
    · rw [List.forall₂_map_right_iff, List.forall₂_same]
      exact fun t ht => ⟨(g (.text t)).2, lift_eq_ok.1 (hg _ (List.mem_map_of_mem ht))⟩
    · rw [holds, Leaf.holds_whole, Document.path?_key hdot, List.map_map, List.map_map]
      rfl
  refine ⟨whole, fun doc hdoc => ?_⟩
  obtain ⟨values, hvalues, hholds⟩ := whole
  rw [Met, hholds, hdoc, Value.orNull, Option.getD_some, same, ← sameItems_iff_mereText hvalues]
  exact ⟨Except.ok.inj, congrArg Except.ok⟩

/-- Two mere texts in an array. -/
theorem equals_own_texts_iff_words : ∃ c,
    Condition.read (.object [("tags", .array [.text "new", .text "2024-01"])]) = .ok c ∧
      (c.Met [("tags", .array [.text "new", .text "2024-01"])] ↔
        ∀ t ∈ ["new", "2024-01"], MereText t) :=
  ⟨_, rfl, (equals_own_texts_iff (f := "tags") ["new", "2024-01"] (by decide) (by decide)
    (by decide) rfl).2 _ rfl⟩

/-- A numeral in an array: the array is not met by the one that it is. -/
theorem not_equals_own_texts : ∃ c,
    Condition.read (.object [("f", .array [.text "5"])]) = .ok c ∧
      ¬ c.Met [("f", .array [.text "5"])] :=
  ⟨_, rfl, by decide⟩

end Condition

end Catalog
