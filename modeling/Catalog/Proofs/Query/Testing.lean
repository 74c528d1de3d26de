import Catalog.Proofs.Query.Met

/-!
# What a leaf tests

A leaf tests the values at its path one after the other, the items of an array or the value as a
whole (`Leaf.candidates`), up to the first that passes (`Leaf.holds_eq_anyM`). To pass a value has
to be one that can be interpreted as what the operand is (`Leaf.interprets_of_test`): of its kind, a
text that writes a moment, or a text next to an operand that was itself inferred from one.

If the operand suits the operator (`Leaf.Apt`), one thing is in the way of an answer. A text that
writes an instant outside the calendar (`Value.OffCalendar`) is neither that instant nor taken for a
mere text, and testing gives up where it compares such a text with a moment
(`Leaf.test_eq_error`). So a leaf *stumbles* over a document if it comes to such a text before a
value that passes (`Leaf.holds_eq_error`), and apart from this values that cannot be interpreted do
not match (`Leaf.holds_uninterpreted`).
-/

namespace Catalog

/-! ## Comparing two values -/

namespace Value

/-- A text that writes an instant outside the calendar. -/
def OffCalendar (v : Value) : Prop :=
  ∃ s, v = .text s ∧ Timestamp.read s false = .outOfRange

/-- A moment. -/
def IsInstant (v : Value) : Prop := ∃ t, v = .instant t

/-- A value can be interpreted as something in an order with an operand: both are numbers, texts or
    points of time, of which the value may be written in a text, or the value is a text and the
    operand, which is not null, was inferred from one. -/
inductive Ordered : Value → Value → Option String → Prop where
  | numbers (a b : Number) (literal : Option String) : Ordered (.number a) (.number b) literal
  | texts (s t : String) (literal : Option String) : Ordered (.text s) (.text t) literal
  | moments (t u : Moment) (literal : Option String) : Ordered (.instant t) (.instant u) literal
  | written {s : String} {i : Instant} (h : Timestamp.read s false = .instant i) (u : Moment)
      (literal : Option String) : Ordered (.text s) (.instant u) literal
  | inferred (s : String) {operand : Value} (h : operand ≠ .null) (literal : String) :
      Ordered (.text s) operand (some literal)

/-- A value can be interpreted as something that may be equal to an operand: they are in an order,
    or both of one of the kinds that have none. -/
inductive Comparable : Value → Value → Option String → Prop where
  | ordered {v operand : Value} {literal : Option String} (h : Ordered v operand literal) :
      Comparable v operand literal
  | nulls (literal : Option String) : Comparable .null .null literal
  | bools (a b : Bool) (literal : Option String) : Comparable (.bool a) (.bool b) literal
  | arrays (vs ws : List Value) (literal : Option String) :
      Comparable (.array vs) (.array ws) literal
  | objects (ms ns : Document) (literal : Option String) :
      Comparable (.object ms) (.object ns) literal

end Value

open Value

theorem instantOf_eq_error {v : Value} {f : Fault} :
    instantOf v = .error f ↔ f = .outOfCalendar ∧ v.OffCalendar := by
  cases v with
  | text s =>
    rw [instantOf, instantOfText]
    cases hread : Timestamp.read s false with
    | outOfRange => exact ⟨fun h => by cases h; exact ⟨rfl, s, rfl, hread⟩, fun h => by rw [h.1]⟩
    | malformed | instant t =>
      refine ⟨fun h => (by cases h), ?_⟩
      rintro ⟨-, _, ⟨⟩, h⟩
      cases hread.symm.trans h
  | _ => exact ⟨fun h => (by cases h), by rintro ⟨-, _, ⟨⟩, -⟩⟩

/-- A value that is a moment or writes one is in an order with moments. -/
theorem ordered_of_instantOf {v : Value} {t : Moment} (h : instantOf v = .ok (some t)) (u : Moment)
    (literal : Option String) : v.Ordered (.instant u) literal := by
  cases v with
  | instant t => exact .moments t u literal
  | text s =>
    rw [instantOf, instantOfText] at h
    cases hread : Timestamp.read s false with
    | instant i => exact .written hread u literal
    | malformed | outOfRange =>
      rw [hread] at h
      cases h
  | _ => cases h

theorem comparable_of_isLiteral {v operand : Value} {literal : Option String}
    (h : isLiteral v literal = true) (hop : operand ≠ .null) :
    v.Comparable operand literal := by
  cases v with
  | text s =>
    cases literal with
    | some l => exact .ordered (.inferred s hop l)
    | none => cases h
  | _ => cases h

theorem scalarEquals_instant (v : Value) (t : Moment) (literal : Option String) :
    scalarEquals v (.instant t) literal =
      instantOf v >>= fun u? => pure (u?.elim (isLiteral v literal) (·.same t)) := by
  unfold scalarEquals
  cases v with
  | text s =>
    dsimp only
    rcases instantOf (.text s) with e | _ | u <;> rfl
  | _ => rfl

/-- Comparing for equality gives no answer only where a text off the calendar meets a moment. -/
theorem scalarEquals_eq_error {v operand : Value} {literal : Option String} {f : Fault} :
    scalarEquals v operand literal = .error f ↔
      f = .outOfCalendar ∧ v.OffCalendar ∧ operand.IsInstant := by
  cases operand with
  | instant t =>
    rw [scalarEquals_instant, bind_pure_eq_error, instantOf_eq_error]
    exact and_congr_right fun _ => (and_iff_left ⟨t, rfl⟩).symm
  | _ =>
    refine ⟨fun h => ?_, ?_⟩
    · cases v <;> cases h
    · rintro ⟨-, -, _, ⟨⟩⟩

/-- Only values that can be interpreted so are equal to an operand. -/
theorem comparable_of_scalarEquals {v operand : Value} {literal : Option String}
    (h : scalarEquals v operand literal = .ok true) : v.Comparable operand literal := by
  cases operand with
  | null =>
    cases v with
    | null => exact .nulls literal
    | _ => cases h
  | instant t =>
    rw [scalarEquals_instant] at h
    obtain ⟨o, ho, h⟩ := bind_eq_ok.1 h
    cases o with
    | some u => exact .ordered (ordered_of_instantOf ho t literal)
    | none => exact comparable_of_isLiteral (Except.ok.inj h) (by simp)
  | number b =>
    cases v with
    | number a => exact .ordered (.numbers a b literal)
    | text s => exact comparable_of_isLiteral (Except.ok.inj h) (by simp)
    | _ => cases h
  | bool b =>
    cases v with
    | bool a => exact .bools a b literal
    | text s => exact comparable_of_isLiteral (Except.ok.inj h) (by simp)
    | _ => cases h
  | text t =>
    cases v with
    | text s => exact .ordered (.texts s t literal)
    | _ => cases h
  | array ws =>
    cases v with
    | array vs => exact .arrays vs ws literal
    | text s => exact comparable_of_isLiteral (Except.ok.inj h) (by simp)
    | _ => cases h
  | object ns =>
    cases v with
    | object ms => exact .objects ms ns literal
    | text s => exact comparable_of_isLiteral (Except.ok.inj h) (by simp)
    | _ => cases h

/-- A value is in the order to a moment that the moment which it is or writes is in. -/
theorem order?_instant (v : Value) (t : Moment) :
    order? v (.instant t) none = (instantOf v).map (Option.map (Moment.compare · t)) := by
  cases v with
  | text s =>
    unfold order?
    dsimp only
    rcases instantOf (.text s) with e | _ | u <;> rfl
  | _ => rfl

/-- The order of a text to the text that an operand was inferred from. -/
def orderByLiteral (v : Value) (literal : Option String) : Option Ordering :=
  match v, literal with
  | .text s, some l => some (compare s l)
  | _, _ => none

theorem order?_moment {v : Value} (hv : v ≠ .null) (t : Moment) (literal : Option String) :
    order? v (.instant t) (literal.map .text) = instantOf v >>= fun u? =>
      pure (u?.elim (orderByLiteral v literal) fun u => some (u.compare t)) := by
  unfold order?
  cases v with
  | null => exact absurd rfl hv
  | text s =>
    dsimp only
    rcases instantOf (.text s) with e | _ | u
    · rfl
    · cases literal <;> rfl
    · rfl
  | _ => cases literal <;> rfl

/-- Putting a value in order with an operand gives no answer only where a text off the calendar
    meets a moment. -/
theorem order?_eq_error {v operand : Value} {literal : Option String} {f : Fault} :
    order? v operand (literal.map .text) = .error f ↔
      f = .outOfCalendar ∧ v.OffCalendar ∧ operand.IsInstant := by
  cases operand with
  | instant t =>
    by_cases hv : v = .null
    · subst hv
      refine ⟨fun h => (by cases h), ?_⟩
      rintro ⟨-, ⟨_, ⟨⟩, -⟩, -⟩
    · rw [order?_moment hv, bind_pure_eq_error, instantOf_eq_error]
      exact and_congr_right fun _ => (and_iff_left ⟨t, rfl⟩).symm
  | _ =>
    refine ⟨fun h => ?_, ?_⟩
    · cases v <;> cases literal <;> cases h
    · rintro ⟨-, -, _, ⟨⟩⟩

/-- Only values that can be interpreted so are in an order with an operand. -/
theorem ordered_of_order? {v operand : Value} {literal : Option String} {o : Ordering}
    (h : order? v operand (literal.map .text) = .ok (some o)) : v.Ordered operand literal := by
  have inferred (h : orderByLiteral v literal = some o) (hop : operand ≠ .null) :
      v.Ordered operand literal := by
    cases v with
    | text s =>
      cases literal with
      | some l => exact .inferred s hop l
      | none => cases h
    | _ => cases h
  have byLiteral (hl : order? v operand (literal.map .text) = .ok (orderByLiteral v literal))
      (hop : operand ≠ .null) : v.Ordered operand literal :=
    inferred (Except.ok.inj (hl.symm.trans h)) hop
  by_cases hv : v = .null
  · subst hv
    cases operand <;> cases h
  cases operand with
  | null => cases v <;> cases h
  | instant t =>
    rw [order?_moment hv] at h
    obtain ⟨u?, hu, h⟩ := bind_eq_ok.1 h
    cases u? with
    | some u => exact ordered_of_instantOf hu t literal
    | none => exact inferred (Except.ok.inj h) (by simp)
  | number b =>
    cases v with
    | null => exact absurd rfl hv
    | number a => exact .numbers a b literal
    | _ => exact byLiteral (by cases literal <;> rfl) (by simp)
  | text t =>
    cases v with
    | null => exact absurd rfl hv
    | text s => exact .texts s t literal
    | _ => exact byLiteral (by cases literal <;> rfl) (by simp)
  | bool _ | array _ | object _ =>
    cases v with
    | null => exact absurd rfl hv
    | _ => exact byLiteral (by cases literal <;> rfl) (by simp)

/-! ## Testing one value -/

/-- Whether an operator asks that something does not match. -/
def Operator.negated : Operator → Bool
  | .neq | .nin | .nlike | .nilike => true
  | _ => false

/-- The orders to the operand that an operator asks for. -/
def Operator.allows : Operator → Ordering → Bool
  | .gt => Ordering.isGT
  | .gte => Ordering.isGE
  | .lt => Ordering.isLT
  | .lte => Ordering.isLE
  | _ => fun _ => true

namespace Leaf

/-- The one text that the operand of a leaf was inferred from. -/
def text? (l : Leaf) : Option String := l.literal.bind Literal.text?

/-- The members of an operand that is an array, with the texts that they were inferred from. -/
def members (l : Leaf) : List (Value × Option String) :=
  match l.operand with
  | .array vs => vs.zip (literalsOf l.literal vs.length)
  | _ => []

/-- Whether a value passes the test of a leaf, which a leaf with a negated operator is to fail. -/
def test (l : Leaf) (v : Value) : Except Fault Bool :=
  match l.operator with
  | .eq | .neq =>
    match l.operand with
    | .array _ => .ok (v.same l.operand)
    | _ => scalarEquals v l.operand l.text?
  | .inq | .nin => l.members.anyM fun p => scalarEquals v p.1 p.2
  | .gt | .gte | .lt | .lte => do
    return ((← order? v l.operand l.literal).map l.operator.allows).getD false
  | .between =>
    match l.members with
    | [low, high] => within v low.1 high.1 low.2 high.2
    | _ => .error .operand
  | .like | .nlike => textWith (Text.Wildcard.matched false l.operand.display) v
  | .ilike | .nilike => textWith (Text.Wildcard.matched true l.operand.display) v
  | .regexp =>
    match l.operand with
    | .text s =>
      match Text.Pattern.read s with
      | .ok p => textWith p.found v
      | .error _ => .error .pattern
    | _ => .error .pattern
  | .present => .ok true

/-- The operand of a leaf suits its operator: one to be in an order with was inferred from one text
    if any, two ends are two, one of several is one of an array, and a regular expression is well
    formed. -/
structure Apt (l : Leaf) : Prop where
  order : l.operator ∈ [.gt, .gte, .lt, .lte] → l.literal = l.text?.map .text
  ends : l.operator = .between → ∃ low high lowText highText,
    l.operand = .array [low, high] ∧ literalsOf l.literal 2 = [lowText, highText]
  several : l.operator = .inq ∨ l.operator = .nin → ∃ vs, l.operand = .array vs
  pattern : l.operator = .regexp → ∃ s p, l.operand = .text s ∧ Text.Pattern.read s = .ok p

/-- A value can be interpreted as what the operator of a leaf is about. -/
def Interprets (l : Leaf) (v : Value) : Prop :=
  match l.operator with
  | .eq | .neq => v.Comparable l.operand l.text?
  | .inq | .nin => ∃ p ∈ l.members, v.Comparable p.1 p.2
  | .gt | .gte | .lt | .lte => v.Ordered l.operand l.text?
  | .between => ∀ p ∈ l.members, v.Ordered p.1 p.2
  | .like | .nlike | .ilike | .nilike | .regexp => ∃ s, v = .text s
  | .present => True

/-- A leaf compares a value, which is a text off the calendar, with a moment. Where the value may be
    equal to one of several operands, those after the first that it is equal to are not asked. -/
def StumblesAt (l : Leaf) (v : Value) : Prop :=
  v.OffCalendar ∧
    match l.operator with
    | .eq | .neq | .gt | .gte | .lt | .lte => l.operand.IsInstant
    | .between => ∃ p ∈ l.members, p.1.IsInstant
    | .inq | .nin => ∃ before p after, l.members = before ++ p :: after ∧
      (∀ q ∈ before, scalarEquals v q.1 q.2 = .ok false) ∧ p.1.IsInstant
    | .like | .nlike | .ilike | .nilike | .regexp | .present => False

variable {l : Leaf} {v : Value} {f : Fault}

theorem within_eq_error {low high : Value} {lowText highText : Option String} :
    within v low high lowText highText = .error f ↔
      f = .outOfCalendar ∧ v.OffCalendar ∧ (low.IsInstant ∨ high.IsInstant) := by
  constructor
  · intro h
    rcases bind_eq_error.1 h with h | ⟨above, -, h⟩
    · obtain ⟨hf, hv, hlow⟩ := order?_eq_error.1 h
      exact ⟨hf, hv, .inl hlow⟩
    · rcases bind_eq_error.1 h with h | ⟨below, -, h⟩
      · obtain ⟨hf, hv, hhigh⟩ := order?_eq_error.1 h
        exact ⟨hf, hv, .inr hhigh⟩
      · cases above <;> cases below <;> cases h
  · rintro ⟨hf, hv, hends⟩
    refine bind_eq_error.2 ?_
    cases hlow : order? v low (lowText.map .text) with
    | error e =>
      obtain ⟨rfl, -⟩ := order?_eq_error.1 hlow
      exact .inl (congrArg _ hf.symm)
    | ok above =>
      -- The lower end is no moment, since there the comparison gives up.
      have hhigh : high.IsInstant := hends.resolve_left fun h => by
        cases hlow.symm.trans (order?_eq_error.2 ⟨rfl, hv, h⟩)
      exact .inr ⟨above, rfl, bind_eq_error.2 (.inl (order?_eq_error.2 ⟨hf, hv, hhigh⟩))⟩

theorem ordered_of_within {low high : Value} {lowText highText : Option String}
    (h : within v low high lowText highText = .ok true) :
    v.Ordered low lowText ∧ v.Ordered high highText := by
  obtain ⟨above, habove, h⟩ := bind_eq_ok.1 h
  obtain ⟨below, hbelow, h⟩ := bind_eq_ok.1 h
  cases above with
  | none => cases h
  | some above =>
    cases below with
    | none => cases h
    | some below => exact ⟨ordered_of_order? habove, ordered_of_order? hbelow⟩

theorem textWith_ne_error (p : String → Bool) : textWith p v ≠ .error f := by
  cases v <;> exact fun h => by cases h

theorem text_of_textWith {p : String → Bool} (h : textWith p v = .ok true) :
    ∃ s, v = .text s := by
  cases v with
  | text s => exact ⟨s, rfl⟩
  | _ => cases h

namespace Apt

/-- The test of an order goes by the one text of the operand. -/
theorem test_order (h : l.Apt) (hop : l.operator ∈ [.gt, .gte, .lt, .lte]) :
    l.test v = order? v l.operand (l.text?.map .text) >>= fun o =>
      pure ((o.map l.operator.allows).getD false) := by
  rw [← h.order hop, test]
  cases hop' : l.operator with
  | gt | gte | lt | lte => rfl
  | _ =>
    rw [hop'] at hop
    exact absurd hop (by decide)

theorem test_between (h : l.Apt) (hop : l.operator = .between) :
    ∃ low high : Value × Option String, l.operand = .array [low.1, high.1] ∧
      literalsOf l.literal 2 = [low.2, high.2] ∧ l.members = [low, high] ∧
      ∀ v, l.test v = within v low.1 high.1 low.2 high.2 := by
  obtain ⟨low, high, lowText, highText, hends, htexts⟩ := h.ends hop
  have hmembers : l.members = [(low, lowText), (high, highText)] := by
    rw [members, hends]
    exact congrArg (List.zip [low, high]) htexts
  refine ⟨(low, lowText), (high, highText), hends, htexts, hmembers, fun v => ?_⟩
  rw [test, hop]
  dsimp only
  rw [hmembers]

theorem test_regexp (h : l.Apt) (hop : l.operator = .regexp) :
    ∃ s p, l.operand = .text s ∧ Text.Pattern.read s = .ok p ∧
      ∀ v, l.test v = textWith p.found v := by
  obtain ⟨s, p, hs, hp⟩ := h.pattern hop
  refine ⟨s, p, hs, hp, fun v => ?_⟩
  rw [test, hop, hs]
  dsimp only
  rw [hp]

end Apt

/-- Testing a value gives no answer only where the leaf stumbles. -/
theorem test_eq_error (h : l.Apt) :
    l.test v = .error f ↔ f = .outOfCalendar ∧ l.StumblesAt v := by
  have order (hop : l.operator ∈ [.gt, .gte, .lt, .lte]) : l.test v = .error f ↔
      f = .outOfCalendar ∧ v.OffCalendar ∧ l.operand.IsInstant := by
    rw [h.test_order hop, bind_pure_eq_error, order?_eq_error]
  have members : (l.members.anyM fun p => scalarEquals v p.1 p.2) = .error f ↔
      f = .outOfCalendar ∧ v.OffCalendar ∧ ∃ before p after, l.members = before ++ p :: after ∧
        (∀ q ∈ before, scalarEquals v q.1 q.2 = .ok false) ∧ p.1.IsInstant := by
    rw [anyM_eq_error]
    constructor
    · rintro ⟨before, p, after, hsplit, hbefore, hp⟩
      obtain ⟨hf, hv, hinstant⟩ := scalarEquals_eq_error.1 hp
      exact ⟨hf, hv, before, p, after, hsplit, hbefore, hinstant⟩
    · rintro ⟨hf, hv, before, p, after, hsplit, hbefore, hinstant⟩
      exact ⟨before, p, after, hsplit, hbefore, scalarEquals_eq_error.2 ⟨hf, hv, hinstant⟩⟩
  rw [StumblesAt]
  cases hop : l.operator with
  | eq | neq =>
    rw [test, hop]
    dsimp only
    split
    · next hoperand =>
      rw [hoperand]
      refine ⟨fun h => (by cases h), ?_⟩
      rintro ⟨-, -, _, ⟨⟩⟩
    · exact scalarEquals_eq_error
  | inq | nin =>
    rw [test, hop]
    exact members
  | gt | gte | lt | lte => exact order (by rw [hop]; decide)
  | between =>
    obtain ⟨low, high, -, -, hmembers, htest⟩ := h.test_between hop
    rw [htest, hmembers, within_eq_error]
    simp
  | like | nlike | ilike | nilike =>
    rw [test, hop]
    exact ⟨fun h => absurd h (textWith_ne_error _), fun h => h.2.2.elim⟩
  | regexp =>
    obtain ⟨_, p, -, -, htest⟩ := h.test_regexp hop
    rw [htest]
    exact ⟨fun h => absurd h (textWith_ne_error _), fun h => h.2.2.elim⟩
  | present =>
    rw [test, hop]
    exact ⟨fun h => (by cases h), fun h => h.2.2.elim⟩

/-- Only values that can be interpreted so pass the test. -/
theorem interprets_of_test (h : l.Apt) (ht : l.test v = .ok true) : l.Interprets v := by
  have order (hop : l.operator ∈ [.gt, .gte, .lt, .lte]) : v.Ordered l.operand l.text? := by
    rw [h.test_order hop] at ht
    obtain ⟨o?, ho, ht⟩ := bind_eq_ok.1 ht
    cases o? with
    | none => cases ht
    | some o => exact ordered_of_order? ho
  rw [Interprets]
  cases hop : l.operator with
  | eq | neq =>
    rw [test, hop] at ht
    dsimp only at ht ⊢
    split at ht
    · next ws hoperand =>
      rw [hoperand] at ht ⊢
      cases v with
      | array vs => exact .arrays vs ws _
      | _ => cases ht
    · exact comparable_of_scalarEquals ht
  | inq | nin =>
    rw [test, hop] at ht
    obtain ⟨p, hp, hequal⟩ := Condition.exists_of_anyM ht
    exact ⟨p, hp, comparable_of_scalarEquals hequal⟩
  | gt | gte | lt | lte => exact order (by rw [hop]; decide)
  | between =>
    obtain ⟨low, high, -, -, hmembers, htest⟩ := h.test_between hop
    rw [hmembers]
    dsimp only
    rw [List.forall_mem_cons, List.forall_mem_singleton]
    exact ordered_of_within ((htest v).symm.trans ht)
  | like | nlike | ilike | nilike =>
    rw [test, hop] at ht
    exact text_of_textWith ht
  | regexp =>
    obtain ⟨_, p, -, -, htest⟩ := h.test_regexp hop
    exact text_of_textWith ((htest v).symm.trans ht)
  | present => trivial

end Leaf

/-! ## Leaves -/

/-- The items of an array, or another value alone. -/
def Value.items : Value → List Value
  | .array vs => vs
  | v => [v]

theorem anyM_singleton {α : Type} (test : α → Except Fault Bool) (x : α) :
    [x].anyM test = test x := by
  rw [List.anyM]
  rcases test x with e | _ | _ <;> rfl

theorem anyItem_eq (test : Value → Except Fault Bool) (v : Value) :
    anyItem test v = v.items.anyM test := by
  cases v with
  | array vs => rfl
  | _ => exact (anyM_singleton test _).symm

namespace Leaf

variable {l : Leaf} {v : Value} {f : Fault}

/-- Whether a leaf tests an array itself and not its items: where it asks whether something is there
    or is equal to null or to an array. -/
def testsWhole (l : Leaf) : Bool :=
  match l.operator, l.operand with
  | .present, _ => true
  | .eq, .null | .eq, .array _ | .neq, .null | .neq, .array _ => true
  | _, _ => false

/-- The values that a leaf tests one after the other. -/
def candidates (l : Leaf) (doc : Value) : List Value :=
  let actual := Value.orNull (doc.path? l.path)
  if l.testsWhole then [actual] else actual.items

/-- A leaf stumbles over a document: it comes to a value that it stumbles at, since none before it
    passes the test. -/
def Stumbles (l : Leaf) (doc : Value) : Prop :=
  ∃ before v after, l.candidates doc = before ++ v :: after ∧
    (∀ u ∈ before, l.test u = .ok false) ∧ l.StumblesAt v

/-- Equality tests the candidates. -/
theorem equalTo_eq (hop : l.operator = .eq ∨ l.operator = .neq) (doc : Value) :
    equalTo (Value.orNull (doc.path? l.path)) l.operand l.literal =
      (l.candidates doc).anyM l.test := by
  obtain ⟨path, operator, operand, literal⟩ := l
  rw [candidates]
  generalize Value.orNull (doc.path? path) = actual
  have whole (hoperand : testsWhole { path, operator, operand, literal } = true)
      (h : equalTo actual operand literal = test { path, operator, operand, literal } actual) :
      equalTo actual operand literal =
        (if testsWhole { path, operator, operand, literal } then [actual]
          else actual.items).anyM (test { path, operator, operand, literal }) := by
    rw [if_pos hoperand, anyM_singleton, h]
  rcases hop with rfl | rfl
  all_goals
    cases operand with
    | null | array ws => exact whole rfl (by cases actual <;> rfl)
    | _ =>
      refine Eq.trans ?_ (anyItem_eq _ actual)
      cases actual <;> rfl

/-- The other operators test the items of an array. -/
theorem anyItem_candidates (hwhole : l.testsWhole = false) {t : Value → Except Fault Bool}
    (ht : ∀ v, l.test v = t v) (doc : Value) :
    anyItem t (Value.orNull (doc.path? l.path)) = (l.candidates doc).anyM l.test := by
  rw [anyItem_eq, candidates, hwhole, funext ht]
  rfl

theorem equalToOne_eq (h : l.Apt) (hop : l.operator = .inq ∨ l.operator = .nin) (doc : Value) :
    equalToOne (Value.orNull (doc.path? l.path)) l.operand l.literal =
      (l.candidates doc).anyM l.test := by
  obtain ⟨vs, hvs⟩ := h.several hop
  have hwhole : l.testsWhole = false := by rcases hop with hop | hop <;> rw [testsWhole, hop]
  have htest (v : Value) : l.test v =
      (vs.zip (literalsOf l.literal vs.length)).anyM fun p => scalarEquals v p.1 p.2 := by
    rcases hop with hop | hop <;> rw [test, hop, members, hvs]
  rw [← anyItem_candidates hwhole htest, hvs]
  generalize Value.orNull (doc.path? l.path) = actual
  cases actual with
  | array items => cases items <;> rfl
  | _ => rfl

theorem betweenEnds_eq (h : l.Apt) (hop : l.operator = .between) (doc : Value) :
    betweenEnds (Value.orNull (doc.path? l.path)) l.operand l.literal =
      (l.candidates doc).anyM l.test := by
  obtain ⟨low, high, hends, htexts, -, htest⟩ := h.test_between hop
  rw [← anyItem_candidates (by rw [testsWhole, hop]) htest, betweenEnds, hends, Value.elements?,
    orFault, ok_bind]
  dsimp only
  rw [htexts]

theorem likeRegexp_eq (h : l.Apt) (hop : l.operator = .regexp) (doc : Value) :
    likeRegexp (Value.orNull (doc.path? l.path)) l.operand = (l.candidates doc).anyM l.test := by
  obtain ⟨s, p, hs, hp, htest⟩ := h.test_regexp hop
  rw [← anyItem_candidates (by rw [testsWhole, hop]) htest, hs]
  unfold likeRegexp
  dsimp only
  rw [hp]

/-- A leaf is met if a candidate passes the test, or if none does and the operator is negated. -/
theorem holds_eq_anyM (h : l.Apt) (hop : l.operator ≠ .present) (doc : Value) :
    l.holds doc = (l.candidates doc).anyM l.test >>= fun b => pure (b != l.operator.negated) := by
  have plain {x y : Except Fault Bool} (h : x = y) : x = y >>= fun b => pure (b != false) := by
    subst h
    rcases x with f | _ | _ <;> rfl
  have negated {x y : Except Fault Bool} (h : x = y) :
      (x >>= fun b => pure !b) = y >>= fun b => pure (b != true) := by
    subst h
    rcases x with f | _ | _ <;> rfl
  rw [holds]
  cases hop' : l.operator with
  | present => exact absurd hop' hop
  | eq => exact plain (equalTo_eq (.inl hop') doc)
  | neq => exact negated (equalTo_eq (.inr hop') doc)
  | inq => exact plain (equalToOne_eq h (.inl hop') doc)
  | nin => exact negated (equalToOne_eq h (.inr hop') doc)
  | between => exact plain (betweenEnds_eq h hop' doc)
  | regexp => exact plain (likeRegexp_eq h hop' doc)
  | gt | gte | lt | lte =>
    refine plain (anyItem_candidates (by rw [testsWhole, hop']) (fun v => ?_) doc)
    rw [test, hop']
    rfl
  | like | ilike =>
    exact plain (anyItem_candidates (by rw [testsWhole, hop']) (fun v => by rw [test, hop']) doc)
  | nlike | nilike =>
    exact negated (anyItem_candidates (by rw [testsWhole, hop']) (fun v => by rw [test, hop']) doc)

/-- A leaf gives no answer exactly if it stumbles. -/
theorem holds_eq_error (h : l.Apt) {doc : Value} :
    l.holds doc = .error f ↔ f = .outOfCalendar ∧ l.Stumbles doc := by
  by_cases hop : l.operator = .present
  · rw [holds, hop]
    refine ⟨fun h => (by cases h), ?_⟩
    rintro ⟨-, -, _, -, -, -, -, hv⟩
    rw [hop] at hv
    exact hv.elim
  · rw [holds_eq_anyM h hop, bind_pure_eq_error, anyM_eq_error]
    constructor
    · rintro ⟨before, v, after, hsplit, hbefore, hv⟩
      obtain ⟨hf, hv⟩ := (test_eq_error h).1 hv
      exact ⟨hf, before, v, after, hsplit, hbefore, hv⟩
    · rintro ⟨hf, before, v, after, hsplit, hbefore, hv⟩
      exact ⟨before, v, after, hsplit, hbefore, (test_eq_error h).2 ⟨hf, hv⟩⟩

/-- A leaf that none of the candidates can be interpreted for does not match, that is, fails unless
    its operator is negated. -/
theorem holds_uninterpreted (h : l.Apt) {doc : Value}
    (hdoc : ∀ v ∈ l.candidates doc, ¬ l.Interprets v ∧ ¬ l.StumblesAt v) :
    l.holds doc = .ok l.operator.negated := by
  by_cases hop : l.operator = .present
  · -- Every value can be asked whether it is there.
    have hmem : Value.orNull (doc.path? l.path) ∈ l.candidates doc := by
      rw [candidates, testsWhole, hop]
      exact List.mem_singleton_self _
    have hinterprets := (hdoc _ hmem).1
    rw [Interprets, hop] at hinterprets
    exact absurd trivial hinterprets
  · have fails : ∀ v ∈ l.candidates doc, l.test v = .ok false := by
      intro v hv
      rcases htest : l.test v with f | _ | _
      · exact absurd ((test_eq_error h).1 htest).2 (hdoc v hv).2
      · rfl
      · exact absurd (interprets_of_test h htest) (hdoc v hv).1
    rw [holds_eq_anyM h hop, anyM_eq_ok (p := fun _ => false) fails, ok_bind, List.any_eq_false.2]
    · exact congrArg Except.ok (Bool.false_bne _)
    · exact fun _ _ => Bool.false_ne_true

end Leaf

end Catalog
