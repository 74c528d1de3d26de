import Catalog.Proofs.Query.Answers

/-!
# Comparing fields with operands

A condition compares a field with operands that values are put in order with: numbers, texts and
moments, as they are read (`IsOrdered`). Whether the field is equal to an operand is decided apart
from where the two stand in order, and each falls back to the text that the operand was inferred
from. Still they agree: a value is equal to an operand exactly if it is neither before nor after it
in their order (`scalarEquals_eq_order?`).

The leaves that reading makes of such operands are `Leaf.on` and `Leaf.onEach`. For a field with
one value they go by that order (`Leaf.matches_order`, `Leaf.matches_equal`), and what one of them
says of an operand is what the others say (`Leaf.Coheres`). A field with an array is met item by
item (`Leaf.Itemwise.matches_items`).
-/

namespace Catalog

open Value

/-! ## Order and equality of two values -/

/-- Numbers other than not-a-number are in an order. -/
theorem Number.exists_compare? {a b : Number} (ha : (Value.number a).isNaN = false)
    (hb : (Value.number b).isNaN = false) : ∃ o, a.compare? b = some o := by
  have position {n : Number} (hn : (Value.number n).isNaN = false) : ∃ p, n.position? = some p := by
    cases n with
    | int i => exact ⟨_, rfl⟩
    | double x =>
      cases x with
      | finite | infinite => exact ⟨_, rfl⟩
      | nan => cases hn
  obtain ⟨p, hp⟩ := position ha
  obtain ⟨q, hq⟩ := position hb
  exact ⟨_, by rw [compare?, hp, hq]⟩

theorem isEq_compare_text (s t : String) : (compare s t).isEq = (s == t) := by
  rw [Bool.eq_iff_iff, Ordering.isEq_iff_eq_eq, Std.compare_eq_iff_eq, beq_iff_eq]

theorem Moment.isEq_compare (t u : Moment) : (t.compare u).isEq = t.same u := by
  rw [Bool.eq_iff_iff, Ordering.isEq_iff_eq_eq, Moment.compare, Std.compare_eq_iff_eq, Moment.same,
    beq_iff_eq]

/-- A value that stands alone: no array, and not not-a-number. -/
structure Value.IsScalar (v : Value) : Prop where
  notArray : ∀ vs, v ≠ .array vs
  notNaN : v.isNaN = false

/-- An operand as it is read, with the text that it was inferred from if it was, of a kind that
    values are put in order with: a number, a text or a moment. -/
structure IsOrdered (p : Value × Option String) : Prop where
  isRead : ∃ hint v, coerce hint v = .ok p
  kind : (∃ n, p.1 = .number n) ∨ (∃ s, p.1 = .text s) ∨ ∃ t, p.1 = .instant t
  notNaN : p.1.isNaN = false

variable {p : Value × Option String} {v : Value}

theorem IsOrdered.notNull (hp : IsOrdered p) : p.1 ≠ .null := by
  rcases hp.kind with ⟨_, h⟩ | ⟨_, h⟩ | ⟨_, h⟩ <;> (rw [h]; exact fun h => by cases h)

theorem IsOrdered.notArray (hp : IsOrdered p) (vs : List Value) : p.1 ≠ .array vs := by
  rcases hp.kind with ⟨_, h⟩ | ⟨_, h⟩ | ⟨_, h⟩ <;> (rw [h]; exact fun h => by cases h)

/-- What falls back to the text that an operand was inferred from is equal to the operand exactly
    if it is that text. -/
theorem isLiteral_eq_orderByLiteral (v : Value) (literal : Option String) :
    isLiteral v literal = (orderByLiteral v literal).any Ordering.isEq := by
  cases v with
  | text s =>
    cases literal with
    | none => rfl
    | some l => exact (isEq_compare_text s l).symm
  | _ => rfl

/-- A value is equal to an operand exactly if it is neither before nor after it in their order. -/
theorem scalarEquals_eq_order? (hv : v.IsScalar) (hp : IsOrdered p) :
    scalarEquals v p.1 p.2 =
      order? v p.1 (p.2.map .text) >>= fun o => pure (o.any Ordering.isEq) := by
  obtain ⟨operand, literal⟩ := p
  obtain ⟨⟨hint, given, hread⟩, hkind, hnan⟩ := hp
  -- What is left where the two are of different kinds.
  have fallback (hne : scalarEquals v operand literal = .ok (isLiteral v literal))
      (ho : order? v operand (literal.map .text) = .ok (orderByLiteral v literal)) :
      scalarEquals v operand literal =
        order? v operand (literal.map .text) >>= fun o => pure (o.any Ordering.isEq) := by
    rw [hne, ho, isLiteral_eq_orderByLiteral]
    rfl
  rcases hkind with ⟨b, rfl⟩ | ⟨t, rfl⟩ | ⟨u, rfl⟩
  · cases v with
    | null => rfl
    | number a =>
      obtain ⟨o, ho⟩ := Number.exists_compare? hv.notNaN hnan
      change Except.ok (a.same b) = .ok ((some ((a.compare? b).getD .eq)).any Ordering.isEq)
      rw [Number.same, ho]
      cases o <;> rfl
    | _ => exact fallback rfl (by cases literal <;> rfl)
  · -- A text is only meant as itself.
    obtain rfl : literal = none := gives_coerce hint given _ hread t rfl
    cases v with
    | null => rfl
    | text s =>
      change Except.ok ((s == t) || false) = .ok (compare s t).isEq
      rw [Bool.or_false, isEq_compare_text]
    | _ => rfl
  · by_cases hnull : v = .null
    · subst hnull
      rfl
    · rw [scalarEquals_instant, order?_moment hnull]
      rcases instantOf v with f | _ | t
      · rfl
      · exact congrArg Except.ok (isLiteral_eq_orderByLiteral v literal)
      · exact congrArg Except.ok (t.isEq_compare u).symm

/-- A value stands to an operand in an order that a test holds of. -/
def Value.Stands (test : Ordering → Bool) (v : Value) (p : Value × Option String) : Prop :=
  ∃ o, order? v p.1 (p.2.map .text) = .ok (some o) ∧ test o = true

theorem Value.stands_or {test test' : Ordering → Bool} :
    v.Stands (fun o => test o || test' o) p ↔ v.Stands test p ∨ v.Stands test' p := by
  constructor
  · rintro ⟨o, ho, h⟩
    exact (Bool.or_eq_true_iff.1 h).imp (fun h => ⟨o, ho, h⟩) fun h => ⟨o, ho, h⟩
  · rintro (⟨o, ho, h⟩ | ⟨o, ho, h⟩)
    · exact ⟨o, ho, Bool.or_eq_true_iff.2 (.inl h)⟩
    · exact ⟨o, ho, Bool.or_eq_true_iff.2 (.inr h)⟩

/-- A value stands to an operand in one order. -/
theorem Value.not_stands_and {test test' : Ordering → Bool} (h : ∀ o, (test o && test' o) = false) :
    ¬ (v.Stands test p ∧ v.Stands test' p) := by
  rintro ⟨⟨o, ho, ht⟩, o', ho', ht'⟩
  cases ho.symm.trans ho'
  exact absurd (h o) (by rw [ht, ht']; decide)

theorem passes_order {test : Ordering → Bool} :
    (order? v p.1 (p.2.map .text) >>= fun o => pure ((o.map test).getD false)) = .ok true ↔
      v.Stands test p := by
  rw [bind_eq_ok]
  constructor
  · rintro ⟨o?, ho, h⟩
    cases o? with
    | none => cases h
    | some o => exact ⟨o, ho, Except.ok.inj h⟩
  · rintro ⟨o, ho, h⟩
    exact ⟨some o, ho, congrArg Except.ok h⟩

theorem scalarEquals_iff_stands (hv : v.IsScalar) (hp : IsOrdered p) :
    scalarEquals v p.1 p.2 = .ok true ↔ v.Stands Ordering.isEq p := by
  rw [scalarEquals_eq_order? hv hp, ← passes_order]
  refine Eq.congr_left (bind_congr fun o => ?_)
  cases o <;> rfl

theorem within_iff_stands {a b : Value × Option String} :
    within v a.1 b.1 a.2 b.2 = .ok true ↔ v.Stands Ordering.isGE a ∧ v.Stands Ordering.isLE b := by
  rw [within, bind_eq_ok]
  constructor
  · rintro ⟨above, habove, h⟩
    obtain ⟨below, hbelow, h⟩ := bind_eq_ok.1 h
    cases above with
    | none => cases h
    | some above =>
      cases below with
      | none => cases h
      | some below =>
        obtain ⟨ha, hb⟩ := Bool.and_eq_true_iff.1 (Except.ok.inj h)
        exact ⟨⟨above, habove, ha⟩, below, hbelow, hb⟩
  · rintro ⟨⟨above, habove, ha⟩, below, hbelow, hb⟩
    refine ⟨some above, habove, bind_eq_ok.2 ⟨some below, hbelow, ?_⟩⟩
    exact congrArg Except.ok (Bool.and_eq_true_iff.2 ⟨ha, hb⟩)

/-- Every value is that at a path of some document. -/
theorem Value.exists_path? (path : String) (v : Value) :
    ∃ doc : Value, doc.path? path = some v := by
  have leads (steps : List String) : ∃ doc : Value, doc.resolve steps = some v := by
    induction steps with
    | nil => exact ⟨v, by rw [Value.resolve]⟩
    | cons step steps ih =>
      obtain ⟨inner, hinner⟩ := ih
      exact ⟨.object [(step, inner)], by
        rw [Value.resolve, Value.resolveMember, if_pos rfl, hinner]⟩
  exact leads (pathSteps path)

theorem Value.items_of_isScalar (hv : v.IsScalar) : v.items = [v] := by
  cases v with
  | array vs => exact absurd rfl (hv.notArray vs)
  | _ => rfl

/-! ## Leaves -/

namespace Leaf

/-- The leaf that compares a field with one operand. -/
def on (path : String) (operator : Operator) (p : Value × Option String) : Leaf :=
  { path, operator, operand := p.1, literal := p.2.map .text }

/-- The leaf that compares a field with several operands. It has literals if one of them has. -/
def onEach (path : String) (operator : Operator) (ps : List (Value × Option String)) : Leaf :=
  { path, operator, operand := .array (ps.map Prod.fst),
    literal := if (ps.map Prod.snd).all Option.isNone then none
      else some (.each (ps.map Prod.snd)) }

/-- A document matches a leaf. -/
def Matches (l : Leaf) (doc : Value) : Prop := l.holds doc = .ok true

variable {path : String} {operator : Operator} {ps : List (Value × Option String)} {l : Leaf}

theorem read_on (hop : operator ∈ [.eq, .neq, .gt, .gte, .lt, .lte]) (path : String)
    (hint given : Value) :
    Leaf.read path hint operator given = (coerce hint given).map (on path operator) := by
  unfold Leaf.read
  cases operator with
  | eq | neq | gt | gte | lt | lte =>
    dsimp only
    cases coerce hint given <;> rfl
  | _ => exact absurd hop (by decide)

theorem coerceEach_eq (hint : Value) (vs : List Value) (path : String) (operator : Operator) :
    (coerceEach hint vs >>= fun r =>
      pure { path, operator, operand := r.1, literal := r.2 }) =
      (vs.mapM (coerce hint)).map (onEach path operator) := by
  rw [coerceEach]
  cases vs.mapM (coerce hint) <;> rfl

theorem read_onEach (hop : operator ∈ [.inq, .nin]) (path : String) (hint given : Value) :
    Leaf.read path hint operator given =
      ((operandsOf given).mapM (coerce hint)).map (onEach path operator) := by
  unfold Leaf.read
  cases operator with
  | inq | nin => exact coerceEach_eq hint _ path _
  | _ => exact absurd hop (by decide)

theorem read_between (path : String) (hint : Value) {given : Value}
    (hends : (operandsOf given).length = 2) :
    Leaf.read path hint .between given =
      ((operandsOf given).mapM (coerce hint)).map (onEach path .between) := by
  unfold Leaf.read
  dsimp only
  rw [if_neg (not_not_intro hends)]
  exact coerceEach_eq hint _ path _

theorem text?_on : (on path operator p).text? = p.2 := by
  rw [on, text?]
  cases p.2 <;> rfl

theorem literalsOf_onEach : literalsOf (onEach path operator ps).literal ps.length =
    ps.map Prod.snd := by
  rw [onEach]
  dsimp only
  split
  · next h =>
    refine (List.eq_replicate_iff.2 ⟨List.length_map _, fun literal hl => ?_⟩).symm
    exact Option.isNone_iff_eq_none.1 (List.all_eq_true.1 h literal hl)
  · rw [literalsOf]
    cases ps with
    | nil => rfl
    | cons p ps => rfl

theorem members_onEach : (onEach path operator ps).members = ps := by
  rw [members]
  change (ps.map Prod.fst).zip (literalsOf (onEach path operator ps).literal
    (ps.map Prod.fst).length) = ps
  rw [List.length_map, literalsOf_onEach]
  exact (List.zip_of_prod rfl rfl).symm

/-- The leaf is met by a field that passes its test or, if this is an array, has an item that
    does. -/
structure Itemwise (l : Leaf) : Prop where
  apt : l.Apt
  notNegated : l.operator.negated = false
  notWhole : l.testsWhole = false

theorem Itemwise.holds_eq (h : l.Itemwise) (doc : Value) :
    l.holds doc = (Value.orNull (doc.path? l.path)).items.anyM l.test := by
  have hop : l.operator ≠ .present := by
    intro hop
    have hwhole := h.notWhole
    rw [testsWhole, hop] at hwhole
    cases hwhole
  rw [holds_eq_anyM h.apt hop, candidates, h.notWhole, if_neg Bool.false_ne_true, h.notNegated]
  rcases List.anyM l.test _ with f | _ | _ <;> rfl

theorem itemwise_on (hop : operator ∈ [.eq, .gt, .gte, .lt, .lte]) (hnull : p.1 ≠ .null)
    (harray : ∀ vs, p.1 ≠ .array vs) : (on path operator p).Itemwise where
  apt := {
    order _ := by rw [text?_on]; rfl
    ends h := by
      obtain rfl : operator = .between := h
      exact absurd hop (by decide)
    several h := by
      rcases h with h | h
      · obtain rfl : operator = .inq := h
        exact absurd hop (by decide)
      · obtain rfl : operator = .nin := h
        exact absurd hop (by decide)
    pattern h := by
      obtain rfl : operator = .regexp := h
      exact absurd hop (by decide) }
  notNegated := by
    change operator.negated = false
    cases operator with
    | eq | gt | gte | lt | lte => rfl
    | _ => exact absurd hop (by decide)
  notWhole := by
    obtain ⟨operand, literal⟩ := p
    cases operator with
    | eq =>
      cases operand with
      | null => exact absurd rfl hnull
      | array vs => exact absurd rfl (harray vs)
      | _ => rfl
    | gt | gte | lt | lte => rfl
    | _ => exact absurd hop (by decide)

theorem itemwise_inq : (onEach path .inq ps).Itemwise where
  apt := ⟨fun h => by simp [onEach] at h, fun h => (by cases h), fun _ => ⟨_, rfl⟩,
    fun h => (by cases h)⟩
  notNegated := rfl
  notWhole := rfl

theorem itemwise_between (a b : Value × Option String) :
    (onEach path .between [a, b]).Itemwise where
  apt := ⟨fun h => by simp [onEach] at h,
    fun _ => ⟨a.1, b.1, a.2, b.2, rfl, literalsOf_onEach⟩,
    fun h => by simp [onEach] at h, fun h => (by cases h)⟩
  notNegated := rfl
  notWhole := rfl

theorem test_order (hop : operator ∈ [.gt, .gte, .lt, .lte]) (v : Value) :
    (on path operator p).test v =
      order? v p.1 (p.2.map .text) >>= fun o => pure ((o.map operator.allows).getD false) := by
  rw [test]
  cases operator with
  | gt | gte | lt | lte => rfl
  | _ => exact absurd hop (by decide)

theorem test_equal (harray : ∀ vs, p.1 ≠ .array vs) (v : Value) :
    (on path .eq p).test v = scalarEquals v p.1 p.2 := by
  rw [test, text?_on]
  obtain ⟨operand, literal⟩ := p
  cases operand with
  | array vs => exact absurd rfl (harray vs)
  | _ => rfl

theorem test_between (a b : Value × Option String) (v : Value) :
    (onEach path .between [a, b]).test v = within v a.1 b.1 a.2 b.2 := by
  rw [test, members_onEach]
  rfl

theorem test_inq (v : Value) :
    (onEach path .inq ps).test v = ps.anyM fun p => scalarEquals v p.1 p.2 := by
  rw [test, members_onEach]
  rfl

/-! ### Documents -/

namespace Itemwise

/-- A field with one value matches if this passes the test. -/
theorem holds_scalar (h : l.Itemwise) {doc : Value}
    (hv : (Value.orNull (doc.path? l.path)).IsScalar) :
    l.holds doc = l.test (Value.orNull (doc.path? l.path)) := by
  rw [h.holds_eq, items_of_isScalar hv, anyM_singleton]

/-- A field with an array matches, if there is an answer, where one of the items would. -/
theorem matches_items (h : l.Itemwise) {doc : Value} {vs : List Value}
    (hdoc : Value.orNull (doc.path? l.path) = .array vs) (hvs : ∀ v ∈ vs, v.IsScalar)
    (hanswer : ∃ answer, l.holds doc = .ok answer) :
    l.Matches doc ↔
      ∃ v ∈ vs, ∀ d : Value, Value.orNull (d.path? l.path) = v → l.Matches d := by
  obtain ⟨answer, hanswer⟩ := hanswer
  have hany : vs.anyM l.test = .ok answer := by rw [← hanswer, h.holds_eq, hdoc, Value.items]
  have passes {v : Value} (hv : v ∈ vs) : (∀ d : Value, Value.orNull (d.path? l.path) = v →
      l.Matches d) ↔ l.test v = .ok true := by
    constructor
    · intro hd
      obtain ⟨d, hpath⟩ := Value.exists_path? l.path v
      have hfield : Value.orNull (d.path? l.path) = v := by rw [hpath]; rfl
      have ht := hd d hfield
      rwa [Matches, h.holds_scalar (hfield ▸ hvs v hv), hfield] at ht
    · rintro ht d rfl
      exact (h.holds_scalar (hvs _ hv)).trans ht
  rw [Matches, hanswer]
  constructor
  · intro htrue
    obtain ⟨v, hv, ht⟩ := Condition.exists_of_anyM (hany.trans htrue)
    exact ⟨v, hv, (passes hv).2 ht⟩
  · rintro ⟨v, hv, hd⟩
    exact congrArg Except.ok (Condition.eq_true_of_anyM hany hv ((passes hv).1 hd))

end Itemwise

section Scalar

variable {a b : Value × Option String} {doc : Value}

theorem matches_order (hop : operator ∈ [.gt, .gte, .lt, .lte]) (hp : IsOrdered p)
    (hv : (Value.orNull (doc.path? path)).IsScalar) :
    (on path operator p).Matches doc ↔
      (Value.orNull (doc.path? path)).Stands operator.allows p := by
  rw [Matches, (itemwise_on (List.mem_cons_of_mem _ hop) hp.notNull hp.notArray).holds_scalar hv,
    test_order hop]
  exact passes_order

theorem matches_equal (hp : IsOrdered p) (hv : (Value.orNull (doc.path? path)).IsScalar) :
    (on path .eq p).Matches doc ↔ (Value.orNull (doc.path? path)).Stands Ordering.isEq p := by
  rw [Matches, (itemwise_on (by decide) hp.notNull hp.notArray).holds_scalar hv,
    test_equal hp.notArray]
  exact scalarEquals_iff_stands hv hp

/-- An order that takes in equality holds where the strict one does or the field is equal. -/
theorem matches_or_equal {strict : Operator} (hop : operator ∈ [.gt, .gte, .lt, .lte])
    (hstrict : strict ∈ [.gt, .gte, .lt, .lte])
    (h : ∀ o, operator.allows o = (strict.allows o || o.isEq)) (hp : IsOrdered p)
    (hv : (Value.orNull (doc.path? path)).IsScalar) :
    (on path operator p).Matches doc ↔
      (on path strict p).Matches doc ∨ (on path .eq p).Matches doc := by
  rw [matches_order hop hp hv, matches_order hstrict hp hv, matches_equal hp hv,
    ← Value.stands_or, funext h]

theorem matches_between (hv : (Value.orNull (doc.path? path)).IsScalar) :
    (onEach path .between [a, b]).Matches doc ↔
      (Value.orNull (doc.path? path)).Stands Ordering.isGE a ∧
        (Value.orNull (doc.path? path)).Stands Ordering.isLE b := by
  rw [Matches, (itemwise_between a b).holds_scalar hv, test_between]
  exact within_iff_stands

theorem matches_inq (hps : ∀ p ∈ ps, IsOrdered p) (hv : (Value.orNull (doc.path? path)).IsScalar)
    (hanswer : ∃ answer, (onEach path .inq ps).holds doc = .ok answer) :
    (onEach path .inq ps).Matches doc ↔ ∃ p ∈ ps, (on path .eq p).Matches doc := by
  obtain ⟨answer, hanswer⟩ := hanswer
  have hany : ps.anyM (fun p => scalarEquals (Value.orNull (doc.path? path)) p.1 p.2) =
      .ok answer := by
    rw [← hanswer, itemwise_inq.holds_scalar hv, test_inq]
    rfl
  have one {p : Value × Option String} (hp : p ∈ ps) : (on path .eq p).Matches doc ↔
      scalarEquals (Value.orNull (doc.path? path)) p.1 p.2 = .ok true :=
    (matches_equal (hps p hp) hv).trans (scalarEquals_iff_stands hv (hps p hp)).symm
  rw [Matches, hanswer]
  constructor
  · intro htrue
    obtain ⟨p, hp, hequal⟩ := Condition.exists_of_anyM (hany.trans htrue)
    exact ⟨p, hp, (one hp).2 hequal⟩
  · rintro ⟨p, hp, hmatches⟩
    exact congrArg Except.ok (Condition.eq_true_of_anyM hany hp ((one hp).1 hmatches))

/-- The comparisons of a field with operands say the same of how they stand to it. -/
structure Coheres (path : String) (a b : Value × Option String)
    (ps : List (Value × Option String)) (doc : Value) : Prop where
  not_lt_and_eq : ¬ ((on path .lt a).Matches doc ∧ (on path .eq a).Matches doc)
  not_lt_and_gt : ¬ ((on path .lt a).Matches doc ∧ (on path .gt a).Matches doc)
  not_eq_and_gt : ¬ ((on path .eq a).Matches doc ∧ (on path .gt a).Matches doc)
  gte : (on path .gte a).Matches doc ↔
    (on path .gt a).Matches doc ∨ (on path .eq a).Matches doc
  lte : (on path .lte a).Matches doc ↔
    (on path .lt a).Matches doc ∨ (on path .eq a).Matches doc
  between : (onEach path .between [a, b]).Matches doc ↔
    (on path .gte a).Matches doc ∧ (on path .lte b).Matches doc
  inq : (∃ answer, (onEach path .inq ps).holds doc = .ok answer) →
    ((onEach path .inq ps).Matches doc ↔ ∃ p ∈ ps, (on path .eq p).Matches doc)

/-- The comparisons of a field with operands, other than the negated ones. -/
def comparisons (path : String) (a b : Value × Option String)
    (ps : List (Value × Option String)) : List Leaf :=
  [on path .eq a, on path .gt a, on path .gte a, on path .lt a, on path .lte a,
    onEach path .between [a, b], onEach path .inq ps]

theorem itemwise_of_mem_comparisons {a b : Value × Option String} (ha : IsOrdered a)
    (hl : l ∈ comparisons path a b ps) : l.Itemwise ∧ l.path = path := by
  have one {operator : Operator} (hop : operator ∈ [.eq, .gt, .gte, .lt, .lte]) :
      (on path operator a).Itemwise ∧ (on path operator a).path = path :=
    ⟨itemwise_on hop ha.notNull ha.notArray, rfl⟩
  simp only [comparisons, List.mem_cons, List.not_mem_nil, or_false] at hl
  rcases hl with rfl | rfl | rfl | rfl | rfl | rfl | rfl
  · exact one (by decide)
  · exact one (by decide)
  · exact one (by decide)
  · exact one (by decide)
  · exact one (by decide)
  · exact ⟨itemwise_between a b, rfl⟩
  · exact ⟨itemwise_inq, rfl⟩

theorem coheres (ha : IsOrdered a) (hb : IsOrdered b) (hps : ∀ p ∈ ps, IsOrdered p)
    (hv : (Value.orNull (doc.path? path)).IsScalar) : Coheres path a b ps doc where
  not_lt_and_eq := by
    rw [matches_order (by decide) ha hv, matches_equal ha hv]
    exact Value.not_stands_and fun o => by cases o <;> rfl
  not_lt_and_gt := by
    rw [matches_order (by decide) ha hv, matches_order (by decide) ha hv]
    exact Value.not_stands_and fun o => by cases o <;> rfl
  not_eq_and_gt := by
    rw [matches_equal ha hv, matches_order (by decide) ha hv]
    exact Value.not_stands_and fun o => by cases o <;> rfl
  gte := matches_or_equal (by decide) (by decide) (fun o => by cases o <;> rfl) ha hv
  lte := matches_or_equal (by decide) (by decide) (fun o => by cases o <;> rfl) ha hv
  between := by
    rw [matches_between hv, matches_order (by decide) ha hv, matches_order (by decide) hb hv]
    rfl
  inq := matches_inq hps hv

end Scalar

/-- The comparisons of a field that has one value cohere, and a field with an array of such values
    matches one of them, if there is an answer, exactly where one of its items does. -/
theorem comparisons_cohere (path : String) {a b : Value × Option String}
    {ps : List (Value × Option String)} (ha : IsOrdered a) (hb : IsOrdered b)
    (hps : ∀ p ∈ ps, IsOrdered p) :
    (∀ doc : Value, (Value.orNull (doc.path? path)).IsScalar → Coheres path a b ps doc) ∧
      ∀ l ∈ comparisons path a b ps, ∀ (doc : Value) (vs : List Value),
        Value.orNull (doc.path? path) = .array vs → (∀ v ∈ vs, v.IsScalar) →
        (∃ answer, l.holds doc = .ok answer) →
        (l.Matches doc ↔
          ∃ v ∈ vs, ∀ d : Value, Value.orNull (d.path? path) = v → l.Matches d) := by
  refine ⟨fun doc hv => coheres ha hb hps hv, fun l hl doc vs hdoc hvs hanswer => ?_⟩
  obtain ⟨hitemwise, rfl⟩ := itemwise_of_mem_comparisons ha hl
  exact hitemwise.matches_items hdoc hvs hanswer

/-- Five and seven written as texts, and a text that is no number: how the text five, and an array
    of a text and a number, compare with them. -/
theorem comparisons_cohere_numerals :
    let five := (Value.int 5, some "5")
    let seven := (Value.int 7, some "7")
    let x := (Value.text "x", (none : Option String))
    IsOrdered five ∧ IsOrdered seven ∧ (∀ p ∈ [x, five], IsOrdered p) ∧
      Coheres "f" five seven [x, five] (.object [("f", .text "5")]) ∧
      ((on "f" .eq five).Matches (.object [("f", .array [.text "x", .int 5])]) ↔
        ∃ v ∈ [Value.text "x", .int 5], ∀ d : Value, Value.orNull (d.path? "f") = v →
          (on "f" .eq five).Matches d) := by
  intro five seven x
  have hfive : IsOrdered five := ⟨⟨.null, .text "5", rfl⟩, .inl ⟨_, rfl⟩, rfl⟩
  have hseven : IsOrdered seven := ⟨⟨.null, .text "7", rfl⟩, .inl ⟨_, rfl⟩, rfl⟩
  have hx : IsOrdered x := ⟨⟨.null, .text "x", rfl⟩, .inr (.inl ⟨_, rfl⟩), rfl⟩
  have hps : ∀ p ∈ [x, five], IsOrdered p :=
    List.forall_mem_cons.2 ⟨hx, List.forall_mem_singleton.2 hfive⟩
  have text (s : String) : (Value.text s).IsScalar := ⟨fun _ h => (by cases h), rfl⟩
  have items : ∀ v ∈ [Value.text "x", .int 5], v.IsScalar :=
    List.forall_mem_cons.2 ⟨text "x", List.forall_mem_singleton.2 ⟨fun _ h => (by cases h), rfl⟩⟩
  obtain ⟨hscalar, harray⟩ := comparisons_cohere "f" hfive hseven hps
  exact ⟨hfive, hseven, hps, hscalar _ (text "5"),
    harray _ List.mem_cons_self _ _ rfl items ⟨true, by decide +kernel⟩⟩

end Leaf

end Catalog
