import Catalog.Proofs.Query.Inference
import Catalog.Proofs.Query.Leaves
import Catalog.Proofs.Query.Testing
import Mathlib.Data.List.Basic

/-!
# When matching gives an answer

Conditions are accepted from three sides: they are read from a filter, stand for a set, or say who
may read a record (`Condition.Accepted`). In all of them the operands suit their operators
(`Condition.Accepted.apt`), so that only texts outside the calendar are in the way of an answer.
Which of them matching comes to depends on what it asks before, so that a condition *stumbles*
(`Condition.Stumbles`) in the order in which its members are asked.

Matching gives an answer exactly if it does not stumble (`Condition.Accepted.answers`). It never
does over a document without texts outside the calendar (`Condition.Stumbles.contains`).
-/

namespace Catalog

/-! ## Texts in values -/

namespace Value

/-- A text stands somewhere in a value. -/
inductive Contains (s : String) : Value → Prop where
  | text : Contains s (.text s)
  | item {items : List Value} {v : Value} (hv : v ∈ items) (h : Contains s v) :
      Contains s (.array items)
  | member {members : Document} {m : String × Value} (hm : m ∈ members) (h : Contains s m.2) :
      Contains s (.object members)

variable {s : String}

/-- What stands in a contribution to an array stands in what contributed it. -/
theorem Contains.of_contribution {found : Option Value} {w : Value}
    (hw : w ∈ contribution found) (h : Contains s w) : ∃ v, found = some v ∧ Contains s v := by
  unfold contribution at hw
  split at hw
  · exact absurd hw List.not_mem_nil
  · exact ⟨_, rfl, .item hw h⟩
  · cases List.mem_singleton.1 hw
    exact ⟨_, rfl, h⟩

mutual

/-- What stands in the value at a path stands in the value that the path is followed in. -/
theorem contains_of_resolve : ∀ (v : Value) (steps : List String) {w : Value},
    v.resolve steps = some w → Contains s w → Contains s v
  | v, [], w, h, hw => by
    rw [resolve] at h
    cases h
    exact hw
  | .object members, step :: steps, w, h, hw => by
    rw [resolve] at h
    obtain ⟨m, hm, hs⟩ := contains_of_resolveMember members step steps h hw
    exact .member hm hs
  | .array items, step :: steps, w, h, hw => by
    rw [resolve, gathered] at h
    split at h
    · cases h
    · cases h
      cases hw with
      | item hu hs =>
        obtain ⟨v, hv, hs⟩ := contains_of_resolveItems items (step :: steps) hu hs
        exact .item hv hs
  | .null, _ :: _, _, h, _ | .bool _, _ :: _, _, h, _ | .number _, _ :: _, _, h, _
  | .text _, _ :: _, _, h, _ | .instant _, _ :: _, _, h, _ => by
    unfold resolve at h
    cases h

theorem contains_of_resolveMember : ∀ (members : Document) (step : String) (steps : List String)
    {w : Value}, resolveMember members step steps = some w → Contains s w →
      ∃ m ∈ members, Contains s m.2
  | [], step, steps, w, h, hw => by
    rw [resolveMember] at h
    cases h
  | (k, v) :: rest, step, steps, w, h, hw => by
    rw [resolveMember] at h
    split at h
    · exact ⟨(k, v), List.mem_cons_self, contains_of_resolve v steps h hw⟩
    · obtain ⟨m, hm, hs⟩ := contains_of_resolveMember rest step steps h hw
      exact ⟨m, List.mem_cons_of_mem _ hm, hs⟩

theorem contains_of_resolveItems : ∀ (items : List Value) (steps : List String) {w : Value},
    w ∈ resolveItems items steps → Contains s w → ∃ v ∈ items, Contains s v
  | [], steps, w, h, hw => by
    rw [resolveItems] at h
    exact absurd h List.not_mem_nil
  | v :: rest, steps, w, h, hw => by
    rw [resolveItems] at h
    rcases List.mem_append.1 h with h | h
    · obtain ⟨u, hu, hs⟩ := hw.of_contribution h
      exact ⟨v, List.mem_cons_self, contains_of_resolve v steps hu hs⟩
    · obtain ⟨v', hv', hs⟩ := contains_of_resolveItems rest steps h hw
      exact ⟨v', List.mem_cons_of_mem _ hv', hs⟩

end

end Value

/-- What stands in a candidate of a leaf stands in the document. -/
theorem Leaf.contains_of_candidates {l : Leaf} {doc v : Value} (hv : v ∈ l.candidates doc)
    {s : String} (hs : v.Contains s) : doc.Contains s := by
  have field (h : (Value.orNull (doc.path? l.path)).Contains s) : doc.Contains s := by
    cases hpath : doc.path? l.path with
    | none =>
      rw [hpath] at h
      cases h
    | some w =>
      rw [hpath] at h
      exact Value.contains_of_resolve doc _ hpath h
  rw [candidates] at hv
  split at hv
  · cases List.mem_singleton.1 hv
    exact field hs
  · cases hactual : Value.orNull (doc.path? l.path) with
    | array vs =>
      rw [hactual] at hv field
      exact field (.item hv hs)
    | _ =>
      rw [hactual] at hv field
      cases List.mem_singleton.1 hv
      exact field hs

/-! ## Conditions -/

namespace Condition

/-- A condition stumbles over a document: a leaf of it does that matching comes to, since all
    members of a conjunction before it are met, and none of a disjunction. -/
inductive Stumbles (doc : Value) : Condition → Prop where
  | leaf {l : Leaf} (h : l.Stumbles doc) : Stumbles doc (.leaf l)
  | and {before : List Condition} {c : Condition} {after : List Condition}
      (hbefore : ∀ b ∈ before, b.holds doc = .ok true) (h : Stumbles doc c) :
      Stumbles doc (.and (before ++ c :: after))
  | or {before : List Condition} {c : Condition} {after : List Condition}
      (hbefore : ∀ b ∈ before, b.holds doc = .ok false) (h : Stumbles doc c) :
      Stumbles doc (.or (before ++ c :: after))

theorem negated_eq_ok {x : Except Fault Bool} :
    (x >>= fun b => pure !b) = .ok false ↔ x = .ok true := by
  rcases x with f | _ | _
  · exact ⟨fun h => (by cases h), fun h => (by cases h)⟩
  · exact ⟨fun h => (by cases h), fun h => (by cases h)⟩
  · exact ⟨fun _ => rfl, fun _ => rfl⟩

theorem someHold_eq_anyM (cs : List Condition) (doc : Value) :
    someHold cs doc = cs.anyM fun c => c.holds doc := by
  induction cs with
  | nil => rfl
  | cons c cs ih =>
    rw [someHold, List.anyM, ih]
    rcases c.holds doc with f | _ | _ <;> rfl

/-- All members are met unless one of them is not. -/
theorem allHold_eq_anyM (cs : List Condition) (doc : Value) :
    allHold cs doc = (cs.anyM fun c => c.holds doc >>= fun b => pure !b) >>= fun b => pure !b := by
  induction cs with
  | nil => rfl
  | cons c cs ih =>
    rw [allHold, List.anyM, ih]
    rcases c.holds doc with f | _ | _ <;> rfl

/-- Matching gives no answer exactly if it stumbles. -/
theorem holds_eq_error {c : Condition} (hc : c.AllLeaves Leaf.Apt) {doc : Value} {f : Fault} :
    c.holds doc = .error f ↔ f = .outOfCalendar ∧ c.Stumbles doc := by
  induction hc with
  | always | never => exact ⟨fun h => (by cases h), fun h => (by cases h.2)⟩
  | leaf hl =>
    rw [holds, Leaf.holds_eq_error hl]
    refine and_congr_right fun _ => ⟨.leaf, fun h => ?_⟩
    cases h with
    | leaf h => exact h
  | @and cs _ ih =>
    rw [holds, allHold_eq_anyM, bind_pure_eq_error, anyM_eq_error]
    constructor
    · rintro ⟨before, c, after, rfl, hbefore, hc⟩
      obtain ⟨hf, hc⟩ := (ih c (by simp)).1 (bind_pure_eq_error.1 hc)
      exact ⟨hf, .and (fun b hb => negated_eq_ok.1 (hbefore b hb)) hc⟩
    · rintro ⟨hf, h⟩
      cases h with
      | and hbefore hc =>
        exact ⟨_, _, _, rfl, fun b hb => negated_eq_ok.2 (hbefore b hb),
          bind_pure_eq_error.2 ((ih _ (by simp)).2 ⟨hf, hc⟩)⟩
  | @or cs _ ih =>
    rw [holds, someHold_eq_anyM, anyM_eq_error]
    constructor
    · rintro ⟨before, c, after, rfl, hbefore, hc⟩
      obtain ⟨hf, hc⟩ := (ih c (by simp)).1 hc
      exact ⟨hf, .or hbefore hc⟩
    · rintro ⟨hf, h⟩
      cases h with
      | or hbefore hc => exact ⟨_, _, _, rfl, hbefore, (ih _ (by simp)).2 ⟨hf, hc⟩⟩

/-- Matching stumbles over no document but those with a text outside the calendar. -/
theorem Stumbles.contains {c : Condition} {doc : Value} (h : c.Stumbles doc) :
    ∃ s, doc.Contains s ∧ Timestamp.read s false = .outOfRange := by
  induction h with
  | leaf h =>
    obtain ⟨before, v, after, hsplit, -, ⟨s, rfl, hs⟩, -⟩ := h
    have hv : Value.text s ∈ Leaf.candidates _ doc :=
      hsplit ▸ List.mem_append_right before List.mem_cons_self
    exact ⟨s, Leaf.contains_of_candidates hv .text, hs⟩
  | and _ _ ih => exact ih
  | or _ _ ih => exact ih

end Condition

/-! ## Operands of accepted conditions -/

namespace Leaf

/-- Some operators can do with any operand. -/
theorem Apt.of_mem {path : String} {operator : Operator} {operand : Value}
    {literal : Option Literal}
    (h : operator ∈ [.eq, .neq, .like, .nlike, .ilike, .nilike, .present]) :
    Apt { path, operator, operand, literal } := by
  cases operator with
  | eq | neq | like | nlike | ilike | nilike | present =>
    constructor <;> exact fun h => by simp at h
  | _ => exact absurd h (by decide)

theorem Plain.apt {l : Leaf} (h : l.Plain) : l.Apt where
  order _ := by rw [text?, h.literal]; rfl
  ends hop := by
    obtain ⟨low, high, hends⟩ := h.ends hop
    exact ⟨low, high, none, none, hends, by rw [h.literal]; rfl⟩
  several hop := by
    rcases hop with hop | hop
    · exact h.array hop
    · exact absurd h.operator (by rw [hop]; decide)
  pattern hop := absurd h.operator (by rw [hop]; decide)

theorem apt_readPattern (path : String) {operator : Operator} (v : Value)
    (hop : operator ∈ [.like, .nlike, .ilike, .nilike, .regexp]) :
    Gives Apt (readPattern path operator v) := by
  unfold readPattern
  split
  · next s =>
    split
    · next hregexp =>
      subst hregexp
      split
      · next p hp =>
        exact .ok ⟨fun h => by simp at h, fun h => (by cases h), fun h => by simp at h,
          fun _ => ⟨s, p, rfl, hp⟩⟩
      · exact .error _
      · exact .error _
    · next hne =>
      refine .ok (.of_mem ?_)
      cases operator with
      | regexp => exact absurd rfl hne
      | like | nlike | ilike | nilike => decide
      | _ => exact absurd hop (by decide)
  · exact .error _

/-- Several operands that are read are as many as were given, and so are their literals. -/
theorem gives_coerceEach_length (hint : Value) (vs : List Value) :
    Gives (fun p => ∃ items, p.1 = .array items ∧ items.length = vs.length ∧
      (literalsOf p.2 vs.length).length = vs.length) (coerceEach hint vs) := by
  intro p h
  obtain ⟨pairs, hpairs, h⟩ := bind_eq_ok.1 h
  cases h
  obtain ⟨g, -, rfl⟩ := exists_map_of_mapM hpairs
  refine ⟨_, rfl, by simp, ?_⟩
  dsimp only
  split
  · exact List.length_replicate
  · rw [literalsOf]
    split
    · exact List.length_replicate
    · simp

theorem apt_read (path : String) (hint : Value) (operator : Operator) (v : Value) :
    Gives Apt (Leaf.read path hint operator v) := by
  cases operator with
  | eq | neq => exact .bind_of_any fun p => .ok (.of_mem (by decide))
  | gt | gte | lt | lte =>
    refine .bind_of_any fun p => .ok ⟨fun _ => ?_, fun h => (by cases h), fun h => by simp at h,
      fun h => (by cases h)⟩
    cases p.2 <;> rfl
  | inq | nin =>
    exact (gives_coerceEach hint _).bind fun p hp => .ok ⟨fun h => by simp at h,
      fun h => (by cases h), fun _ => hp, fun h => (by cases h)⟩
  | between =>
    rw [Leaf.read]
    dsimp only
    split
    · exact Gives.bind (P := fun _ => False) (.error _) fun _ h => h.elim
    · next hlength =>
      refine (gives_coerceEach_length hint _).bind fun p hp => .ok ?_
      rw [Decidable.not_not.1 hlength] at hp
      obtain ⟨items, hitems, hcount, htexts⟩ := hp
      obtain ⟨low, high, rfl⟩ := List.length_eq_two.1 hcount
      obtain ⟨lowText, highText, htexts⟩ := List.length_eq_two.1 htexts
      exact ⟨fun h => by simp at h, fun _ => ⟨low, high, lowText, highText, hitems, htexts⟩,
        fun h => by simp at h, fun h => (by cases h)⟩
  | present => exact .ok (.of_mem (by decide))
  | like | nlike | ilike | nilike | regexp => exact apt_readPattern path v (by decide)

theorem Apt.hasOnReading : HasOnReading Apt where
  operator := apt_read
  items _ _ := fun _ _ => .of_mem (by decide)
  value _ _ := fun _ _ => .of_mem (by decide)

end Leaf

namespace Condition

/-- The conditions that the catalogue matches documents with: those that are read, those of sets at
    an instant, and those that say who may read a record. -/
inductive Accepted : Condition → Prop where
  | read {v : Value} {c : Condition} (h : Condition.read v = .ok c) : Accepted c
  | set {now : Moment} {set : Option SetExpr} {c : Condition}
      (h : SetExpr.conditionOf now set = .ok c) : Accepted c
  | access (r : Requester) (enabled hasAccessFields : Bool) :
      Accepted (r.predicate enabled hasAccessFields)

/-- The operands of an accepted condition suit their operators. -/
theorem Accepted.apt {c : Condition} (hc : c.Accepted) : c.AllLeaves Leaf.Apt := by
  cases hc with
  | read h => exact gives_conditionRead_of Leaf.Apt.hasOnReading _ _ h
  | set h => exact (SetExpr.gives_plain _ _ _ h).mono fun _ => Leaf.Plain.apt
  | access r enabled hasAccessFields =>
    exact (r.allLeaves_plain enabled hasAccessFields).mono fun _ => Leaf.Plain.apt

/-- An accepted condition has an answer for every document that matching does not stumble over.
    Where it does, it gives up for an instant outside the calendar, and the document has a text that
    writes one. Other values that cannot be interpreted for the operator of a leaf do not match. -/
theorem Accepted.answers {c : Condition} (hc : c.Accepted) (doc : Value) :
    ((∃ b, c.holds doc = .ok b) ↔ ¬ c.Stumbles doc) ∧
      (∀ f, c.holds doc = .error f ↔ f = .outOfCalendar ∧ c.Stumbles doc) ∧
      (c.Stumbles doc → ∃ s, doc.Contains s ∧ Timestamp.read s false = .outOfRange) ∧
      c.AllLeaves fun l =>
        (∀ v ∈ l.candidates doc, ¬ l.Interprets v ∧ ¬ l.StumblesAt v) →
          l.holds doc = .ok l.operator.negated := by
  refine ⟨?_, fun f => holds_eq_error hc.apt, Stumbles.contains,
    hc.apt.mono fun l hl => l.holds_uninterpreted hl⟩
  cases hdoc : c.holds doc with
  | ok b =>
    refine ⟨fun _ h => ?_, fun _ => ⟨b, rfl⟩⟩
    cases hdoc.symm.trans ((holds_eq_error hc.apt).2 ⟨rfl, h⟩)
  | error f =>
    refine ⟨?_, fun h => absurd ((holds_eq_error hc.apt).1 hdoc).2 h⟩
    rintro ⟨_, ⟨⟩⟩

/-- A condition on a field to be the beginning of a year. -/
theorem read_newYear : ∃ t : Moment,
    Condition.read (.object [("at", .text "2024-01-01T00:00:00Z")]) = .ok (.leaf
      { path := "at", operator := .eq, operand := .instant t,
        literal := some (.text "2024-01-01T00:00:00Z") }) := by
  have hread : (Timestamp.read "2024-01-01T00:00:00Z" false).instant?.isSome = true := by
    decide
  cases hi : Timestamp.read "2024-01-01T00:00:00Z" false with
  | instant i =>
    refine ⟨.ofInstant i, ?_⟩
    rw [read_text (by decide), inferText, if_neg (by decide), if_neg (by decide),
      if_pos (by decide), instantOfText, hi]
    rfl
  | malformed | outOfRange =>
    rw [hi] at hread
    cases hread

/-- A document with a text off the calendar leaves such a condition without an answer. -/
theorem not_answered_offCalendar : ∃ c,
    Condition.read (.object [("at", .text "2024-01-01T00:00:00Z")]) = .ok c ∧
      ¬ ∃ b, c.holds (.object [("at", .text "0001-01-01T00:00:00+05:00")]) = .ok b := by
  obtain ⟨t, hread⟩ := read_newYear
  have off : Timestamp.read "0001-01-01T00:00:00+05:00" false = .outOfRange := by decide
  have stumbles : scalarEquals (.text "0001-01-01T00:00:00+05:00") (.instant t)
      (some "2024-01-01T00:00:00Z") = .error .outOfCalendar :=
    scalarEquals_eq_error.2 ⟨rfl, ⟨_, rfl, off⟩, t, rfl⟩
  have dotless : '.' ∉ "at".toList := by decide
  refine ⟨_, hread, ?_⟩
  rintro ⟨b, hb⟩
  rw [holds, Leaf.holds, Document.path?_key dotless] at hb
  cases stumbles.symm.trans hb

/-- A mere text has an answer from the same condition, which stumbles over the text off the
    calendar. -/
theorem Accepted.answers_newYear : ∃ c,
    Condition.read (.object [("at", .text "2024-01-01T00:00:00Z")]) = .ok c ∧
      (∃ b, c.holds (.object [("at", .text "soon")]) = .ok b) ∧
      ∀ f, c.holds (.object [("at", .text "0001-01-01T00:00:00+05:00")]) = .error f ↔
        f = .outOfCalendar ∧ c.Stumbles (.object [("at", .text "0001-01-01T00:00:00+05:00")]) := by
  obtain ⟨t, hread⟩ := read_newYear
  refine ⟨_, hread, (answers (.read hread) _).1.2 fun h => ?_, (answers (.read hread) _).2.1⟩
  cases h with
  | leaf h =>
    obtain ⟨before, v, after, hsplit, -, ⟨s, rfl, hs⟩, -⟩ := h
    have dotless : '.' ∉ "at".toList := by decide
    rw [Leaf.candidates, Document.path?_key dotless] at hsplit
    replace hsplit : [Value.text "soon"] = before ++ .text s :: after := hsplit
    have hmem : Value.text s ∈ [Value.text "soon"] := by
      rw [hsplit]
      exact List.mem_append_right before List.mem_cons_self
    cases List.mem_singleton.1 hmem
    exact absurd hs (by decide)

end Condition

end Catalog
