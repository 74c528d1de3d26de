import Catalog.Proofs.Query.Answers
import Mathlib.Data.List.Forall2

/-!
# Normal form and meaning of conditions

Conjunctions and disjunctions are simplified as they are built. What comes out is in normal form
(`Condition.Normal`): `always` and `never` stand alone, every conjunction and disjunction has two
members or more, and none is a member of one of its own kind.

Whether a condition is true depends on which leaves hold (`Condition.TrueIn`); simplification does
not change it (`trueIn_conj`, `trueIn_disj`). Matching a document finds whether a condition is true
of it, unless a leaf has no answer (`holds_eq_true`, `Condition.Means`).

A condition *stands for* a statement (`Condition.StandsFor`) if it is in normal form, and true
exactly if the statement is. Conjunctions and disjunctions of such conditions stand for all or some
of the statements (`StandsFor.conj`, `Alternatives.disj`).
-/

namespace Catalog

namespace Condition

/-! ## Normal form -/

/-- A condition of leaves alone under connectives of two members or more, none of which is a member
    of one of its own kind. -/
inductive Flat : Condition → Prop where
  | leaf (l : Leaf) : Flat (.leaf l)
  | and {cs : List Condition} (two : 2 ≤ cs.length) (members : ∀ c ∈ cs, Flat c)
      (other : ∀ ds, .and ds ∉ cs) : Flat (.and cs)
  | or {cs : List Condition} (two : 2 ≤ cs.length) (members : ∀ c ∈ cs, Flat c)
      (other : ∀ ds, .or ds ∉ cs) : Flat (.or cs)

/-- The normal form of conditions. -/
inductive Normal : Condition → Prop where
  | always : Normal .always
  | never : Normal .never
  | flat {c : Condition} (h : c.Flat) : Normal c

variable {cs ds : List Condition}

theorem Normal.of_ne {c : Condition} (h : c.Normal) (halways : c ≠ .always) (hnever : c ≠ .never) :
    c.Flat := by
  cases h with
  | always => exact absurd rfl halways
  | never => exact absurd rfl hnever
  | flat h => exact h

theorem flat_conjuncts (h : ∀ c ∈ cs, c.Normal) (hds : conjuncts? cs = some ds) :
    (∀ d ∈ ds, d.Flat) ∧ ∀ es, .and es ∉ ds := by
  -- The members of a conjunction that take its place are flat, and none is a conjunction.
  fun_induction conjuncts? cs generalizing ds with
  | case1 =>
    cases hds
    exact ⟨List.forall_mem_nil _, fun _ => List.not_mem_nil⟩
  | case2 cs ih => exact ih (List.forall_mem_cons.1 h).2 hds
  | case3 cs => cases hds
  | case4 es cs ih =>
    obtain ⟨rest, hrest, rfl⟩ := Option.map_eq_some_iff.1 hds
    rw [List.forall_mem_cons] at h
    obtain ⟨flat, other⟩ := ih h.2 hrest
    rcases h.1 with _ | _ | ⟨_ | ⟨-, members, none⟩⟩
    exact ⟨List.forall_mem_append.2 ⟨members, flat⟩, fun fs hfs =>
      (List.mem_append.1 hfs).elim (none fs) (other fs)⟩
  | case5 c cs halways hnever hand ih =>
    obtain ⟨rest, hrest, rfl⟩ := Option.map_eq_some_iff.1 hds
    rw [List.forall_mem_cons] at h
    obtain ⟨flat, other⟩ := ih h.2 hrest
    exact ⟨List.forall_mem_cons.2 ⟨h.1.of_ne halways hnever, flat⟩, fun fs hfs =>
      (List.mem_cons.1 hfs).elim (fun h => hand fs h.symm) (other fs)⟩

theorem flat_disjuncts (h : ∀ c ∈ cs, c.Normal) (hds : disjuncts? cs = some ds) :
    (∀ d ∈ ds, d.Flat) ∧ ∀ es, .or es ∉ ds := by
  fun_induction disjuncts? cs generalizing ds with
  | case1 =>
    cases hds
    exact ⟨List.forall_mem_nil _, fun _ => List.not_mem_nil⟩
  | case2 cs ih => exact ih (List.forall_mem_cons.1 h).2 hds
  | case3 cs => cases hds
  | case4 es cs ih =>
    obtain ⟨rest, hrest, rfl⟩ := Option.map_eq_some_iff.1 hds
    rw [List.forall_mem_cons] at h
    obtain ⟨flat, other⟩ := ih h.2 hrest
    rcases h.1 with _ | _ | ⟨_ | _ | ⟨-, members, none⟩⟩
    exact ⟨List.forall_mem_append.2 ⟨members, flat⟩, fun fs hfs =>
      (List.mem_append.1 hfs).elim (none fs) (other fs)⟩
  | case5 c cs hnever halways hor ih =>
    obtain ⟨rest, hrest, rfl⟩ := Option.map_eq_some_iff.1 hds
    rw [List.forall_mem_cons] at h
    obtain ⟨flat, other⟩ := ih h.2 hrest
    exact ⟨List.forall_mem_cons.2 ⟨h.1.of_ne halways hnever, flat⟩, fun fs hfs =>
      (List.mem_cons.1 hfs).elim (fun h => hor fs h.symm) (other fs)⟩

/-- A list that is neither empty nor has one member has two. -/
theorem two_le_length {α : Type} {xs : List α} (hnil : xs ≠ []) (hone : ∀ x, xs ≠ [x]) :
    2 ≤ xs.length := by
  rcases xs with _ | ⟨x, _ | ⟨y, rest⟩⟩
  · exact absurd rfl hnil
  · exact absurd rfl (hone x)
  · exact Nat.le_add_left 2 rest.length

theorem normal_conj (h : ∀ c ∈ cs, c.Normal) : (conj cs).Normal := by
  rw [conj]
  split
  · exact .never
  · exact .always
  · next c hds => exact .flat ((flat_conjuncts h hds).1 c List.mem_cons_self)
  · next ds hnil hone hds =>
    obtain ⟨members, other⟩ := flat_conjuncts h hds
    exact .flat (.and (two_le_length hnil hone) members other)

theorem normal_disj (h : ∀ c ∈ cs, c.Normal) : (disj cs).Normal := by
  rw [disj]
  split
  · exact .always
  · exact .never
  · next c hds => exact .flat ((flat_disjuncts h hds).1 c List.mem_cons_self)
  · next ds hnil hone hds =>
    obtain ⟨members, other⟩ := flat_disjuncts h hds
    exact .flat (.or (two_le_length hnil hone) members other)

/-- A prefix changes the paths of leaves only. -/
theorem Flat.prefixed {c : Condition} (hc : c.Flat) (key : String) : (c.prefixed key).Flat := by
  induction hc with
  | leaf l => exact .leaf _
  | and two _ other ih =>
    rw [Condition.prefixed, prefixedAll_eq]
    refine .and (by rwa [List.length_map]) (List.forall_mem_map.2 ih) fun ds hds => ?_
    obtain ⟨c, hc, heq⟩ := List.mem_map.1 hds
    cases c with
    | and es => exact other es hc
    | _ => cases heq
  | or two _ other ih =>
    rw [Condition.prefixed, prefixedAll_eq]
    refine .or (by rwa [List.length_map]) (List.forall_mem_map.2 ih) fun ds hds => ?_
    obtain ⟨c, hc, heq⟩ := List.mem_map.1 hds
    cases c with
    | or es => exact other es hc
    | _ => cases heq

theorem Normal.prefixed {c : Condition} (hc : c.Normal) (key : String) :
    (c.prefixed key).Normal := by
  cases hc with
  | always => exact .always
  | never => exact .never
  | flat h => exact .flat (h.prefixed key)

/-! ## Truth -/

/-- A condition is true, given which leaves hold. -/
inductive TrueIn (P : Leaf → Prop) : Condition → Prop where
  | always : TrueIn P .always
  | leaf {l : Leaf} (h : P l) : TrueIn P (.leaf l)
  | and {cs : List Condition} (h : ∀ c ∈ cs, TrueIn P c) : TrueIn P (.and cs)
  | or {cs : List Condition} {c : Condition} (hc : c ∈ cs) (h : TrueIn P c) : TrueIn P (.or cs)

variable {P : Leaf → Prop}

@[simp] theorem trueIn_always : TrueIn P .always ↔ True := iff_of_true .always trivial

@[simp] theorem trueIn_never : TrueIn P .never ↔ False := iff_of_false (fun h => by cases h) id

@[simp] theorem trueIn_leaf {l : Leaf} : TrueIn P (.leaf l) ↔ P l :=
  ⟨fun h => by cases h; assumption, .leaf⟩

@[simp] theorem trueIn_and : TrueIn P (.and cs) ↔ ∀ c ∈ cs, c.TrueIn P :=
  ⟨fun h => by cases h; assumption, .and⟩

@[simp] theorem trueIn_or : TrueIn P (.or cs) ↔ ∃ c ∈ cs, c.TrueIn P :=
  ⟨fun h => by cases h with | or hc h => exact ⟨_, hc, h⟩, fun ⟨_, hc, h⟩ => .or hc h⟩

/-- Leaving out `always`, and taking the members of a conjunction for it, changes nothing; only a
    conjunction with `never` has no flat form. -/
theorem trueIn_conjuncts :
    (∃ ds, conjuncts? cs = some ds ∧ ∀ d ∈ ds, d.TrueIn P) ↔ ∀ c ∈ cs, c.TrueIn P := by
  fun_induction conjuncts? cs with
  | case1 => simp
  | case2 cs ih => simp [ih]
  | case3 cs => simp
  | case4 es cs ih =>
    rw [List.forall_mem_cons, trueIn_and, ← ih]
    cases conjuncts? cs <;> simp [or_imp, forall_and]
  | case5 c cs _ _ _ ih =>
    rw [List.forall_mem_cons, ← ih]
    cases conjuncts? cs <;> simp

/-- Leaving out `never`, and taking the members of a disjunction for it, changes nothing; only a
    disjunction with `always` has no flat form. -/
theorem trueIn_disjuncts :
    (∀ ds, disjuncts? cs = some ds → ∃ d ∈ ds, d.TrueIn P) ↔ ∃ c ∈ cs, c.TrueIn P := by
  fun_induction disjuncts? cs with
  | case1 => simp
  | case2 cs ih => simp [ih]
  | case3 cs => simp
  | case4 es cs ih =>
    rw [List.exists_mem_cons_iff, trueIn_or, ← ih]
    -- Without a flat form of the others, both sides are true.
    cases disjuncts? cs <;> simp [or_and_right, exists_or]
  | case5 c cs _ _ _ ih =>
    rw [List.exists_mem_cons_iff, ← ih]
    cases disjuncts? cs <;> simp

/-- A conjunction is true if all its members are. -/
theorem trueIn_conj : (conj cs).TrueIn P ↔ ∀ c ∈ cs, c.TrueIn P := by
  rw [← trueIn_conjuncts, conj]
  split
  · next h => simp [h]
  · next h => simp [h]
  · next h => simp [h]
  · next h => simp [h]

/-- A disjunction is true if one of its members is. -/
theorem trueIn_disj : (disj cs).TrueIn P ↔ ∃ c ∈ cs, c.TrueIn P := by
  rw [← trueIn_disjuncts, disj]
  split
  · next h => simp [h]
  · next h => simp [h]
  · next h => simp [h]
  · next h => simp [h]

end Condition

/-! ## Matching -/

/-- A leaf holds of a document. -/
def Leaf.HoldsOf (doc : Value) (l : Leaf) : Prop := l.holds doc = .ok true

/-- A leaf has an answer for a document. -/
def Leaf.Answers (doc : Value) (l : Leaf) : Prop := ∃ b, l.holds doc = .ok b

namespace Condition

variable {doc : Value} {c : Condition}

/-- A condition has an answer if all its leaves have one. -/
theorem exists_holds (hc : c.AllLeaves (Leaf.Answers doc)) : ∃ b, c.holds doc = .ok b := by
  induction hc with
  | always => exact ⟨true, rfl⟩
  | never => exact ⟨false, rfl⟩
  | leaf h => exact h
  | @and cs _ ih =>
    -- Matching a conjunction is looking for a member that does not hold.
    have negated : ∀ c ∈ cs, ∃ b, (c.holds doc >>= fun b => pure !b) = .ok b := fun c hc => by
      obtain ⟨b, hb⟩ := ih c hc
      exact ⟨!b, by rw [hb]; rfl⟩
    obtain ⟨b, hb⟩ := anyM_total negated
    exact ⟨!b, by rw [holds, allHold_eq_anyM, hb]; rfl⟩
  | or _ ih =>
    rw [holds, someHold_eq_anyM]
    exact anyM_total ih

mutual

/-- A condition that matching finds to hold is true. -/
theorem trueIn_of_holds : ∀ c : Condition, c.holds doc = .ok true → c.TrueIn (Leaf.HoldsOf doc)
  | .always, _ => .always
  | .never, h => by cases h
  | .leaf _, h => .leaf h
  | .and cs, h => .and (trueIn_of_allHold cs h)
  | .or cs, h => trueIn_or.2 (trueIn_of_someHold cs h)

theorem trueIn_of_allHold : ∀ cs : List Condition, allHold cs doc = .ok true →
    ∀ c ∈ cs, c.TrueIn (Leaf.HoldsOf doc)
  | [], _ => List.forall_mem_nil _
  | c :: cs, h => by
    obtain ⟨hc, hcs⟩ := List.forall_mem_cons.1 (allHold_eq_true.1 h)
    exact List.forall_mem_cons.2
      ⟨trueIn_of_holds c hc, trueIn_of_allHold cs (allHold_eq_true.2 hcs)⟩

theorem trueIn_of_someHold : ∀ cs : List Condition, someHold cs doc = .ok true →
    ∃ c ∈ cs, c.TrueIn (Leaf.HoldsOf doc)
  | [], h => by cases h
  | c :: cs, h => by
    obtain ⟨b, hb, h⟩ := bind_eq_ok.1 h
    cases b with
    | true => exact ⟨c, List.mem_cons_self, trueIn_of_holds c hb⟩
    | false =>
      obtain ⟨d, hd, htrue⟩ := trueIn_of_someHold cs h
      exact ⟨d, List.mem_cons_of_mem _ hd, htrue⟩

end

/-- Matching finds whether a condition is true, if all its leaves have an answer. -/
theorem holds_eq_true (hc : c.AllLeaves (Leaf.Answers doc)) :
    c.holds doc = .ok true ↔ c.TrueIn (Leaf.HoldsOf doc) := by
  refine ⟨trueIn_of_holds c, fun h => ?_⟩
  induction hc with
  | always => rfl
  | never => cases h
  | leaf _ => exact trueIn_leaf.1 h
  | and _ ih => exact allHold_eq_true.2 fun c hc => ih c hc (trueIn_and.1 h c hc)
  | @or cs hcs ih =>
    -- The members before the true one have answers, so matching comes to it.
    obtain ⟨c, hc, h⟩ := trueIn_or.1 h
    obtain ⟨b, hb⟩ := anyM_total fun c hc => exists_holds (hcs c hc)
    rw [holds, someHold_eq_anyM, hb, eq_true_of_anyM hb hc (ih c hc h)]

/-- A condition tells of a document whether a statement is true, unless a leaf has no answer. -/
def Means (doc : Value) (c : Condition) (Q : Prop) : Prop :=
  c.AllLeaves (Leaf.Answers doc) → ∃ b, c.holds doc = .ok b ∧ (b = true ↔ Q)

theorem means_of {Q : Prop} (h : c.AllLeaves (Leaf.Answers doc) → (c.holds doc = .ok true ↔ Q)) :
    c.Means doc Q := by
  intro hc
  obtain ⟨b, hb⟩ := exists_holds hc
  refine ⟨b, hb, Iff.trans ?_ (h hc)⟩
  rw [hb]
  exact ⟨congrArg _, Except.ok.inj⟩

/-! ## What a condition stands for -/

/-- A condition in normal form that is true exactly if a statement is, given which leaves hold. -/
structure StandsFor (P : Leaf → Prop) (Q : Prop) (c : Condition) : Prop where
  normal : c.Normal
  trueIn : c.TrueIn P ↔ Q

namespace StandsFor

variable {P : Leaf → Prop} {Q R : Prop} {d : Condition} {cs : List Condition}

theorem congr (h : c.StandsFor P Q) (hQ : Q ↔ R) : c.StandsFor P R :=
  ⟨h.normal, h.trueIn.trans hQ⟩

/-- A condition that stands for a statement about the leaves that hold of a document tells whether
    it is true. -/
theorem means (h : c.StandsFor (Leaf.HoldsOf doc) Q) : c.Means doc Q :=
  means_of fun hc => (holds_eq_true hc).trans h.trueIn

theorem always : Condition.always.StandsFor P True := ⟨.always, trueIn_always⟩

theorem never : Condition.never.StandsFor P False := ⟨.never, trueIn_never⟩

theorem leaf (l : Leaf) : (Condition.leaf l).StandsFor P (P l) := ⟨.flat (.leaf l), trueIn_leaf⟩

section Members

variable {α : Type} {S : α → Prop} {xs : List α}

theorem normal_of_mem (h : List.Forall₂ (fun x c => StandsFor P (S x) c) xs cs) :
    ∀ c ∈ cs, c.Normal := by
  induction h with
  | nil => exact List.forall_mem_nil _
  | cons hc _ ih => exact List.forall_mem_cons.2 ⟨hc.normal, ih⟩

/-- The conjunction of conditions stands for all that they stand for. -/
theorem conj (h : List.Forall₂ (fun x c => StandsFor P (S x) c) xs cs) :
    (conj cs).StandsFor P (∀ x ∈ xs, S x) := by
  refine ⟨normal_conj (normal_of_mem h), trueIn_conj.trans ?_⟩
  induction h with
  | nil => exact iff_of_true (List.forall_mem_nil _) (List.forall_mem_nil _)
  | cons hc _ ih => rw [List.forall_mem_cons, List.forall_mem_cons, hc.trueIn, ih]

end Members

theorem conj_pair (hc : c.StandsFor P Q) (hd : d.StandsFor P R) :
    (Condition.conj [c, d]).StandsFor P (Q ∧ R) :=
  (conj (S := id) (.cons hc (.cons hd .nil))).congr
    (by rw [List.forall_mem_cons, List.forall_mem_singleton, id, id])

theorem conj_triple {T : Prop} {e : Condition} (hc : c.StandsFor P Q) (hd : d.StandsFor P R)
    (he : e.StandsFor P T) : (Condition.conj [c, d, e]).StandsFor P (Q ∧ R ∧ T) :=
  (conj (S := id) (.cons hc (.cons hd (.cons he .nil)))).congr
    (by rw [List.forall_mem_cons, List.forall_mem_cons, List.forall_mem_singleton, id, id, id])

end StandsFor

/-- Conditions in normal form, some of which are true exactly if a statement is. -/
structure Alternatives (P : Leaf → Prop) (Q : Prop) (cs : List Condition) : Prop where
  normal : ∀ c ∈ cs, c.Normal
  trueIn : (∃ c ∈ cs, c.TrueIn P) ↔ Q

namespace Alternatives

variable {P : Leaf → Prop} {Q R : Prop} {c : Condition} {cs ds : List Condition}

theorem congr (h : Alternatives P Q cs) (hQ : Q ↔ R) : Alternatives P R cs :=
  ⟨h.normal, h.trueIn.trans hQ⟩

theorem nil : Alternatives P False [] :=
  ⟨List.forall_mem_nil _, iff_of_false (fun ⟨_, h, _⟩ => by cases h) id⟩

theorem cons (hc : c.StandsFor P Q) (h : Alternatives P R cs) :
    Alternatives P (Q ∨ R) (c :: cs) :=
  ⟨List.forall_mem_cons.2 ⟨hc.normal, h.normal⟩, by
    rw [List.exists_mem_cons_iff, hc.trueIn, h.trueIn]⟩

theorem append (h : Alternatives P Q cs) (h' : Alternatives P R ds) :
    Alternatives P (Q ∨ R) (cs ++ ds) := by
  refine ⟨List.forall_mem_append.2 ⟨h.normal, h'.normal⟩, ?_⟩
  rw [← h.trueIn, ← h'.trueIn]
  simp [or_and_right, exists_or]

theorem pair {d : Condition} (hc : c.StandsFor P Q) (hd : d.StandsFor P R) :
    Alternatives P (Q ∨ R) [c, d] := (cons hc (cons hd nil)).congr (by rw [or_false])

theorem of_forall₂ {α : Type} {S : α → Prop} {xs : List α}
    (h : List.Forall₂ (fun x c => StandsFor P (S x) c) xs cs) :
    Alternatives P (∃ x ∈ xs, S x) cs := by
  induction h with
  | nil => exact nil.congr (iff_of_false id fun ⟨_, h, _⟩ => by cases h)
  | cons hc _ ih => exact (cons hc ih).congr (List.exists_mem_cons_iff ..).symm

/-- A disjunction stands for what some of its members do. -/
theorem disj (h : Alternatives P Q cs) : (disj cs).StandsFor P Q :=
  ⟨normal_disj h.normal, trueIn_disj.trans h.trueIn⟩

end Alternatives

end Condition

end Catalog
