import Catalog.Proofs.Query.Met
import Catalog.Query.FilterReader
import Catalog.Query.SetExpr

/-!
# The leaves of conditions

A condition is a tree, but much can be said of it leaf by leaf (`Condition.AllLeaves`); the normal
forms of conjunctions and disjunctions have no leaves of their own (`allLeaves_conj`,
`allLeaves_disj`).

What the leaves have that reading makes (`Leaf.HasOnReading`), all leaves of a condition that is
read have (`gives_conditionRead_of`). The leaves of the condition of a set (`SetExpr.gives_plain`)
and of the one that says who may read a record (`Requester.allLeaves_plain`) are of a few plain
forms (`Leaf.Plain`).

So the operands of a leaf fit its operator and its literal (`Leaf.Fitting`) in every condition that
a plan is made of: in one that is read (`gives_readLevels`), in that of a set
(`SetExpr.gives_conditionOf`) and in the one that says who may read a record
(`Requester.allLeaves_predicate`). The latter two are not about the ids of records, either
(`Leaf.OfField`).
-/

namespace Catalog

namespace Condition

/-- All leaves of a condition have a property. -/
inductive AllLeaves (P : Leaf → Prop) : Condition → Prop where
  | always : AllLeaves P .always
  | never : AllLeaves P .never
  | leaf {l : Leaf} (h : P l) : AllLeaves P (.leaf l)
  | and {cs : List Condition} (h : ∀ c ∈ cs, AllLeaves P c) : AllLeaves P (.and cs)
  | or {cs : List Condition} (h : ∀ c ∈ cs, AllLeaves P c) : AllLeaves P (.or cs)

variable {P : Leaf → Prop} {cs ds : List Condition}

theorem AllLeaves.mono {Q : Leaf → Prop} {c : Condition} (hc : c.AllLeaves P)
    (h : ∀ l, P l → Q l) : c.AllLeaves Q := by
  induction hc with
  | always => exact .always
  | never => exact .never
  | leaf hl => exact .leaf (h _ hl)
  | and _ ih => exact .and ih
  | or _ ih => exact .or ih

theorem allLeaves_conjuncts (h : ∀ c ∈ cs, c.AllLeaves P) (hd : conjuncts? cs = some ds) :
    ∀ d ∈ ds, d.AllLeaves P := by
  fun_induction conjuncts? cs generalizing ds with
  | case1 =>
    cases hd
    exact List.forall_mem_nil _
  | case2 cs ih => exact ih (List.forall_mem_cons.1 h).2 hd
  | case3 cs => cases hd
  | case4 es cs ih =>
    obtain ⟨rest, hrest, rfl⟩ := Option.map_eq_some_iff.1 hd
    rw [List.forall_mem_cons] at h
    cases h.1 with
    | and hes => exact List.forall_mem_append.2 ⟨hes, ih h.2 hrest⟩
  | case5 c cs _ _ _ ih =>
    obtain ⟨rest, hrest, rfl⟩ := Option.map_eq_some_iff.1 hd
    rw [List.forall_mem_cons] at h
    exact List.forall_mem_cons.2 ⟨h.1, ih h.2 hrest⟩

theorem allLeaves_disjuncts (h : ∀ c ∈ cs, c.AllLeaves P) (hd : disjuncts? cs = some ds) :
    ∀ d ∈ ds, d.AllLeaves P := by
  fun_induction disjuncts? cs generalizing ds with
  | case1 =>
    cases hd
    exact List.forall_mem_nil _
  | case2 cs ih => exact ih (List.forall_mem_cons.1 h).2 hd
  | case3 cs => cases hd
  | case4 es cs ih =>
    obtain ⟨rest, hrest, rfl⟩ := Option.map_eq_some_iff.1 hd
    rw [List.forall_mem_cons] at h
    cases h.1 with
    | or hes => exact List.forall_mem_append.2 ⟨hes, ih h.2 hrest⟩
  | case5 c cs _ _ _ ih =>
    obtain ⟨rest, hrest, rfl⟩ := Option.map_eq_some_iff.1 hd
    rw [List.forall_mem_cons] at h
    exact List.forall_mem_cons.2 ⟨h.1, ih h.2 hrest⟩

/-- The normal form of a conjunction has no other leaves than its members. -/
theorem allLeaves_conj (h : ∀ c ∈ cs, c.AllLeaves P) : (conj cs).AllLeaves P := by
  rw [conj]
  split
  · exact .never
  · exact .always
  · next hd => exact allLeaves_conjuncts h hd _ List.mem_cons_self
  · next hd => exact .and (allLeaves_conjuncts h hd)

/-- The normal form of a disjunction has no other leaves than its members. -/
theorem allLeaves_disj (h : ∀ c ∈ cs, c.AllLeaves P) : (disj cs).AllLeaves P := by
  rw [disj]
  split
  · exact .always
  · exact .never
  · next hd => exact allLeaves_disjuncts h hd _ List.mem_cons_self
  · next hd => exact .or (allLeaves_disjuncts h hd)

theorem allLeaves_conj_pair {c d : Condition} (hc : c.AllLeaves P) (hd : d.AllLeaves P) :
    (conj [c, d]).AllLeaves P :=
  allLeaves_conj (List.forall_mem_cons.2 ⟨hc, List.forall_mem_singleton.2 hd⟩)

theorem allLeaves_disj_pair {c d : Condition} (hc : c.AllLeaves P) (hd : d.AllLeaves P) :
    (disj [c, d]).AllLeaves P :=
  allLeaves_disj (List.forall_mem_cons.2 ⟨hc, List.forall_mem_singleton.2 hd⟩)

end Condition

/-! ## Reading -/

/-- The operand of a leaf fits its operator and its literal: a text to be equal to is only meant as
    this text, and what is to be one of several is so of an array. -/
structure Leaf.Fitting (l : Leaf) : Prop where
  text : l.operator = .eq → ∀ s, l.operand = .text s → l.literal = none
  array : l.operator = .inq → ∃ vs, l.operand = .array vs

theorem Leaf.Fitting.of_ne {l : Leaf} (he : l.operator ≠ .eq) (hi : l.operator ≠ .inq) :
    l.Fitting := ⟨fun h => absurd h he, fun h => absurd h hi⟩

/-- What is inferred to be a text is the text that was given, and has no literal. -/
theorem gives_inferText (s : String) :
    Gives (fun p => ∀ t, p.1 = .text t → p.2 = none) (inferText s) := by
  rw [inferText]
  split
  · exact .ok fun _ _ => rfl
  split
  · exact .ok nofun
  split
  · refine .bind_of_any fun t => ?_
    cases t with
    | none => exact .ok fun _ _ => rfl
    | some t => exact .ok nofun
  split
  · exact .bind_of_any fun n => .ok nofun
  · exact .ok fun _ _ => rfl

theorem gives_coerce (hint v : Value) :
    Gives (fun p => ∀ t, p.1 = .text t → p.2 = none) (coerce hint v) := by
  unfold coerce
  split
  · refine .lift ?_
    cases v with
    | text s => exact gives_inferText s
    | _ => exact .ok fun _ _ => rfl
  · exact .bind_of_any fun v => .ok fun _ _ => rfl
  · exact .error _

theorem gives_coerceEach (hint : Value) (vs : List Value) :
    Gives (fun p => ∃ items, p.1 = .array items) (coerceEach hint vs) :=
  .bind_of_any fun _ => .ok ⟨_, rfl⟩

/-- Every leaf that reading makes has a property: of an operator with its operand, and of the array
    or the other value that a field alone is to be equal to. -/
structure Leaf.HasOnReading (P : Leaf → Prop) : Prop where
  operator : ∀ path hint operator v, Gives P (Leaf.read path hint operator v)
  items : ∀ path items, Gives (fun p => P { path, operator := .eq, operand := p.1, literal := p.2 })
    (coerceEach .null items)
  value : ∀ path v, Gives (fun p => P
    { path, operator := .eq, operand := p.1, literal := p.2.map .text }) (coerce .null v)

theorem gives_readPattern (path : String) {operator : Operator} (v : Value)
    (he : operator ≠ .eq) (hi : operator ≠ .inq) :
    Gives Leaf.Fitting (Leaf.readPattern path operator v) := by
  unfold Leaf.readPattern
  split
  · split
    · split
      · exact .ok (.of_ne he hi)
      · exact .error _
      · exact .error _
    · exact .ok (.of_ne he hi)
  · exact .error _

theorem gives_readLeaf (path : String) (hint : Value) (operator : Operator) (v : Value) :
    Gives Leaf.Fitting (Leaf.read path hint operator v) := by
  cases operator with
  | eq =>
    refine (gives_coerce hint v).bind fun p hp => .ok ⟨fun _ s hs => ?_, nofun⟩
    exact congrArg (Option.map Literal.text) (hp s hs)
  | inq => exact (gives_coerceEach hint _).bind fun p hp => .ok ⟨nofun, fun _ => hp⟩
  | nin => exact .bind_of_any fun p => .ok (.of_ne nofun nofun)
  | between =>
    rw [Leaf.read]
    dsimp only
    split
    · exact .bind_of_any fun _ => .bind_of_any fun p => .ok (.of_ne nofun nofun)
    · exact .bind_of_any fun p => .ok (.of_ne nofun nofun)
  | present => exact .ok (.of_ne nofun nofun)
  | like | nlike | ilike | nilike | regexp => exact gives_readPattern path v nofun nofun
  | neq | gt | gte | lt | lte => exact .bind_of_any fun p => .ok (.of_ne nofun nofun)

/-- The operand of a leaf that is read fits. -/
theorem Leaf.Fitting.hasOnReading : Leaf.HasOnReading Leaf.Fitting where
  operator := gives_readLeaf
  items _ vs := fun p h => by
    obtain ⟨vs, hvs⟩ := gives_coerceEach _ vs p h
    exact ⟨fun _ s hs => (nomatch hvs.symm.trans hs), nofun⟩
  value _ v := fun p h =>
    ⟨fun _ s hs => congrArg (Option.map Literal.text) (gives_coerce _ v p h s hs), nofun⟩

namespace Condition

variable {P : Leaf → Prop}

theorem gives_connected (c : Connective) {cs : List Condition}
    (h : ∀ c ∈ cs, c.AllLeaves P) : Gives (AllLeaves P) (connected c cs) := by
  unfold connected
  split
  · exact .error _
  · cases c with
    | and => exact .ok (allLeaves_conj h)
    | or => exact .ok (allLeaves_disj h)

theorem gives_readOperators (hP : Leaf.HasOnReading P) (path : String)
    (members : List (String × Value)) : Gives (AllLeaves P) (readOperators path members) := by
  rw [readOperators]
  refine Gives.bind (.filterMapM (Q := AllLeaves P) fun m _ => ?_)
    fun leaves hleaves => ?_
  · dsimp only
    split
    · refine (hP.operator _ _ _ _).bind fun l hl => .ok ?_
      rintro _ ⟨⟩
      exact .leaf hl
    · exact .ok nofun
  · dsimp only
    split
    · exact .bind_of_any fun _ => .ok (allLeaves_conj hleaves)
    · exact .ok (allLeaves_conj hleaves)

mutual

theorem gives_readMembers (hP : Leaf.HasOnReading P) (within : String) :
    ∀ members : List (String × Value),
      Gives (fun cs => ∀ c ∈ cs, c.AllLeaves P) (readMembers within members)
  | [] => .ok (List.forall_mem_nil _)
  | (key, v) :: rest => by
    have others (c : Condition) (hc : c.AllLeaves P) :
        Gives (fun cs => ∀ c ∈ cs, c.AllLeaves P)
          (readMembers within rest >>= fun cs => pure (c :: cs)) :=
      (gives_readMembers hP within rest).bind fun _ h => .ok (List.forall_mem_cons.2 ⟨hc, h⟩)
    rw [readMembers]
    dsimp only
    split
    · exact (gives_readConnected hP v).bind fun _ h => (gives_connected _ h).bind others
    · exact (gives_readField hP _ v).bind others

theorem gives_readConnected (hP : Leaf.HasOnReading P) : ∀ v : Value,
    Gives (fun cs => ∀ c ∈ cs, c.AllLeaves P) (readConnected v)
  | .array items => gives_readItems hP items
  | .object [] => .ok (List.forall_mem_nil _)
  | .object (m :: members) => (gives_readMembers hP "" (m :: members)).bind fun _ h =>
    .ok (List.forall_mem_singleton.2 (allLeaves_conj h))
  | .null => .ok (List.forall_mem_nil _)
  | .text s => by
    rw [readConnected]
    split
    · exact .ok (List.forall_mem_nil _)
    · exact .error _
  | .bool _ | .number _ | .instant _ => .error _

theorem gives_readItems (hP : Leaf.HasOnReading P) : ∀ items : List Value,
    Gives (fun cs => ∀ c ∈ cs, c.AllLeaves P) (readItems items)
  | [] => .ok (List.forall_mem_nil _)
  | .object members :: rest => (gives_readMembers hP "" members).bind fun _ hc =>
    (gives_readItems hP rest).bind fun _ h => .ok (List.forall_mem_cons.2 ⟨allLeaves_conj hc, h⟩)
  | .null :: _ | .bool _ :: _ | .number _ :: _ | .text _ :: _ | .instant _ :: _ | .array _ :: _ =>
    .error _

theorem gives_readField (hP : Leaf.HasOnReading P) (path : String) :
    ∀ v : Value, Gives (AllLeaves P) (readField path v)
  | .object [] => .error _
  | .object (m :: members) => by
    unfold readField
    split
    · exact gives_readOperators hP path _
    · exact (gives_readMembers hP _ (m :: members)).bind fun _ h => .ok (allLeaves_conj h)
  | .array items => (hP.items path items).bind fun _ h => .ok (.leaf h)
  | .null | .bool _ | .number _ | .text _ | .instant _ => (hP.value path _).bind fun _ h =>
    .ok (.leaf h)

end

/-- What the leaves have that reading makes, all leaves of a condition that is read have. -/
theorem gives_conditionRead_of (hP : Leaf.HasOnReading P) (v : Value) :
    Gives (AllLeaves P) (Condition.read v) := by
  unfold Condition.read
  split
  · exact (gives_readMembers hP "" _).bind fun _ h => .ok (allLeaves_conj h)
  · exact .error _

/-- The operands of a condition that is read fit. -/
theorem gives_conditionRead (v : Value) : Gives (AllLeaves Leaf.Fitting) (Condition.read v) :=
  gives_conditionRead_of Leaf.Fitting.hasOnReading v

end Condition

/-- The operands of the condition of a filter that is read fit. -/
theorem gives_readLevels (bounds : FilterBounds) (defaultLimit maximumLimit : Option Int)
    (levels : Nat) (v : Value) : Gives (fun filter => filter.condition.AllLeaves Leaf.Fitting)
      (Filter.readLevels bounds defaultLimit maximumLimit levels v) := by
  cases levels with
  | zero =>
    rw [Filter.readLevels]
    exact .bind_of_any fun _ => .error _
  | succ levels =>
    rw [Filter.readLevels]
    refine .bind_of_any fun members => ?_
    -- The other settings of a filter say nothing of its condition.
    have rest (condition : Condition) (h : condition.AllLeaves Leaf.Fitting) :
        Gives (fun filter => filter.condition.AllLeaves Leaf.Fitting) (do
          let limit ← readLimit (Value.orNull (Document.get? "limit" members)) defaultLimit
            maximumLimit
          let skip ← readSkip (Value.orNull ((Document.get? "skip" members).or
            (Document.get? "offset" members)))
          let readScope := Filter.readLevels bounds none none levels
          let lookups ← (listOf (Value.orNull (Document.get? "lookup" members))).mapM
            (readLookup readScope)
          let includes ← (listOf (Value.orNull (Document.get? "include" members))).mapM
            (readInclude readScope)
          let order ← readOrder (Value.orNull (Document.get? "order" members))
          let fields ← readFields (Value.orNull (Document.get? "fields" members))
          let set ← SetExpr.read (Value.orNull (Document.get? "set" members))
          return { condition, order, limit, skip, fields, lookups, includes, set } :
            Outcome Filter) :=
      .bind_of_any fun _ => .bind_of_any fun _ => .bind_of_any fun _ => .bind_of_any fun _ =>
        .bind_of_any fun _ => .bind_of_any fun _ => .bind_of_any fun _ => .ok h
    dsimp only
    split
    · exact rest _ .always
    · exact (Condition.gives_conditionRead _).bind rest

/-! ## Sets and access -/

/-- The operand of a leaf fits, and the leaf is not about the id. -/
structure Leaf.OfField (l : Leaf) : Prop where
  fitting : l.Fitting
  field : l.path ≠ "_id"

/-- A leaf as sets and access control make it: about a field and without a literal, with one of a
    few operators and an operand that fits. -/
structure Leaf.Plain (l : Leaf) : Prop where
  field : l.path ≠ "_id"
  literal : l.literal = none
  operator : l.operator ∈ [.eq, .neq, .gt, .lt, .between, .inq]
  ends : l.operator = .between → ∃ low high, l.operand = .array [low, high]
  array : l.operator = .inq → ∃ vs, l.operand = .array vs

theorem Leaf.Plain.ofField {l : Leaf} (h : l.Plain) : l.OfField :=
  ⟨⟨fun _ _ _ => h.literal, h.array⟩, h.field⟩

namespace Condition

theorem fitting_inq (path : String) (vs : List Value) :
    (compare path .inq (.array vs)).AllLeaves Leaf.Fitting := .leaf ⟨nofun, fun _ => ⟨vs, rfl⟩⟩

theorem allLeaves_compare (path : String) (operator : Operator) (v : Value)
    (hpath : path ≠ "_id") (h : operator ∈ [Operator.eq, .neq, .gt, .lt]) :
    (compare path operator v).AllLeaves Leaf.Plain := by
  refine .leaf ⟨hpath, rfl, List.mem_append_left [Operator.between, .inq] h, ?_, ?_⟩
  · rintro rfl
    exact absurd h (by decide)
  · rintro rfl
    exact absurd h (by decide)

theorem allLeaves_between (path : String) (low high : Value) (hpath : path ≠ "_id") :
    (compare path .between (.array [low, high])).AllLeaves Leaf.Plain :=
  .leaf ⟨hpath, rfl, by simp, fun _ => ⟨low, high, rfl⟩, nofun⟩

theorem allLeaves_inq (path : String) (vs : List Value) (hpath : path ≠ "_id") :
    (compare path .inq (.array vs)).AllLeaves Leaf.Plain :=
  .leaf ⟨hpath, rfl, by simp, nofun, fun _ => ⟨vs, rfl⟩⟩

end Condition

namespace SetExpr

open Condition

theorem allLeaves_unexpired (now : Moment) : (disj [
      .equals "_validUntilDateTime" .null,
      .compare "_validUntilDateTime" .gt (.instant now)]).AllLeaves Leaf.Plain :=
  allLeaves_disj_pair (allLeaves_compare _ _ _ (by decide) (by decide))
    (allLeaves_compare _ _ _ (by decide) (by decide))

theorem allLeaves_actives (now : Moment) : (actives now).AllLeaves Leaf.Plain := by
  refine allLeaves_conj ?_
  rw [List.forall_mem_cons, List.forall_mem_cons, List.forall_mem_singleton]
  exact ⟨allLeaves_unexpired now, allLeaves_compare _ _ _ (by decide) (by decide),
    allLeaves_compare _ _ _ (by decide) (by decide)⟩

theorem allLeaves_expireds (now : Moment) : (expireds now).AllLeaves Leaf.Plain :=
  allLeaves_conj_pair (allLeaves_compare _ _ _ (by decide) (by decide))
    (allLeaves_compare _ _ _ (by decide) (by decide))

theorem allLeaves_pendings (now : Moment) : (pendings now).AllLeaves Leaf.Plain :=
  allLeaves_disj_pair (allLeaves_compare _ _ _ (by decide) (by decide))
    (allLeaves_compare _ _ _ (by decide) (by decide))

theorem allLeaves_windowBase (base : WindowBase) (start now : Moment) :
    (base.condition start now).AllLeaves Leaf.Plain := by
  cases base with
  | createds => exact allLeaves_between _ _ _ (by decide)
  | expireds =>
    rw [WindowBase.condition]
    exact allLeaves_conj_pair (allLeaves_compare _ _ _ (by decide) (by decide))
      (allLeaves_between _ _ _ (by decide))
  | actives =>
    rw [WindowBase.condition]
    refine allLeaves_conj ?_
    rw [List.forall_mem_cons, List.forall_mem_cons, List.forall_mem_singleton]
    exact ⟨allLeaves_unexpired now, allLeaves_compare _ _ _ (by decide) (by decide),
      allLeaves_between _ _ _ (by decide)⟩
  | pendings =>
    rw [WindowBase.condition]
    exact allLeaves_conj_pair (allLeaves_pendings now) (allLeaves_between _ _ _ (by decide))

theorem gives_windowCondition (w : Window) (now : Moment) :
    Gives (AllLeaves Leaf.Plain) (w.condition now) := by
  rw [Window.condition]
  refine .bind_of_any fun amount => ?_
  split
  · exact .ok .always
  · exact .bind_of_any fun start => .ok (allLeaves_windowBase _ _ _)

theorem allLeaves_eachEquals {path : String} (hpath : path ≠ "_id") (ids : List String) :
    (disj (ids.map fun id => .equals path (.text id))).AllLeaves Leaf.Plain := by
  refine allLeaves_disj fun c hc => ?_
  obtain ⟨id, -, rfl⟩ := List.mem_map.1 hc
  exact allLeaves_compare _ _ _ hpath (by decide)

/-- A membership is about the two fields and their counts. -/
theorem allLeaves_membership (a : Option Audience) (usersField groupsField : String)
    (hu : usersField ≠ "_id") (hg : groupsField ≠ "_id")
    (hcounts : usersField ++ "Count" ≠ "_id" ∧ groupsField ++ "Count" ≠ "_id") :
    (membership a usersField groupsField).AllLeaves Leaf.Plain := by
  cases a with
  | none => exact .never
  | some a =>
    have users := allLeaves_eachEquals hu a.users
    have groups : (conj [
        .disj (a.groups.map fun g => .equals groupsField (.text g)),
        .compare "_visibility" .neq (.text "private")]).AllLeaves Leaf.Plain :=
      allLeaves_conj_pair (allLeaves_eachEquals hg _)
        (allLeaves_compare _ _ _ (by decide) (by decide))
    rw [membership]
    by_cases nousers : a.users.isEmpty = true
    · by_cases nogroups : a.groups.isEmpty = true
      · rw [if_pos nousers, if_pos nogroups]
        exact allLeaves_conj_pair (allLeaves_compare _ _ _ hcounts.1 (by decide))
          (allLeaves_compare _ _ _ hcounts.2 (by decide))
      · rw [if_pos nousers, if_neg nogroups]
        exact groups
    · by_cases nogroups : a.groups.isEmpty = true
      · rw [if_neg nousers, if_pos nogroups]
        exact users
      · rw [if_neg nousers, if_neg nogroups]
        exact allLeaves_disj_pair users groups

theorem allLeaves_audience (a : Option Audience) :
    (audience a).AllLeaves Leaf.Plain := by
  cases a with
  | none => exact .never
  | some a =>
    have clauses (ids : List String) {owners viewers : String} (ho : owners ≠ "_id")
        (hv : viewers ≠ "_id") :
        ∀ c ∈ (if ids.isEmpty then [] else [Condition.compare owners .inq (.array (ids.map .text)),
            .compare viewers .inq (.array (ids.map .text))] : List Condition),
          c.AllLeaves Leaf.Plain := by
      split
      · exact List.forall_mem_nil _
      · rw [List.forall_mem_cons, List.forall_mem_singleton]
        exact ⟨allLeaves_inq _ _ ho, allLeaves_inq _ _ hv⟩
    exact allLeaves_disj (List.forall_mem_append.2
      ⟨clauses _ (by decide) (by decide), clauses _ (by decide) (by decide)⟩)

theorem gives_namedCondition (name : String) (a : Option Audience) (now : Moment) :
    Gives (AllLeaves Leaf.Plain) (namedCondition name a now) := by
  unfold namedCondition
  split
  · exact gives_windowCondition _ now
  · refine .ok ?_
    split
    · exact allLeaves_actives now
    · exact allLeaves_expireds now
    · exact allLeaves_pendings now
    · exact allLeaves_compare _ _ _ (by decide) (by decide)
    · exact allLeaves_compare _ _ _ (by decide) (by decide)
    · exact allLeaves_compare _ _ _ (by decide) (by decide)
    · exact allLeaves_compare _ _ _ (by decide) (by decide)
    · exact allLeaves_membership a _ _ (by decide) (by decide) (by decide)
    · exact allLeaves_membership a _ _ (by decide) (by decide) (by decide)
    · exact allLeaves_audience a
    · exact .always

mutual

theorem gives_condition (now : Moment) :
    ∀ e : SetExpr, Gives (AllLeaves Leaf.Plain) (e.condition now)
  | .named name a => gives_namedCondition name a now
  | .and es => (gives_conditions now es).bind fun _ h => .ok (allLeaves_conj h)
  | .or es => (gives_conditions now es).bind fun _ h => .ok (allLeaves_disj h)

theorem gives_conditions (now : Moment) : ∀ es : List SetExpr,
    Gives (fun cs => ∀ c ∈ cs, c.AllLeaves Leaf.Plain) (conditions now es)
  | [] => .ok (List.forall_mem_nil _)
  | e :: es => (gives_condition now e).bind fun _ hc => (gives_conditions now es).bind fun _ h =>
    .ok (List.forall_mem_cons.2 ⟨hc, h⟩)

end

theorem gives_plain (now : Moment) (set : Option SetExpr) :
    Gives (AllLeaves Leaf.Plain) (conditionOf now set) := by
  cases set with
  | none => exact .ok .always
  | some e => exact gives_condition now e

/-- The operands of the condition of a set fit, and it is not about the id. -/
theorem gives_conditionOf (now : Moment) (set : Option SetExpr) :
    Gives (AllLeaves Leaf.OfField) (conditionOf now set) :=
  fun c h => (gives_plain now set c h).mono fun _ => Leaf.Plain.ofField

end SetExpr

open Condition in
theorem Requester.allLeaves_plain (r : Requester) (enabled hasAccessFields : Bool) :
    (r.predicate enabled hasAccessFields).AllLeaves Leaf.Plain := by
  rw [predicate]
  split
  · exact .always
  · refine allLeaves_disj (List.forall_mem_append.2 ⟨List.forall_mem_cons.2 ⟨?_, ?_⟩, ?_⟩)
    · exact allLeaves_compare _ _ _ (by decide) (by decide)
    · rw [userClauses]
      split
      · rw [List.forall_mem_cons, List.forall_mem_singleton]
        exact ⟨allLeaves_compare _ _ _ (by decide) (by decide),
          allLeaves_compare _ _ _ (by decide) (by decide)⟩
      · exact List.forall_mem_nil _
    · rw [groupClauses]
      split
      · exact List.forall_mem_nil _
      · rw [List.forall_mem_singleton]
        exact allLeaves_conj_pair
          (allLeaves_disj_pair (allLeaves_inq _ _ (by decide)) (allLeaves_inq _ _ (by decide)))
          (allLeaves_compare _ _ _ (by decide) (by decide))

/-- The operands of the condition that a requester may read a record fit, and it is not about the
    id. -/
theorem Requester.allLeaves_predicate (r : Requester) (enabled hasAccessFields : Bool) :
    (r.predicate enabled hasAccessFields).AllLeaves Leaf.OfField :=
  (r.allLeaves_plain enabled hasAccessFields).mono fun _ => Leaf.Plain.ofField

end Catalog
