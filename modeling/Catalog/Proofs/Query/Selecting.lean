import Catalog.Plan.Basic
import Catalog.Proofs.Query.Meaning

/-!
# What sets and requests select

A set expression selects, read directly (`SetExpr.Selects`), what all members of a conjunction
select, or some member of a disjunction; what a set with a name selects is written out in
`SetExpr.NamedSelects`. Who may read a record is written out in `Requester.MayRead`, and what a
request demands of a record in `Requested`.

The conditions of sets (`SetExpr.gives_standsFor_conditionOf`) and the one that says who may read a
record (`Requester.standsFor_predicate`) stand for these statements. What is demanded of every
record is true of a document exactly if all that is requested is (`means_baseCondition`), so it is
true only of what the requester may read, whatever the filter and the sets are.

Together with the conditions that are read: simplification changes no meaning, and leaves a normal
form (`simplified_exactly`).
-/

namespace Catalog

open Condition

variable {P : Leaf → Prop}

/-- The comparison of the value at a path with an operand holds. -/
def Compares (P : Leaf → Prop) (path : String) (operator : Operator) (operand : Value) : Prop :=
  P { path, operator, operand }

theorem standsFor_compare (path : String) (operator : Operator) (operand : Value) :
    (compare path operator operand).StandsFor P (Compares P path operator operand) := .leaf _

/-- One of several values equals the value at a path. -/
theorem standsFor_eachEquals (path : String) (ids : List String) :
    (disj (ids.map fun id => .equals path (.text id))).StandsFor P
      (∃ id ∈ ids, Compares P path .eq (.text id)) :=
  (Alternatives.of_forall₂ (List.forall₂_map_right_iff.2
    (List.forall₂_same.2 fun _ _ => standsFor_compare _ _ _))).disj

namespace SetExpr

/-! ## Sets with a name -/

/-- A record is valid at a moment, and has been for some time. -/
def IsActive (P : Leaf → Prop) (now : Moment) : Prop :=
  (Compares P "_validUntilDateTime" .eq .null ∨
    Compares P "_validUntilDateTime" .gt (.instant now)) ∧
  Compares P "_validFromDateTime" .neq .null ∧ Compares P "_validFromDateTime" .lt (.instant now)

/-- A record has stopped being valid before a moment. -/
def IsExpired (P : Leaf → Prop) (now : Moment) : Prop :=
  Compares P "_validUntilDateTime" .neq .null ∧ Compares P "_validUntilDateTime" .lt (.instant now)

/-- A record has not become valid at a moment. -/
def IsPending (P : Leaf → Prop) (now : Moment) : Prop :=
  Compares P "_validFromDateTime" .eq .null ∨ Compares P "_validFromDateTime" .gt (.instant now)

/-- What happened to a record happened between two moments. -/
def WindowBase.Selects (P : Leaf → Prop) (start now : Moment) : WindowBase → Prop
  | .createds => Compares P "_createdDateTime" .between (.array [.instant start, .instant now])
  | .expireds =>
    Compares P "_validUntilDateTime" .neq .null ∧
    Compares P "_validUntilDateTime" .between (.array [.instant start, .instant now])
  | .actives =>
    (Compares P "_validUntilDateTime" .eq .null ∨
      Compares P "_validUntilDateTime" .gt (.instant now)) ∧
    Compares P "_validFromDateTime" .neq .null ∧
    Compares P "_validFromDateTime" .between (.array [.instant start, .instant now])
  | .pendings =>
    IsPending P now ∧
    Compares P "_createdDateTime" .between (.array [.instant start, .instant now])

/-- A window of time before a moment selects a record: it is empty, or what it is about happened in
    it. -/
def Window.Selects (P : Leaf → Prop) (now : Moment) (w : Window) : Prop :=
  ∃ n, Numeral.boundedValue? w.digits = some n ∧
    (n = 0 ∨ ∃ start, w.unit.before? now n = some start ∧ w.base.Selects P start now)

/-- A record belongs to an audience by two fields: to a user in it, to a group in it unless the
    record is private, or to nobody if nobody is in it. -/
def IsMember (P : Leaf → Prop) (usersField groupsField : String) (a : Audience) : Prop :=
  (∃ u ∈ a.users, Compares P usersField .eq (.text u)) ∨
  ((∃ g ∈ a.groups, Compares P groupsField .eq (.text g)) ∧
    Compares P "_visibility" .neq (.text "private")) ∨
  (a.users = [] ∧ a.groups = [] ∧
    Compares P (usersField ++ "Count") .eq (.int 0) ∧
    Compares P (groupsField ++ "Count") .eq (.int 0))

/-- Someone in an audience is an owner or viewer of a record. -/
def IsAddressed (P : Leaf → Prop) (a : Audience) : Prop :=
  (a.users ≠ [] ∧ (Compares P "_ownerUsers" .inq (.array (a.users.map .text)) ∨
    Compares P "_viewerUsers" .inq (.array (a.users.map .text)))) ∨
  (a.groups ≠ [] ∧ (Compares P "_ownerGroups" .inq (.array (a.groups.map .text)) ∨
    Compares P "_viewerGroups" .inq (.array (a.groups.map .text))))

/-- The set with a name selects a record; one with an unknown name selects every record, and one
    that is about an audience none if there is no audience. -/
def NamedSelects (P : Leaf → Prop) (now : Moment) (a : Option Audience) (name : String) : Prop :=
  match Window.ofName? name with
  | some w => w.Selects P now
  | none =>
    match name with
    | "actives" => IsActive P now
    | "expireds" => IsExpired P now
    | "pendings" => IsPending P now
    | "publics" => Compares P "_visibility" .eq (.text "public")
    | "privates" => Compares P "_visibility" .eq (.text "private")
    | "protecteds" => Compares P "_visibility" .eq (.text "protected")
    | "roots" => Compares P "_parentsCount" .eq (.int 0)
    | "owners" => ∃ b, a = some b ∧ IsMember P "_ownerUsers" "_ownerGroups" b
    | "viewers" => ∃ b, a = some b ∧ IsMember P "_viewerUsers" "_viewerGroups" b
    | "audience" => ∃ b, a = some b ∧ IsAddressed P b
    | _ => True

theorem standsFor_unexpired (now : Moment) : (disj [
    .equals "_validUntilDateTime" .null,
    .compare "_validUntilDateTime" .gt (.instant now)]).StandsFor P
      (Compares P "_validUntilDateTime" .eq .null ∨
        Compares P "_validUntilDateTime" .gt (.instant now)) :=
  (Alternatives.pair (standsFor_compare _ _ _) (standsFor_compare _ _ _)).disj

theorem standsFor_actives (now : Moment) : (actives now).StandsFor P (IsActive P now) :=
  .conj_triple (standsFor_unexpired now) (standsFor_compare _ _ _) (standsFor_compare _ _ _)

theorem standsFor_expireds (now : Moment) : (expireds now).StandsFor P (IsExpired P now) :=
  .conj_pair (standsFor_compare _ _ _) (standsFor_compare _ _ _)

theorem standsFor_pendings (now : Moment) : (pendings now).StandsFor P (IsPending P now) :=
  (Alternatives.pair (standsFor_compare _ _ _) (standsFor_compare _ _ _)).disj

theorem standsFor_windowBase (base : WindowBase) (start now : Moment) :
    (base.condition start now).StandsFor P (base.Selects P start now) := by
  cases base with
  | createds => exact standsFor_compare _ _ _
  | expireds => exact .conj_pair (standsFor_compare _ _ _) (standsFor_compare _ _ _)
  | actives =>
    exact .conj_triple (standsFor_unexpired now) (standsFor_compare _ _ _) (standsFor_compare _ _ _)
  | pendings => exact .conj_pair (standsFor_pendings now) (standsFor_compare _ _ _)

theorem gives_standsFor_window (w : Window) (now : Moment) :
    Gives (StandsFor P (w.Selects P now)) (w.condition now) := by
  intro c h
  obtain ⟨n, hn, h⟩ := bind_eq_ok.1 h
  replace hn := orFault_eq_ok.1 hn
  have selects : w.Selects P now ↔ n = 0 ∨ ∃ start, w.unit.before? now n = some start ∧
      w.base.Selects P start now := by
    unfold Window.Selects
    rw [hn]
    simp
  split at h
  · next hzero =>
    cases h
    exact StandsFor.always.congr (iff_of_true trivial (selects.2 (.inl hzero)))
  · next hzero =>
    obtain ⟨start, hstart, h⟩ := bind_eq_ok.1 h
    cases h
    replace hstart := orFault_eq_ok.1 hstart
    refine (standsFor_windowBase w.base start now).congr (selects.trans ?_).symm
    rw [hstart]
    simp [hzero]

theorem standsFor_membership (a : Option Audience) (usersField groupsField : String) :
    (membership a usersField groupsField).StandsFor P
      (∃ b, a = some b ∧ IsMember P usersField groupsField b) := by
  cases a with
  | none => exact StandsFor.never.congr (by simp)
  | some a =>
    have users := standsFor_eachEquals (P := P) usersField a.users
    have groups := (standsFor_eachEquals (P := P) groupsField a.groups).conj_pair
      (standsFor_compare "_visibility" .neq (.text "private"))
    rw [membership]
    by_cases nousers : a.users = []
    · by_cases nogroups : a.groups = []
      · rw [nousers, nogroups]
        exact (StandsFor.conj_pair (standsFor_compare _ _ _) (standsFor_compare _ _ _)).congr
          (by simp [IsMember, nousers, nogroups])
      · simp only [nousers, List.isEmpty_nil, if_true, List.isEmpty_eq_false_iff.2 nogroups]
        exact groups.congr (by simp [IsMember, nousers, nogroups])
    · by_cases nogroups : a.groups = []
      · simp only [nogroups, List.isEmpty_nil, if_true, List.isEmpty_eq_false_iff.2 nousers]
        exact users.congr (by simp [IsMember, nousers, nogroups])
      · simp only [List.isEmpty_eq_false_iff.2 nousers, List.isEmpty_eq_false_iff.2 nogroups]
        exact (Alternatives.pair users groups).disj.congr (by simp [IsMember, nousers, nogroups])

/-- The ids in one of two fields are alternatives, unless there are none. -/
theorem alternatives_among (ids : List String) (owners viewers : String) :
    Alternatives P (ids ≠ [] ∧ (Compares P owners .inq (.array (ids.map .text)) ∨
        Compares P viewers .inq (.array (ids.map .text))))
      (if ids.isEmpty then [] else [.compare owners .inq (.array (ids.map .text)),
        .compare viewers .inq (.array (ids.map .text))]) := by
  by_cases hids : ids = []
  · rw [if_pos (List.isEmpty_iff.2 hids)]
    exact Alternatives.nil.congr (iff_of_false id fun h => h.1 hids)
  · rw [if_neg (mt List.isEmpty_iff.1 hids)]
    exact (Alternatives.pair (standsFor_compare _ _ _) (standsFor_compare _ _ _)).congr
      (and_iff_right hids).symm

theorem standsFor_audience (a : Option Audience) :
    (audience a).StandsFor P (∃ b, a = some b ∧ IsAddressed P b) := by
  cases a with
  | none => exact StandsFor.never.congr (by simp)
  | some a =>
    exact ((alternatives_among a.users _ _).append (alternatives_among a.groups _ _)).disj.congr
      (by simp [IsAddressed])

theorem gives_standsFor_named (name : String) (a : Option Audience) (now : Moment) :
    Gives (StandsFor P (NamedSelects P now a name)) (namedCondition name a now) := by
  unfold namedCondition NamedSelects
  cases Window.ofName? name with
  | some w => exact gives_standsFor_window w now
  | none =>
    refine .ok ?_
    dsimp only
    split
    · exact standsFor_actives now
    · exact standsFor_expireds now
    · exact standsFor_pendings now
    · exact standsFor_compare _ _ _
    · exact standsFor_compare _ _ _
    · exact standsFor_compare _ _ _
    · exact standsFor_compare _ _ _
    · exact standsFor_membership a _ _
    · exact standsFor_membership a _ _
    · exact standsFor_audience a
    · simpa only [*] using StandsFor.always

/-! ## Set expressions -/

/-- A set expression selects a record: all members of a conjunction do, or one of a disjunction. -/
inductive Selects (P : Leaf → Prop) (now : Moment) : SetExpr → Prop where
  | named {name : String} {a : Option Audience} (h : NamedSelects P now a name) :
      Selects P now (.named name a)
  | and {es : List SetExpr} (h : ∀ e ∈ es, Selects P now e) : Selects P now (.and es)
  | or {es : List SetExpr} {e : SetExpr} (he : e ∈ es) (h : Selects P now e) :
      Selects P now (.or es)

variable {now : Moment} {es : List SetExpr}

theorem selects_named {name : String} {a : Option Audience} :
    Selects P now (.named name a) ↔ NamedSelects P now a name :=
  ⟨fun h => by cases h; assumption, .named⟩

theorem selects_and : Selects P now (.and es) ↔ ∀ e ∈ es, Selects P now e :=
  ⟨fun h => by cases h; assumption, .and⟩

theorem selects_or : Selects P now (.or es) ↔ ∃ e ∈ es, Selects P now e :=
  ⟨fun h => by cases h with | or he h => exact ⟨_, he, h⟩, fun ⟨_, he, h⟩ => .or he h⟩

mutual

/-- The condition of a set expression stands for what it selects. -/
theorem gives_standsFor_condition (now : Moment) :
    ∀ e : SetExpr, Gives (StandsFor P (e.Selects P now)) (e.condition now)
  | .named name a => fun c hc => (gives_standsFor_named name a now c hc).congr selects_named.symm
  | .and es => (gives_standsFor_conditions now es).bind fun _ h =>
    .ok ((StandsFor.conj h).congr selects_and.symm)
  | .or es => (gives_standsFor_conditions now es).bind fun _ h =>
    .ok ((Alternatives.of_forall₂ h).disj.congr selects_or.symm)

theorem gives_standsFor_conditions (now : Moment) : ∀ es : List SetExpr,
    Gives (List.Forall₂ (fun e c => StandsFor P (e.Selects P now) c) es) (conditions now es)
  | [] => .ok .nil
  | e :: es => (gives_standsFor_condition now e).bind fun _ hc =>
    (gives_standsFor_conditions now es).bind fun _ h => .ok (.cons hc h)

end

/-- A set that may be missing selects a record. -/
def SelectsIfGiven (P : Leaf → Prop) (now : Moment) (set : Option SetExpr) : Prop :=
  ∀ e, set = some e → e.Selects P now

theorem gives_standsFor_conditionOf (now : Moment) (set : Option SetExpr) :
    Gives (StandsFor P (SelectsIfGiven P now set)) (conditionOf now set) := by
  cases set with
  | none => exact .ok (StandsFor.always.congr (by simp [SelectsIfGiven]))
  | some e => exact fun c hc =>
      (gives_standsFor_condition now e c hc).congr (by simp [SelectsIfGiven])

end SetExpr

/-! ## Access -/

namespace Requester

/-- A requester may read a record that says who may: it is public; the user is an owner or viewer;
    or one of the groups is, and the record is not private. -/
def MayRead (P : Leaf → Prop) (r : Requester) : Prop :=
  Compares P "_visibility" .eq (.text "public") ∨
  (∃ u, r.user = some u ∧
    (Compares P "_ownerUsers" .eq (.text u) ∨ Compares P "_viewerUsers" .eq (.text u))) ∨
  (r.groups ≠ [] ∧
    (Compares P "_ownerGroups" .inq (.array (r.groups.map .text)) ∨
      Compares P "_viewerGroups" .inq (.array (r.groups.map .text))) ∧
    Compares P "_visibility" .neq (.text "private"))

theorem alternatives_userClauses (r : Requester) :
    Alternatives P (∃ u, r.user = some u ∧ (Compares P "_ownerUsers" .eq (.text u) ∨
      Compares P "_viewerUsers" .eq (.text u))) r.userClauses := by
  rw [userClauses]
  cases r.user with
  | none => exact Alternatives.nil.congr (by simp)
  | some u =>
    exact (Alternatives.pair (standsFor_compare _ _ _) (standsFor_compare _ _ _)).congr (by simp)

theorem alternatives_groupClauses (r : Requester) :
    Alternatives P (r.groups ≠ [] ∧
      (Compares P "_ownerGroups" .inq (.array (r.groups.map .text)) ∨
        Compares P "_viewerGroups" .inq (.array (r.groups.map .text))) ∧
      Compares P "_visibility" .neq (.text "private")) r.groupClauses := by
  rw [groupClauses]
  by_cases hgroups : r.groups = []
  · rw [if_pos (List.isEmpty_iff.2 hgroups)]
    exact Alternatives.nil.congr (iff_of_false id fun h => h.1 hgroups)
  · rw [if_neg (mt List.isEmpty_iff.1 hgroups)]
    have groups := (Alternatives.pair (P := P)
      (standsFor_compare "_ownerGroups" .inq (.array (r.groups.map .text)))
      (standsFor_compare "_viewerGroups" .inq (.array (r.groups.map .text)))).disj
    exact (Alternatives.cons (groups.conj_pair (standsFor_compare _ _ _)) .nil).congr
      (by simp [hgroups])

/-- The condition that a requester may read a record stands for this, where access is controlled
    and the record says who may read it. -/
theorem standsFor_predicate (r : Requester) (enabled hasAccessFields : Bool) :
    (r.predicate enabled hasAccessFields).StandsFor P
      (enabled = true → hasAccessFields = true → r.MayRead P) := by
  rw [predicate]
  by_cases hopen : (!enabled || !hasAccessFields) = true
  · rw [if_pos hopen]
    refine StandsFor.always.congr (iff_of_true trivial fun henabled hfields => ?_)
    rw [henabled, hfields] at hopen
    cases hopen
  · rw [if_neg hopen]
    have all := (Alternatives.cons (standsFor_compare "_visibility" .eq (.text "public"))
      r.alternatives_userClauses (P := P)).append r.alternatives_groupClauses
    refine all.disj.congr ?_
    simp only [Bool.or_eq_true, Bool.not_eq_true', not_or, Bool.not_eq_false] at hopen
    rw [or_assoc]
    exact ⟨fun h _ _ => h, fun h => h hopen.1 hopen.2⟩

end Requester

/-! ## What a request selects -/

/-- A record is what a request demands: the condition and set of its filter, the set of the request,
    that the requester may read the record, and what is demanded besides. -/
structure Requested (P : Leaf → Prop) (ctx : Context) (f : Family) (condition : Value)
    (filterSet set : Option SetExpr) (extra : Prop) : Prop where
  condition : Filter.WhereMeans P condition
  filterSet : SetExpr.SelectsIfGiven P ctx.now filterSet
  set : SetExpr.SelectsIfGiven P ctx.now set
  access : (ctx.config.accessControl && ctx.enforceAccess) = true → f.hasAccessFields = true →
    ctx.requester.MayRead P
  extra : extra

variable {ctx : Context} {f : Family} {filter : Filter} {set : Option SetExpr}
  {extra c : Condition} {doc : Value}

/-- The parts of what is demanded of every record stand for the parts of what is requested. -/
theorem exists_parts {v : Value} (hv : Filter.readCondition v = .ok filter.condition)
    (h : baseCondition ctx f filter set extra = .ok c) :
    ∃ own given, c = conj [filter.condition, own, given, ctx.access f, extra] ∧
      filter.condition.StandsFor P (Filter.WhereMeans P v) ∧
      own.StandsFor P (SetExpr.SelectsIfGiven P ctx.now filter.set) ∧
      given.StandsFor P (SetExpr.SelectsIfGiven P ctx.now set) ∧
      (ctx.access f).StandsFor P ((ctx.config.accessControl && ctx.enforceAccess) = true →
        f.hasAccessFields = true → ctx.requester.MayRead P) := by
  obtain ⟨own, hown, h⟩ := bind_eq_ok.1 h
  obtain ⟨given, hgiven, h⟩ := bind_eq_ok.1 h
  cases h
  exact ⟨own, given, rfl, Filter.gives_standsFor_readCondition v _ hv,
    SetExpr.gives_standsFor_conditionOf _ _ _ hown,
    SetExpr.gives_standsFor_conditionOf _ _ _ hgiven, ctx.requester.standsFor_predicate _ _⟩

theorem means_baseCondition {v : Value} (hv : Filter.readCondition v = .ok filter.condition)
    (h : baseCondition ctx f filter set extra = .ok c) :
    c.Means doc
      (Requested (Leaf.HoldsOf doc) ctx f v filter.set set (extra.holds doc = .ok true)) := by
  obtain ⟨own, given, hc, hcondition, hown, hgiven, haccess⟩ := exists_parts hv h
  -- The leaves of `extra` are not all among those of `c` where another part is never true, so what
  -- holds of `extra` is taken from matching and not from its leaves.
  refine means_of fun hleaves => ⟨fun h => ?_, fun h => ?_⟩
  · rw [hc, holds_conj] at h
    simp only [List.forall_mem_cons] at h
    obtain ⟨h₁, h₂, h₃, h₄, h₅, -⟩ := h
    exact ⟨hcondition.trueIn.1 (trueIn_of_holds _ h₁), hown.trueIn.1 (trueIn_of_holds _ h₂),
      hgiven.trueIn.1 (trueIn_of_holds _ h₃), haccess.trueIn.1 (trueIn_of_holds _ h₄), h₅⟩
  · rw [holds_eq_true hleaves, hc, trueIn_conj]
    simp only [List.forall_mem_cons]
    exact ⟨hcondition.trueIn.2 h.condition, hown.trueIn.2 h.filterSet, hgiven.trueIn.2 h.set,
      haccess.trueIn.2 h.access, trueIn_of_holds _ h.extra, List.forall_mem_nil _⟩

/-- The conditions that are read, those of sets, the one that says who may read a record, and what
    is demanded of every record, are in normal form and mean what is written down, although they
    are simplified as they are built. What is demanded holds only of what may be read. -/
theorem simplified_exactly (doc : Value) :
    (∀ v c, Condition.read v = .ok c →
      c.Normal ∧ c.Means doc (Condition.WhereMeans (Leaf.HoldsOf doc) v)) ∧
    (∀ now set c, SetExpr.conditionOf now set = .ok c →
      c.Normal ∧ c.Means doc (SetExpr.SelectsIfGiven (Leaf.HoldsOf doc) now set)) ∧
    (∀ (r : Requester) enabled hasAccessFields, (r.predicate enabled hasAccessFields).Normal ∧
      (r.predicate enabled hasAccessFields).Means doc
        (enabled = true → hasAccessFields = true → r.MayRead (Leaf.HoldsOf doc))) ∧
    (∀ ctx f v filter set extra c, Filter.readCondition v = .ok filter.condition →
      baseCondition ctx f filter set extra = .ok c →
      (extra.Normal → c.Normal) ∧
      c.Means doc (Requested (Leaf.HoldsOf doc) ctx f v filter.set set
        (extra.holds doc = .ok true)) ∧
      (c.holds doc = .ok true → (ctx.access f).holds doc = .ok true)) ∧
    (∀ (c : Condition) key, c.Normal → (c.prefixed key).Normal) := by
  refine ⟨fun v c hc => ?_, fun now set c hc => ?_, fun r enabled hasAccessFields => ?_,
    fun ctx f v filter set extra c hv hc => ?_, fun c key hc => hc.prefixed key⟩
  · have stands := Condition.gives_standsFor_read (P := Leaf.HoldsOf doc) v c hc
    exact ⟨stands.normal, stands.means⟩
  · have stands := SetExpr.gives_standsFor_conditionOf (P := Leaf.HoldsOf doc) now set c hc
    exact ⟨stands.normal, stands.means⟩
  · have stands := r.standsFor_predicate (P := Leaf.HoldsOf doc) enabled hasAccessFields
    exact ⟨stands.normal, stands.means⟩
  · obtain ⟨own, given, heq, hcondition, hown, hgiven, haccess⟩ :=
      exists_parts (P := Leaf.HoldsOf doc) hv hc
    refine ⟨fun hextra => ?_, means_baseCondition hv hc, fun h => ?_⟩
    · rw [heq]
      refine normal_conj ?_
      simp only [List.forall_mem_cons]
      exact ⟨hcondition.normal, hown.normal, hgiven.normal, haccess.normal, hextra,
        List.forall_mem_nil _⟩
    · rw [heq, holds_conj] at h
      exact h _ (by simp)

/-- Where connectives are nested, the condition is flat, and it means what is written down. -/
theorem simplified_exactly_nested :
    let v : Value := .object [("or", .array [
      .object [("or", .array [.object [("a", .null)], .object [("b.c", .null)]])],
      .object [("f", .object [("g", .object [("exists", .bool true), ("neq", .bool true)])])]])]
    let c : Condition := .or [.equals "a" .null, .equals "b.c" .null,
      .and [.compare "f.g" .present (.bool true), .compare "f.g" .neq (.bool true)]]
    let doc : Value := .object [("a", .bool true), ("b", .object [("c", .bool true)]),
      ("f", .object [("g", .bool false)])]
    Condition.read v = .ok c ∧ c.Normal ∧ c.holds doc = .ok true ∧
      WhereMeans (Leaf.HoldsOf doc) v := by
  intro v c doc
  have hread : Condition.read v = .ok c := rfl
  have hleaves : c.AllLeaves (Leaf.Answers doc) := by
    refine .or ?_
    rw [List.forall_mem_cons, List.forall_mem_cons, List.forall_mem_singleton]
    refine ⟨.leaf ⟨_, rfl⟩, .leaf ⟨_, rfl⟩, .and ?_⟩
    rw [List.forall_mem_cons, List.forall_mem_singleton]
    exact ⟨.leaf ⟨_, rfl⟩, .leaf ⟨_, rfl⟩⟩
  obtain ⟨normal, means⟩ := (simplified_exactly doc).1 v c hread
  obtain ⟨b, hb, htrue⟩ := means hleaves
  have holds : c.holds doc = .ok true := rfl
  cases hb.symm.trans holds
  exact ⟨hread, normal, holds, htrue.1 rfl⟩
end Catalog
