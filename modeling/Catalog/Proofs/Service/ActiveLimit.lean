import Catalog.Proofs.Query.Testing
import Catalog.Proofs.Service.Capacity
import Catalog.Proofs.Time.Earlier

/-!
# Limits on active records

A record that becomes valid by being made is to be among the active ones, so a limit with the scope
`set[actives]` judges a new record one millisecond after the request. The stored records it counts
as they are at the request: a new record is refused exactly if at least as many as the limit are
active then (`active_limit_exact`).

So the records that become valid within the millisecond after the request, or at the request, do not
count. Those that have become valid before the request do if they are active after the millisecond:
what stops being valid is not brought back (`met_actives_earlier`).
-/

namespace Catalog

open Text

/-! ## The set of active records -/

/-- The scope is that of the set. -/
theorem Scope.read_actives (owners : Option Audience) :
    Scope.read "set[actives]" owners = .ok { set := some (.named "actives" none) } := by
  have cut : Bracket.pairs "set[actives]" = [("set[actives]", "")] := by decide +kernel
  have path : Bracket.path "set[actives]" = ["set", "actives"] := by decide +kernel
  have decoded : decodeQuery "set[actives]" =
      .ok (.object [("set", .object [("actives", .text "")])]) := by
    rw [decodeQuery, cut, Bracket.written, List.foldl_cons, List.foldl_nil, path]
    rfl
  have set : SetExpr.read (.object [("actives", .text "")]) =
      .ok (some (.named "actives" none)) := by
    have name : lower (trim "actives") = "actives" := by decide +kernel
    rw [SetExpr.read, SetExpr.readMembers, name]
    rfl
  rw [Scope.read, if_neg (by decide +kernel), decoded, lift_ok, ok_bind]
  refine bind_eq_ok.2 ⟨_, set, bind_eq_ok.2 ⟨{}, rfl, ?_⟩⟩
  cases owners <;> rfl

namespace SetExpr

variable {now later : Moment} {d : Document}

theorem condition_actives (now : Moment) :
    SetExpr.condition now (.named "actives" none) = .ok (actives now) := by
  have plain : Window.ofName? "actives" = none := by decide
  unfold SetExpr.condition namedCondition
  rw [plain]
  rfl

/-- Where a test has an answer, it holds if it holds of what another one does. -/
theorem anyItem_of_imp {p q : Value → Except Fault Bool}
    (hpq : ∀ v, p v = .ok true → q v = .ok true) {v : Value} (hp : anyItem p v = .ok true)
    {b : Bool} (hq : anyItem q v = .ok b) : b = true := by
  cases v with
  | array items =>
    obtain ⟨x, hx, hpx⟩ := Condition.exists_of_anyM hp
    exact Condition.eq_true_of_anyM hq hx (hpq x hpx)
  | _ => exact Except.ok.inj (hq.symm.trans (hpq _ hp))

/-- What is after a moment is after an earlier one. -/
theorem gt_earlier (hle : now.micros ≤ later.micros) {v : Value}
    (h : inOrder Ordering.isGT v (.instant later) none = .ok true) {b : Bool}
    (hb : inOrder Ordering.isGT v (.instant now) none = .ok b) : b = true := by
  refine anyItem_of_imp (fun v hv => ?_) h hb
  rw [order?_instant] at hv ⊢
  cases hu : instantOf v with
  | error e =>
    rw [hu] at hv
    cases hv
  | ok u =>
    rw [hu] at hv
    cases u with
    | none => cases hv
    | some u =>
      have after : (u.compare later).isGT = true := Except.ok.inj hv
      rw [Moment.compare, Ordering.isGT_iff_eq_gt, Int.compare_eq_gt] at after
      have before : (u.compare now).isGT = true := by
        rw [Moment.compare, Ordering.isGT_iff_eq_gt, Int.compare_eq_gt]
        omega
      exact congrArg Except.ok before

/-- What does not stop being valid until after a moment does not until after an earlier one. -/
theorem lasts_earlier (hle : now.micros ≤ later.micros)
    (h : (Condition.or [.equals "_validUntilDateTime" .null,
      .compare "_validUntilDateTime" .gt (.instant later)]).Met d) {b : Bool}
    (hb : (Condition.or [.equals "_validUntilDateTime" .null,
      .compare "_validUntilDateTime" .gt (.instant now)]).holds (.object d) = .ok b) :
    b = true := by
  obtain ⟨unlimited, hnull, h⟩ := bind_eq_ok.1 h
  obtain ⟨unlimited', hnull', hb⟩ := bind_eq_ok.1 hb
  cases hnull.symm.trans hnull'
  cases unlimited with
  | true =>
    cases hb
    rfl
  | false =>
    obtain ⟨lasts, hgt, h⟩ := bind_eq_ok.1 h
    obtain ⟨lasts', hgt', hb⟩ := bind_eq_ok.1 hb
    cases lasts with
    | false => cases h
    | true =>
      cases gt_earlier hle hgt hgt'
      cases hb
      rfl

/-- What is active at a moment, and had become valid before an earlier one, was active then. -/
theorem met_actives_earlier (hle : now.micros ≤ later.micros)
    (hanswer : ∃ b, (actives now).holds (.object d) = .ok b) (hlater : (actives later).Met d)
    (hstart : (Condition.compare "_validFromDateTime" .lt (.instant now)).Met d) :
    (actives now).Met d := by
  rw [actives, Condition.met_conj] at hlater ⊢
  simp only [List.forall_mem_cons] at hlater ⊢
  obtain ⟨hlasts, hstarts, -⟩ := hlater
  obtain ⟨b, hb⟩ := hanswer
  obtain ⟨lasts, hlasts', -⟩ := bind_eq_ok.1 hb
  cases lasts_earlier hle hlasts hlasts'
  exact ⟨hlasts', hstarts, hstart, List.forall_mem_nil _⟩

end SetExpr

namespace Service

variable {ctx : Context} {s : Store} {f : Family} {payload : Value} {id : String} {doc : Document}
  {rule : LimitRule} {later : Moment}

/-! ## The check of a limit on active records -/

theorem baseCondition_actives (ha : ctx.access f = .always) :
    baseCondition ctx f {} (some (.named "actives" none)) .always = .ok
      (.conj [SetExpr.actives ctx.now, .always, .always, ctx.access f, .always]) := by
  rw [baseCondition, SetExpr.conditionOf, SetExpr.conditionOf, SetExpr.condition_actives, ha]
  rfl

/-- A new record that is active a millisecond after the request is refused by a limit on active
    records if at least as many are active at the request, and else it passes. -/
theorem check_actives (hscope : rule.scope = "set[actives]")
    (howners : ∃ owners, ownersOf doc = .ok owners) (hlater : ctx.now.shift? 1000 = some later)
    (hdoc : (SetExpr.actives later).Met doc)
    (hstored : (SetExpr.actives ctx.now).Answers (s.scan (ctx.collection f))) :
    rule.check ctx.unrestricted s f doc .null =
      if rule.limit ≤ numberIn ctx.config f (SetExpr.actives ctx.now) s then
        refuse (.limitExceeded f rule.limit "set[actives]")
      else .ok () := by
  obtain ⟨owners, howners⟩ := howners
  have rendered : Template.render rule.scope (.object doc) = "set[actives]" := by
    rw [hscope]
    exact Template.render_of_plain (by decide) _
  have after := afterWriting_unrestricted hlater
  have access := (access_afterWriting after f).trans (access_unrestricted ctx f)
  have inScope := baseCondition_actives access
  rw [access] at inScope
  -- The stored records are counted at the request, and not at the moment the new one is judged at.
  have counted :
      countInScope ctx.unrestricted s f { set := some (.named "actives" none) } .always =
        .ok (numberIn ctx.config f (SetExpr.actives ctx.now) s) :=
    countInScope_of_answers (access_unrestricted ctx f)
      (baseCondition_actives (access_unrestricted ctx f)) rfl hstored
  have hread : Scope.read (Template.render rule.scope (.object doc)) (some owners) =
      .ok { set := some (.named "actives" none) } := by
    rw [rendered]
    exact Scope.read_actives _
  rw [LimitRule.check_of_holds after howners hread inScope hdoc, if_pos rfl, leavingOut,
    if_neg (by decide), counted, ok_bind, rendered]
  rfl

/-! ## New records under a limit on active records -/

theorem newRecord_of_create (h : ((create ctx f payload id).run s).1 = .ok doc) :
    newRecord ctx s f payload id = .ok doc := by
  cases hrun : (create ctx f payload id).run s with
  | mk made s' =>
    rw [hrun] at h
    cases h
    exact (run_create_ok hrun).1

/-- A new record comes to a limit on active records that it falls under: it has passed what is
    checked before, and is active one millisecond after the request. -/
structure ReachesActiveLimit (ctx : Context) (s : Store) (f : Family) (payload : Value)
    (id : String) (rule : LimitRule) (doc : Document) : Prop where
  /-- It is made of the payload and refers to stored records as it may. -/
  prepared : Prepared ctx s f payload id doc
  /-- The limit is one of those for its kind, and it passes the ones before. -/
  given : ∃ before after, (ctx.config.policy f).limitsFor (Value.orNull (doc.get? "_kind")) =
    .ok (before ++ rule :: after) ∧
      ∀ earlier ∈ before, earlier.check ctx.unrestricted s f doc .null = .ok ()
  /-- The scope is that of the active records. -/
  scope : rule.scope = "set[actives]"
  /-- It is active when it has been written. -/
  active : ∃ later, ctx.now.shift? 1000 = some later ∧ (SetExpr.actives later).Met doc

/-- The records that are active one millisecond after a request and had become valid before it. -/
def lastingIn (ctx : Context) (f : Family) (later : Moment) (s : Store) : Nat :=
  (s.scan (ctx.collection f)).countP fun d => (SetExpr.actives later).met d &&
    (Condition.compare "_validFromDateTime" .lt (.instant ctx.now)).met d

/-- A limit on active records refuses a new record exactly if at least as many are active at the
    request. So it does if at least as many are active after the millisecond that had become valid
    before the request. -/
theorem active_limit_exact (hc : ctx.config.Separate)
    (h : ReachesActiveLimit ctx s f payload id rule doc)
    (hstored : (SetExpr.actives ctx.now).Answers (s.scan (ctx.collection f))) :
    (rule.limit ≤ numberIn ctx.config f (SetExpr.actives ctx.now) s →
      ((create ctx f payload id).run s).1 =
        .error (.refused (.limitExceeded f rule.limit "set[actives]"))) ∧
    (numberIn ctx.config f (SetExpr.actives ctx.now) s < rule.limit →
      rule.check ctx.unrestricted s f doc .null = .ok ()) ∧
    ∀ later, ctx.now.shift? 1000 = some later → rule.limit ≤ lastingIn ctx f later s →
      ((create ctx f payload id).run s).1 =
        .error (.refused (.limitExceeded f rule.limit "set[actives]")) := by
  obtain ⟨before, after, hrules, hbefore⟩ := h.given
  obtain ⟨later, hlater, hdoc⟩ := h.active
  obtain ⟨body, now, -, -, hmade⟩ := h.prepared.made
  obtain ⟨owners, howners, -⟩ := Record.ownersOf_of_checkShape (Record.checkShape_create hmade)
  have clock : afterWriting ctx.unrestricted = .ok { ctx.unrestricted with now := later } :=
    afterWriting_unrestricted hlater
  have checked := check_actives h.scope ⟨owners, howners⟩ hlater hdoc hstored
  have refused (full : rule.limit ≤ numberIn ctx.config f (SetExpr.actives ctx.now) s) :
      ((create ctx f payload id).run s).1 =
        .error (.refused (.limitExceeded f rule.limit "set[actives]")) := by
    rw [if_pos full] at checked
    refine run_create_refused.2 (newRecord_of_checkLimits h.prepared ?_)
    rw [checkLimits, clock, lift_ok, ok_bind, howners, lift_ok, ok_bind, hrules, lift_ok, ok_bind,
      hc.family f, forM_eq_error.2 ⟨before, _, after, rfl, hbefore, checked⟩]
  refine ⟨refused, fun room => ?_, fun later' hlater' hmany => refused (Int.le_trans hmany ?_)⟩
  · rw [checked, if_neg (Int.not_le.2 room)]
  · cases hlater.symm.trans hlater'
    -- What had begun before the request and lasts beyond the millisecond is active at the request.
    have hle : ctx.now.micros ≤ later.micros := by
      rw [Moment.micros_shift? hlater]
      omega
    refine Int.ofNat_le.2 (List.countP_mono_left fun d hd hlasting => ?_)
    rw [Bool.and_eq_true, Condition.met_iff, Condition.met_iff] at hlasting
    exact Condition.met_iff.2
      (SetExpr.met_actives_earlier hle (hstored d hd) hlasting.1 hlasting.2)

/-! ## Records that are made at one moment -/

/-- A request to a catalogue that approves its entities at once, of which at most one may be
    active. -/
def approvingContext : Context where
  config :=
    { policy := fun f =>
        if f = .entities then
          { Policy.standard f with
            limitRules := [⟨"set[actives]", 1⟩], autoapprove := { default := true } }
        else Policy.standard f }
  now := (Moment.read? "2024-06-01T12:00:00Z").getD ⟨.first, 0⟩

theorem separate_approvingContext : approvingContext.config.Separate where
  family f := by cases f <;> rfl
  collections f g := by cases f <;> cases g <;> decide

/-- An entity with a name. -/
def entityNamed (name : String) : Value := .object [("_name", .text name)]

/-- The store after one entity has been made. -/
def afterOne : Store :=
  performAll approvingContext [.create .entities (entityNamed "A") "a"] {}

/-- A millisecond later. -/
def laterContext : Context :=
  { approvingContext with now := (approvingContext.now.shift? 1000).getD approvingContext.now }

/-- The only limit is given for entities of every kind. -/
theorem limitsFor_approvingContext (kind : String) :
    (approvingContext.config.policy .entities).limitsFor (.text kind) =
      .ok [⟨"set[actives]", 1⟩] := by
  obtain ⟨rules, hrules⟩ :=
    (approvingContext.config.policy .entities).exists_limitsFor (some kind)
  exact hrules.trans (congrArg Except.ok (Policy.limitsFor_of_uncounted rfl hrules))

/-- An entity that is active when it has been written comes to the limit. -/
theorem reachesActiveLimit (hconfig : ctx.config = approvingContext.config)
    (hp : Prepared ctx s .entities payload id doc) (hlater : ctx.now.shift? 1000 = some later)
    (hdoc : (SetExpr.actives later).Met doc) :
    ReachesActiveLimit ctx s .entities payload id ⟨"set[actives]", 1⟩ doc where
  prepared := hp
  given := by
    obtain ⟨body, now, -, -, hmade⟩ := hp.made
    obtain ⟨kind, hkind⟩ := Record.get?_kind_create hmade
    refine ⟨[], [], ?_, List.forall_mem_nil _⟩
    rw [hkind, hconfig]
    exact limitsFor_approvingContext kind
  scope := rfl
  active := ⟨later, hlater, hdoc⟩

/-- A millisecond after an entity has been made, another one comes to the limit and is refused. -/
theorem active_limit_exact_laterContext : ∃ doc,
    ReachesActiveLimit laterContext afterOne .entities (entityNamed "B") "b" ⟨"set[actives]", 1⟩
        doc ∧
      ((create laterContext .entities (entityNamed "B") "b").run afterOne).1 =
        .error (.refused (.limitExceeded .entities 1 "set[actives]")) := by
  have made : (laterContext.instant.toOption.bind fun now =>
      (Record.create (laterContext.config.policy .entities) [("_name", .text "B")]
        laterContext.requester now "b").toOption).any (fun doc =>
          (referenceTargets laterContext afterOne .entities doc).toOption.isSome &&
          (checkReferences laterContext.config afterOne (laterContext.config.policy .entities)
            doc).toOption.isSome &&
          (laterContext.now.shift? 1000).any fun later => (SetExpr.actives later).met doc) =
      true := by
    decide +kernel
  obtain ⟨doc, hdoc, h⟩ := (Option.any_eq_true _ _).1 made
  rw [Bool.and_eq_true, Bool.and_eq_true] at h
  obtain ⟨⟨targets, references⟩, h⟩ := h
  obtain ⟨now, hnow, hdoc⟩ := Option.bind_eq_some_iff.1 hdoc
  obtain ⟨found, hfound⟩ := Option.isSome_iff_exists.1 targets
  obtain ⟨⟨⟩, hreferences⟩ := Option.isSome_iff_exists.1 references
  obtain ⟨later, hlater, hmet⟩ := (Option.any_eq_true _ _).1 h
  have prepared : Prepared laterContext afterOne .entities (entityNamed "B") "b" doc :=
    { made := ⟨[("_name", .text "B")], now, rfl, toOption_eq_some.1 hnow, toOption_eq_some.1 hdoc⟩
      targets := ⟨found, toOption_eq_some.1 hfound⟩
      references := toOption_eq_some.1 hreferences }
  have same : laterContext.config = approvingContext.config := rfl
  have separate : laterContext.config.Separate := separate_approvingContext
  have reaches := reachesActiveLimit same prepared hlater (Condition.met_iff.1 hmet)
  have stored : (SetExpr.actives laterContext.now).Answers (afterOne.scan "GenericEntity") := by
    have answers : (afterOne.scan "GenericEntity").all (fun d =>
        ((SetExpr.actives laterContext.now).holds (.object d)).toOption.isSome) = true := by
      decide +kernel
    exact fun d hd => (Option.isSome_iff_exists.1 (List.all_eq_true.1 answers d hd)).imp
      fun _ => toOption_eq_some.1
  have full : (1 : Int) ≤ numberIn laterContext.config .entities
      (SetExpr.actives laterContext.now) afterOne := by
    decide +kernel
  exact ⟨doc, reaches, (active_limit_exact separate reaches stored).1 full⟩

/-- Two entities that are made at one moment both come to be active under a limit of one: the second
    is active a millisecond later, as is the first, which does not count. -/
theorem active_limit_exceeded : ∃ doc later,
    ReachesActiveLimit approvingContext afterOne .entities (entityNamed "B") "b"
        ⟨"set[actives]", 1⟩ doc ∧
      approvingContext.now.shift? 1000 = some later ∧
      1 ≤ numberIn approvingContext.config .entities (SetExpr.actives later) afterOne ∧
      ((create approvingContext .entities (entityNamed "B") "b").run afterOne).1 = .ok doc := by
  have met : (approvingContext.now.shift? 1000).any (fun later =>
      ((create approvingContext .entities (entityNamed "B") "b").run afterOne).1.toOption.any
        (fun doc => (SetExpr.actives later).met doc) &&
      decide (1 ≤ numberIn approvingContext.config .entities (SetExpr.actives later) afterOne)) =
      true := by
    decide +kernel
  obtain ⟨later, hlater, h⟩ := (Option.any_eq_true _ _).1 met
  rw [Bool.and_eq_true, decide_eq_true_iff] at h
  obtain ⟨doc, hdoc, hmet⟩ := (Option.any_eq_true _ _).1 h.1
  have run := toOption_eq_some.1 hdoc
  have made : newRecord approvingContext afterOne .entities (entityNamed "B") "b" = .ok doc :=
    newRecord_of_create run
  have same : approvingContext.config = approvingContext.config := rfl
  have reaches := reachesActiveLimit same (newRecord_eq_ok made).1 hlater (Condition.met_iff.1 hmet)
  exact ⟨doc, later, reaches, hlater, h.2, run⟩

end Service

end Catalog
