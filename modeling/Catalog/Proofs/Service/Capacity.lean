import Catalog.Proofs.Record.Shape
import Catalog.Proofs.Rule.Apart
import Catalog.Proofs.Rule.Room
import Catalog.Proofs.Rule.Unlimited
import Catalog.Proofs.Service.Change

/-!
# Limits

A limit on the records in a scope (`Policy.Caps`) holds after every run of requests that write one
record at a time, if it did at the start (`limit_kept`): a record that enters the scope has found
room there, be it new or a new version, and no other step brings one in. The records of a collection
must be told apart by their ids, so that a new version is not counted without another record.

And a limit refuses nothing else (`limited_iff`): if it is the only one, a record is refused by it
exactly if it has passed the checks of its kind, shape and references, is in the scope, and the
scope is full.
-/

namespace Catalog

/-- A limit for records of all kinds, whose scope is the same for all of them and says no ids. -/
structure Policy.Caps (p : Policy) (rule : LimitRule) (c : Condition) : Prop where
  /-- The scope is that of a condition. -/
  scope : FixedScope rule.scope c
  /-- The condition says no ids. -/
  silent : c.ids? = .ok none
  /-- The limit holds for every kind. -/
  always : ∀ kind rules, p.limitsFor kind = .ok rules → rule ∈ rules

/-- A limit for the records in a scope, which is the same for all of them and says no ids. -/
structure Policy.CapsScope (p : Policy) (rule : LimitRule) (c : Condition) : Prop where
  /-- The scope is that of a condition. -/
  scope : FixedScope rule.scope c
  /-- The condition says no ids. -/
  silent : c.ids? = .ok none
  /-- The limit holds for the records in the scope. -/
  binds : ∀ doc, c.Met doc → p.Binds rule doc

/-- A limit for records of all kinds is one for those in its scope. -/
theorem Policy.Caps.capsScope {p : Policy} {rule : LimitRule} {c : Condition}
    (h : p.Caps rule c) : p.CapsScope rule c where
  scope := h.scope
  silent := h.silent
  binds _ _ := h.always _

/-- The only limit for the records of a family. -/
structure Policy.CapsAlone (p : Policy) (rule : LimitRule) (c : Condition) : Prop
    extends p.Caps rule c where
  /-- There is no other rule. -/
  only : ∀ kind rules, p.limitsFor kind = .ok rules → rules = [rule]
  /-- Lists may hold as many entities as there are. -/
  lists : ∀ kind limit, p.listEntityLimit.get kind ≠ .ok (some limit)

namespace Service

variable {ctx : Context} {config : Configuration} {s s' t : Store} {f : Family}
  {rule : LimitRule} {c : Condition}

/-- The number of records of a family that meet a condition. -/
def numberIn (config : Configuration) (f : Family) (c : Condition) (s : Store) : Nat :=
  (s.scan (config.policy f).collection).countP c.met

theorem selects_of_silent (h : c.ids? = .ok none) (d : Document) : c.selects d = c.met d := by
  rw [Condition.selects, Condition.admits, h, Bool.and_true]

/-! ## No step exceeds a limit -/

/-- A new record in the scope of a limit has found room there. -/
theorem room_added (hc : ctx.config.Separate) (hk : s.Keyed)
    (hr : (ctx.config.policy f).CapsScope rule c) {doc : Document}
    (h : checkRules ctx s f doc .null = .ok ()) (hd : c.Met doc) :
    (numberIn ctx.config f c s : Int) < rule.limit := by
  have checked := limit_of_checkRules (hc.family f) h (hr.binds _ hd)
  refine LimitRule.room_of_check hk (access_unrestricted ctx f) hr.scope checked hd
    fun e _ he => ⟨?_, rfl⟩
  rwa [selects_of_silent hr.silent]

/-- A new version in the scope of a limit has found room there beside the other records. -/
theorem room_revised (hc : ctx.config.Separate) (hk : s.Keyed)
    (hr : (ctx.config.policy f).CapsScope rule c) {before after : List Document}
    {old new : Document}
    (hscan : s.scan (ctx.collection f) = before ++ old :: after)
    (hapart : ToldApart (s.scan (ctx.collection f))) (hid : new.get? "_id" = old.get? "_id")
    (h : checkChanged ctx s f new = .ok ()) (hd : c.Met new) :
    ((before ++ after).countP c.met : Int) < rule.limit := by
  obtain ⟨⟨⟩, -, h⟩ := bind_eq_ok.1 h
  have checked := limit_of_checkRules (hc.family f) h (hr.binds _ hd)
  have hold : old ∈ s.scan (ctx.collection f) := by
    rw [hscan]
    exact List.mem_append_right _ List.mem_cons_self
  obtain ⟨id, hold?⟩ := hk.exists_id? hold
  -- The others are those with other ids.
  let others (e : Document) : Bool := c.met e && e.id?.toOption != some id
  have room : ((s.scan (ctx.collection f)).countP others : Int) < rule.limit := by
    refine LimitRule.room_of_check hk (access_unrestricted ctx f) hr.scope checked hd
      fun e he ho => ?_
    rw [Bool.and_eq_true, bne_iff_ne] at ho
    refine ⟨by rw [selects_of_silent hr.silent]; exact ho.1, ?_⟩
    rw [Document.field, hid]
    exact hapart.leavingOut he hold hold? fun h => ho.2 (by rw [h, hold?]; rfl)
  have different : ∀ e ∈ before ++ after, others e = c.met e := by
    intro e he
    have hne : e.id?.toOption ≠ some id :=
      fun h => hk.id?_ne_of_scan_eq hscan e he (by rw [toOption_eq_some.1 h, hold?])
    exact (congrArg (c.met e && ·) (bne_iff_ne.2 hne)).trans (Bool.and_true _)
  have same : (before ++ after).countP others = (before ++ after).countP c.met :=
    List.countP_congr fun e he => by rw [different e he]
  rw [hscan, List.countP_append, List.countP_cons] at room
  rw [← same, List.countP_append]
  omega

/-- No step of a request that writes one record exceeds a limit. -/
theorem limit_records (hc : ctx.config.Separate) (hk : s.Keyed)
    (hr : (ctx.config.policy f).CapsScope rule c) (hapart : ToldApart (s.scan (ctx.collection f)))
    {request : WriteRequest} (hsingle : request.isBulk = false) {docs' : List Document}
    (h : RecordsChange ctx request f s (s.scan (ctx.collection f)) docs')
    (hs : (numberIn ctx.config f c s : Int) ≤ rule.limit) :
    ToldApart docs' ∧ (docs'.countP c.met : Int) ≤ rule.limit := by
  cases h with
  | added hg hn hdocs =>
    obtain ⟨hp, hrules⟩ := newRecord_eq_ok hn
    subst hdocs
    refine ⟨hapart.added (fun d hd => hk.exists_id? hd) hp.get?_id, ?_⟩
    rw [List.countP_append, List.countP_singleton]
    split
    · next hmet =>
      have room := room_added hc hk hr hrules (Condition.met_iff.1 hmet)
      rw [numberIn] at room
      change (((s.scan (ctx.config.policy f).collection).countP c.met + 1 : Nat) : Int) ≤ _
      omega
    · exact hs
  | @revised payload body old new now before after hr' hbody hrevised hchecked hscan hdocs =>
    subst hdocs
    refine ⟨(hscan ▸ hapart).revised hrevised.get?_id, ?_⟩
    have hs : ((s.scan (ctx.collection f)).countP c.met : Int) ≤ rule.limit := hs
    rw [hscan, List.countP_append, List.countP_cons] at hs
    rw [List.countP_append, List.countP_cons]
    split
    · next hmet =>
      have room := room_revised hc hk hr hscan hapart hrevised.get?_id (hchecked.single hsingle)
        (Condition.met_iff.1 hmet)
      rw [List.countP_append] at room
      omega
    · omega
  | fewer hdocs =>
    refine ⟨hapart.fewer hdocs, ?_⟩
    have fewer := hdocs.countP_le (p := c.met)
    have hs : ((s.scan (ctx.collection f)).countP c.met : Int) ≤ rule.limit := hs
    omega

/-- No run of requests that write one record at a time exceeds a limit. -/
theorem limit_kept (hc : config.Separate) (hr : (config.policy f).CapsScope rule c) (hk : s.Keyed)
    (hapart : ToldApart (s.scan (config.policy f).collection))
    (hs : (numberIn config f c s : Int) ≤ rule.limit)
    (h : Run config (fun request => request.isBulk = false) s t) :
    (numberIn config f c t : Int) ≤ rule.limit := by
  have kept := h.keeps
    (P := fun t => ToldApart (t.scan (config.policy f).collection) ∧
      (numberIn config f c t : Int) ≤ rule.limit) hk ⟨hapart, hs⟩
    fun ctx request s s' hconfig hsingle hk hs hchange => by
      subst hconfig
      exact limit_records hc hk hr hs.1 hsingle (hchange.records hc hk f) hs.2
  exact kept.2.2

/-! ## A limit refuses nothing else -/

/-- Whether records are in a scope can be told of all stored ones and of a new one. -/
structure Evaluates (ctx : Context) (s : Store) (f : Family) (c : Condition) (payload : Value)
    (id : String) : Prop where
  /-- The instant at which a new record is judged is in the calendar. -/
  clock : ∃ later, ctx.now.shift? 1000 = some later
  /-- It can be told of the stored records. -/
  stored : c.Answers (s.scan (ctx.collection f))
  /-- It can be told of the new one. -/
  made : ∀ doc, Prepared ctx s f payload id doc → ∃ b, c.holds (.object doc) = .ok b

theorem afterWriting_unrestricted {later : Moment} (h : ctx.now.shift? 1000 = some later) :
    afterWriting ctx.unrestricted = .ok { ctx.unrestricted with now := later } := by
  have shifted : ctx.unrestricted.now.shift? 1000 = some later := h
  rw [afterWriting, shifted]
  rfl

/-- A new record is judged by the limits for its kind, each in its turn. -/
theorem checkLimits_prepared (hc : ctx.config.Separate) {later : Moment}
    (hlater : ctx.now.shift? 1000 = some later) {payload : Value} {id : String} {doc : Document}
    (hp : Prepared ctx s f payload id doc) {kind : String}
    (hkind : doc.get? "_kind" = some (.text kind)) {rules : List LimitRule}
    (hrules : (ctx.config.policy f).limitsFor (.text kind) = .ok rules) :
    checkLimits ctx s (ctx.config.policy f) doc .null =
      rules.forM (LimitRule.check ctx.unrestricted s f doc .null) := by
  obtain ⟨body, now, -, -, hmade⟩ := hp.made
  obtain ⟨owners, howners, -⟩ := Record.ownersOf_of_checkShape (Record.checkShape_create hmade)
  rw [checkLimits, afterWriting_unrestricted hlater, lift_ok, ok_bind, howners, lift_ok, ok_bind,
    hkind]
  change (liftM ((ctx.config.policy f).limitsFor (.text kind)) >>= _ : Outcome Unit) = _
  rw [hrules, lift_ok, ok_bind, hc.family f]

/-- All that one limit for its kind does to a new record: it is refused if it is in the scope, and
    the scope is full. -/
theorem checkLimits_single (hc : ctx.config.Separate) (hs : FixedScope rule.scope c)
    (hids : c.ids? = .ok none) {payload : Value} {id : String}
    (he : Evaluates ctx s f c payload id) {doc : Document} (hp : Prepared ctx s f payload id doc)
    {kind : String} (hkind : doc.get? "_kind" = some (.text kind))
    (hrules : (ctx.config.policy f).limitsFor (.text kind) = .ok [rule]) :
    checkLimits ctx s (ctx.config.policy f) doc .null =
      if c.Met doc ∧ rule.limit ≤ numberIn ctx.config f c s then
        refuse (.limitExceeded f rule.limit rule.scope)
      else .ok () := by
  obtain ⟨body, now, -, -, hmade⟩ := hp.made
  obtain ⟨owners, howners, -⟩ := Record.ownersOf_of_checkShape (Record.checkShape_create hmade)
  obtain ⟨later, hlater⟩ := he.clock
  have checked := LimitRule.check_eq (access_unrestricted ctx f) hs hids
    ⟨_, afterWriting_unrestricted hlater⟩ ⟨owners, howners⟩ (he.made doc hp) he.stored
  rw [checkLimits_prepared hc hlater hp hkind hrules]
  change (rule.check ctx.unrestricted s f doc .null >>= fun _ => pure ()) = _
  rw [checked, numberIn]
  -- It is the last limit that is checked, too.
  split
  · next h => exact (if_pos h).symm
  · next h => exact (if_neg h).symm

/-- All that a family's limits do to a new record: it is refused if it is in the scope of the only
    one, and the scope is full. -/
theorem checkLimits_eq (hc : ctx.config.Separate) (hr : (ctx.config.policy f).CapsAlone rule c)
    {payload : Value} {id : String} (he : Evaluates ctx s f c payload id) {doc : Document}
    (hp : Prepared ctx s f payload id doc) :
    checkLimits ctx s (ctx.config.policy f) doc .null =
      if c.Met doc ∧ rule.limit ≤ numberIn ctx.config f c s then
        refuse (.limitExceeded f rule.limit rule.scope)
      else .ok () := by
  obtain ⟨body, now, -, -, hmade⟩ := hp.made
  obtain ⟨kind, hkind⟩ := Record.get?_kind_create hmade
  obtain ⟨rules, hrules⟩ := (ctx.config.policy f).exists_limitsFor (some kind)
  obtain rfl := hr.only _ _ hrules
  exact checkLimits_single hc hr.scope hr.silent he hp hkind hrules

/-- A request to make a record that is refused is refused for what the new record is. -/
theorem run_create_refused {payload : Value} {id : String} {r : Refusal} :
    ((create ctx f payload id).run s).1 = .error (.refused r) ↔
      newRecord ctx s f payload id = .error (.refused r) := by
  rcases run_create_cases ctx f payload id s with
    ⟨e, hn, hrun⟩ | ⟨doc, hn, ⟨e, -, hrun⟩ | ⟨s', -, hrun⟩⟩
  · rw [hn, hrun]
  · -- Storing it may meet a fault, but is not refused.
    rw [hn, hrun]
    constructor <;> intro h <;> cases h
  · rw [hn, hrun]

/-- A new record that has passed what comes before is refused as the limits of its family refuse
    it. -/
theorem newRecord_of_checkLimits {payload : Value} {id : String} {doc : Document}
    (hp : Prepared ctx s f payload id doc) {r : Refusal}
    (h : checkLimits ctx s (ctx.config.policy f) doc .null = .error (.refused r)) :
    newRecord ctx s f payload id = .error (.refused r) := by
  obtain ⟨body, now, hbody, hnow, hmade⟩ := hp.made
  obtain ⟨targets, htargets⟩ := hp.targets
  dsimp only [newRecord]
  rw [hbody, lift_ok, ok_bind, hnow, lift_ok, ok_bind, hmade, ok_bind, htargets, ok_bind,
    hp.references, ok_bind, checkRules, h]
  rfl

/-- A new record that is refused for a limit has passed what comes before, and the limits of its
    family refuse it. -/
theorem limited_newRecord
    (hlists : ∀ kind limit, (ctx.config.policy f).listEntityLimit.get kind ≠ .ok (some limit))
    {payload : Value} {id : String} {r : Refusal}
    (h : newRecord ctx s f payload id = .error (.refused r))
    (hl : r.IsLimit) : ∃ doc, Prepared ctx s f payload id doc ∧
      checkLimits ctx s (ctx.config.policy f) doc .null = .error (.refused r) := by
  have other {α : Type} {x : Outcome α} (h : Unlimited x) : RefusesOnly (fun r => r.IsLimit →
      ∃ doc, Prepared ctx s f payload id doc ∧
        checkLimits ctx s (ctx.config.policy f) doc .null = .error (.refused r)) x :=
    h.mono fun _ hr hl => absurd hl hr
  have limited : RefusesOnly (fun r => r.IsLimit → ∃ doc, Prepared ctx s f payload id doc ∧
      checkLimits ctx s (ctx.config.policy f) doc .null = .error (.refused r))
      (newRecord ctx s f payload id) := by
    dsimp only [newRecord]
    refine (RefusesOnly.lift _).bind_of fun body hbody => (RefusesOnly.lift _).bind_of
      fun now hnow => (other (Record.unlimited_create _ _ _ _)).bind_of fun doc hdoc =>
        (other (unlimited_referenceTargets doc)).bind_of fun targets htargets =>
          (other (unlimited_checkReferences doc)).bind_of fun _ hreferences => ?_
    have prepared : Prepared ctx s f payload id doc :=
      ⟨⟨body, now, lift_eq_ok.1 hbody, lift_eq_ok.1 hnow, hdoc⟩, ⟨targets, htargets⟩, hreferences⟩
    have rules : RefusesOnly (fun r => r.IsLimit → ∃ doc, Prepared ctx s f payload id doc ∧
        checkLimits ctx s (ctx.config.policy f) doc .null = .error (.refused r))
        (checkRules ctx s f doc .null) :=
      RefusesOnly.bind (fun r h _ => ⟨doc, prepared, h⟩)
        fun _ => other (unlimited_checkUniqueness _)
    refine rules.bind fun _ => ?_
    split
    · split
      · refine RefusesOnly.bind (other ?_) fun _ => .ok _
        refine (RefusesOnly.lift _).bind_of fun limit hlimit => ?_
        cases limit with
        | none => exact .ok _
        | some limit => exact absurd (lift_eq_ok.1 hlimit) (hlists _ _)
      · exact .giveUp _
    · exact .ok _
  exact limited r h hl

/-- A record is refused for a limit exactly if it has passed what comes before, is in the scope, and
    the scope is full. -/
theorem limited_iff (hc : ctx.config.Separate) (hr : (ctx.config.policy f).CapsAlone rule c)
    {payload : Value} {id : String} (he : Evaluates ctx s f c payload id) :
    (∃ r : Refusal, ((create ctx f payload id).run s).1 = .error (.refused r) ∧
        r.name = "LimitExceededError") ↔
      ∃ doc, Prepared ctx s f payload id doc ∧ c.Met doc ∧
        rule.limit ≤ numberIn ctx.config f c s := by
  constructor
  · rintro ⟨r, h, hname⟩
    obtain ⟨doc, hp, h⟩ :=
      limited_newRecord hr.lists (run_create_refused.1 h) (r.name_eq_iff.1 hname)
    rw [checkLimits_eq hc hr he hp] at h
    split at h
    · next full => exact ⟨doc, hp, full⟩
    · cases h
  · rintro ⟨doc, hp, full⟩
    have refused := checkLimits_eq hc hr he hp
    rw [if_pos full] at refused
    exact ⟨.limitExceeded f rule.limit rule.scope,
      run_create_refused.2 (newRecord_of_checkLimits hp refused), rfl⟩

/-- A limit holds after every run of requests that write one record at a time, from a store in which
    it does and records are told apart by their ids. And as the only limit it refuses a new record
    exactly if this has passed what comes before, is in the scope, and the scope is full. -/
theorem limit_holds_and_is_exact (hc : config.Separate) (hr : (config.policy f).Caps rule c) :
    (∀ s t, s.Keyed → ToldApart (s.scan (config.policy f).collection) →
      (numberIn config f c s : Int) ≤ rule.limit →
      Run config (fun request => request.isBulk = false) s t →
      (numberIn config f c t : Int) ≤ rule.limit) ∧
    ∀ (ctx : Context) s payload id, ctx.config = config → (config.policy f).CapsAlone rule c →
      Evaluates ctx s f c payload id →
      ((∃ r : Refusal, ((create ctx f payload id).run s).1 = .error (.refused r) ∧
          r.name = "LimitExceededError") ↔
        ∃ doc, Prepared ctx s f payload id doc ∧ c.Met doc ∧
          rule.limit ≤ numberIn config f c s) := by
  refine ⟨fun s t hk hapart hs h => limit_kept hc hr.capsScope hk hapart hs h, ?_⟩
  intro ctx s payload id hconfig hr he
  subst hconfig
  exact limited_iff hc hr he

/-! ## Ids that are not told apart -/

/-- A request to a catalogue where at most one entity may have one as its `x`. -/
def cappedContext : Context where
  config :=
    { policy := fun f =>
        if f = .entities then { Policy.standard f with limitRules := [⟨"where[x]=1", 1⟩] }
        else Policy.standard f }
  now := ⟨.first, 0⟩

theorem separate_cappedContext : cappedContext.config.Separate where
  family f := by cases f <;> rfl
  collections f g := by cases f <;> cases g <;> decide

/-- An entity with a name, and one as its `x`. -/
def entityWithOne (name : String) : Value := .object [("_name", .text name), ("x", .int 1)]

/-- Only the first of three requests brings an entity into the scope: the second is refused, and the
    third is about an entity outside. -/
def oneAfterAnother : List WriteRequest := [
  .create .entities (entityWithOne "A") "a",
  .create .entities (entityWithOne "B") "b",
  .create .entities (.object [("_name", .text "C")]) "c"]

/-- Two entities whose ids are the same number, written as a whole number and as a double; the
    second has one as its `x`. -/
def numberedEntities : Store where
  rows := [
    ⟨"GenericEntity", "5",
      [("_id", .int 5), ("_name", .text "A"), ("_visibility", .text "public")]⟩,
    ⟨"GenericEntity", "5.0",
      [("_id", .number (.double (.ofDecimal false 5 0))), ("_name", .text "B"),
        ("_visibility", .text "public"), ("x", .int 1)]⟩]

/-- The request to give the first of them one as its `x`, too. -/
def givingOne : WriteRequest := .update .entities "5" (.object [("x", .int 1)])

/-- The scope of the limit, as it is read. Only decisions look into it. -/
@[irreducible] def scopeOfOne : Scope := (Scope.read "where[x]=1" none).toOption.getD {}

/-- It is the only limit, as long as its scope is that of one condition. -/
theorem capsAlone_cappedContext : (cappedContext.config.policy .entities).CapsAlone
    ⟨"where[x]=1", 1⟩ scopeOfOne.filter.condition where
  scope := by
    have read : (Scope.read "where[x]=1" none).toOption.isSome = true := by decide +kernel
    obtain ⟨scope, h⟩ := Option.isSome_iff_exists.1 read
    have read : Scope.read "where[x]=1" none = .ok scopeOfOne := by
      rw [scopeOfOne, h, Option.getD_some]
      exact toOption_eq_some.1 h
    exact
      { plain := by decide
        reads := ⟨scopeOfOne, read, rfl, Option.isNone_iff_eq_none.1 (by decide +kernel),
          Option.isNone_iff_eq_none.1 (by decide +kernel)⟩ }
  silent := toOption_eq_some.1 (by decide +kernel)
  always kind rules h := by
    rw [Policy.limitsFor_of_uncounted rfl h]
    exact List.mem_cons_self
  only kind rules h := Policy.limitsFor_of_uncounted rfl h
  lists kind limit h := by cases KindScoped.get_of_plain rfl h

/-- Of each entity it can be told whether it is in the scope. -/
theorem evaluates_oneAfterAnother :
    Evaluates cappedContext (performAll cappedContext oneAfterAnother {}) .entities
      scopeOfOne.filter.condition (entityWithOne "D") "d" := by
  have answer {d : Document}
      (h : (scopeOfOne.filter.condition.holds (.object d)).toOption.isSome = true) :
      ∃ b, scopeOfOne.filter.condition.holds (.object d) = .ok b :=
    (Option.isSome_iff_exists.1 h).imp fun _ => toOption_eq_some.1
  have stored : ((performAll cappedContext oneAfterAnother {}).scan "GenericEntity").all
      (fun d => (scopeOfOne.filter.condition.holds (.object d)).toOption.isSome) = true := by
    decide +kernel
  have made : (cappedContext.instant.toOption.bind fun now =>
      (Record.create (cappedContext.config.policy .entities) [("_name", .text "D"), ("x", .int 1)]
        cappedContext.requester now "d").toOption).all
      (fun d => (scopeOfOne.filter.condition.holds (.object d)).toOption.isSome) = true := by
    decide +kernel
  refine ⟨Option.isSome_iff_exists.1 (by decide +kernel),
    fun d hd => answer (List.all_eq_true.1 stored d hd), fun doc hp => ?_⟩
  obtain ⟨body, now, hbody, hnow, hdoc⟩ := hp.made
  cases members_eq_ok hbody
  rw [toOption_eq_some.2 hnow, Option.bind_some, toOption_eq_some.2 hdoc] at made
  exact answer made

/-- The limit holds after the three requests, the second of which it has refused, and refuses one
    more entity. -/
theorem limit_holds_and_is_exact_oneAfterAnother :
    let c := scopeOfOne.filter.condition
    let s := performAll cappedContext oneAfterAnother {}
    (numberIn cappedContext.config .entities c s : Int) ≤ 1 ∧
      ((∃ r : Refusal, ((create cappedContext .entities (entityWithOne "D") "d").run s).1 =
          .error (.refused r) ∧ r.name = "LimitExceededError") ↔
        ∃ doc, Prepared cappedContext s .entities (entityWithOne "D") "d" doc ∧ c.Met doc ∧
          (1 : Int) ≤ numberIn cappedContext.config .entities c s) ∧
      numberIn cappedContext.config .entities c s = 1 ∧ (s.scan "GenericEntity").length = 2 := by
  intro c s
  have caps := capsAlone_cappedContext.toCaps
  refine ⟨?_, ?_, by decide +kernel, by decide +kernel⟩
  · refine (limit_holds_and_is_exact separate_cappedContext caps).1 {} _
      Store.Sound.empty.toKeyed (fun d hd => absurd hd List.not_mem_nil) Int.one_nonneg
      (Run.performAll ?_ .start)
    simp only [oneAfterAnother, List.forall_mem_cons]
    exact ⟨rfl, rfl, rfl, List.forall_mem_nil _⟩
  · exact (limit_holds_and_is_exact separate_cappedContext caps).2 _ _ _ _ rfl
      capsAlone_cappedContext evaluates_oneAfterAnother

/-- If ids are not told apart, an entity that is written again is not counted, nor is another one
    whose id is the same number: two entities come to be in the scope of a limit of one. -/
theorem limit_exceeded_numberedEntities :
    let c := scopeOfOne.filter.condition
    let t := performAll cappedContext [givingOne] numberedEntities
    (cappedContext.config.policy .entities).Caps ⟨"where[x]=1", 1⟩ c ∧
      cappedContext.config.Separate ∧ numberedEntities.Keyed ∧
      numberIn cappedContext.config .entities c numberedEntities ≤ 1 ∧
      Run cappedContext.config (fun request => request.isBulk = false) numberedEntities t ∧
      ¬numberIn cappedContext.config .entities c t ≤ 1 := by
  intro c t
  have keyed : numberedEntities.Keyed :=
    { named := by
        simp only [numberedEntities, List.forall_mem_cons]
        exact ⟨rfl, toOption_eq_some.1 (by decide +kernel), List.forall_mem_nil _⟩
      unique := by decide }
  exact ⟨capsAlone_cappedContext.toCaps, separate_cappedContext, keyed, by decide +kernel,
    Run.performAll (List.forall_mem_singleton.2 rfl) .start, by decide +kernel⟩

end Service

end Catalog
