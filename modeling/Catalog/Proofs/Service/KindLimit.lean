import Catalog.Proofs.Rule.KindScope
import Catalog.Proofs.Service.Capacity
import Catalog.Proofs.Service.Managed

/-!
# A limit for one kind

If the only setting about limits is a number of records of one kind, the configuration that is read
has one limit (`OnlyKindLimit.capsKind`), and what this does can be said exactly
(`kindLimit_exact`). After every run of requests that write one record at a time there are no more
records of the kind than the limit; one that passes all other checks is made if there are fewer; and
nothing else is refused for a limit. Besides limits a new record passes what it would pass without
them (`create_eq_ok_iff`).

This rests on the kind being read back from the scope of the limit. The word for null is not: it is
taken for null there, which no record has as its kind, so that a kind of this name has no limit
(`kindLimit_exceeded_null`). Nor is a numeral of too many digits: it meets a fault, so that there
are no records of such a kind at all.
-/

namespace Catalog

open Text

/-- Whether a document is of a kind. -/
def Document.isOfKind (kind : String) (doc : Document) : Bool :=
  match doc.get? "_kind" with
  | some (.text own) => own == kind
  | _ => false

theorem Document.isOfKind_iff {kind : String} {doc : Document} :
    doc.isOfKind kind = true ↔ doc.get? "_kind" = some (.text kind) := by
  unfold isOfKind
  split
  · next own hown => rw [beq_iff_eq, hown, Option.some.injEq, Value.text.injEq]
  · next other => exact iff_of_false Bool.false_ne_true (other kind)

/-- A kind that records may be of is its own slug. -/
theorem Record.slugify_of_checkKind {p : Policy} {kind : String}
    (h : checkKind p (.text kind) = .ok kind) : slugify kind = kind := by
  by_cases hslug : slugify kind = kind
  · exact hslug
  · dsimp only [checkKind] at h
    split at h
    · cases h
    · cases h

/-- The only limit is one for the records of one kind of a family, and each family is stored in a
    collection of its own. -/
structure Configuration.CapsKind (config : Configuration) (f : Family) (kind : String)
    (limit : Int) : Prop where
  /-- Each family is stored in a collection of its own. -/
  separate : config.Separate
  /-- The kind is its own slug. -/
  slug : slugify kind = kind
  /-- Records of the kind have this limit, and other records have none. -/
  limits : ∀ g {other : String}, slugify other = other →
    (config.policy g).limitsFor (.text other) =
      .ok (if g = f ∧ other = kind then [kindRule kind limit] else [])
  /-- Lists may hold any number of entities. -/
  lists : ∀ g, (config.policy g).listEntityLimit = { default := none }

/-- Records of the kind have one limit. -/
theorem Configuration.CapsKind.limitsFor_kind {config : Configuration} {f : Family} {kind : String}
    {limit : Int} (h : config.CapsKind f kind limit) :
    (config.policy f).limitsFor (.text kind) = .ok [kindRule kind limit] := by
  rw [h.limits f h.slug, if_pos ⟨rfl, rfl⟩]

/-- What a configuration is like whose only setting about limits is a number of records of one
    kind. -/
theorem OnlyKindLimit.capsKind {settings : Settings} {env : Environment} {rules : Option String}
    {config : Configuration} {f : Family} {kind : String} {limit : Int}
    (h : OnlyKindLimit env rules f kind limit)
    (hread : Configuration.read settings env rules = .ok config) (hc : config.Separate)
    (hkind : slugify kind = kind) : config.CapsKind f kind limit where
  separate := hc
  slug := hkind
  limits g _ hother := by
    obtain ⟨given, hgiven, hpolicy⟩ := Configuration.policy_read hread
    exact h.limitsFor_text (Policy.readFrom (hpolicy g)) hgiven hkind hother
  lists g := by
    obtain ⟨given, -, hpolicy⟩ := Configuration.policy_read hread
    exact h.listEntityLimit_eq (Policy.readFrom (hpolicy g)) hkind

namespace Service

variable {ctx : Context} {config : Configuration} {s : Store} {f g : Family} {kind : String}
  {limit : Int} {payload : Value} {id : String} {doc : Document}

/-- The number of stored records of a family and kind. -/
def numberOfKind (config : Configuration) (f : Family) (kind : String) (s : Store) : Nat :=
  (s.scan (config.policy f).collection).countP (Document.isOfKind kind)

/-- A request writes one record at a time, and a payload as it is read. -/
def WriteRequest.WritesSingly (request : WriteRequest) : Prop :=
  request.isBulk = false ∧ request.RevisesPlainly

/-! ## Besides limits -/

/-- A new record passes all but the limits, at an instant at which these can be judged. -/
structure PassesRest (ctx : Context) (s : Store) (f : Family) (payload : Value) (id : String)
    (doc : Document) : Prop where
  /-- It has passed the checks of its kind, shape and references. -/
  prepared : Prepared ctx s f payload id doc
  /-- It is unique. -/
  unique : checkUniqueness ctx s (ctx.config.policy f) doc .null = .ok ()
  /-- The instant at which it is judged is in the calendar. -/
  clock : ∃ later, ctx.now.shift? 1000 = some later
  /-- It can be stored. -/
  stored : ∃ s', s.insert (ctx.collection f) doc = .ok s'

/-- What is prepared is of a kind, which is its own slug. -/
theorem Prepared.exists_kind (h : Prepared ctx s f payload id doc) :
    ∃ own, doc.get? "_kind" = some (.text own) ∧ slugify own = own := by
  obtain ⟨body, now, -, -, hmade⟩ := h.made
  obtain ⟨own, hown, slug, -⟩ := (Record.managed_create hmade).kind
  exact ⟨own, hown, slug⟩

/-- If the instant at which records are judged is not in the calendar, limits meet a fault. -/
theorem clock_or_broken (ctx : Context) (s : Store) (p : Policy) (doc : Document)
    (exclude : Value) :
    (∃ later, ctx.now.shift? 1000 = some later) ∨
      ∃ fault, checkLimits ctx s p doc exclude = .error (.broken fault) := by
  cases hclock : ctx.now.shift? 1000 with
  | some later => exact .inl ⟨later, rfl⟩
  | none =>
    have outside : afterWriting ctx.unrestricted = .error .outOfCalendar := by
      have shifted : ctx.unrestricted.now.shift? 1000 = none := hclock
      rw [afterWriting, shifted]
      rfl
    refine .inr ⟨.outOfCalendar, ?_⟩
    rw [checkLimits, outside]
    rfl

theorem checkListRoom_of_unlimited {p : Policy} (hp : p.listEntityLimit = { default := none })
    {list : Document} {own : String} (hlist : list.get? "_kind" = some (.text own)) :
    checkListRoom ctx s p list = .ok () := by
  rw [checkListRoom, hp, hlist]
  rfl

/-- A record is made exactly if it passes the limits and all else. -/
theorem create_eq_ok_iff (hcap : ctx.config.CapsKind f kind limit)
    (hs : ManagedStore ctx.config s) :
    ((create ctx g payload id).run s).1 = .ok doc ↔
      PassesRest ctx s g payload id doc ∧
        checkLimits ctx s (ctx.config.policy g) doc .null = .ok () := by
  rw [run_create_eq_ok_iff, newRecord_eq_ok_iff]
  constructor
  · rintro ⟨⟨hp, hrules, -⟩, hstored⟩
    obtain ⟨⟨⟩, hlimits, hunique⟩ := bind_eq_ok.1 hrules
    refine ⟨⟨hp, hunique, ?_, hstored⟩, hlimits⟩
    rcases clock_or_broken ctx s (ctx.config.policy g) doc .null with hclock | ⟨fault, broken⟩
    · exact hclock
    · cases hlimits.symm.trans broken
  · rintro ⟨hrest, hlimits⟩
    refine ⟨⟨hrest.prepared, bind_eq_ok.2 ⟨(), hlimits, hrest.unique⟩, fun hg => ?_⟩, hrest.stored⟩
    subst hg
    obtain ⟨targets, htargets⟩ := hrest.prepared.targets
    obtain ⟨list, found, -⟩ := lookup_of_referenceTargets htargets
    obtain ⟨own, hown, -⟩ := (hs.managed .lists list (Store.mem_scan_of_fetch? found)).kind
    exact ⟨list, found, checkListRoom_of_unlimited (hcap.lists .relations) hown⟩

/-! ## The limit -/

/-- The records of the kind are those in the scope of the limit, if the kind is read back. -/
theorem numberIn_eq_numberOfKind (hcap : config.CapsKind f kind limit)
    (hs : ManagedStore config s) (hnull : kind ≠ "null") {v : Value} {literal : Option String}
    (hinfer : inferText kind = .ok (v, literal)) :
    numberIn config f (.inferred "_kind" v literal) s = numberOfKind config f kind s := by
  refine List.countP_congr fun d hd => ?_
  obtain ⟨own, hown, -⟩ := (hs.managed f d hd).kind
  rw [Condition.met, Condition.holds_inferred_kind hcap.slug hinfer hown, bne_iff_ne.2 hnull,
    Document.isOfKind_iff, hown]
  simp

/-- The limit of a kind that is read back binds all records in its scope. -/
theorem capsScope_kind (hcap : config.CapsKind f kind limit) (hnull : kind ≠ "null") {v : Value}
    {literal : Option String} (hinfer : inferText kind = .ok (v, literal)) :
    (config.policy f).CapsScope (kindRule kind limit) (.inferred "_kind" v literal) where
  scope := fixedScope_kind hcap.slug hinfer limit
  silent := Condition.ids?_inferred_kind v literal
  binds doc hmet rules hrules := by
    -- Neither without a kind nor with one that is no text there are limits to be told.
    cases hkind : Value.orNull (doc.get? "_kind") with
    | null => exact absurd hmet (Condition.not_met_inferred_kind hcap.slug hinfer hnull hkind)
    | text own =>
      have hown : doc.get? "_kind" = some (.text own) := Document.get?_of_field hkind
      rw [Condition.Met, Condition.holds_inferred_kind hcap.slug hinfer hown, Except.ok.injEq,
        Bool.and_eq_true, beq_iff_eq] at hmet
      rw [hkind, hmet.1, hcap.limitsFor_kind] at hrules
      cases hrules
      exact List.mem_cons_self
    | _ =>
      rw [hkind] at hrules
      cases hrules

section Limits

variable {v : Value} {literal : Option String} (hcap : ctx.config.CapsKind f kind limit)

include hcap

/-- Other records have no limit. -/
theorem checkLimits_other {later : Moment} (hlater : ctx.now.shift? 1000 = some later)
    (hp : Prepared ctx s g payload id doc) (h : ¬(g = f ∧ doc.isOfKind kind = true)) :
    checkLimits ctx s (ctx.config.policy g) doc .null = .ok () := by
  obtain ⟨own, hown, slug⟩ := hp.exists_kind
  have unlimited : (ctx.config.policy g).limitsFor (.text own) = .ok [] := by
    rw [hcap.limits g slug, if_neg fun both => h ⟨both.1, ?_⟩]
    rw [Document.isOfKind_iff, hown, both.2]
  exact checkLimits_prepared hcap.separate hlater hp hown unlimited

/-- The limit of a kind that is read back says of each record, stored or new, whether it counts. -/
theorem evaluates_kind {later : Moment} (hlater : ctx.now.shift? 1000 = some later)
    (hs : ManagedStore ctx.config s) (hinfer : inferText kind = .ok (v, literal)) (payload : Value)
    (id : String) : Evaluates ctx s f (.inferred "_kind" v literal) payload id where
  clock := ⟨later, hlater⟩
  stored d hd := by
    obtain ⟨own, hown, -⟩ := (hs.managed f d hd).kind
    exact ⟨_, Condition.holds_inferred_kind hcap.slug hinfer hown⟩
  made doc hp := by
    obtain ⟨own, hown, -⟩ := hp.exists_kind
    exact ⟨_, Condition.holds_inferred_kind hcap.slug hinfer hown⟩

/-- A record of the kind is refused if there are as many as there may be, unless the kind is the
    word for null. -/
theorem checkLimits_kind (hk : doc.isOfKind kind = true) {later : Moment}
    (hlater : ctx.now.shift? 1000 = some later)
    (hs : ManagedStore ctx.config s) (hinfer : inferText kind = .ok (v, literal))
    (hp : Prepared ctx s f payload id doc) :
    checkLimits ctx s (ctx.config.policy f) doc .null =
      if kind ≠ "null" ∧ limit ≤ numberOfKind ctx.config f kind s then
        refuse (.limitExceeded f limit (kindRule kind limit).scope)
      else .ok () := by
  have hown := Document.isOfKind_iff.1 hk
  have checked := checkLimits_single hcap.separate (fixedScope_kind hcap.slug hinfer limit)
    (Condition.ids?_inferred_kind v literal) (evaluates_kind hcap hlater hs hinfer payload id)
    hp hown hcap.limitsFor_kind
  have judged := Condition.holds_inferred_kind hcap.slug hinfer hown
  rw [checked]
  by_cases hnull : kind = "null"
  · have unmet : ¬(Condition.inferred "_kind" v literal).Met doc := by
      rw [Condition.Met, judged, hnull, bne_self_eq_false, Bool.and_false]
      exact fun heq => by cases heq
    rw [if_neg fun both => unmet both.1, if_neg fun both => both.1 hnull]
  · have met : (Condition.inferred "_kind" v literal).Met doc := by
      rw [Condition.Met, judged, bne_iff_ne.2 hnull, beq_self_eq_true]
      rfl
    rw [numberIn_eq_numberOfKind hcap hs hnull hinfer]
    simp only [met, hnull, true_and, not_false_eq_true, ne_eq]
    rfl

/-- No record of the kind passes a limit whose scope cannot be read. -/
theorem checkLimits_fault (hk : doc.isOfKind kind = true) {later : Moment}
    (hlater : ctx.now.shift? 1000 = some later)
    {fault : Fault} (hinfer : inferText kind = .error fault)
    (hp : Prepared ctx s f payload id doc) :
    checkLimits ctx s (ctx.config.policy f) doc .null = .error (.broken fault) := by
  obtain ⟨body, now, -, -, hmade⟩ := hp.made
  obtain ⟨owners, howners, -⟩ := Record.ownersOf_of_checkShape (Record.checkShape_create hmade)
  rw [checkLimits_prepared hcap.separate hlater hp (Document.isOfKind_iff.1 hk)
    hcap.limitsFor_kind]
  change ((kindRule kind limit).check ctx.unrestricted s f doc .null >>= fun _ => pure ()) = _
  rw [LimitRule.check, afterWriting_unrestricted hlater, lift_ok, ok_bind, howners, lift_ok,
    ok_bind]
  dsimp only
  rw [Scope.read_kind_of_fault hcap.slug hinfer]
  rfl

/-- A record of the kind passes the limit exactly if the kind is the word for null, or is read back
    and there are fewer records of it. -/
theorem checkLimits_eq_ok_iff (hk : doc.isOfKind kind = true) {later : Moment}
    (hlater : ctx.now.shift? 1000 = some later)
    (hs : ManagedStore ctx.config s) (hp : Prepared ctx s f payload id doc) :
    checkLimits ctx s (ctx.config.policy f) doc .null = .ok () ↔
      kind = "null" ∨
        (Value.text kind).Recoverable ∧ (numberOfKind ctx.config f kind s : Int) < limit := by
  rw [Value.recoverable_text_iff]
  cases hinfer : inferText kind with
  | error fault =>
    rw [checkLimits_fault hcap hk hlater hinfer hp]
    have read : kind ≠ "null" := by
      rintro rfl
      cases hinfer
    refine iff_of_false (fun h => by cases h) ?_
    rintro (hnull | ⟨⟨-, found, h⟩, -⟩)
    · exact read hnull
    · cases h
  | ok found =>
    rw [checkLimits_kind hcap hk hlater hs hinfer hp]
    split
    · next full =>
      refine iff_of_false (fun h => by cases h) ?_
      rintro (hnull | ⟨-, room⟩)
      · exact full.1 hnull
      · omega
    · next room =>
      refine iff_of_true rfl ?_
      by_cases hnull : kind = "null"
      · exact .inl hnull
      · exact .inr ⟨⟨hnull, found, rfl⟩, Int.not_le.1 fun full => room ⟨hnull, full⟩⟩

/-- A record that is refused for a limit is of the kind, which is read back, and there are as many
    records of it as there may be. -/
theorem full_of_checkLimits (hs : ManagedStore ctx.config s) (hp : Prepared ctx s g payload id doc)
    {r : Refusal}
    (h : checkLimits ctx s (ctx.config.policy g) doc .null = .error (.refused r)) :
    (Value.text kind).Recoverable ∧ g = f ∧ doc.isOfKind kind = true ∧
      limit ≤ numberOfKind ctx.config f kind s := by
  rcases clock_or_broken ctx s (ctx.config.policy g) doc .null with ⟨later, hlater⟩ | ⟨fault, hb⟩
  · by_cases hkind : g = f ∧ doc.isOfKind kind = true
    · obtain ⟨rfl, hk⟩ := hkind
      cases hinfer : inferText kind with
      | error fault => cases (checkLimits_fault hcap hk hlater hinfer hp).symm.trans h
      | ok found =>
        rw [checkLimits_kind hcap hk hlater hs hinfer hp] at h
        split at h
        · next full =>
          exact ⟨Value.recoverable_text_iff.2 ⟨full.1, found, hinfer⟩, rfl, hk, full.2⟩
        · cases h
    · cases (checkLimits_other hcap hlater hp hkind).symm.trans h
  · cases hb.symm.trans h

end Limits

/-- If the only setting about limits is a number of records of one kind, there are never more after
    a run of requests that write one record at a time, as long as the kind is read back. A record
    is made exactly if it passes all but the limits and, if it is of the kind, this is the word for
    null, or it is read back and there are fewer records of it; and only such a record is refused
    for a limit, if there are as many as there may be. -/
theorem kindLimit_exact {settings : Settings} {env : Environment} {rules : Option String}
    (hread : Configuration.read settings env rules = .ok config) (hc : config.Separate)
    (hkind : Record.checkKind (config.policy f) (.text kind) = .ok kind)
    (hset : OnlyKindLimit env rules f kind limit) (hlimit : 0 ≤ limit) :
    ∀ s, Run config WriteRequest.WritesSingly {} s →
      ((Value.text kind).Recoverable → (numberOfKind config f kind s : Int) ≤ limit) ∧
      ∀ (ctx : Context) g payload id, ctx.config = config →
        (∀ doc, ((create ctx g payload id).run s).1 = .ok doc ↔
          PassesRest ctx s g payload id doc ∧
            (g = f → doc.isOfKind kind = true → kind = "null" ∨
              (Value.text kind).Recoverable ∧ (numberOfKind config f kind s : Int) < limit)) ∧
        ∀ r : Refusal, ((create ctx g payload id).run s).1 = .error (.refused r) →
          r.name = "LimitExceededError" →
            (Value.text kind).Recoverable ∧ g = f ∧ limit ≤ numberOfKind config f kind s ∧
              ∃ doc, Prepared ctx s g payload id doc ∧ doc.isOfKind kind = true := by
  have hcap := hset.capsKind hread hc (Record.slugify_of_checkKind hkind)
  intro s hrun
  have managed := managed_run hc (hrun.mono fun _ h => h.2)
  refine ⟨fun hback => ?_, fun ctx g payload id hconfig => ?_⟩
  · obtain ⟨hnull, ⟨v, literal⟩, hinfer⟩ := Value.recoverable_text_iff.1 hback
    have kept := limit_kept hc (capsScope_kind hcap hnull hinfer) Store.Sound.empty.toKeyed
      (fun d hd => absurd hd List.not_mem_nil) hlimit (hrun.mono fun _ h => h.1)
    rwa [numberIn_eq_numberOfKind hcap managed hnull hinfer] at kept
  subst hconfig
  refine ⟨fun doc => ?_, fun r hr hname => ?_⟩
  · rw [create_eq_ok_iff hcap managed]
    refine and_congr_right fun hrest => ?_
    obtain ⟨later, hlater⟩ := hrest.clock
    by_cases limited : g = f ∧ doc.isOfKind kind = true
    · obtain ⟨rfl, hk⟩ := limited
      rw [checkLimits_eq_ok_iff hcap hk hlater managed hrest.prepared]
      exact ⟨fun h _ _ => h, fun h => h rfl hk⟩
    · exact iff_of_true (checkLimits_other hcap hlater hrest.prepared limited)
        fun hg hk => absurd ⟨hg, hk⟩ limited
  · have unlimited : ∀ kind limit,
        (ctx.config.policy g).listEntityLimit.get kind ≠ .ok (some limit) := by
      intro kind limit h
      rw [hcap.lists g] at h
      cases KindScoped.get_of_plain rfl h
    obtain ⟨doc, hp, refused⟩ :=
      limited_newRecord unlimited (run_create_refused.1 hr) (r.name_eq_iff.1 hname)
    obtain ⟨hback, hg, hk, full⟩ := full_of_checkLimits hcap managed hp refused
    exact ⟨hback, hg, full, doc, hp, hk⟩

/-! ## The first record of a kind -/

/-- A request to an installation. -/
def firstContext (config : Configuration) : Context where
  config := config
  now := ⟨.first, 0⟩

/-- The store after a request for an entity of a kind. -/
def afterFirst (kind : String) (config : Configuration) : Store :=
  performAll (firstContext config)
    [.create .entities (.object [("_name", .text "A"), ("_kind", .text kind)]) "a"] {}

theorem run_afterFirst (kind : String) (config : Configuration) :
    Run (firstContext config).config WriteRequest.WritesSingly {} (afterFirst kind config) :=
  Run.performAll (List.forall_mem_singleton.2 ⟨rfl, fun _ h => nomatch h⟩) .start

/-- Whether a kind is accepted, and the first entity of it is made. -/
def makesFirst (kind : String) (config : Configuration) : Bool :=
  (Record.checkKind (config.policy .entities) (.text kind)).toOption == some kind &&
    numberOfKind config .entities kind (afterFirst kind config) == 1

/-- If the first entity of a kind is made where its number is limited and nothing else is chosen,
    this is so in the configuration that is read from the limit. -/
theorem exists_config {text : String} (h : makesFirst kind (.limiting .entities kind limit) = true)
    (htext : text.isEmpty = false) (hlimit : Numeral.int? (trim text) = some limit) : ∃ config,
      Configuration.read {} [(Family.entities.kindLimitKey kind, text)] none = .ok config ∧
        config.Separate ∧ Record.checkKind (config.policy .entities) (.text kind) = .ok kind ∧
        OnlyKindLimit [(Family.entities.kindLimitKey kind, text)] none .entities kind limit ∧
        numberOfKind config .entities kind (afterFirst kind config) = 1 := by
  rw [makesFirst, Bool.and_eq_true, beq_iff_eq, beq_iff_eq, toOption_eq_some] at h
  obtain ⟨accepted, made⟩ := h
  exact ⟨.limiting .entities kind limit,
    Configuration.read_kindLimit (Record.slugify_of_checkKind accepted) htext hlimit,
    Configuration.separate_limiting .entities kind limit, accepted, .single htext hlimit, made⟩

/-- An environment in which at most one entity may be an audio book. -/
def oneAudioBook : Environment := .ofList [("RECORD_LIMIT_ENTITY_COUNT_FOR_AUDIO-BOOK", "1")]

/-- After the first audio book no other one is made, and everything else is as without a limit. -/
theorem kindLimit_exact_audioBook : ∃ config,
    Configuration.read {} oneAudioBook none = .ok config ∧ config.Separate ∧
      Record.checkKind (config.policy .entities) (.text "audio-book") = .ok "audio-book" ∧
      OnlyKindLimit oneAudioBook none .entities "audio-book" 1 ∧
      numberOfKind config .entities "audio-book" (afterFirst "audio-book" config) = 1 ∧
      ∀ g payload id doc,
        ((create (firstContext config) g payload id).run (afterFirst "audio-book" config)).1 =
            .ok doc ↔
          PassesRest (firstContext config) (afterFirst "audio-book" config) g payload id doc ∧
            ¬(g = .entities ∧ doc.isOfKind "audio-book" = true) := by
  have entry : oneAudioBook = [(Family.entities.kindLimitKey "audio-book", "1")] := by
    decide +kernel
  rw [entry]
  obtain ⟨config, hread, hc, accepted, hset, made⟩ :=
    exists_config (by decide +kernel : makesFirst "audio-book" (.limiting .entities _ 1) = true)
      (by decide : "1".isEmpty = false) (by decide +kernel)
  refine ⟨config, hread, hc, accepted, hset, made, fun g payload id doc => ?_⟩
  obtain ⟨-, exactly⟩ := kindLimit_exact hread hc accepted hset (by decide) _
    (run_afterFirst "audio-book" config)
  rw [(exactly (firstContext config) g payload id rfl).1 doc, made]
  refine and_congr_right fun _ => ⟨fun h both => ?_, fun h hg hk => absurd ⟨hg, hk⟩ h⟩
  rcases h both.1 both.2 with hnull | ⟨-, room⟩
  · exact absurd hnull (by decide)
  · exact absurd room (by decide)

/-- An environment in which no entity may be of the kind with the name null. -/
def noNull : Environment := .ofList [("record_limit_entity_count_for_null", "0")]

/-- An entity of the kind with the name null is made although there may be none. -/
theorem kindLimit_exceeded_null : ∃ config,
    Configuration.read {} noNull none = .ok config ∧ config.Separate ∧
      Record.checkKind (config.policy .entities) (.text "null") = .ok "null" ∧
      OnlyKindLimit noNull none .entities "null" 0 ∧
      Run config WriteRequest.WritesSingly {} (afterFirst "null" config) ∧
      ¬numberOfKind config .entities "null" (afterFirst "null" config) ≤ 0 := by
  have entry : noNull = [(Family.entities.kindLimitKey "null", "0")] := by decide +kernel
  rw [entry]
  obtain ⟨config, hread, hc, accepted, hset, made⟩ :=
    exists_config (by decide +kernel : makesFirst "null" (.limiting .entities _ 0) = true)
      (by decide : "0".isEmpty = false) (by decide +kernel)
  refine ⟨config, hread, hc, accepted, hset, run_afterFirst "null" config, ?_⟩
  rw [made]
  exact Nat.not_succ_le_zero 0

end Service

end Catalog
