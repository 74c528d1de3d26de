import Catalog.Policy.Reading
import Catalog.Proofs.Record.Kept
import Catalog.Proofs.Rewritten
import Catalog.Proofs.Rule.Kept
import Catalog.Proofs.Service.Running

/-!
# Bulk updates

A bulk update writes a payload over all selected records. It checks each new version against the
store as it is before any of them is written. So the checks see what is stored, but not what else
is about to be written: two new versions may both find the last room under a limit, or agree with
each other on fields that are unique together.

What the checks leave open is whether the new versions *fit* together (`Fits`): whether those that
enter the scope of a limit find room there all at once, and whether no two of them agree. A bulk
update that succeeds keeps the rules exactly if they do (`rules_kept_iff_fits`).
-/

namespace Catalog

/-- The stored version of a document: the one with its id. -/
def Store.version? (s : Store) (collection : String) (doc : Document) : Option Document :=
  doc.id?.toOption.bind (s.fetch? collection)

/-- How many documents a condition selects that does not select their stored versions. -/
def entering (s : Store) (collection : String) (c : Condition) (docs : List Document) : Nat :=
  docs.countP fun d => c.selects d && !(s.version? collection d).any c.selects

/-- How many documents a condition does not select that selects their stored versions. -/
def leaving (s : Store) (collection : String) (c : Condition) (docs : List Document) : Nat :=
  docs.countP fun d => (s.version? collection d).any c.selects && !c.selects d

/-- New versions of records fit together. -/
structure Fits (ctx : Context) (f : Family) (s : Store) (docs : List Document) : Prop where
  /-- If several of them enter the scope of a limit, or one is in it that the limit does not bind,
      there is room for all, also in the places of those that leave it. -/
  limits : ∀ rule c, (ctx.config.policy f).Limits rule c →
    (2 ≤ entering s (ctx.collection f) c docs ∨
      ∃ d ∈ docs, c.selects d = true ∧ ¬(ctx.config.policy f).Binds rule d) →
    ((s.scan (ctx.collection f)).countP c.selects + entering s (ctx.collection f) c docs : Int) ≤
      rule.limit + leaving s (ctx.collection f) c docs
  /-- No two of them agree on fields that are unique together. -/
  unique : ∀ rule, (ctx.config.policy f).Distinguishes rule →
    docs.Pairwise fun d d' => ¬d.AgreeOn rule.fields d'

namespace Service

variable {ctx : Context} {s s' : Store} {f : Family} {payload query : Value} {extra : Condition}
  {docs : List Document}

/-! ## Requests -/

/-- A request that writes a payload over several records. -/
inductive BulkUpdate where
  /-- Over the selected records of a family. -/
  | everywhere (f : Family) (payload query : Value)
  /-- Over the selected entities in a list. -/
  | inList (listId : String) (payload query : Value)

namespace BulkUpdate

/-- The family of the records. -/
def family : BulkUpdate → Family
  | .everywhere f _ _ => f
  | .inList _ _ _ => .entities

/-- What the request does to the store; it gives the number of the records. -/
def run (ctx : Context) : BulkUpdate → Write Nat
  | .everywhere f payload query => updateAll ctx f payload query
  | .inList listId payload query => updateListEntities ctx listId payload query

/-- The new versions that the request is going to write. -/
def news (ctx : Context) (s : Store) : BulkUpdate → Outcome (List Document)
  | .everywhere f payload query => updatedRecords ctx s f payload query .always
  | .inList listId payload query => do
    match ← entityIdsIn ctx s listId query with
    | [] => return []
    | ids => updatedRecords ctx s .entities payload query (.compare "_id" .inq (.array ids))

end BulkUpdate

/-! ## What is written -/

/-- Replacing documents one after the other rewrites the collection. -/
theorem run_replaceAll {collection : String}
    (h : (docs.forM fun doc => Write.change fun store =>
      store.replace collection doc : Write Unit).run s = (.ok (), s')) :
    s'.rows = s.rows.map (Row.rewritten collection docs) := by
  induction docs generalizing s with
  | nil =>
    cases h
    exact (List.map_id _).symm
  | cons doc docs ih =>
    change (Write.change _ >>= fun _ => docs.forM _ : Write Unit).run s = _ at h
    rw [Write.run_bind, Write.run_change] at h
    cases hd : s.replace collection doc with
    | error e =>
      rw [hd] at h
      exact nomatch h
    | ok next =>
      rw [hd] at h
      rw [ih h, Store.replace_eq_ok hd, List.map_map]
      rfl

theorem run_updateAll {n : Nat}
    (h : (updateAll ctx f payload query extra).run s = (.ok n, s')) :
    ∃ docs, updatedRecords ctx s f payload query extra = .ok docs ∧ n = docs.length ∧
      s'.rows = s.rows.map (Row.rewritten (ctx.collection f) docs) := by
  rw [updateAll, Write.run_bind, Write.run_read] at h
  cases hd : updatedRecords ctx s f payload query extra with
  | error e =>
    rw [hd] at h
    exact nomatch h
  | ok docs =>
    rw [hd] at h
    change (_ >>= fun _ => pure docs.length : Write Nat).run s = _ at h
    rw [Write.run_bind] at h
    split at h
    · next done =>
      cases h
      exact ⟨docs, rfl, rfl, run_replaceAll done⟩
    · exact nomatch h

/-- A bulk update that succeeds writes all new versions, and gives their number. -/
theorem BulkUpdate.run_eq_ok {u : BulkUpdate} {n : Nat} (h : (u.run ctx).run s = (.ok n, s')) :
    ∃ docs, u.news ctx s = .ok docs ∧ n = docs.length ∧
      s'.rows = s.rows.map (Row.rewritten (ctx.collection u.family) docs) := by
  cases u with
  | everywhere f payload query => exact run_updateAll h
  | inList listId payload query =>
    change (updateListEntities ctx listId payload query).run s = _ at h
    rw [updateListEntities, Write.run_bind, Write.run_read] at h
    rw [news]
    cases hids : entityIdsIn ctx s listId query with
    | error e =>
      rw [hids] at h
      exact nomatch h
    | ok ids =>
      rw [hids] at h
      cases ids with
      | nil =>
        cases h
        exact ⟨[], rfl, rfl, (List.map_id _).symm⟩
      | cons id ids => exact run_updateAll h

/-! ## New versions -/

/-- New versions of stored records, each of which keeps its id and has passed the checks against
    the store as it is. -/
structure NewVersions (ctx : Context) (f : Family) (s : Store) (q : Document → Bool)
    (u : Document → Document) : Prop where
  /-- A record keeps its id. -/
  id : ∀ d ∈ s.scan (ctx.collection f), q d = true → (u d).get? "_id" = d.get? "_id"
  /-- It passes the checks. -/
  checked : ∀ d ∈ s.scan (ctx.collection f), q d = true →
    checkRules ctx s f (u d) ((u d).field "_id") = .ok ()

/-- The records to update are those that some condition selects. -/
theorem selected_eq_ok {whereKey setKey : String}
    (h : selected ctx s f query extra whereKey setKey = .ok docs) :
    ∃ c, selection ctx s f c = .ok docs := by
  dsimp only [selected] at h
  obtain ⟨w, -, h⟩ := bind_eq_ok.1 h
  obtain ⟨condition, -, h⟩ := bind_eq_ok.1 h
  obtain ⟨filter, -, h⟩ := bind_eq_ok.1 h
  obtain ⟨v, -, h⟩ := bind_eq_ok.1 h
  obtain ⟨set, -, h⟩ := bind_eq_ok.1 h
  obtain ⟨plan, hp, h⟩ := bind_eq_ok.1 h
  obtain ⟨c, joins, -, -, hj, rfl⟩ := Plan.count_eq_ok.1 (lift_eq_ok.1 hp)
  rw [hj rfl, run_ofStages] at h
  obtain ⟨found, hs, h⟩ := bind_eq_ok.1 h
  cases h
  exact ⟨c, lift_eq_ok.1 hs⟩

/-- The new versions of an update are made of the records that it selects. -/
theorem updatedRecords_eq_ok (hk : s.Keyed)
    (h : updatedRecords ctx s f payload query extra = .ok docs) :
    ∃ q u, NewVersions ctx f s q u ∧
      docs = ((s.scan (ctx.collection f)).filter q).map u ∧
      selected ctx s f query extra "where" "set" = .ok ((s.scan (ctx.collection f)).filter q) ∧
      ∀ d ∈ s.scan (ctx.collection f), q d = true → ∃ body now, members payload = .ok body ∧
        ctx.instant = .ok now ∧ Record.update (ctx.config.policy f) d body now = .ok (u d) := by
  dsimp only [updatedRecords] at h
  obtain ⟨kinds, -, h⟩ := bind_eq_ok.1 h
  cases kinds with
  | true => exact nomatch h
  | false =>
    obtain ⟨found, hfound, h⟩ := bind_eq_ok.1 h
    obtain ⟨docs', hdocs, h⟩ := bind_eq_ok.1 h
    obtain ⟨⟨⟩, -, h⟩ := bind_eq_ok.1 h
    obtain ⟨⟨⟩, hchecks, h⟩ := bind_eq_ok.1 h
    cases h
    have hchecks := forM_eq_ok.1 hchecks
    obtain ⟨c, hc⟩ := selected_eq_ok hfound
    obtain rfl := selection_eq_selects hk hc
    obtain ⟨u, hu, rfl⟩ := exists_map_of_mapM hdocs
    have updates : ∀ d ∈ s.scan (ctx.collection f), c.selects d = true → ∃ body now,
        members payload = .ok body ∧ ctx.instant = .ok now ∧
          Record.update (ctx.config.policy f) d body now = .ok (u d) := by
      intro d hd hq
      obtain ⟨body, hbody, hu⟩ := bind_eq_ok.1 (hu d (List.mem_filter.2 ⟨hd, hq⟩))
      obtain ⟨now, hnow, hu⟩ := bind_eq_ok.1 hu
      exact ⟨body, now, lift_eq_ok.1 hbody, lift_eq_ok.1 hnow, hu⟩
    refine ⟨c.selects, u, ⟨fun d hd hq => ?_, fun d hd hq => ?_⟩, rfl, hfound, updates⟩
    · obtain ⟨body, now, -, -, hu⟩ := updates d hd hq
      exact Record.get?_id_update hu
    · exact hchecks _ (List.mem_map.2 ⟨d, List.mem_filter.2 ⟨hd, hq⟩, rfl⟩)

theorem BulkUpdate.news_eq_ok (hk : s.Keyed) {u : BulkUpdate} (h : u.news ctx s = .ok docs) :
    ∃ q v, NewVersions ctx u.family s q v ∧
      docs = ((s.scan (ctx.collection u.family)).filter q).map v := by
  cases u with
  | everywhere f payload query =>
    obtain ⟨q, v, hv, hdocs, -⟩ := updatedRecords_eq_ok hk h
    exact ⟨q, v, hv, hdocs⟩
  | inList listId payload query =>
    obtain ⟨ids, -, h⟩ := bind_eq_ok.1 h
    cases ids with
    | nil =>
      cases h
      refine ⟨fun _ => false, id, ⟨nofun, nofun⟩, ?_⟩
      rw [List.filter_eq_nil_iff.2 nofun]
      rfl
    | cons id ids =>
      obtain ⟨q, v, hv, hdocs, -⟩ := updatedRecords_eq_ok hk h
      exact ⟨q, v, hv, hdocs⟩

/-! ## Rules -/

namespace NewVersions

variable {q : Document → Bool} {u : Document → Document} (h : NewVersions ctx f s q u)

include h

theorem id?_eq {d : Document} (hd : d ∈ s.scan (ctx.collection f)) (hq : q d = true) :
    (u d).id? = d.id? := by
  rw [Document.id?, Document.id?, h.id d hd hq]

/-- The id of a new version, and the checks that it has passed. -/
theorem text_id (ht : s.TextIds (ctx.collection f)) {d : Document}
    (hd : d ∈ s.scan (ctx.collection f)) (hq : q d = true) :
    ∃ id, d.get? "_id" = some (.text id) ∧ (u d).get? "_id" = some (.text id) ∧
      checkRules ctx s f (u d) (.text id) = .ok () := by
  obtain ⟨id, hid⟩ := ht d hd
  have hu := (h.id d hd hq).trans hid
  have hc := h.checked d hd hq
  rw [Document.field, hu] at hc
  exact ⟨id, hid, hu, hc⟩

theorem version?_eq (hk : s.Keyed) (ht : s.TextIds (ctx.collection f)) {d : Document}
    (hd : d ∈ s.scan (ctx.collection f)) (hq : q d = true) :
    s.version? (ctx.collection f) (u d) = some d := by
  obtain ⟨id, hid, hu, -⟩ := h.text_id ht hd hq
  rw [Store.version?, Document.id?_of_text hu]
  exact hk.fetch?_eq hd (Document.id?_of_text hid)

theorem entering_eq (hk : s.Keyed) (ht : s.TextIds (ctx.collection f)) (c : Condition) :
    entering s (ctx.collection f) c (((s.scan (ctx.collection f)).filter q).map u) =
      ((s.scan (ctx.collection f)).filter q).countP
        fun d => c.selects (u d) && !c.selects d := by
  rw [entering, List.countP_map]
  refine List.countP_congr fun d hd => ?_
  obtain ⟨hd, hq⟩ := List.mem_filter.1 hd
  rw [Function.comp_apply, h.version?_eq hk ht hd hq, Option.any_some]

theorem leaving_eq (hk : s.Keyed) (ht : s.TextIds (ctx.collection f)) (c : Condition) :
    leaving s (ctx.collection f) c (((s.scan (ctx.collection f)).filter q).map u) =
      ((s.scan (ctx.collection f)).filter q).countP
        fun d => c.selects d && !c.selects (u d) := by
  rw [leaving, List.countP_map]
  refine List.countP_congr fun d hd => ?_
  obtain ⟨hd, hq⟩ := List.mem_filter.1 hd
  rw [Function.comp_apply, h.version?_eq hk ht hd hq, Option.any_some]

/-- If a new version enters the scope of a limit that binds it, there is room for one. -/
theorem room (hp : (ctx.config.policy f).family = f) (hk : s.Keyed)
    (ht : s.TextIds (ctx.collection f)) {rule : LimitRule} {c : Condition}
    (hr : (ctx.config.policy f).Limits rule c)
    (hb : ∀ d ∈ ((s.scan (ctx.collection f)).filter q).map u, c.selects d = true →
      (ctx.config.policy f).Binds rule d)
    (he : 0 < entering s (ctx.collection f) c (((s.scan (ctx.collection f)).filter q).map u)) :
    ((s.scan (ctx.collection f)).countP c.selects : Int) < rule.limit := by
  rw [h.entering_eq hk ht] at he
  obtain ⟨d, hm, hs⟩ := List.countP_pos_iff.1 he
  obtain ⟨hd, hq⟩ := List.mem_filter.1 hm
  obtain ⟨hnew, hold⟩ : c.selects (u d) = true ∧ c.selects d = false := by simpa using hs
  obtain ⟨id, hid, -, hc⟩ := h.text_id ht hd hq
  have met : c.Met (u d) := by
    rw [Condition.selects, Bool.and_eq_true] at hnew
    exact Condition.met_iff.1 hnew.1
  have binds := hb _ (List.mem_map_of_mem hm) hnew
  refine room_of_checkRules hp hk ht hc hr binds met fun e he hide => ?_
  rw [hk.eq_of_text_id he hd hide hid]
  exact hold

/-- A limit is kept by what is written exactly if there is room for all that enters its scope. -/
theorem limit_iff (hp : (ctx.config.policy f).family = f) (hk : s.Keyed)
    (ht : s.TextIds (ctx.collection f)) {rule : LimitRule} {c : Condition}
    (hr : (ctx.config.policy f).Limits rule c)
    (hb : ((s.scan (ctx.collection f)).countP c.selects : Int) ≤ rule.limit)
    (hs : s'.scan (ctx.collection f) =
      (s.scan (ctx.collection f)).map fun d => if q d then u d else d) :
    ((s'.scan (ctx.collection f)).countP c.selects : Int) ≤ rule.limit ↔
      ((2 ≤ entering s (ctx.collection f) c (((s.scan (ctx.collection f)).filter q).map u) ∨
          ∃ d ∈ ((s.scan (ctx.collection f)).filter q).map u,
            c.selects d = true ∧ ¬(ctx.config.policy f).Binds rule d) →
        ((s.scan (ctx.collection f)).countP c.selects +
          entering s (ctx.collection f) c (((s.scan (ctx.collection f)).filter q).map u) : Int) ≤
          rule.limit +
            leaving s (ctx.collection f) c (((s.scan (ctx.collection f)).filter q).map u)) := by
  -- What is in the scope afterwards was there before or enters, and does not leave.
  have balance := countP_map_update q c.selects u (s.scan (ctx.collection f))
  rw [← h.entering_eq hk ht, ← h.leaving_eq hk ht, ← hs] at balance
  constructor
  · intro _ _
    omega
  · intro hfits
    by_cases hall : ∀ d ∈ ((s.scan (ctx.collection f)).filter q).map u, c.selects d = true →
        (ctx.config.policy f).Binds rule d
    · -- A single new version that enters the scope has found room there by itself.
      have single := h.room hp hk ht hr hall
      have several := fun he => hfits (.inl he)
      omega
    · -- Some new version has not been checked against the limit, so that the batch has to fit.
      simp only [Classical.not_forall] at hall
      obtain ⟨d, hd, hs, hb⟩ := hall
      have := hfits (.inr ⟨d, hd, hs, hb⟩)
      omega

/-- What is written is unique exactly if no two new versions agree. -/
theorem unique_iff (hp : (ctx.config.policy f).family = f) (hk : s.Keyed)
    (ht : s.TextIds (ctx.collection f)) {rule : UniquenessRule}
    (hr : (ctx.config.policy f).Distinguishes rule)
    (hb : (s.scan (ctx.collection f)).Pairwise fun d d' => ¬d.AgreeOn rule.fields d')
    (hs : s'.scan (ctx.collection f) =
      (s.scan (ctx.collection f)).map fun d => if q d then u d else d) :
    ((s'.scan (ctx.collection f)).Pairwise fun d d' => ¬d.AgreeOn rule.fields d') ↔
      (((s.scan (ctx.collection f)).filter q).map u).Pairwise
        fun d d' => ¬d.AgreeOn rule.fields d' := by
  rw [hs, List.pairwise_map, List.pairwise_map, List.pairwise_filter]
  -- A new version differs from all other stored records, as the checks have found.
  have differs {d e : Document} (hd : d ∈ s.scan (ctx.collection f)) (hq : q d = true)
      (he : e ∈ s.scan (ctx.collection f)) (hne : d.id? ≠ e.id?) :
      ¬(u d).AgreeOn rule.fields e := by
    obtain ⟨id, hid, hu, hc⟩ := h.text_id ht hd hq
    obtain ⟨id', hid'⟩ := ht e he
    refine differs_of_checkRules hp hk hc hu hr he hid' ?_
    rintro rfl
    exact hne ((Document.id?_of_text hid).trans (Document.id?_of_text hid').symm)
  constructor
  · intro hafter
    refine hafter.imp fun hne ha hb => ?_
    rw [if_pos ha, if_pos hb] at hne
    exact hne
  · intro hnews
    refine (hnews.and (hb.and hk.pairwise_id?)).imp_of_mem fun {a b} ha hb hne => ?_
    obtain ⟨hnew, hold, hid⟩ := hne
    by_cases hqa : q a = true
    · by_cases hqb : q b = true
      · rw [if_pos hqa, if_pos hqb]
        exact hnew hqa hqb
      · rw [if_pos hqa, if_neg hqb]
        exact differs ha hqa hb hid
    · by_cases hqb : q b = true
      · rw [if_neg hqa, if_pos hqb]
        exact fun agree => differs hb hqb ha hid.symm agree.symm
      · rw [if_neg hqa, if_neg hqb]
        exact hold

end NewVersions

/-- A bulk update that succeeds on a store that keeps the rules leaves one that keeps them, exactly
    if the new versions fit together. -/
theorem rules_kept_iff_fits (u : BulkUpdate) {n : Nat}
    (hp : (ctx.config.policy u.family).family = u.family) (hk : s.Keyed)
    (ht : s.TextIds (ctx.collection u.family)) (hb : RulesKept ctx u.family s)
    (h : (u.run ctx).run s = (.ok n, s')) :
    ∃ docs, u.news ctx s = .ok docs ∧ n = docs.length ∧
      (RulesKept ctx u.family s' ↔ Fits ctx u.family s docs) := by
  obtain ⟨docs, hdocs, hn, hrows⟩ := u.run_eq_ok h
  obtain ⟨q, v, hv, rfl⟩ := u.news_eq_ok hk hdocs
  have hs := hk.scan_rewritten (fun d hd hq => hv.id?_eq hd hq) hrows
  refine ⟨_, hdocs, hn, fun hafter => ⟨fun rule c hr => ?_, fun rule hr => ?_⟩,
    fun hfits => ⟨fun rule c hr => ?_, fun rule hr => ?_⟩⟩
  · exact (hv.limit_iff hp hk ht hr (hb.limits rule c hr) hs).1 (hafter.limits rule c hr)
  · exact (hv.unique_iff hp hk ht hr (hb.unique rule hr) hs).1 (hafter.unique rule hr)
  · exact (hv.limit_iff hp hk ht hr (hb.limits rule c hr) hs).2 (hfits.limits rule c hr)
  · exact (hv.unique_iff hp hk ht hr (hb.unique rule hr) hs).2 (hfits.unique rule hr)

/-- What is written alone fits, if all limits whose scope it is in bind it. -/
theorem fits_of_length_le_one (h : docs.length ≤ 1)
    (hb : ∀ rule c, (ctx.config.policy f).Limits rule c →
      ∀ d ∈ docs, c.selects d = true → (ctx.config.policy f).Binds rule d) :
    Fits ctx f s docs where
  limits rule c hr he := by
    have few := List.countP_le_length (l := docs)
      (p := fun d => c.selects d && !(s.version? (ctx.collection f) d).any c.selects)
    rcases he with he | ⟨d, hd, hs, hnot⟩
    · rw [entering] at he
      omega
    · exact absurd (hb rule c hr d hd hs) hnot
  unique rule _ := by
    match docs, h with
    | [], _ => exact .nil
    | [d], _ => exact List.pairwise_singleton _ d

/-! ## New versions that do not fit together -/

/-- A request to a catalogue where at most one entity may have one as its `x`, and no two the same
    name. -/
def strictContext : Context where
  config :=
    { policy := fun f =>
        if f = .entities then
          { Policy.standard f with
            limitRules := [⟨"where[x]=1", 1⟩]
            uniqueFields := { default := ["_name"] } }
        else Policy.standard f }
  now := ⟨.first, 0⟩

/-- Two entities with different names. -/
def twoEntities : Store where
  rows := [
    ⟨"GenericEntity", "a",
      [("_id", .text "a"), ("_name", .text "A"), ("_visibility", .text "public")]⟩,
    ⟨"GenericEntity", "b",
      [("_id", .text "b"), ("_name", .text "B"), ("_visibility", .text "public")]⟩]

/-- The request to give all entities one value in a field. -/
def givingAll (field : String) (v : Value) : BulkUpdate :=
  .everywhere .entities (.object [(field, v)]) (.object [])

/-- Two documents have values that are equal to each other in a field. -/
def agreeing (field : String) : List Document → Bool
  | [d, e] =>
    let v := Value.orNull (d.path? field)
    let w := Value.orNull (e.path? field)
    (equalTo v w none).toOption == some true && (equalTo w v none).toOption == some true
  | _ => false

theorem limits_strictContext {rule : LimitRule} {c : Condition}
    (h : (strictContext.config.policy .entities).Limits rule c) :
    rule = ⟨"where[x]=1", 1⟩ ∧ ∃ scope, Scope.read "where[x]=1" none = .ok scope ∧
      scope.filter.condition = c := by
  obtain ⟨kind, rules, hrules, hm⟩ := h.given
  rw [Policy.limitsFor_of_uncounted rfl hrules] at hm
  obtain rfl := List.mem_singleton.1 hm
  obtain ⟨scope, hr, hc, -⟩ := h.scope.reads
  exact ⟨rfl, scope, hr, hc⟩

theorem rulesKept_twoEntities : RulesKept strictContext .entities twoEntities where
  limits rule c hr := by
    obtain ⟨rfl, scope, hs, rfl⟩ := limits_strictContext hr
    have counted : (Scope.read "where[x]=1" none).toOption.map (fun scope =>
        (twoEntities.scan "GenericEntity").countP scope.filter.condition.selects) = some 0 := by
      decide +kernel
    rw [hs] at counted
    have counted : (twoEntities.scan "GenericEntity").countP scope.filter.condition.selects = 0 :=
      Option.some.inj counted
    change ((twoEntities.scan "GenericEntity").countP scope.filter.condition.selects : Int) ≤ 1
    omega
  unique rule hr := by
    obtain rfl := List.mem_singleton.1 (hr.always .null _ rfl)
    refine List.pairwise_cons.2 ⟨List.forall_mem_singleton.2 fun agree => ?_,
      List.pairwise_singleton _ _⟩
    have differ : (equalTo (.text "A") (.text "B") none).toOption = some false := by decide +kernel
    have same : equalTo (.text "A") (.text "B") none = .ok true :=
      (agree "_name" List.mem_cons_self).1
    rw [same] at differ
    exact nomatch differ

theorem not_pairwise_of_agreeing {field : String} (h : agreeing field docs = true) :
    ¬docs.Pairwise fun d d' => ¬d.AgreeOn [.text field] d' := by
  match docs, h with
  | [d, e], h =>
    intro hd
    rw [agreeing, Bool.and_eq_true, beq_iff_eq, beq_iff_eq] at h
    refine (List.pairwise_cons.1 hd).1 e List.mem_cons_self fun path hp => ?_
    cases List.mem_singleton.1 hp
    exact ⟨toOption_eq_some.1 h.1, toOption_eq_some.1 h.2⟩

/-- Two entities are given one name. -/
theorem run_givingAll_name :
    ∃ s', ((givingAll "_name" (.text "C")).run strictContext).run twoEntities = (.ok 2, s') ∧
      agreeing "_name" (s'.scan "GenericEntity") = true := by
  have done : (((givingAll "_name" (.text "C")).run strictContext).run twoEntities).1.toOption =
      some 2 := by decide +kernel
  have agree : agreeing "_name" ((((givingAll "_name" (.text "C")).run strictContext).run
      twoEntities).2.scan "GenericEntity") = true := by decide +kernel
  rcases hrun : ((givingAll "_name" (.text "C")).run strictContext).run twoEntities with ⟨r, s'⟩
  rw [hrun] at done agree
  obtain rfl := toOption_eq_some.1 done
  exact ⟨s', rfl, agree⟩

/-- No two may have the same name. -/
theorem givingAll_name_breaks :
    ∃ s', ((givingAll "_name" (.text "C")).run strictContext).run twoEntities = (.ok 2, s') ∧
      ¬RulesKept strictContext .entities s' := by
  obtain ⟨s', hrun, agree⟩ := run_givingAll_name
  refine ⟨s', hrun, fun kept => ?_⟩
  have distinguishes : (strictContext.config.policy .entities).Distinguishes
      ⟨[.text "_name"], ""⟩ :=
    { scope := .empty
      always := fun kind rules hr => by
        cases kind with
        | null => cases hr; exact List.mem_cons_self
        | text kind => cases hr; exact List.mem_cons_self
        | _ => exact nomatch hr }
  exact not_pairwise_of_agreeing agree (kept.unique _ distinguishes)

/-- Two entities are brought into the scope of a limit of one. -/
theorem givingAll_x_breaks :
    ∃ s', ((givingAll "x" (.int 1)).run strictContext).run twoEntities = (.ok 2, s') ∧
      ¬RulesKept strictContext .entities s' := by
  have done : (((givingAll "x" (.int 1)).run strictContext).run twoEntities).1.toOption =
      some 2 := by decide +kernel
  have counted : (Scope.read "where[x]=1" none).toOption.map (fun scope =>
      (scope.filter.set.isNone && scope.set.isNone,
        ((((givingAll "x" (.int 1)).run strictContext).run twoEntities).2.scan
          "GenericEntity").countP scope.filter.condition.selects)) = some (true, 2) := by
    decide +kernel
  rcases hrun : ((givingAll "x" (.int 1)).run strictContext).run twoEntities with ⟨r, s'⟩
  rw [hrun] at done counted
  obtain rfl := toOption_eq_some.1 done
  refine ⟨s', rfl, fun kept => ?_⟩
  obtain ⟨scope, hs, counted⟩ := Option.map_eq_some_iff.1 counted
  obtain ⟨sets, counted⟩ := Prod.mk.inj counted
  obtain ⟨hf, hset⟩ : scope.filter.set = none ∧ scope.set = none := by simpa using sets
  have fixed : FixedScope "where[x]=1" scope.filter.condition :=
    { plain := by decide +kernel
      reads := ⟨scope, toOption_eq_some.1 hs, rfl, hf, hset⟩ }
  have given : (⟨"where[x]=1", 1⟩ : LimitRule) ∈
      (strictContext.config.policy .entities).limitRules := List.mem_cons_self
  have few : ((s'.scan "GenericEntity").countP scope.filter.condition.selects : Int) ≤ 1 :=
    kept.limits _ _ (Policy.limits_of_mem given fixed)
  have counted : (s'.scan "GenericEntity").countP scope.filter.condition.selects = 2 := counted
  omega

/-- From a store that keeps the rules, bulk updates lead to stores that do not. -/
theorem bulk_update_breaks_rules :
    RulesKept strictContext .entities twoEntities ∧
      (∃ s', ((givingAll "_name" (.text "C")).run strictContext).run twoEntities = (.ok 2, s') ∧
        ¬RulesKept strictContext .entities s') ∧
      ∃ s', ((givingAll "x" (.int 1)).run strictContext).run twoEntities = (.ok 2, s') ∧
        ¬RulesKept strictContext .entities s' :=
  ⟨rulesKept_twoEntities, givingAll_name_breaks, givingAll_x_breaks⟩

/-- The new versions agree on their name, so they do not fit together. -/
theorem rules_kept_iff_fits_twoEntities :
    ∃ s' docs, ((givingAll "_name" (.text "C")).run strictContext).run twoEntities = (.ok 2, s') ∧
      (givingAll "_name" (.text "C")).news strictContext twoEntities = .ok docs ∧
      (RulesKept strictContext .entities s' ↔ Fits strictContext .entities twoEntities docs) := by
  obtain ⟨s', hrun, -⟩ := run_givingAll_name
  have keyed : twoEntities.Keyed :=
    { named := by
        simp only [twoEntities, List.forall_mem_cons]
        exact ⟨rfl, rfl, nofun⟩
      unique := by decide }
  have texts : twoEntities.TextIds (strictContext.collection .entities) :=
    List.forall_mem_cons.2 ⟨⟨"a", rfl⟩, List.forall_mem_singleton.2 ⟨"b", rfl⟩⟩
  obtain ⟨docs, hdocs, -, hiff⟩ :=
    rules_kept_iff_fits (givingAll "_name" (.text "C")) rfl keyed texts rulesKept_twoEntities hrun
  exact ⟨s', docs, hrun, hdocs, hiff⟩

end Service

end Catalog
