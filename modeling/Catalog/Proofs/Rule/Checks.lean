import Catalog.Proofs.Plan.Selection
import Catalog.Rule.Limits

/-!
# What passed checks say

A check that a record passes says something about the records in the store, where the rule's scope
is the same for every record (`FixedScope`): that there is room for the record under a limit
(`LimitRule.room_of_check`), and that no other record agrees with it on the fields of a rule of
uniqueness (`UniquenessRule.differs_of_check`). Both are about the record and what is stored only;
what else is about to be written does not show in a check.
-/

namespace Catalog

/-! ## Fixed scopes -/

/-- A template without placeholders stands for itself. -/
theorem Template.render_of_plain {template : String}
    (h : parts template = template.toList.map .char) (record : Value) :
    render template record = template := by
  rw [render, h, List.flatMap_map]
  change String.ofList (template.toList.flatMap fun c => [c]) = template
  rw [List.flatMap_singleton', String.ofList_toList]

/-- Who owns the record only shows in the set of a scope. -/
theorem Scope.read_filled {text : String} {scope : Scope} (h : read text none = .ok scope)
    (owners : Audience) :
    read text (some owners) = .ok { scope with set := scope.set.map (SetExpr.fill owners) } := by
  dsimp only [read] at h ⊢
  split at h
  · next ht =>
    rw [if_pos ht]
    cases h
    rfl
  · next ht =>
    rw [if_neg ht]
    obtain ⟨v, hv, h⟩ := bind_eq_ok.1 h
    rw [hv]
    cases v with
    | object members =>
      obtain ⟨set, hset, h⟩ := bind_eq_ok.1 h
      obtain ⟨filter, hf, h⟩ := bind_eq_ok.1 h
      cases h
      exact bind_eq_ok.2 ⟨_, rfl, bind_eq_ok.2 ⟨_, hset, bind_eq_ok.2 ⟨_, hf, rfl⟩⟩⟩
    | _ => cases h

/-- A scope that is the same for every record: it has no placeholders, and reads as a filter with
    a condition and no set. -/
structure FixedScope (text : String) (c : Condition) : Prop where
  /-- There are no placeholders. -/
  plain : Template.parts text = text.toList.map .char
  /-- The text is that of a filter with the condition. -/
  reads : ∃ scope, Scope.read text none = .ok scope ∧ scope.filter.condition = c ∧
    scope.filter.set = none ∧ scope.set = none

/-- A scope that a fixed one is read as for a record. -/
theorem FixedScope.read {text : String} {c : Condition} (h : FixedScope text c) (record : Value)
    (owners : Audience) :
    ∃ scope, Scope.read (Template.render text record) (some owners) = .ok scope ∧
      ∀ ctx f extra, baseCondition ctx f scope.filter scope.set extra =
        .ok (.conj [c, .always, .always, ctx.access f, extra]) := by
  obtain ⟨scope, hr, hc, hf, hs⟩ := h.reads
  refine ⟨scope, ?_, fun ctx f extra => ?_⟩
  · rw [Template.render_of_plain h.plain, Scope.read_filled hr]
    cases scope
    cases hs
    rfl
  · rw [baseCondition, hc, hf, hs]
    rfl

/-- The empty scope is about all records. -/
theorem FixedScope.empty : FixedScope "" .always where
  plain := rfl
  reads := ⟨{}, rfl, rfl, rfl, rfl⟩

/-! ## Counting -/

variable {ctx : Context} {store : Store} {f : Family}

theorem ids?_leavingOut (exclude : Value) : (leavingOut exclude).ids? = .ok none := by
  rw [leavingOut]
  split <;> rfl

/-- Leaving out one id does not leave out a document with another. -/
theorem leavingOut_met {id id' : String} {doc : Document} (hd : doc.get? "_id" = some (.text id'))
    (hne : id' ≠ id) : (leavingOut (.text id)).Met doc := by
  have differs : scalarEquals (.text id') (.text id) none = .ok false := by
    change Except.ok ((id' == id) || false) = _
    rw [beq_false_of_ne hne]
    rfl
  have path : (Value.object doc).path? "_id" = some (.text id') := by
    rw [Document.path?_key (by decide), hd]
  rw [leavingOut]
  split
  · rw [Condition.compare, Condition.Met, Condition.holds, Leaf.holds, path]
    change (do return !(← scalarEquals (.text id') (.text id) none)) = _
    rw [differs]
    rfl
  · rfl

/-- Counting in a scope counts what its condition selects. -/
theorem countInScope_eq_ok (hk : store.Keyed) {scope : Scope} {extra c : Condition}
    (hb : baseCondition ctx f scope.filter scope.set extra = .ok c) {n : Nat}
    (h : countInScope ctx store f scope extra = .ok n) :
    n = (store.scan (ctx.collection f)).countP c.selects := by
  obtain ⟨plan, hp, h⟩ := bind_eq_ok.1 h
  obtain ⟨docs, hr, h⟩ := bind_eq_ok.1 h
  cases h
  obtain ⟨c', joins, hc, -, hj, rfl⟩ := Plan.count_eq_ok.1 (lift_eq_ok.1 hp)
  cases hc.symm.trans hb
  rw [hj rfl, run_ofStages] at hr
  obtain ⟨found, hf, hr⟩ := bind_eq_ok.1 hr
  cases hr
  rw [selection_eq_selects hk (lift_eq_ok.1 hf), List.countP_eq_length_filter]

/-- What a fixed scope selects, it selects with a further condition that is met and says no ids. -/
theorem selects_within {c extra : Condition} {doc : Document} (hc : c.selects doc = true)
    (hs : extra.ids? = .ok none) (hm : extra.Met doc) :
    (Condition.conj [c, .always, .always, .always, extra]).selects doc = true :=
  Condition.selects_conj_cons
    (List.forall_mem_cons.2 ⟨rfl, List.forall_mem_cons.2 ⟨rfl, List.forall_mem_cons.2
      ⟨rfl, List.forall_mem_singleton.2 hs⟩⟩⟩) hc
    (List.forall_mem_cons.2 ⟨rfl, List.forall_mem_cons.2 ⟨rfl, List.forall_mem_cons.2
      ⟨rfl, List.forall_mem_singleton.2 hm⟩⟩⟩)

/-! ## Limits -/

/-- Who may read what does not depend on the time. -/
theorem access_afterWriting {after : Context} (h : afterWriting ctx = .ok after) (f : Family) :
    after.access f = ctx.access f := by
  rw [afterWriting] at h
  obtain ⟨now, -, h⟩ := bind_eq_ok.1 h
  cases h
  rfl

/-- A record in the scope of a limit that it keeps finds room there: of the other records that the
    scope selects there are fewer than the limit. -/
theorem LimitRule.room_of_check (hk : store.Keyed) (ha : ctx.access f = .always) {rule : LimitRule}
    {c : Condition} (hs : FixedScope rule.scope c) {doc : Document} {exclude : Value}
    (h : rule.check ctx store f doc exclude = .ok ()) (hd : c.Met doc) {others : Document → Bool}
    (ho : ∀ e ∈ store.scan (ctx.collection f), others e = true →
      c.selects e = true ∧ (leavingOut exclude).Met e) :
    ((store.scan (ctx.collection f)).countP others : Int) < rule.limit := by
  dsimp only [check] at h
  obtain ⟨after, hafter, h⟩ := bind_eq_ok.1 h
  obtain ⟨owners, -, h⟩ := bind_eq_ok.1 h
  obtain ⟨scope, hr, h⟩ := bind_eq_ok.1 h
  obtain ⟨inScope, hin, h⟩ := bind_eq_ok.1 h
  obtain ⟨b, hb, h⟩ := bind_eq_ok.1 h
  obtain ⟨scope', hr', base⟩ := hs.read (.object doc) owners
  cases hr.symm.trans hr'
  have hafter := (access_afterWriting (lift_eq_ok.1 hafter) f).trans ha
  -- The record is judged a little later than what is stored is counted, but a condition alone does
  -- not depend on the time.
  have within : inScope.Met doc := by
    cases (lift_eq_ok.1 hin).symm.trans (base after f .always)
    rw [hafter]
    refine Condition.met_conj.2 (List.forall_mem_cons.2 ⟨hd, ?_⟩)
    simp [Condition.Met, Condition.holds]
  cases (lift_eq_ok.1 hb).symm.trans within
  obtain ⟨n, hn, h⟩ := bind_eq_ok.1 h
  have hn := countInScope_eq_ok hk (base ctx f (leavingOut exclude)) hn
  have few : ¬rule.limit ≤ n := by
    intro hle
    rw [if_pos hle] at h
    cases h
  -- The condition counted by has more members than the scope's own, and these say no ids, so that
  -- the same documents are loaded.
  have counted : (store.scan (ctx.collection f)).countP others ≤ n := by
    rw [hn, ha]
    refine List.countP_mono_left fun e he h => ?_
    obtain ⟨hc, hl⟩ := ho e he h
    exact selects_within hc (ids?_leavingOut exclude) hl
  omega

/-! ## Uniqueness -/

/-- Two values agree: each is equal to the other, as a condition compares them. -/
def Value.Agree (v w : Value) : Prop :=
  equalTo v w none = .ok true ∧ equalTo w v none = .ok true

/-- Two documents agree on the fields that are paths. A missing value counts as null. -/
def Document.AgreeOn (fields : List Value) (doc doc' : Document) : Prop :=
  ∀ path, .text path ∈ fields →
    (Value.orNull (doc.path? path)).Agree (Value.orNull (doc'.path? path))

theorem Document.AgreeOn.symm {fields : List Value} {doc doc' : Document}
    (h : doc.AgreeOn fields doc') : doc'.AgreeOn fields doc :=
  fun path hp => (h path hp).symm

/-- A document whose values of fields are equal to those of another one meets the comparison with
    them. -/
theorem met_sameFields {fields : List Value} {doc e : Document}
    (h : ∀ path, .text path ∈ fields →
      equalTo (Value.orNull (e.path? path)) (Value.orNull (doc.path? path)) none = .ok true)
    {same : List Condition} (hs : fields.mapM (sameField doc) = .ok same) :
    (Condition.conj same).Met e := by
  refine Condition.met_conj.2 fun c hc => ?_
  obtain ⟨v, hv, hc⟩ := mem_of_mapM hs hc
  cases v with
  | text path =>
    cases hc
    exact h path hv
  | _ => cases hc

/-- Fields other than the id say no ids. -/
theorem ids?_sameFields {fields : List Value} {doc : Document} (h : .text "_id" ∉ fields)
    {same : List Condition} (hs : fields.mapM (sameField doc) = .ok same) :
    ∀ c ∈ same, c.ids? = .ok none := by
  intro c hc
  obtain ⟨v, hv, hc⟩ := mem_of_mapM hs hc
  cases v with
  | text path =>
    cases hc
    have hp : path ≠ "_id" := by
      rintro rfl
      exact h hv
    rw [Condition.equals, Condition.compare, Condition.ids?, Leaf.ids?, if_neg hp]
  | _ => cases hc

/-- A record is in a scope, as this is read for another one: it meets all that records in the scope
    have to meet, none of which says ids. -/
def Covers (ctx : Context) (f : Family) (text : String) (doc e : Document) : Prop :=
  ∀ owners, ownersOf doc = .ok owners → ∃ scope cs,
    Scope.read (Template.render text (.object doc)) (some owners) = .ok scope ∧
      (∀ extra, baseCondition ctx f scope.filter scope.set extra =
        .ok (.conj (cs ++ [extra]))) ∧
      ∀ c ∈ cs, c.ids? = .ok none ∧ c.Met e

/-- The scope of all records covers all of them. -/
theorem FixedScope.covers {text : String} (hs : FixedScope text .always)
    (ha : ctx.access f = .always) (doc e : Document) : Covers ctx f text doc e := by
  intro owners _
  obtain ⟨scope, hr, base⟩ := hs.read (.object doc) owners
  refine ⟨scope, [.always, .always, .always, .always], hr, fun extra => ?_, fun c hc => ?_⟩
  · rw [base, ha]
    rfl
  · obtain rfl : c = .always := by simpa using hc
    exact ⟨rfl, rfl⟩

/-- A record that is unique in a scope differs from every other record in it in a field of the
    rule. -/
theorem UniquenessRule.differs_within (hk : store.Keyed) {rule : UniquenessRule} {doc : Document}
    {exclude : Value} (h : rule.check ctx store f doc exclude = .ok ()) {e : Document}
    (he : e ∈ store.scan (ctx.collection f)) (ho : (leavingOut exclude).Met e)
    (hs : Covers ctx f rule.scope doc e) (unnamed : .text "_id" ∉ rule.fields) :
    ¬∀ path, .text path ∈ rule.fields →
      equalTo (Value.orNull (e.path? path)) (Value.orNull (doc.path? path)) none = .ok true := by
  intro equal
  dsimp only [check] at h
  obtain ⟨owners, howners, h⟩ := bind_eq_ok.1 h
  obtain ⟨scope, hr, h⟩ := bind_eq_ok.1 h
  obtain ⟨same, hsame, h⟩ := bind_eq_ok.1 h
  obtain ⟨n, hn, h⟩ := bind_eq_ok.1 h
  obtain ⟨scope', cs, hr', base, covered⟩ := hs owners (lift_eq_ok.1 howners)
  cases hr.symm.trans hr'
  have hsame := lift_eq_ok.1 hsame
  have fields := met_sameFields equal hsame
  have extra : (Condition.conj [.conj same, leavingOut exclude]).Met e :=
    Condition.met_conj.2 (List.forall_mem_cons.2 ⟨fields, List.forall_mem_singleton.2 ho⟩)
  have silent : (Condition.conj [.conj same, leavingOut exclude]).ids? = .ok none := by
    rw [extra.ids?_conj]
    refine Condition.firstIds?_silent (List.forall_mem_cons.2
      ⟨?_, List.forall_mem_singleton.2 (ids?_leavingOut exclude)⟩)
    rw [fields.ids?_conj]
    exact Condition.firstIds?_silent (ids?_sameFields unnamed hsame)
  -- Nothing that is counted by says ids, so that all records are looked through.
  have met : (Condition.conj (cs ++ [.conj [.conj same, leavingOut exclude]])).Met e := by
    refine Condition.met_conj.2 (List.forall_mem_append.2 ⟨fun c hc => (covered c hc).2, ?_⟩)
    exact List.forall_mem_singleton.2 extra
  have selects : (Condition.conj (cs ++ [.conj [.conj same, leavingOut exclude]])).selects e =
      true := by
    rw [Condition.selects, Condition.met_iff.2 met, Condition.admits, met.ids?_conj,
      Condition.firstIds?_silent (List.forall_mem_append.2 ⟨fun c hc => (covered c hc).1,
        List.forall_mem_singleton.2 silent⟩)]
    rfl
  have some : 0 < n := by
    rw [countInScope_eq_ok hk (base _) hn]
    exact List.countP_pos_iff.2 ⟨e, he, selects⟩
  rw [if_pos some] at h
  cases h

/-- A record that is unique agrees with no other record on the fields of the rule. -/
theorem UniquenessRule.differs_of_check (hk : store.Keyed) (ha : ctx.access f = .always)
    {rule : UniquenessRule} (hs : FixedScope rule.scope .always) {doc : Document}
    {exclude : Value} (h : rule.check ctx store f doc exclude = .ok ()) {e : Document}
    (he : e ∈ store.scan (ctx.collection f)) (ho : (leavingOut exclude).Met e)
    (hid : ¬(Value.orNull (doc.path? "_id")).Agree (Value.orNull (e.path? "_id"))) :
    ¬doc.AgreeOn rule.fields e := by
  intro agree
  -- If the id is among the fields there is nothing to show.
  exact differs_within hk h he ho (hs.covers ha doc e) (fun hm => hid (agree "_id" hm))
    fun path hp => (agree path hp).2

end Catalog
