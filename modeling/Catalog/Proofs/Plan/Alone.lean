import Catalog.Proofs.Plan.Selection
import Catalog.Proofs.SameResult

/-!
# Records found together and alone

Lookups and includes load the records for a whole page with one plan, whose last condition names
all the keys at once. Its other conditions are the same for each of these keys, so what it finds is
told by the plans for one key: it has an answer if each of these has one (`exists_recordsWith`), and
then each of them finds its part of it (`recordsWith_alone`).

For references this means that the record found for one of them among those of all references is
the one that a plan for this reference alone finds (`recordAlone_of_recordsOf`), and that there are
no further faults (`exists_recordsOf`).
-/

namespace Catalog

variable {ctx : Context} {store : Store} {f : Family} {docs : List Document}

/-! ## A conjunction with one more leaf -/

namespace Condition

theorem conjuncts?_snoc (cs : List Condition) (l : Leaf) :
    conjuncts? (cs ++ [.leaf l]) = (conjuncts? cs).map (· ++ [.leaf l]) := by
  fun_induction conjuncts? cs with
  | case1 => rfl
  | case2 cs ih => exact ih
  | case3 cs => rfl
  | case4 ds cs ih =>
    rw [List.cons_append, conjuncts?, ih, Option.map_map, Option.map_map]
    simp [Function.comp_def]
  | case5 c cs h₁ h₂ h₃ ih =>
    rw [List.cons_append, conjuncts?, ih, Option.map_map, Option.map_map]
    · simp [Function.comp_def]
    all_goals assumption

theorem allHold_singleton (c : Condition) (v : Value) : allHold [c] v = c.holds v := by
  rw [allHold]
  cases c.holds v with
  | error e => rfl
  | ok b => cases b <;> rfl

/-- A conjunction holds as its flat members do, one after the other. -/
theorem holds_conj_eq (cs : List Condition) (v : Value) :
    (conj cs).holds v = match conjuncts? cs with
      | none => .ok false
      | some ds => allHold ds v := by
  rw [conj]
  rcases conjuncts? cs with _ | _ | ⟨c, _ | ⟨d, ds⟩⟩
  · rfl
  · rfl
  · exact (allHold_singleton c v).symm
  · rfl

/-- A leaf at the end of a conjunction is asked last. -/
theorem holds_conj_snoc (cs : List Condition) (l : Leaf) (v : Value) :
    (conj (cs ++ [.leaf l])).holds v =
      (conj cs).holds v >>= fun b => if b then l.holds v else .ok false := by
  rw [holds_conj_eq, holds_conj_eq, conjuncts?_snoc]
  cases conjuncts? cs with
  | none => rfl
  | some ds =>
    refine (allHold_append ds [.leaf l] v).trans ?_
    rw [allHold_singleton]
    rfl

theorem ids?_conj_eq (cs : List Condition) :
    (conj cs).ids? = match conjuncts? cs with
      | none => .ok none
      | some ds => firstIds? ds := by
  rw [conj]
  rcases conjuncts? cs with _ | _ | ⟨c, _ | ⟨d, ds⟩⟩
  · rfl
  · rfl
  · exact (firstIds?_singleton c).symm
  · rfl

/-- Which ids a conjunction says is told by a leaf at its end or has nothing to do with it. -/
theorem ids?_conj_snoc (cs : List Condition) :
    (∃ said, ∀ l : Leaf, (conj (cs ++ [.leaf l])).ids? = said) ∨
      ∀ l : Leaf, (conj (cs ++ [.leaf l])).ids? = l.ids? := by
  simp only [ids?_conj_eq, conjuncts?_snoc]
  cases conjuncts? cs with
  | none => exact .inl ⟨_, fun _ => rfl⟩
  | some ds =>
    simp only [Option.map_some, firstIds?_append]
    cases firstIds? ds with
    | error e => exact .inl ⟨.error e, fun _ => rfl⟩
    | ok said =>
      cases said with
      | some ids => exact .inl ⟨.ok (some ids), fun _ => rfl⟩
      | none => exact .inr fun l => firstIds?_singleton (.leaf l)

end Condition

/-! ## What a plan with several keys selects -/

/-- Whether a document is loaded for the ids that a condition says. -/
def Document.idAmong? (said : Option (List String)) (doc : Document) : Bool :=
  match said with
  | some ids => doc.idAmong ids
  | none => true

theorem Condition.admits_eq {c : Condition} {said : Option (List String)} (h : c.ids? = .ok said)
    (doc : Document) : c.admits doc = doc.idAmong? said := by
  rw [admits, h]
  cases said <;> rfl

/-- What a condition selects from a keyed store. -/
theorem selection_eq_ok (hk : store.Keyed) {c : Condition} :
    selection ctx store f c = .ok docs ↔
      ∃ said, c.ids? = .ok said ∧
        (∀ d ∈ store.scan (ctx.collection f), d.idAmong? said = true →
          c.holds (.object d) = .ok (c.met d)) ∧
        docs = (store.scan (ctx.collection f)).filter fun d => d.idAmong? said && c.met d := by
  constructor
  · intro h
    obtain ⟨loaded, hl, hs⟩ := bind_eq_ok.1 h
    obtain ⟨said, hsaid, -⟩ := bind_eq_ok.1 hl
    obtain rfl := load_eq_filter hk hl
    obtain ⟨hholds, rfl⟩ := selectDocuments_eq_ok.1 hs
    refine ⟨said, hsaid, fun d hd ha => ?_, ?_⟩
    · exact hholds d (List.mem_filter.2 ⟨hd, by rw [Condition.admits_eq hsaid, ha]⟩)
    · rw [List.filter_filter]
      exact List.filter_congr fun d _ => by rw [Condition.admits_eq hsaid, Bool.and_comm]
  · rintro ⟨said, hsaid, hholds, rfl⟩
    have load : (Plan.ofStages ctx f [.select c]).load store =
        .ok ((store.scan (ctx.collection f)).filter (Document.idAmong? said)) := by
      rw [Plan.load, Plan.ofStages]
      dsimp only
      rw [hsaid, ok_bind]
      cases said with
      | none => exact congrArg Except.ok (List.filter_eq_self.2 fun _ _ => rfl).symm
      | some ids => exact congrArg Except.ok (hk.fetchMany_eq_filter ids)
    refine bind_eq_ok.2 ⟨_, load, selectDocuments_eq_ok.2 ⟨fun d hd => ?_, ?_⟩⟩
    · obtain ⟨hd, ha⟩ := List.mem_filter.1 hd
      exact hholds d hd ha
    · rw [List.filter_filter]
      exact List.filter_congr fun d _ => Bool.and_comm _ _

/-- What a conjunction selects from a keyed store, if its last leaf has an answer for all documents
    of the collection. -/
theorem selection_snoc (hk : store.Keyed) {cs : List Condition} {l : Leaf} {p : Document → Bool}
    (hl : ∀ d ∈ store.scan (ctx.collection f), l.holds (.object d) = .ok (p d)) :
    selection ctx store f (.conj (cs ++ [.leaf l])) = .ok docs ↔
      ∃ said, (Condition.conj (cs ++ [.leaf l])).ids? = .ok said ∧
        (∀ d ∈ store.scan (ctx.collection f), d.idAmong? said = true →
          (Condition.conj cs).holds (.object d) = .ok ((Condition.conj cs).met d)) ∧
        docs = (store.scan (ctx.collection f)).filter fun d =>
          d.idAmong? said && ((Condition.conj cs).met d && p d) := by
  -- The leaf is asked last and has an answer, so the others decide whether there is one.
  have answered (d : Document) (hd : d ∈ store.scan (ctx.collection f)) :
      ((Condition.conj (cs ++ [.leaf l])).holds (.object d) =
          .ok ((Condition.conj (cs ++ [.leaf l])).met d) ↔
        (Condition.conj cs).holds (.object d) = .ok ((Condition.conj cs).met d)) ∧
      (Condition.conj (cs ++ [.leaf l])).met d = ((Condition.conj cs).met d && p d) := by
    rw [Condition.met, Condition.met, Condition.holds_conj_snoc, hl d hd]
    cases (Condition.conj cs).holds (.object d) with
    | error e => exact ⟨Iff.of_eq rfl, rfl⟩
    | ok b => cases b <;> exact ⟨iff_of_true rfl rfl, rfl⟩
  rw [selection_eq_ok hk]
  refine exists_congr fun said => and_congr_right fun _ => ?_
  rw [List.filter_congr fun d hd => congrArg (d.idAmong? said && ·) (answered d hd).2]
  exact and_congr_left' (forall₂_congr fun d hd => imp_congr_right fun _ => (answered d hd).1)

/-! ## Being equal to one of several values -/

/-- Whether a value that is no array is equal to another one, which is no moment. -/
def Value.equals (v w : Value) : Bool := (scalarEquals v w none).toOption.getD false

theorem scalarEquals_eq {w : Value} (hw : ∀ t, w ≠ .instant t) (v : Value) :
    scalarEquals v w none = .ok (v.equals w) := by
  cases w with
  | instant t => exact absurd rfl (hw t)
  | _ => cases v <;> rfl

/-- Whether a value, or an item of it, is equal to another one, which is no moment. -/
def Value.offers (v w : Value) : Bool :=
  match v with
  | .array items => items.any fun item => item.equals w
  | v => v.equals w

theorem equalToOne_eq {values : List Value} (h : ∀ w ∈ values, ∀ t, w ≠ .instant t) (v : Value) :
    equalToOne v (.array values) none = .ok (values.any v.offers) := by
  have one (v : Value) : (values.zip (List.replicate values.length none)).anyM
      (fun p => scalarEquals v p.1 p.2) = .ok (values.any v.equals) := by
    have pairs : values.any v.equals =
        (values.zip (List.replicate values.length (none : Option String))).any
          fun p => v.equals p.1 := by
      rw [← Function.comp_def v.equals Prod.fst, ← List.any_map, List.map_fst_zip (by simp)]
    rw [pairs]
    refine anyM_eq_ok fun p hp => ?_
    obtain ⟨hw, hl⟩ := List.of_mem_zip hp
    rw [List.eq_of_mem_replicate hl]
    exact scalarEquals_eq (h _ hw) v
  cases v with
  | array items =>
    -- Of the items and the values it does not matter which are gone through first.
    have swapped : values.any (Value.array items).offers =
        items.any fun item => values.any item.equals := by
      rw [Bool.eq_iff_iff]
      simp only [List.any_eq_true, Value.offers]
      exact ⟨fun ⟨w, hw, v, hv, he⟩ => ⟨v, hv, w, hw, he⟩,
        fun ⟨v, hv, w, hw, he⟩ => ⟨w, hw, v, hv, he⟩⟩
    rw [swapped]
    cases items with
    | nil => rfl
    | cons item items => exact anyM_eq_ok fun v _ => one v
  | _ => exact one _

/-- Whether a document has one of the values in a field, as a plan for this value alone asks. -/
def Document.hasAt (field : String) (doc : Document) (v : Value) : Bool :=
  (Value.orNull (doc.path? field)).offers v

/-- The leaf of a plan for all records that have one of several values in a field. -/
def Leaf.oneOf (field : String) (values : List Value) : Leaf where
  path := field
  operator := .inq
  operand := .array values

theorem Leaf.holds_oneOf {field : String} {values : List Value}
    (h : ∀ v ∈ values, ∀ t, v ≠ .instant t) (doc : Document) :
    (oneOf field values).holds (.object doc) = .ok (values.any (doc.hasAt field)) :=
  equalToOne_eq h _

theorem Leaf.ids?_oneOf (field : String) (values : List Value) :
    (oneOf field values).ids? =
      .ok (if field = "_id" then some (values.map Value.display) else none) := by
  rw [ids?, oneOf]
  split <;> rfl

/-! ## Records with one of several values -/

/-- Values that plans can ask for alone as well as together: none is a moment, and if they are asked
    for as ids, what has them is stored under them. -/
structure Separable (docs : List Document) (field : String) (values : List Value) : Prop where
  plain : ∀ v ∈ values, ∀ t, v ≠ .instant t
  loaded : field = "_id" → ∀ v ∈ values, ∀ d ∈ docs, d.hasAt field v = true →
    d.idAmong [v.display] = true

/-- What a plan for records in a scope asks of them besides a value in a field. -/
def scopeConditions (ctx : Context) (f : Family) (scope : Filter) :
    Except Fault (List Condition) := do
  let own ← SetExpr.conditionOf ctx.now scope.set
  return [scope.condition, own, ← SetExpr.conditionOf ctx.now none, ctx.access f]

section Together

variable {scope : Filter} {field : String} {values : List Value}

theorem Document.idAmong_map (doc : Document) (values : List Value) :
    doc.idAmong (values.map Value.display) = values.any fun v => doc.idAmong [v.display] := by
  rw [idAmong]
  cases hid : doc.id? with
  | error e =>
    have never : (fun v : Value => doc.idAmong [v.display]) = fun _ => false := by
      funext v
      rw [idAmong, hid]
    rw [never]
    induction values with
    | nil => rfl
    | cons v vs ih => exact ih
  | ok id =>
    have own : (fun v : Value => doc.idAmong [v.display]) = fun v => id == v.display := by
      funext v
      rw [idAmong, hid]
      exact Bool.or_false _
    rw [own]
    dsimp only
    rw [List.contains_eq_any_beq, List.any_map]
    rfl

/-- Which documents are loaded for several values: those that are for one of them. -/
theorem ids?_conj_oneOf (cs : List Condition) (field : String) :
    (∃ e, ∀ vs, (Condition.conj (cs ++ [.leaf (.oneOf field vs)])).ids? = .error e) ∨
      ∃ said : List Value → Option (List String),
        (∀ vs, (Condition.conj (cs ++ [.leaf (.oneOf field vs)])).ids? = .ok (said vs)) ∧
        (∀ vs d, vs ≠ [] →
          Document.idAmong? (said vs) d = vs.any fun v => d.idAmong? (said [v])) ∧
        ∀ v d, (field = "_id" → d.idAmong [v.display] = true) → ∀ vs,
          Document.idAmong? (said vs) d = true → d.idAmong? (said [v]) = true := by
  have always {vs : List Value} (b : Bool) (hne : vs ≠ []) : b = vs.any fun _ => b := by
    obtain ⟨v, vs, rfl⟩ := List.exists_cons_of_ne_nil hne
    cases b with
    | true => rfl
    | false => simp
  -- Either the conditions before it say which ids are meant, or the last one does, if it can.
  rcases Condition.ids?_conj_snoc cs with ⟨said, h⟩ | h
  · cases said with
    | error e => exact .inl ⟨e, fun vs => h _⟩
    | ok said =>
      exact .inr ⟨fun _ => said, fun vs => h _, fun vs d hne => always _ hne, fun _ _ _ _ => id⟩
  · refine .inr ⟨_, fun vs => (h _).trans (Leaf.ids?_oneOf field vs), fun vs d hne => ?_,
      fun v d hd vs _ => ?_⟩
    · by_cases hf : field = "_id"
      · simp only [if_pos hf]
        exact d.idAmong_map vs
      · simp only [if_neg hf]
        exact always _ hne
    · by_cases hf : field = "_id"
      · rw [if_pos hf]
        exact hd hf
      · rw [if_neg hf]
        rfl

/-- What a plan for one of several values finds in a keyed store. -/
theorem recordsWith_eq_ok (hk : store.Keyed) (hv : ∀ v ∈ values, ∀ t, v ≠ .instant t) :
    recordsWith ctx store f scope field values = .ok docs ↔
      ∃ cs said, scopeConditions ctx f scope = .ok cs ∧
        (Condition.conj (cs ++ [.leaf (.oneOf field values)])).ids? = .ok said ∧
        (∀ d ∈ store.scan (ctx.collection f), d.idAmong? said = true →
          (Condition.conj cs).holds (.object d) = .ok ((Condition.conj cs).met d)) ∧
        docs = (store.scan (ctx.collection f)).filter fun d =>
          d.idAmong? said && ((Condition.conj cs).met d && values.any (d.hasAt field)) := by
  have conds : recordsWith ctx store f scope field values =
      scopeConditions ctx f scope >>= fun cs =>
        selection ctx store f (.conj (cs ++ [.leaf (.oneOf field values)])) := by
    rw [recordsWith_eq, baseCondition, scopeConditions, bind_assoc, bind_assoc]
    rfl
  rw [conds, bind_eq_ok]
  constructor
  · rintro ⟨cs, hcs, h⟩
    obtain ⟨said, h⟩ := (selection_snoc hk fun d _ => Leaf.holds_oneOf hv d).1 h
    exact ⟨cs, said, hcs, h⟩
  · rintro ⟨cs, said, hcs, h⟩
    exact ⟨cs, hcs, (selection_snoc hk fun d _ => Leaf.holds_oneOf hv d).2 ⟨said, h⟩⟩

/-- A plan for one of several values finds what the plan for all of them finds and has this
    value. -/
theorem recordsWith_alone (hk : store.Keyed)
    (hs : Separable (store.scan (ctx.collection f)) field values)
    (h : recordsWith ctx store f scope field values = .ok docs) {v : Value} (hv : v ∈ values) :
    recordsWith ctx store f scope field [v] = .ok (docs.filter fun d => d.hasAt field v) := by
  obtain ⟨cs, given, hcs, hgiven, hholds, rfl⟩ := (recordsWith_eq_ok hk hs.plain).1 h
  rcases ids?_conj_oneOf cs field with ⟨e, he⟩ | ⟨said, hsaid, htogether, halone⟩
  · rw [he] at hgiven
    cases hgiven
  · rw [hsaid] at hgiven
    cases hgiven
    have loaded (d : Document) (hd : d.idAmong? (said [v]) = true) :
        d.idAmong? (said values) = true := by
      rw [htogether values d (List.ne_nil_of_mem hv)]
      exact List.any_eq_true.2 ⟨v, hv, hd⟩
    refine (recordsWith_eq_ok hk (List.forall_mem_singleton.2 (hs.plain v hv))).2
      ⟨cs, said [v], hcs, hsaid [v], fun d hd ha => hholds d hd (loaded d ha), ?_⟩
    rw [List.filter_filter]
    refine List.filter_congr fun d hd => ?_
    rw [Bool.eq_iff_iff]
    simp only [Bool.and_eq_true, List.any_eq_true, List.mem_singleton, exists_eq_left]
    constructor
    · rintro ⟨hat, ha, hb, -⟩
      exact ⟨halone v d (fun hf => hs.loaded hf v hv d hd hat) values ha, hb, hat⟩
    · rintro ⟨ha, hb, hat⟩
      exact ⟨hat, loaded d ha, hb, v, hv, hat⟩

/-- A plan for several values has an answer if there are values and the plan for each of them has
    one. -/
theorem exists_recordsWith (hk : store.Keyed) (hp : ∀ v ∈ values, ∀ t, v ≠ .instant t)
    (hne : values ≠ [])
    (h : ∀ v ∈ values, ∃ docs, recordsWith ctx store f scope field [v] = .ok docs) :
    ∃ docs, recordsWith ctx store f scope field values = .ok docs := by
  have alone (v : Value) (hv : v ∈ values) : ∃ cs said, scopeConditions ctx f scope = .ok cs ∧
      (Condition.conj (cs ++ [.leaf (.oneOf field [v])])).ids? = .ok said ∧
      ∀ d ∈ store.scan (ctx.collection f), d.idAmong? said = true →
        (Condition.conj cs).holds (.object d) = .ok ((Condition.conj cs).met d) := by
    obtain ⟨docs, h⟩ := h v hv
    obtain ⟨cs, said, hcs, hsaid, hholds, -⟩ :=
      (recordsWith_eq_ok hk (List.forall_mem_singleton.2 (hp v hv))).1 h
    exact ⟨cs, said, hcs, hsaid, hholds⟩
  obtain ⟨v₀, hv₀⟩ := List.exists_mem_of_ne_nil values hne
  obtain ⟨cs, said₀, hcs, hsaid₀, -⟩ := alone v₀ hv₀
  rcases ids?_conj_oneOf cs field with ⟨e, he⟩ | ⟨said, hsaid, htogether, -⟩
  · rw [he] at hsaid₀
    cases hsaid₀
  · refine ⟨_, (recordsWith_eq_ok hk hp).2
      ⟨cs, said values, hcs, hsaid values, fun d hd ha => ?_, rfl⟩⟩
    -- What is loaded for all of the values is loaded for one of them.
    rw [htogether values d hne, List.any_eq_true] at ha
    obtain ⟨v, hv, ha⟩ := ha
    obtain ⟨cs', said', hcs', hsaid', hholds⟩ := alone v hv
    cases hcs.symm.trans hcs'
    rw [hsaid] at hsaid'
    cases hsaid'
    exact hholds d hd ha

end Together

/-! ## References -/

/-- The records that a plan for a reference alone finds. -/
def recordAlone (ctx : Context) (store : Store) (scope : Filter) (r : Reference) :
    Outcome (List Document) := do
  (← (Plan.batch ctx r.family scope "_id" [.text r.id] : Except Fault Plan)).run ctx store

theorem recordAlone_eq (ctx : Context) (store : Store) (scope : Filter) (r : Reference) :
    recordAlone ctx store scope r =
      liftM (recordsWith ctx store r.family scope "_id" [.text r.id]) := by
  rw [recordAlone, recordsWith_eq, Plan.batch]
  cases baseCondition ctx r.family scope none (.compare "_id" .inq (.array [.text r.id])) with
  | error e => rfl
  | ok c =>
    change (Plan.ofStages ctx r.family [.select c]).run ctx store = _
    rw [run_ofStages, ok_bind]
    cases selection ctx store r.family c <;> rfl

/-- Whether a document has a text as its id. -/
theorem hasAt_id_text (hk : store.Keyed) {collection : String} {d : Document}
    (hd : d ∈ store.scan collection) (id : String) :
    d.hasAt "_id" (.text id) = true ↔ d.get? "_id" = some (.text id) := by
  obtain ⟨r, hr, -, rfl⟩ := Store.mem_scan.1 hd
  have hid := hk.named r hr
  rw [Document.id?, orFault_eq_ok, Option.bind_eq_some_iff] at hid
  obtain ⟨v, hv, hid⟩ := hid
  rw [Document.hasAt, Document.path?, Document.path?_key (by decide), hv, Option.some.injEq]
  cases v with
  | text s =>
    change ((s == id) || false) = true ↔ _
    rw [Bool.or_false, beq_iff_eq, Value.text.injEq]
  | number n => constructor <;> intro h <;> cases h
  | bool b => constructor <;> intro h <;> cases h
  | _ => cases hid

theorem separable_ids (hk : store.Keyed) (collection : String) (ids : List String) :
    Separable (store.scan collection) "_id" (ids.map .text) where
  plain v hv t h := by
    obtain ⟨id, -, rfl⟩ := List.mem_map.1 hv
    cases h
  loaded _ v hv d hd hat := by
    obtain ⟨id, -, rfl⟩ := List.mem_map.1 hv
    exact Document.idAmong_singleton.2 (Document.id?_of_text ((hasAt_id_text hk hd id).1 hat))

/-- The records that say an id as a text are those of a collection with one id: one at most. -/
theorem eq_nil_or_singleton (hk : store.Keyed) {collection : String} (id : String)
    {found : List Document} (hsub : found.Sublist (store.scan collection))
    (hid : ∀ d ∈ found, d.get? "_id" = some (.text id)) : found = [] ∨ ∃ d, found = [d] := by
  rcases found with _ | ⟨d, _ | ⟨d', found⟩⟩
  · exact .inl rfl
  · exact .inr ⟨d, rfl⟩
  · have different := (hk.pairwise_id?.sublist hsub)
    rw [List.pairwise_cons] at different
    refine absurd ?_ (different.1 d' List.mem_cons_self)
    rw [Document.id?_of_text (hid d List.mem_cons_self),
      Document.id?_of_text (hid d' (List.mem_cons_of_mem _ List.mem_cons_self))]

/-- The entry for a reference under which a document is found. -/
theorem mem_filterMap_byId {docs : List Document} {r : Reference} {d : Document} :
    (r, d) ∈ (docs.filterMap fun d => match d.get? "_id" with
      | some (.text id) => some ((⟨f, id⟩ : Reference), d)
      | _ => none) ↔ r.family = f ∧ d ∈ docs ∧ d.get? "_id" = some (.text r.id) := by
  rw [List.mem_filterMap]
  constructor
  · rintro ⟨d', hd', h⟩
    split at h
    · next id hid =>
      cases h
      exact ⟨rfl, hd', hid⟩
    · cases h
  · rintro ⟨rfl, hd, hid⟩
    refine ⟨d, hd, ?_⟩
    rw [hid]

variable {scope : Filter} {refs : List Reference}

/-- The ids of a family that references name. -/
theorem mem_idsOf {r : Reference} (hr : r ∈ refs) :
    r.id ∈ ((refs.filter fun r' => r'.family == r.family).map Reference.id).eraseDups := by
  rw [List.mem_eraseDups]
  exact List.mem_map.2 ⟨r, List.mem_filter.2 ⟨hr, beq_self_eq_true _⟩, rfl⟩

/-- What is found for a reference among the records of its family is what a plan for it alone
    finds. -/
theorem recordAlone_of_recordsNamed (hk : store.Keyed) {r : Reference} (hr : r ∈ refs)
    {part : List (Reference × Document)}
    (h : recordsNamed ctx store scope refs r.family = .ok part) :
    ∃ found : List Document, recordAlone ctx store scope r = .ok found ∧
      (found = [] ∨ ∃ d, found = [d]) ∧ ∀ d, (r, d) ∈ part ↔ d ∈ found := by
  have hid := mem_idsOf hr
  rw [recordsNamed, if_neg (by simpa using List.ne_nil_of_mem hid)] at h
  obtain ⟨docs, hdocs, h⟩ := bind_eq_ok.1 h
  cases h
  have hv := List.mem_map_of_mem (f := Value.text) hid
  have alone := recordsWith_alone hk (separable_ids hk _ _) hdocs hv
  obtain ⟨cs, said, -, -, -, hscan⟩ :=
    (recordsWith_eq_ok hk (separable_ids hk (ctx.collection r.family) _).plain).1 hdocs
  have hsub : docs.Sublist (store.scan (ctx.collection r.family)) :=
    hscan ▸ List.filter_sublist
  have hat (d : Document) (hd : d ∈ docs) :
      d.hasAt "_id" (.text r.id) = true ↔ d.get? "_id" = some (.text r.id) :=
    hasAt_id_text hk (hsub.subset hd) r.id
  refine ⟨_, by rw [recordAlone_eq, alone, lift_ok],
    eq_nil_or_singleton hk r.id (List.filter_sublist.trans hsub) fun d hd => ?_, fun d => ?_⟩
  · obtain ⟨hd, h⟩ := List.mem_filter.1 hd
    exact (hat d hd).1 h
  · refine mem_filterMap_byId.trans ?_
    rw [List.mem_filter]
    exact ⟨fun ⟨_, hd, h⟩ => ⟨hd, (hat d hd).2 h⟩, fun ⟨hd, h⟩ => ⟨rfl, hd, (hat d hd).1 h⟩⟩

theorem family_of_mem_recordsNamed {part : List (Reference × Document)}
    (h : recordsNamed ctx store scope refs f = .ok part) {r : Reference} {d : Document}
    (hm : (r, d) ∈ part) : r.family = f := by
  rw [recordsNamed] at h
  split at h
  · cases h
    cases hm
  · obtain ⟨docs, -, h⟩ := bind_eq_ok.1 h
    cases h
    exact (mem_filterMap_byId.1 hm).1

/-- Among the records that references name, each of these finds what it finds alone. -/
theorem recordAlone_of_recordsOf (hk : store.Keyed) {found : List (Reference × Document)}
    (h : recordsOf ctx store scope refs = .ok found) {r : Reference} (hr : r ∈ refs) :
    recordAlone ctx store scope r = .ok (found.lookup r).toList := by
  obtain ⟨parts, hp, h⟩ := bind_eq_ok.1 h
  cases h
  obtain ⟨part, hnamed, rfl⟩ := exists_map_of_mapM hp
  have hpart := hnamed r.family r.family.mem_all
  obtain ⟨alone, halone, hone, hmem⟩ := recordAlone_of_recordsNamed hk hr hpart
  -- The records of all families are searched, but only those of its own family have the reference.
  have all (d : Document) : (r, d) ∈ (Family.all.map part).flatten ↔ d ∈ alone := by
    rw [← hmem, List.mem_flatten]
    constructor
    · rintro ⟨_, hp, hm⟩
      obtain ⟨g, hg, rfl⟩ := List.mem_map.1 hp
      rwa [family_of_mem_recordsNamed (hnamed g hg) hm]
    · intro hm
      exact ⟨_, List.mem_map_of_mem r.family.mem_all, hm⟩
  rw [halone]
  congr 1
  cases hl : (Family.all.map part).flatten.lookup r with
  | none =>
    rw [Option.toList_none, List.eq_nil_iff_forall_not_mem]
    intro d hd
    rw [List.lookup_eq_none_iff] at hl
    exact absurd (hl _ ((all d).2 hd)) (by simp)
  | some d =>
    obtain ⟨before, after, happ, -⟩ := List.lookup_eq_some_iff.1 hl
    have hd : d ∈ alone := (all d).1 (by rw [happ]; simp)
    rcases hone with rfl | ⟨d', rfl⟩
    · cases hd
    · rw [List.mem_singleton.1 hd, Option.toList_some]

/-- The records that references name are found if each of these finds something or nothing. -/
theorem exists_recordsOf (hk : store.Keyed)
    (h : ∀ r ∈ refs, ∃ docs, recordAlone ctx store scope r = .ok docs) :
    ∃ found, recordsOf ctx store scope refs = .ok found := by
  have named (f : Family) : ∃ part, recordsNamed ctx store scope refs f = .ok part := by
    rw [recordsNamed]
    split
    · exact ⟨[], rfl⟩
    · next hne =>
      obtain ⟨docs, hdocs⟩ : ∃ docs, recordsWith ctx store f scope "_id"
          ((((refs.filter fun r => r.family == f).map Reference.id).eraseDups).map .text) =
            .ok docs := by
        -- The ids are loaded together if each of them can be loaded alone.
        refine exists_recordsWith hk (separable_ids hk (ctx.collection f) _).plain
          (by simpa using hne) fun v hv => ?_
        obtain ⟨id, hid, rfl⟩ := List.mem_map.1 hv
        rw [List.mem_eraseDups] at hid
        obtain ⟨r, hr, rfl⟩ := List.mem_map.1 hid
        obtain ⟨hr, hf⟩ := List.mem_filter.1 hr
        obtain ⟨docs, hdocs⟩ := h r hr
        rw [recordAlone_eq, lift_eq_ok, beq_iff_eq.1 hf] at hdocs
        exact ⟨docs, hdocs⟩
      exact ⟨_, bind_eq_ok.2 ⟨docs, hdocs, rfl⟩⟩
  have parts : ∃ parts, Family.all.mapM (recordsNamed ctx store scope refs) = .ok parts := by
    induction Family.all with
    | nil => exact ⟨[], rfl⟩
    | cons f fs ih =>
      obtain ⟨part, hpart⟩ := named f
      obtain ⟨parts, hparts⟩ := ih
      exact ⟨part :: parts, by rw [List.mapM_cons, hpart, ok_bind, hparts]; rfl⟩
  obtain ⟨parts, hparts⟩ := parts
  exact ⟨parts.flatten, bind_eq_ok.2 ⟨parts, hparts, rfl⟩⟩

end Catalog
