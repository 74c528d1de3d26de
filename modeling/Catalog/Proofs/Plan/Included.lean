import Catalog.Proofs.Plan.OneByOne
import Catalog.Proofs.Query.Equality

/-!
# Includes, one document after the other

An include asks for the records that name any document of a page, and hands them out by the values
that they name the documents by. What it *means* is said for one document (`includedOne`): the
records that a plan for its id alone finds are shaped by the scope, and each is resolved by the
lookups of the scope on its own. Nothing can be included within what is included
(`checkIncludes_eq_ok`).

Both are the same for a page whose ids are told apart by the plan if and only if they are told apart
in handing out (`IdsApart`, `includeAll_eq_mapM`). The plan takes true for another id than one, and
handing out takes them for the same.
-/

namespace Catalog

variable {ctx : Context} {store : Store} {f : Family}

/-! ## Ids as keys -/

namespace Value

/-- Whether a value is a truth value. -/
def isBool : Value → Bool
  | .bool _ => true
  | _ => false

/-- The place of a value among the keys: keys are the same if they are in one place. -/
def place? : Value → Option (Option String ⊕ Position)
  | .null => some (.inl none)
  | .text s => some (.inl (some s))
  | .bool b => (Number.int (if b then 1 else 0)).position?.map .inr
  | .number n => n.position?.map .inr
  | _ => none

/-- A value is the same as a key that is no moment if both are in one place. -/
theorem same_iff_place {v w : Value} (hw : w.isKey = true) (hm : ∀ t, w ≠ .instant t) :
    v.same w = true ↔ ∃ p, v.place? = some p ∧ w.place? = some p := by
  have numbers {m n : Number} : m.same n = true ↔
      ∃ p : Option String ⊕ Position,
        m.position?.map .inr = some p ∧ n.position?.map .inr = some p := by
    rw [Number.same_iff]
    constructor
    · rintro ⟨p, h, h'⟩
      exact ⟨.inr p, by rw [h]; rfl, by rw [h']; rfl⟩
    · rintro ⟨_, h, h'⟩
      obtain ⟨p, hp, rfl⟩ := Option.map_eq_some_iff.1 h
      obtain ⟨q, hq, hpq⟩ := Option.map_eq_some_iff.1 h'
      cases hpq
      exact ⟨p, hp, hq⟩
  -- A truth value may be the same as a number, so that both have their places among the numbers.
  cases w with
  | instant t => exact absurd rfl (hm t)
  | array items => cases hw
  | object members => cases hw
  | null => cases v <;> simp [same, place?, numeric?]
  | text s =>
    cases v with
    | text t =>
      rw [same_text, place?, place?]
      simp [eq_comm]
    | _ => simp [same, place?, numeric?]
  | bool b =>
    cases v with
    | bool a => exact numbers
    | number n => exact numbers
    | _ => simp [same, place?]
  | number n =>
    cases v with
    | bool a => exact numbers
    | number n => exact numbers
    | _ => simp [same, place?]

/-- A value equals a key that is no moment if they are the same, and both or none is a truth
    value. -/
theorem equals_eq {v w : Value} (hw : w.isKey = true) (hm : ∀ t, w ≠ .instant t) :
    v.equals w = (v.same w && v.isBool == w.isBool) := by
  cases w with
  | instant t => exact absurd rfl (hm t)
  | array items => cases hw
  | object members => cases hw
  | null => cases v <;> rfl
  | text s =>
    cases v with
    | text t => exact (Bool.or_false _).trans (Bool.and_true _).symm
    | _ => rfl
  | bool b =>
    cases v with
    | bool a => cases a <;> cases b <;> decide +kernel
    | number n => exact (Bool.and_false _).symm
    | _ => rfl
  | number n =>
    cases v with
    | bool a => exact (Bool.and_false _).symm
    | number m => exact (Bool.and_true _).symm
    | _ => rfl

/-- Of values that are the same one is among those without repetition. -/
theorem exists_distinct {vs : List Value} {v : Value} (hv : v ∈ vs) :
    ∃ w ∈ distinctKeys vs, w = v ∨ v.same w = true := by
  match vs with
  | [] => cases hv
  | w :: vs =>
    rw [distinctKeys, List.eraseDupsBy_cons]
    rcases List.mem_cons.1 hv with rfl | hv
    · exact ⟨v, List.mem_cons_self, .inl rfl⟩
    · by_cases hs : v.same w = true
      · exact ⟨w, List.mem_cons_self, .inr hs⟩
      · have hv : v ∈ vs.filter fun b => decide (b.same w = false) :=
          List.mem_filter.2 ⟨hv, decide_eq_true (Bool.not_eq_true _ ▸ hs)⟩
        obtain ⟨w', hw', h⟩ := exists_distinct hv
        exact ⟨w', List.mem_cons_of_mem _ hw', h⟩
termination_by vs.length
decreasing_by exact Nat.lt_succ_of_le (List.length_filter_le _ _)

theorem mem_of_mem_distinct {vs : List Value} {v : Value} (hv : v ∈ distinctKeys vs) : v ∈ vs := by
  match vs with
  | [] => cases hv
  | w :: vs =>
    rw [distinctKeys, List.eraseDupsBy_cons] at hv
    rcases List.mem_cons.1 hv with rfl | hv
    · exact List.mem_cons_self
    · exact List.mem_cons_of_mem _ (List.mem_filter.1 (mem_of_mem_distinct hv)).1
termination_by vs.length
decreasing_by exact Nat.lt_succ_of_le (List.length_filter_le _ _)

end Value

/-- The ids of a page are no moments, and of those that are the same as values all are truth values
    or none is. -/
structure IdsApart (page : List Document) : Prop where
  plain : ∀ d ∈ page, ∀ t, d.get? "_id" ≠ some (.instant t)
  kinds : ∀ d ∈ page, ∀ d' ∈ page, ∀ v w, d.get? "_id" = some v → d'.get? "_id" = some w →
    v.same w = true → v.isBool = w.isBool

theorem IdsApart.subset {page page' : List Document} (h : IdsApart page)
    (hsub : ∀ d ∈ page', d ∈ page) : IdsApart page' where
  plain d hd := h.plain d (hsub d hd)
  kinds d hd d' hd' := h.kinds d (hsub d hd) d' (hsub d' hd')

/-- Whether the ids are apart is told by the ids alone. -/
theorem IdsApart.of_ids_eq {page page' : List Document} (h : IdsApart page)
    (hids : page'.map (Document.get? "_id") = page.map (Document.get? "_id")) : IdsApart page' := by
  have old {d : Document} (hd : d ∈ page') : ∃ e ∈ page, e.get? "_id" = d.get? "_id" := by
    have := List.mem_map_of_mem (f := Document.get? "_id") hd
    rw [hids] at this
    exact List.mem_map.1 this
  refine ⟨fun d hd t ht => ?_, fun d hd d' hd' v w hv hw => ?_⟩
  · obtain ⟨e, he, hed⟩ := old hd
    exact h.plain e he t (hed.trans ht)
  · obtain ⟨e, he, hed⟩ := old hd
    obtain ⟨e', he', hed'⟩ := old hd'
    exact h.kinds e he e' he' v w (hed.trans hv) (hed'.trans hw)

/-! ## The meaning of an include -/

/-- The records that a plan for one value of a field finds; each of them has a key there. -/
def childrenAlone (ctx : Context) (store : Store) (target : Family) (via : String) (scope : Filter)
    (own : Value) : Except Fault (List Document) := do
  let found ← recordsWith ctx store target scope via [own]
  let _ ← found.mapM (keyAt via)
  return found

/-- What is included with a document under a name, resolved on its own. -/
def includedChildren (ctx : Context) (store : Store) (f : Family) (name : String) (scope : Filter)
    (doc : Document) : Outcome (List Document) := do
  match f.include? name with
  | none => giveUp .shape
  | some (target, via) =>
    let own ← (keyAt "_id" doc : Except Fault Value)
    let found ← (childrenAlone ctx store target via scope own : Except Fault _)
    checkIncludes target scope.includes
    ((scope.page id found).map scope.shown).mapM (lookedUp ctx store scope.lookups)

/-- A document with an include resolved. One without an id is left as it is. -/
def includedOne (ctx : Context) (store : Store) (f : Family) (i : Scoped Filter)
    (doc : Document) : Outcome Document :=
  if doc.has "_id" then do
    let children ← includedChildren ctx store f i.name i.scope doc
    return doc.put i.name (.array (children.map .object))
  else .ok doc

/-- A document with includes resolved, one after the other. -/
def included (ctx : Context) (store : Store) (f : Family) (is : List (Scoped Filter))
    (doc : Document) : Outcome Document :=
  is.foldlM (fun doc i => includedOne ctx store f i doc) doc

/-- What can be included is called reactions, and names the record by a field other than its own
    id. -/
theorem include?_eq_some {name via : String} {target : Family}
    (h : f.include? name = some (target, via)) :
    name = "reactions" ∧ via ≠ "_id" ∧ '.' ∉ via.toList ∧ target.includes = [] := by
  cases f with
  | entities | lists =>
    rw [Family.include?, Family.includes, List.lookup_cons] at h
    split at h
    · next hn =>
      cases h
      exact ⟨beq_iff_eq.1 hn, by decide, by decide, rfl⟩
    · cases h
  | _ => cases h

/-- Nothing is included where nothing can be. -/
theorem checkIncludes_eq_ok (hf : f.includes = []) {is : List (Scoped Filter)}
    (h : checkIncludes f is = .ok ()) : is = [] := by
  cases is with
  | nil => rfl
  | cons i is =>
    have none : (f.include? i.name).isNone = true := by
      rw [Family.include?, hf]
      rfl
    rw [checkIncludes, List.find?, none] at h
    cases h

/-- An include leaves the id of a document as it is. -/
theorem get?_id_includedOne {i : Scoped Filter} {doc doc' : Document}
    (h : includedOne ctx store f i doc = .ok doc') : doc'.get? "_id" = doc.get? "_id" := by
  rw [includedOne] at h
  split at h
  · obtain ⟨children, hc, h⟩ := bind_eq_ok.1 h
    cases h
    have hname : i.name ≠ "_id" := by
      rw [includedChildren] at hc
      split at hc
      · cases hc
      · next hi =>
        rw [(include?_eq_some hi).1]
        decide
    rw [Document.get?_put, if_neg (Ne.symm hname)]
  · cases h
    rfl

/-! ## Records found for several ids -/

variable {target : Family} {via : String} {scope : Filter} {ids : List Value}

/-- Which of several keys that are no moments a document has in a field makes no difference, if they
    are the same and of one kind. -/
theorem hasAt_eq_of_same {doc : Document} {v w : Value} (hv : v.isKey = true) (hw : w.isKey = true)
    (hm : ∀ t, v ≠ .instant t) (hm' : ∀ t, w ≠ .instant t) (hs : v.same w = true)
    (hb : v.isBool = w.isBool) (field : String) : doc.hasAt field v = doc.hasAt field w := by
  have place : v.place? = w.place? := by
    obtain ⟨p, hp, hp'⟩ := (Value.same_iff_place hw hm').1 hs
    rw [hp, hp']
  have equals (x : Value) : x.equals v = x.equals w := by
    have same : x.same v = x.same w := by
      rw [Bool.eq_iff_iff, Value.same_iff_place hv hm, Value.same_iff_place hw hm', place]
    rw [Value.equals_eq hv hm, Value.equals_eq hw hm', same, hb]
  rw [Document.hasAt, Document.hasAt]
  cases Value.orNull (doc.path? field) with
  | array items => exact congrArg items.any (funext equals)
  | _ => exact equals _

/-- A plan for values finds the same as one for other values, if the same documents have one of
    either in a field that is not the id. -/
theorem recordsWith_congr (hk : store.Keyed) {field : String} (hfield : field ≠ "_id")
    {vs ws : List Value} (hv : ∀ v ∈ vs, ∀ t, v ≠ .instant t) (hw : ∀ w ∈ ws, ∀ t, w ≠ .instant t)
    (h : ∀ d ∈ store.scan (ctx.collection target),
      vs.any (Document.hasAt field d) = ws.any (Document.hasAt field d)) {docs : List Document}
    (hd : recordsWith ctx store target scope field vs = .ok docs) :
    recordsWith ctx store target scope field ws = .ok docs := by
  obtain ⟨cs, said, hcs, hsaid, hholds, rfl⟩ := (recordsWith_eq_ok hk hv).1 hd
  have silent (us : List Value) : (Leaf.oneOf field us).ids? = .ok none := by
    rw [Leaf.ids?_oneOf, if_neg hfield]
  have hsaid' : (Condition.conj (cs ++ [.leaf (.oneOf field ws)])).ids? = .ok said := by
    rcases Condition.ids?_conj_snoc cs with ⟨given, hgiven⟩ | hleaf
    · rw [hgiven] at hsaid ⊢
      exact hsaid
    · rw [hleaf, silent] at hsaid ⊢
      exact hsaid
  refine (recordsWith_eq_ok hk hw).2 ⟨cs, said, hcs, hsaid', hholds, ?_⟩
  exact List.filter_congr fun d hd => by rw [h d hd]

/-- What a document that has a key has there. -/
theorem hasAt_of_keyAt (hvia : '.' ∉ via.toList) {doc : Document} {key : Value}
    (h : keyAt via doc = .ok key) (v : Value) : doc.hasAt via v = key.equals v := by
  obtain ⟨heq, hkey⟩ := keyAt_eq_ok.1 h
  rw [Document.hasAt, Document.path?, Document.path?_key hvia, ← heq]
  cases key with
  | array items => cases hkey
  | _ => rfl

/-- The ids of a page that can be told apart and are keys. -/
structure KeyIds (ids : List Value) : Prop where
  keys : ∀ v ∈ ids, v.isKey = true
  plain : ∀ v ∈ ids, ∀ t, v ≠ .instant t
  kinds : ∀ v ∈ ids, ∀ w ∈ ids, v.same w = true → v.isBool = w.isBool

/-- A document has one of some ids in a field if it has one of them without repetition. -/
theorem any_distinct (h : KeyIds ids) (doc : Document) (field : String) :
    (distinctKeys ids).any (Document.hasAt field doc) = ids.any (Document.hasAt field doc) := by
  rw [Bool.eq_iff_iff, List.any_eq_true, List.any_eq_true]
  constructor
  · rintro ⟨v, hv, hat⟩
    exact ⟨v, Value.mem_of_mem_distinct hv, hat⟩
  · rintro ⟨v, hv, hat⟩
    obtain ⟨w, hw, rfl | hs⟩ := Value.exists_distinct hv
    · exact ⟨w, hw, hat⟩
    · have hw' := Value.mem_of_mem_distinct hw
      refine ⟨w, hw, ?_⟩
      rwa [← hasAt_eq_of_same (h.keys v hv) (h.keys w hw') (h.plain v hv) (h.plain w hw') hs
        (h.kinds v hv w hw' hs)]

/-- Of the records found for several ids, those whose key is the same as one of these are those that
    have it. -/
theorem same_key_iff (h : KeyIds ids) (hvia : '.' ∉ via.toList) {doc : Document} {key own : Value}
    (hkey : keyAt via doc = .ok key) (hany : ids.any (Document.hasAt via doc) = true)
    (hown : own ∈ ids) : key.same own = doc.hasAt via own := by
  rw [hasAt_of_keyAt hvia hkey, Value.equals_eq (h.keys own hown) (h.plain own hown)]
  cases hs : key.same own with
  | false => rfl
  | true =>
    -- The record equals one of the ids; this one is the same as the given one, so of its kind.
    obtain ⟨v, hv, hat⟩ := List.any_eq_true.1 hany
    rw [hasAt_of_keyAt hvia hkey, Value.equals_eq (h.keys v hv) (h.plain v hv),
      Bool.and_eq_true, beq_iff_eq] at hat
    obtain ⟨p, hp, hpv⟩ := (Value.same_iff_place (h.keys v hv) (h.plain v hv)).1 hat.1
    obtain ⟨q, hq, hqo⟩ := (Value.same_iff_place (h.keys own hown) (h.plain own hown)).1 hs
    cases hp.symm.trans hq
    have same := (Value.same_iff_place (h.keys own hown) (h.plain own hown)).2 ⟨p, hpv, hqo⟩
    rw [Bool.true_and, hat.2, h.kinds v hv own hown same, beq_self_eq_true]

/-- The records found for all ids at once, with their keys, handed out to the ids. -/
def childrenTogether (ctx : Context) (store : Store) (target : Family) (via : String)
    (scope : Filter) (ids : List Value) : Except Fault (List (List Document)) := do
  let children ← recordsWith ctx store target scope via (distinctKeys ids)
  let keyed ← children.mapM fun d => do return (← keyAt via d, d)
  return ids.map fun own => (keyed.filter fun (key, _) => key.same own).map Prod.snd

/-- The documents with their keys, of those whose key is the same as a value. -/
theorem keyed_filter {children : List Document} {keyed : List (Value × Document)}
    (h : children.mapM (fun d => do return (← keyAt via d, d)) = .ok keyed) {own : Value}
    (hs : ∀ d ∈ children, ∀ key, keyAt via d = .ok key → key.same own = d.hasAt via own) :
    (keyed.filter fun p => p.1.same own).map Prod.snd =
      children.filter fun d => d.hasAt via own := by
  induction children generalizing keyed with
  | nil =>
    cases h
    rfl
  | cons d children ih =>
    rw [List.forall_mem_cons] at hs
    rw [List.mapM_cons] at h
    obtain ⟨_, hp, h⟩ := bind_eq_ok.1 h
    obtain ⟨key, hkey, hp⟩ := bind_eq_ok.1 hp
    obtain ⟨rest, hrest, h⟩ := bind_eq_ok.1 h
    cases hp
    cases h
    rw [List.filter_cons, List.filter_cons, ← ih hrest hs.2, hs.1 key hkey]
    cases d.hasAt via own <;> rfl

section Together

variable (hk : store.Keyed) (h : KeyIds ids) (hid : via ≠ "_id")

include hk h hid

/-- The records found for all ids at once are handed out as they are found for each of them. -/
theorem childrenAlone_of_together (hvia : '.' ∉ via.toList) {groups : List (List Document)}
    (ht : childrenTogether ctx store target via scope ids = .ok groups) :
    ids.mapM (childrenAlone ctx store target via scope) = .ok groups := by
  obtain ⟨children, hc, ht⟩ := bind_eq_ok.1 ht
  obtain ⟨keyed, hkeyed, ht⟩ := bind_eq_ok.1 ht
  cases ht
  have hc := recordsWith_congr hk hid (fun v hv => h.plain v (Value.mem_of_mem_distinct hv)) h.plain
    (fun d _ => any_distinct h d via) hc
  have key (d : Document) (hd : d ∈ children) : ∃ key, keyAt via d = .ok key := by
    obtain ⟨_, hp⟩ := SameResult.exists_of_mapM hkeyed hd
    obtain ⟨key, hkey, -⟩ := bind_eq_ok.1 hp
    exact ⟨key, hkey⟩
  have any (d : Document) (hd : d ∈ children) : ids.any (Document.hasAt via d) = true := by
    obtain ⟨cs, said, -, -, -, rfl⟩ := (recordsWith_eq_ok hk h.plain).1 hc
    simp only [List.mem_filter, Bool.and_eq_true] at hd
    exact hd.2.2.2
  refine SameResult.mapM_of_forall fun own hown => ?_
  have alone := recordsWith_alone hk ⟨h.plain, fun hf => absurd hf hid⟩ hc hown
  have keys : ∃ keys, (children.filter fun d => d.hasAt via own).mapM (keyAt via) = .ok keys := by
    refine ⟨_, SameResult.mapM_of_forall (g := fun d => Value.orNull (d.get? via)) fun d hd => ?_⟩
    obtain ⟨key, hkey⟩ := key d (List.mem_filter.1 hd).1
    rwa [← (keyAt_eq_ok.1 hkey).1]
  obtain ⟨keys, hkeys⟩ := keys
  rw [childrenAlone, alone, ok_bind, hkeys, ok_bind]
  refine congrArg Except.ok (keyed_filter hkeyed fun d hd k hk => ?_).symm
  exact same_key_iff h hvia hk (any d hd) hown

/-- The records for all ids are found if those for each of them are. -/
theorem exists_childrenTogether (hne : ids ≠ []) {groups : List (List Document)}
    (ha : ids.mapM (childrenAlone ctx store target via scope) = .ok groups) :
    ∃ groups, childrenTogether ctx store target via scope ids = .ok groups := by
  have alone (v : Value) (hv : v ∈ ids) : ∃ found keys,
      recordsWith ctx store target scope via [v] = .ok found ∧
        found.mapM (keyAt via) = .ok keys := by
    obtain ⟨_, hfound⟩ := SameResult.exists_of_mapM ha hv
    obtain ⟨found, hfound, h⟩ := bind_eq_ok.1 hfound
    obtain ⟨keys, hkeys, -⟩ := bind_eq_ok.1 h
    exact ⟨found, keys, hfound, hkeys⟩
  obtain ⟨children, hc⟩ := exists_recordsWith hk h.plain hne fun v hv => by
    obtain ⟨found, -, hfound, -⟩ := alone v hv
    exact ⟨found, hfound⟩
  -- Each of the records has one of the ids, so it is also found for this one alone, with its key.
  have key (d : Document) (hd : d ∈ children) :
      keyAt via d = .ok (Value.orNull (d.get? via)) := by
    obtain ⟨cs, said, -, -, -, hscan⟩ := (recordsWith_eq_ok hk h.plain).1 hc
    have hd' := hd
    rw [hscan, List.mem_filter] at hd'
    simp only [Bool.and_eq_true, List.any_eq_true] at hd'
    obtain ⟨-, -, -, v, hv, hat⟩ := hd'
    obtain ⟨found, keys, hfound, hkeys⟩ := alone v hv
    have hfound' := recordsWith_alone hk ⟨h.plain, fun hf => absurd hf hid⟩ hc hv
    rw [hfound] at hfound'
    cases hfound'
    obtain ⟨key, hkey⟩ := SameResult.exists_of_mapM hkeys (List.mem_filter.2 ⟨hd, hat⟩)
    rwa [← (keyAt_eq_ok.1 hkey).1]
  have hdistinct := recordsWith_congr hk hid h.plain
    (fun v hv => h.plain v (Value.mem_of_mem_distinct hv)) (fun d _ => (any_distinct h d via).symm)
    hc
  have hkeyed : children.mapM (fun d => do return (← keyAt via d, d)) =
      .ok (children.map fun d => (Value.orNull (d.get? via), d)) :=
    SameResult.mapM_of_forall fun d hd => by rw [key d hd]; rfl
  exact ⟨_, bind_eq_ok.2 ⟨children, hdistinct, bind_eq_ok.2 ⟨_, hkeyed, rfl⟩⟩⟩

theorem childrenTogether_eq_mapM (hvia : '.' ∉ via.toList) (hne : ids ≠ []) :
    SameResult (childrenTogether ctx store target via scope ids)
      (ids.mapM (childrenAlone ctx store target via scope)) := by
  intro groups
  refine ⟨childrenAlone_of_together hk h hid hvia, fun ha => ?_⟩
  obtain ⟨groups', ht⟩ := exists_childrenTogether hk h hid hne ha
  rw [childrenAlone_of_together hk h hid hvia ht] at ha
  cases ha
  exact ht

end Together

/-! ## A page -/

theorem attach_nil (name : String) (page : List Document) : attach name [] page = page := by
  cases page <;> rfl

/-- Adding records to each document that has an id is adding them to all of these at once. -/
theorem mapM_attach (g : Document → Outcome (List Document)) (name : String)
    (page : List Document) :
    (page.mapM fun doc => if doc.has "_id" then do
        let children ← g doc
        return doc.put name (.array (children.map .object))
      else .ok doc) =
      (page.filter fun doc => doc.has "_id").mapM g >>= fun groups =>
        .ok (attach name groups page) := by
  induction page with
  | nil => rfl
  | cons doc page ih =>
    rw [List.mapM_cons, ih, List.filter_cons]
    by_cases hid : doc.has "_id" = true
    · rw [if_pos hid, if_pos hid, List.mapM_cons, bind_assoc, bind_assoc]
      congr 1
      funext children
      rw [pure_bind, bind_assoc, bind_assoc]
      congr 1
      funext groups
      rw [ok_bind, pure_bind, attach, if_pos hid]
      rfl
    · rw [if_neg hid, if_neg hid, ok_bind, bind_assoc]
      congr 1
      funext groups
      rw [ok_bind]
      cases groups with
      | nil => rw [attach_nil, attach_nil]; rfl
      | cons group groups => rw [attach, if_neg hid]; rfl

/-- The ids of a page, once they are read as keys. -/
theorem keyIds_of_mapM {page : List Document} (h : IdsApart page) {ids : List Value}
    (hids : (page.filter fun d => d.has "_id").mapM (keyAt "_id") = .ok ids) : KeyIds ids := by
  have own (v : Value) (hv : v ∈ ids) : v.isKey = true ∧ ∃ d ∈ page, d.get? "_id" = some v := by
    obtain ⟨d, hd, hkey⟩ := mem_of_mapM hids hv
    obtain ⟨hd, hhas⟩ := List.mem_filter.1 hd
    obtain ⟨rfl, hk⟩ := keyAt_eq_ok.1 hkey
    obtain ⟨v, hv⟩ := Option.isSome_iff_exists.1 hhas
    refine ⟨hk, d, hd, ?_⟩
    rw [hv]
    rfl
  refine ⟨fun v hv => (own v hv).1, fun v hv t ht => ?_, fun v hv w hw hs => ?_⟩
  · obtain ⟨-, d, hd, hdv⟩ := own v hv
    exact h.plain d hd t (ht ▸ hdv)
  · obtain ⟨-, d, hd, hdv⟩ := own v hv
    obtain ⟨-, d', hd', hdw⟩ := own w hw
    exact h.kinds d hd d' hd' v w hdv hdw hs

/-- Where nothing is included within what is included, resolving it is resolving its lookups. -/
theorem includeIn_eq_mapM (hk : store.Keyed) (h : scope.includes = []) (page : List Document) :
    SameResult (includeIn ctx store target scope page)
      (page.mapM (lookedUp ctx store scope.lookups)) := by
  obtain ⟨condition, order, limit, skip, fields, lookups, includes, set⟩ := scope
  cases h
  refine .trans (.of_eq ?_) (lookupAll_eq_mapM hk lookups page)
  rw [includeIn]
  cases lookupAll ctx store lookups page <;> rfl

/-- What an include shows of the records found for an id. -/
def includeShown (scope : Filter) (found : List Document) : List Document :=
  (scope.page id found).map scope.shown

theorem includedChildren_eq {name : String} (hi : f.include? name = some (target, via)) :
    includedChildren ctx store f name scope = fun doc => (do
      let own ← (keyAt "_id" doc : Except Fault Value)
      let found ← (childrenAlone ctx store target via scope own : Except Fault _)
      checkIncludes target scope.includes
      (includeShown scope found).mapM (lookedUp ctx store scope.lookups)) := by
  funext doc
  rw [includedChildren, hi]
  rfl

theorem includeWith_eq {name : String} (hi : f.include? name = some (target, via))
    (within : Family → PageChange) (page : List Document) :
    includeWith ctx store within f name scope page = do
      let ids ← ((page.filter fun d => d.has "_id").mapM (keyAt "_id") : Except Fault _)
      let founds ← (childrenTogether ctx store target via scope ids : Except Fault _)
      checkIncludes target scope.includes
      let resolved ← within target (founds.map (includeShown scope)).flatten
      return attach name (pieces ((founds.map (includeShown scope)).map List.length) resolved)
        page := by
  rw [includeWith, includeGroups, hi]
  dsimp only
  cases (page.filter fun d => d.has "_id").mapM (keyAt "_id") with
  | error e => rfl
  | ok ids =>
    simp only [lift_ok, ok_bind]
    rw [childrenTogether]
    cases recordsWith ctx store target scope via (distinctKeys ids) with
    | error e => rfl
    | ok children =>
      simp only [lift_ok, ok_bind]
      cases children.mapM fun d => do return (← keyAt via d, d) with
      | error e => rfl
      | ok keyed =>
        simp only [lift_ok, ok_bind]
        cases checkIncludes target scope.includes with
        | error e => rfl
        | ok _ =>
          simp only [pure, Except.pure, lift_ok, ok_bind, List.map_map]
          rfl

/-- The records found for ids, resolved for all of them at once, are what is resolved for each. -/
theorem resolve_found (hk : store.Keyed) (name : String) (page : List Document)
    (hc : scope.includes = []) (founds : List (List Document)) :
    SameResult
      (includeIn ctx store target scope (founds.map (includeShown scope)).flatten >>=
        fun resolved =>
          .ok (attach name (pieces ((founds.map (includeShown scope)).map List.length) resolved)
            page))
      ((founds.mapM fun found => (includeShown scope found).mapM (lookedUp ctx store scope.lookups))
        >>= fun groups => .ok (attach name groups page)) := by
  refine ((includeIn_eq_mapM hk hc _).bind fun _ _ => .refl _).trans ?_
  rw [SameResult.mapM_flatten, bind_assoc, List.mapM_map]
  refine (SameResult.refl _).bind fun parts hparts => .of_eq ?_
  rw [← List.mapM_map] at hparts
  rw [ok_bind, ← SameResult.lengths_of_mapM hparts, pieces_flatten]

/-- Looking records up for several ids and resolving them together is doing so for each id; if the
    includes of the scope are refused, both fail. -/
theorem resolve_ids (hk : store.Keyed) {ids : List Value} (h : KeyIds ids) (hne : ids ≠ [])
    {name : String} (hi : f.include? name = some (target, via)) (page : List Document) :
    SameResult
      ((liftM (childrenTogether ctx store target via scope ids) : Outcome _) >>= fun founds =>
        checkIncludes target scope.includes >>= fun _ =>
          includeIn ctx store target scope (founds.map (includeShown scope)).flatten >>=
            fun resolved => .ok (attach name
              (pieces ((founds.map (includeShown scope)).map List.length) resolved) page))
      ((ids.mapM fun own => (liftM (childrenAlone ctx store target via scope own) : Outcome _) >>=
        fun found => checkIncludes target scope.includes >>= fun _ =>
          (includeShown scope found).mapM (lookedUp ctx store scope.lookups)) >>= fun groups =>
        .ok (attach name groups page)) := by
  obtain ⟨-, hid, hvia, htarget⟩ := include?_eq_some hi
  -- The includes are checked once for all ids, or for each; without ids they would not be refused.
  cases hc : checkIncludes target scope.includes with
  | error e =>
    refine .of_fail (fun out h => ?_) fun out h => ?_
    · obtain ⟨founds, -, h⟩ := bind_eq_ok.1 h
      cases h
    · obtain ⟨own, hown⟩ := List.exists_mem_of_ne_nil ids hne
      obtain ⟨groups, hgroups, -⟩ := bind_eq_ok.1 h
      obtain ⟨children, hch⟩ := SameResult.exists_of_mapM hgroups hown
      obtain ⟨found, -, h⟩ := bind_eq_ok.1 hch
      cases h
  | ok _ =>
    have hnone := checkIncludes_eq_ok htarget hc
    refine SameResult.trans ?_ ((SameResult.mapM_bind _ (fun found =>
      (includeShown scope found).mapM (lookedUp ctx store scope.lookups)) ids).symm.bind
        fun _ _ => .refl _)
    rw [bind_assoc]
    refine SameResult.bind ?_ fun founds _ => resolve_found hk name page hnone founds
    exact (SameResult.lift _).trans ((childrenTogether_eq_mapM hk h hid hvia hne).trans
      ((SameResult.lift _).symm.trans (SameResult.mapM_lift _ _).symm))

/-- Resolving an include for a page is resolving it for each document that has an id. -/
theorem includeOne_eq_mapM (hk : store.Keyed) {page : List Document} (h : IdsApart page)
    (hany : page.any (fun d => d.has "_id") = true) (i : Scoped Filter) :
    SameResult (includeOne ctx store f i page) (page.mapM (includedOne ctx store f i)) := by
  obtain ⟨name, scope⟩ := i
  refine SameResult.trans ?_ (.of_eq (mapM_attach (includedChildren ctx store f name scope) name
    page).symm)
  obtain ⟨d, hmem, hhas⟩ := List.any_eq_true.1 hany
  have hd : d ∈ page.filter fun d => d.has "_id" := List.mem_filter.2 ⟨hmem, hhas⟩
  rw [includeOne]
  cases hi : f.include? name with
  | none =>
    rw [includeWith, includeGroups, hi]
    refine .of_fail (fun out h => by cases h) fun out h => ?_
    obtain ⟨groups, hgroups, -⟩ := bind_eq_ok.1 h
    obtain ⟨children, hc⟩ := SameResult.exists_of_mapM hgroups hd
    rw [includedChildren, hi] at hc
    cases hc
  | some p =>
    obtain ⟨target, via⟩ := p
    rw [includeWith_eq hi, includedChildren_eq hi]
    -- The ids are read first, then the records found for each of them are resolved.
    refine SameResult.trans ?_ ((SameResult.mapM_bind _ (fun own =>
      (liftM (childrenAlone ctx store target via scope own) : Outcome _) >>= fun found =>
        checkIncludes target scope.includes >>= fun _ =>
          (includeShown scope found).mapM (lookedUp ctx store scope.lookups)) _).symm.bind
            fun _ _ => .refl _)
    rw [bind_assoc]
    refine (SameResult.mapM_lift _ _).symm.bind fun ids hids => ?_
    have hids := lift_eq_ok.1 hids
    have hne : ids ≠ [] := by
      rintro rfl
      rw [List.eq_nil_of_length_eq_zero (SameResult.length_of_mapM hids).symm] at hd
      cases hd
    exact resolve_ids hk (keyIds_of_mapM h hids) hne hi page

/-- Includes leave the ids of a page as they are. -/
theorem ids_of_mapM {i : Scoped Filter} {page page' : List Document}
    (h : page.mapM (includedOne ctx store f i) = .ok page') :
    page'.map (Document.get? "_id") = page.map (Document.get? "_id") := by
  induction page generalizing page' with
  | nil =>
    cases h
    rfl
  | cons doc page ih =>
    rw [List.mapM_cons] at h
    obtain ⟨doc', hdoc, h⟩ := bind_eq_ok.1 h
    obtain ⟨rest, hrest, h⟩ := bind_eq_ok.1 h
    cases h
    rw [List.map_cons, List.map_cons, get?_id_includedOne hdoc, ih hrest]

/-- Nothing is included with a document without an id. -/
theorem included_of_no_id {doc : Document} (h : ¬doc.has "_id" = true) (is : List (Scoped Filter)) :
    included ctx store f is doc = .ok doc := by
  induction is with
  | nil => rfl
  | cons i is ih =>
    rw [included, List.foldlM_cons, includedOne, if_neg h, ok_bind]
    exact ih

/-- Resolving includes for a page is resolving them for each document. -/
theorem includeAll_eq_mapM (hk : store.Keyed) (is : List (Scoped Filter)) {page : List Document}
    (h : IdsApart page) :
    SameResult (includeAll ctx store f is page) (page.mapM (included ctx store f is)) := by
  induction is generalizing page with
  | nil =>
    refine .of_eq (.trans ?_ (SameResult.mapM_of_forall (g := id) fun doc _ => rfl).symm)
    rw [includeAll, List.map_id]
  | cons i is ih =>
    rw [includeAll]
    split
    · next hany =>
      refine .trans ?_ (SameResult.mapM_bind _ _ page).symm
      refine (includeOne_eq_mapM hk h hany i).bind fun page' hpage => ih (h.of_ids_eq ?_)
      exact ids_of_mapM ((includeOne_eq_mapM hk h hany i _).1 hpage)
    · next hany =>
      refine .of_eq (.trans ?_ (SameResult.mapM_of_forall (g := id) fun doc hd => ?_).symm)
      · rw [List.map_id]
      · exact included_of_no_id (fun hhas => hany (List.any_eq_true.2 ⟨doc, hd, hhas⟩)) (i :: is)

end Catalog
