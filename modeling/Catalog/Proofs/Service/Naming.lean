import Catalog.Proofs.Rule.Room
import Catalog.Proofs.Service.Finding
import Catalog.Proofs.Service.Integrity

/-!
# What a new record names

A record is made if the text of each of its reference fields is the id of a stored record.
Everywhere else it is the value of such a field that counts: where relations are listed with what
they relate, counted for the room in a list and followed to its entities, where reactions are
included with what they are about, and where records are removed with those that name them.

If these fields are texts, all of this is about the records that were looked up, and about no others
(`NamedAlike`). And only then: a new record that names one by another value, such as a number, is
not listed or included with it (`namedAlike_iff_texts`). It is not removed with it, either
(`unlisted_numberedRelation`).
-/

namespace Catalog

namespace Service

variable {ctx : Context} {s s' : Store} {f : Family} {doc : Document}

/-- The number of relations of a list that its limit is compared with. -/
def numberInList (ctx : Context) (s : Store) (list : Document) : Outcome Nat :=
  countInScope ctx.unrestricted s .relations
    { filter := { condition := .equals "_listId" (list.field "_id") } } .always

/-- A limited list has room for one more entity if fewer are counted. -/
theorem checkListRoom_eq_ok {p : Policy} (hp : p.family = .relations) {list : Document} {id : Value}
    (hid : list.get? "_id" = some id) {limit : Int}
    (hlimit : p.listEntityLimit.get (Value.orNull (list.get? "_kind")) = .ok (some limit)) :
    checkListRoom ctx s p list = .ok () ↔
      ∃ n : Nat, numberInList ctx s list = .ok n ∧ (n : Int) < limit := by
  have counted : numberInList ctx s list = countInScope ctx.unrestricted s p.family
      { filter := { condition := .equals "_listId" id } } .always := by
    rw [numberInList, Document.field, hid, hp]
    rfl
  rw [checkListRoom, hlimit, lift_ok, ok_bind, hid, counted]
  change (countInScope _ _ _ _ _ >>= fun count => if limit ≤ count then _ else _) = _ ↔ _
  rw [bind_eq_ok]
  refine exists_congr fun n => and_congr_right fun _ => ?_
  by_cases hfull : limit ≤ n
  · rw [if_pos hfull]
    constructor
    · intro refused
      cases refused
    · intro room
      omega
  · rw [if_neg hfull]
    exact iff_of_true rfl (Int.not_le.1 hfull)

/-- A new record is treated everywhere as naming what was looked up when it was made. The stores are
    those before and after. -/
structure NamedAlike (ctx : Context) (s s' : Store) (f : Family) (doc : Document) : Prop where
  /-- A relation is listed. -/
  listed : f = .relations → Listed ctx s' .relations doc
  /-- A relation counts against the limit of its list, and of no other one. -/
  counted : f = .relations → ∀ id list, s'.fetch? (ctx.collection .lists) id = some list →
    ∃ n, numberInList ctx s list = .ok n ∧ numberInList ctx s' list =
      .ok (if id = (doc.field "_listId").display then n + 1 else n)
  /-- The entity of a relation is among those of its list. -/
  shown : f = .relations → ∃ entity docs,
    s'.fetch? (ctx.collection .entities) (doc.field "_entityId").display = some entity ∧
      listEntities ctx s' (doc.field "_listId").display (.object []) = .ok docs ∧ entity ∈ docs
  /-- A reaction is included with what it is about, and with nothing else. -/
  included : f ≠ .relations → ∀ r ∈ f.references, ∀ id target,
    s'.fetch? (ctx.collection r.2) id = some target →
      (IncludePlaces ctx s' r.2 [⟨"reactions", {}⟩] [target] f doc ↔
        id = (doc.field r.1).display)
  /-- It is removed with what it names, and stays if another record of this family is removed. -/
  removed : ∀ r ∈ f.references, ∀ id target, s'.fetch? (ctx.collection r.2) id = some target →
    ∃ s'', (delete ctx r.2 id).run s' = (.ok (), s'') ∧
      (doc ∉ s''.scan (ctx.collection f) ↔ id = (doc.field r.1).display)

/-! ## Counted -/

theorem numberInList_eq {list : Document} {id : String} (hid : list.get? "_id" = some (.text id)) :
    numberInList ctx s list = .ok ((s.scan (ctx.collection .relations)).countP
      (Condition.equals "_listId" (.text id)).met) := by
  have field : list.field "_id" = .text id := Document.field_of_get? hid
  rw [numberInList, field]
  exact countInScope_of_answers (access_unrestricted ctx .relations) rfl rfl
    fun d _ => Condition.total_equals_text "_listId" id d

/-- A new relation is counted with the list whose id is what it names its list by. -/
theorem numberInList_insert {docId : String} (hdoc : doc.get? "_id" = some (.text docId))
    (hi : s.insert (ctx.collection .relations) doc = .ok s') {name : String}
    (hname : doc.get? "_listId" = some (.text name)) {list : Document} {id : String}
    (hid : list.get? "_id" = some (.text id)) :
    ∃ n, numberInList ctx s list = .ok n ∧
      numberInList ctx s' list = .ok (if id = name then n + 1 else n) := by
  refine ⟨_, numberInList_eq hid, ?_⟩
  rw [numberInList_eq hid, Store.scan_insert (Document.id?_of_text hdoc) hi, if_pos rfl,
    List.countP_append, List.countP_singleton, Condition.met_equals_text (by decide) hname]
  -- Of the relations of the list only the new one is new.
  by_cases hnamed : id = name
  · rw [if_pos hnamed, if_pos (beq_iff_eq.2 hnamed.symm)]
  · rw [if_neg hnamed, if_neg fun h => hnamed (beq_iff_eq.1 h).symm, Nat.add_zero]

/-! ## Listed -/

section Named

variable (hopen : ctx.config.accessControl = false) (hs : s.Sound)
  (h : ReferencesStored ctx.config s)

include hs

/-- What a field names among stored records is named by a text. -/
theorem text_of_endOf {field : String} {target : Family}
    (h : (endOf (s.readable ctx target) field doc).isSome = true) :
    ∃ name, doc.get? field = some (.text name) := by
  obtain ⟨t, ht⟩ := Option.isSome_iff_exists.1 h
  have stored := List.mem_of_find?_eq_some ht
  obtain ⟨id, hid⟩ := hs.textIds _ t (List.mem_filter.1 stored).1
  -- The id is a text, and only a text is the same as a text.
  have named := List.find?_some ht
  rw [names, hid] at named
  exact ⟨id, Document.get?_of_field (Value.text_same.1 named)⟩

/-- A relation that is listed names its list and its entity by texts. -/
theorem text_of_listed (hd : doc ∈ s.scan (ctx.collection .relations))
    (h : Listed ctx s .relations doc) :
    ∀ r ∈ Family.relations.references, ∃ name, doc.get? r.1 = some (.text name) := by
  obtain ⟨-, hends⟩ := (listed_relation_iff hs.toKeyed (fun _ _ => hs.textIds _) hd).1 h
  rw [Family.references, List.forall_mem_cons, List.forall_mem_singleton]
  exact ⟨text_of_endOf hs hends.list, text_of_endOf hs hends.entity⟩

include hopen h

omit hs in
/-- A record that is named is found among what may be read. -/
theorem isSome_endOf {d : Document} {r : String × Family} (hr : r ∈ f.references)
    (hd : d ∈ s.scan (ctx.collection f)) :
    (endOf (s.readable ctx r.2) r.1 d).isSome = true := by
  obtain ⟨id, hid, e, he, heid⟩ := h f d hd r hr
  rw [endOf, List.find?_isSome]
  refine ⟨e, List.mem_filter.2 ⟨he, ?_⟩, ?_⟩
  · rw [Context.access_of_open hopen]
    rfl
  · rw [names, hid, heid]
    exact Value.text_same.2 rfl

/-- A relation is listed where all relations name stored records. -/
theorem listed_of_references (hd : doc ∈ s.scan (ctx.collection .relations)) :
    Listed ctx s .relations doc := by
  have keys {field : String} {target : Family} (hr : (field, target) ∈ Family.relations.references)
      {d : Document} (hd : d ∈ s.scan (ctx.collection .relations)) :
      (Value.orNull (d.get? field)).isKey = true := by
    obtain ⟨id, hid, -⟩ := h .relations d hd _ hr
    rw [hid]
    rfl
  refine (listed_relation_iff hs.toKeyed (fun _ _ => hs.textIds _) hd).2 ⟨⟨?_, ?_⟩, ⟨?_, ?_⟩⟩
  · exact fun d hd => keys List.mem_cons_self hd
  · exact fun d hd _ => keys (List.mem_cons_of_mem _ List.mem_cons_self) hd
  · exact isSome_endOf hopen h (f := .relations) List.mem_cons_self hd
  · exact isSome_endOf hopen h (f := .relations) (List.mem_cons_of_mem _ List.mem_cons_self) hd

end Named

/-! ## Included -/

/-- What reactions are included with is what they name. -/
theorem include?_of_mem_references {r : String × Family} (hr : r ∈ f.references)
    (hf : f ≠ .relations) : r.2.include? "reactions" = some (f, r.1) := by
  revert hf
  revert r
  cases f <;> decide

/-- The records that are loaded for an include are those that name one of the given texts. -/
theorem recordsWith_texts (hopen : ctx.config.accessControl = false) (hs : s.Sound) {field : String}
    (hfield : field ≠ "_id") (texts : List String) :
    recordsWith ctx s f {} field (texts.map .text) = .ok ((s.scan (ctx.collection f)).filter
      (Condition.compare field .inq (.array (texts.map .text))).selects) := by
  rw [recordsWith_eq, baseCondition_compare (Context.access_of_open hopen f) rfl rfl, ok_bind]
  exact selection_total hs.toKeyed (Condition.total_inq_texts field texts)
    (ids?_compare hfield _ _)

section Included

variable {r : String × Family} {target : Document} {id : String}
  (hs : s.Sound) (hr : r ∈ f.references) (hf : f ≠ .relations)
  (htarget : s.fetch? (ctx.collection r.2) id = some target)

include hs hr hf htarget

/-- The reactions that are included with a record name it by its id. -/
theorem text_of_includePlaces
    (h : IncludePlaces ctx s r.2 [⟨"reactions", {}⟩] [target] f doc) :
    doc.get? r.1 = some (.text id) := by
  -- Nothing is looked up or included within what is included.
  cases h with
  | looked _ hl => cases hl
  | within _ _ hi => cases hi
  | later _ hi => cases hi
  | here hgroups hg hd =>
    rw [includeGroups, include?_of_mem_references hr hf] at hgroups
    obtain ⟨ids, hids, h⟩ := bind_eq_ok.1 hgroups
    obtain ⟨children, -, h⟩ := bind_eq_ok.1 h
    obtain ⟨keyed, hkeyed, h⟩ := bind_eq_ok.1 h
    obtain ⟨-, -, h⟩ := bind_eq_ok.1 h
    cases h
    obtain ⟨own, hown, rfl⟩ := List.mem_map.1 hg
    obtain ⟨⟨key, d⟩, hkd, rfl⟩ := List.mem_map.1 (mem_of_mem_page hd)
    obtain ⟨hkd, hsame⟩ := List.mem_filter.1 hkd
    -- The key of the reaction is what it names, and the only id is that of the record.
    obtain ⟨d', -, hd'⟩ := mem_of_mapM (lift_eq_ok.1 hkeyed) hkd
    obtain ⟨key', hkey, hd'⟩ := bind_eq_ok.1 hd'
    cases hd'
    obtain ⟨e, he, hown⟩ := mem_of_mapM (lift_eq_ok.1 hids) hown
    cases List.mem_singleton.1 (List.mem_filter.1 he).1
    rw [(keyAt_eq_ok.1 hown).1, hs.get?_id_of_fetch? htarget] at hsame
    rw [(keyAt_eq_ok.1 hkey).1] at hsame
    exact Document.get?_of_field (Value.same_text.1 hsame)

/-- A reaction is included with what it names. -/
theorem includePlaces_of_named (hopen : ctx.config.accessControl = false)
    (h : ReferencesStored ctx.config s) (hd : doc ∈ s.scan (ctx.collection f))
    (hname : doc.get? r.1 = some (.text id)) :
    IncludePlaces ctx s r.2 [⟨"reactions", {}⟩] [target] f doc := by
  have hid := hs.get?_id_of_fetch? htarget
  have own : ([target].filter fun d => d.has "_id").mapM (keyAt "_id") = .ok [.text id] := by
    have has : target.has "_id" = true := by
      rw [Document.has, hid]
      rfl
    rw [List.filter_cons, if_pos has, List.filter_nil, List.mapM_cons, keyAt, hid]
    rfl
  let children := (s.scan (ctx.collection f)).filter
    (Condition.compare r.1 .inq (.array ([id].map .text))).selects
  have loaded : recordsWith ctx s f {} r.1 (distinctKeys [.text id]) = .ok children :=
    recordsWith_texts hopen hs (ne_id_of_mem_references hr) [id]
  have key {d : Document} (hd : d ∈ children) : keyAt r.1 d = .ok (d.field r.1) := by
    obtain ⟨t, ht, -⟩ := h f d (List.mem_filter.1 hd).1 r hr
    rw [keyAt, Document.field, ht]
    rfl
  -- The reactions that are loaded can be told apart by what they name, as these are texts.
  have keyed : children.mapM (fun d => do return (← keyAt r.1 d, d)) =
      .ok (children.map fun d => (d.field r.1, d)) := by
    refine (mapM_eq_ok fun d p hp => ?_).2 ⟨fun d hd => by rw [key hd]; rfl, rfl⟩
    obtain ⟨v, hv, hp⟩ := bind_eq_ok.1 hp
    cases hp
    rw [(keyAt_eq_ok.1 hv).1]
    rfl
  have grouped : includeGroups ctx s r.2 "reactions" {} [target] = .ok (f,
      [((children.map fun d => (d.field r.1, d)).filter fun p => p.1.same (.text id)).map
        Prod.snd]) := by
    rw [includeGroups, include?_of_mem_references hr hf]
    dsimp only
    rw [own, lift_ok, ok_bind, loaded, lift_ok, ok_bind, keyed, lift_ok, ok_bind]
    rfl
  refine .here grouped List.mem_cons_self (List.mem_map.2 ⟨(.text id, doc), ?_, rfl⟩)
  have field : doc.field r.1 = .text id := Document.field_of_get? hname
  have child : doc ∈ children := by
    refine List.mem_filter.2 ⟨hd, ?_⟩
    rw [selects_compare (ne_id_of_mem_references hr),
      Condition.met_inq_texts (plain_of_mem_references hr) hname, List.contains_iff_mem]
    exact List.mem_cons_self
  exact List.mem_filter.2 ⟨List.mem_map.2 ⟨doc, child, by rw [field]⟩, Value.same_text.2 rfl⟩

end Included

/-! ## Removed -/

/-- A record names only one of each family. -/
theorem references_unique {r : String × Family} (hr : r ∈ f.references) {field : String}
    (h : (field, r.2) ∈ f.references) : field = r.1 := by
  revert h
  cases f <;> simp only [Family.references, List.mem_cons, List.not_mem_nil, or_false] at hr ⊢
  all_goals rcases hr with rfl | rfl <;> simp

theorem isRemoved_iff_named (hc : ctx.config.Separate) {r : String × Family}
    (hr : r ∈ f.references) {name id : String} (hname : doc.get? r.1 = some (.text name)) :
    isRemoved ctx r.2 [.text id] (ctx.collection f) doc = true ↔ id = name := by
  have named := namesOne_iff_mem (plain_of_mem_references hr)
    (List.forall_mem_singleton.2 ⟨id, rfl⟩) hname
  rw [List.mem_singleton, Value.text.injEq, @eq_comm _ name] at named
  rw [← named, isRemoved_iff]
  constructor
  · rintro (⟨hcollection, -⟩ | ⟨g, field, hg, hcollection, hnames⟩)
    · -- What is named names nothing itself.
      obtain rfl := hc.collections f r.2 hcollection
      rw [references_of_mem_references hr] at hr
      exact absurd hr List.not_mem_nil
    · obtain rfl := hc.collections f g hcollection
      rwa [references_unique hr hg] at hnames
  · exact fun hnames => .inr ⟨f, r.1, hr, rfl, hnames⟩

/-- A stored record can be deleted, and takes with it those that name it. -/
theorem run_delete_named (hc : ctx.config.Separate) (hs : s.Sound) {r : String × Family}
    (hr : r ∈ f.references) (hd : doc ∈ s.scan (ctx.collection f)) {name : String}
    (hname : doc.get? r.1 = some (.text name)) {id : String} {target : Document}
    (htarget : s.fetch? (ctx.collection r.2) id = some target) :
    ∃ s', (delete ctx r.2 id).run s = (.ok (), s') ∧
      (doc ∉ s'.scan (ctx.collection f) ↔ id = name) := by
  obtain ⟨s', hs'⟩ : ∃ s', withoutRecords ctx r.2 [.text id] s = .ok s' :=
    exists_withoutRecords hs (List.forall_mem_singleton.2 ⟨id, rfl⟩)
  refine ⟨s', ?_, ?_⟩
  · rw [delete, Write.run_change, stored, htarget]
    dsimp only
    rw [ok_bind, hs']
  · rw [mem_scan_withoutRecords hs (List.cons_ne_nil _ _) hs', isRemoved_iff_named hc hr hname]
    simp [hd]

/-! ## Everywhere -/

section Everywhere

variable (hs : s.Sound) (h : ReferencesStored ctx.config s)

include hs h

/-- Where references are whole, what a record names can be fetched. -/
theorem fetch?_of_references (hd : doc ∈ s.scan (ctx.collection f)) {r : String × Family}
    (hr : r ∈ f.references) : ∃ name e, doc.get? r.1 = some (.text name) ∧
      (doc.field r.1).display = name ∧ s.fetch? (ctx.collection r.2) name = some e := by
  obtain ⟨name, hname, e, he, heid⟩ := h f doc hd r hr
  refine ⟨name, e, hname, ?_, hs.toKeyed.fetch?_of_mem_scan he (Document.id?_of_text heid)⟩
  rw [Document.field, hname]
  rfl

/-- Where references are whole, the entity of a relation is among those of its list. -/
theorem shown_of_references (hopen : ctx.config.accessControl = false)
    (hdepth : 0 ≤ ctx.config.maxLookupDepth) (hfit : FitsPages ctx s)
    (hd : doc ∈ s.scan (ctx.collection .relations))
    (htruthy : (doc.field "_entityId").truthy = true) :
    ∃ entity docs,
      s.fetch? (ctx.collection .entities) (doc.field "_entityId").display = some entity ∧
        listEntities ctx s (doc.field "_listId").display (.object []) = .ok docs ∧
          entity ∈ docs := by
  have hentity : ("_entityId", Family.entities) ∈ Family.relations.references :=
    List.mem_cons_of_mem _ List.mem_cons_self
  obtain ⟨listId, list, hl, hlist, found⟩ :=
    fetch?_of_references hs h hd (r := ("_listId", .lists)) List.mem_cons_self
  obtain ⟨entityId, entity, he, hdisplay, hfetch⟩ := fetch?_of_references hs h hd hentity
  -- An empty text counts as nothing.
  have nonempty : entityId ≠ "" := by
    rintro rfl
    rw [Document.field, he] at htruthy
    cases htruthy
  have texts {r : String × Family} (hr : r ∈ Family.relations.references) :
      ∀ d ∈ s.scan (ctx.collection .relations), ∃ t, d.get? r.1 = some (.text t) := by
    intro d hd
    obtain ⟨t, ht, -⟩ := h .relations d hd r hr
    exact ⟨t, ht⟩
  have readable {f : Family} {id : String} {d : Document}
      (hd : s.fetch? (ctx.collection f) id = some d) : d ∈ s.readable ctx f := by
    rw [Store.readable_of_always (Context.access_of_open hopen f)]
    exact Store.mem_scan_of_fetch? hd
  have shown := through_eq hs.toKeyed hfit hdepth .lists .entities (by decide) (by decide)
    (by decide) (by decide) (texts (r := ("_listId", .lists)) List.mem_cons_self)
    (texts hentity) (readable found) (hs.get?_id_of_fetch? found)
  have entityField : entity.field "_id" = .text entityId :=
    Document.field_of_get? (hs.get?_id_of_fetch? hfetch)
  rw [hlist, hdisplay]
  refine ⟨entity, _, hfetch, shown, List.mem_filter.2 ⟨readable hfetch, ?_⟩⟩
  rw [Bool.and_eq_true, List.any_eq_true, entityField]
  refine ⟨Value.truthy_text.2 nonempty, doc, hd, ?_⟩
  rw [Document.field, hl, Document.field, he, Bool.and_eq_true]
  exact ⟨Value.same_text.2 rfl, Value.same_text.2 rfl⟩

end Everywhere

/-- A new record is treated everywhere as naming what was looked up, if afterwards all references
    are the ids of stored records. -/
theorem namedAlike_of_references (hc : ctx.config.Separate)
    (hopen : ctx.config.accessControl = false) (hdepth : 0 ≤ ctx.config.maxLookupDepth)
    (hs : s'.Sound) (h : ReferencesStored ctx.config s') (hfit : FitsPages ctx s') {id : String}
    (hid : doc.get? "_id" = some (.text id)) (hi : s.insert (ctx.collection f) doc = .ok s')
    (htruthy : ∀ r ∈ f.references, (doc.field r.1).truthy = true) : NamedAlike ctx s s' f doc := by
  have mem : doc ∈ s'.scan (ctx.collection f) := by
    rw [Store.scan_insert (Document.id?_of_text hid) hi, if_pos rfl]
    exact List.mem_append_right _ List.mem_cons_self
  constructor
  case listed =>
    rintro rfl
    exact listed_of_references hopen hs h mem
  case counted =>
    rintro rfl list' list hlist
    obtain ⟨name, -, hname, hdisplay, -⟩ :=
      fetch?_of_references hs h mem (r := ("_listId", .lists)) List.mem_cons_self
    rw [hdisplay]
    exact numberInList_insert hid hi hname (hs.get?_id_of_fetch? hlist)
  case shown =>
    rintro rfl
    exact shown_of_references hs h hopen hdepth hfit mem
      (htruthy ("_entityId", .entities) (List.mem_cons_of_mem _ List.mem_cons_self))
  case included =>
    intro hf r hr id target htarget
    obtain ⟨name, -, hname, hdisplay, -⟩ := fetch?_of_references hs h mem hr
    rw [hdisplay]
    constructor
    · intro places
      have value := text_of_includePlaces hs hr hf htarget places
      rw [hname] at value
      cases value
      rfl
    · rintro rfl
      exact includePlaces_of_named hs hr hf htarget hopen h mem hname
  case removed =>
    intro r hr id target htarget
    obtain ⟨name, -, hname, hdisplay, -⟩ := fetch?_of_references hs h mem hr
    rw [hdisplay]
    exact run_delete_named hc hs hr mem hname htarget

/-- Without access control, and as long as pages have room for all records, a new record is treated
    everywhere as naming what was looked up for it, if and only if it names all by texts. -/
theorem namedAlike_iff_texts (hc : ctx.config.Separate) (hopen : ctx.config.accessControl = false)
    (hdepth : 0 ≤ ctx.config.maxLookupDepth) (hs : s.Sound) (h : ReferencesStored ctx.config s)
    {payload : Value} {id : String} (hrun : (create ctx f payload id).run s = (.ok doc, s'))
    (hfit : FitsPages ctx s') :
    NamedAlike ctx s s' f doc ↔ ∀ r ∈ f.references, ∃ name, doc.get? r.1 = some (.text name) := by
  obtain ⟨hnew, hi⟩ := run_create_ok hrun
  obtain ⟨prepared, -⟩ := newRecord_eq_ok hnew
  obtain ⟨targets, htargets⟩ := prepared.targets
  have sound : s'.Sound := hs.insert prepared.get?_id hi
  have scan := Store.scan_insert (Document.id?_of_text prepared.get?_id) hi
  constructor
  · intro alike r hr
    by_cases hf : f = .relations
    · subst hf
      have mem : doc ∈ s'.scan (ctx.collection .relations) := by
        rw [scan, if_pos rfl]
        exact List.mem_append_right _ List.mem_cons_self
      exact text_of_listed sound mem (alike.listed rfl) r hr
    · -- What was looked up is still there, so that the reaction is included with it.
      obtain ⟨-, e, he, hid⟩ := exists_named hs htargets hr
      have kept : e ∈ s'.scan (ctx.collection r.2) := by
        rw [scan]
        exact List.mem_append_left _ (Store.mem_scan_of_fetch? he)
      have found := sound.toKeyed.fetch?_of_mem_scan kept (Document.id?_of_text hid)
      exact ⟨_, text_of_includePlaces sound hr hf found ((alike.included hf r hr _ e found).2 rfl)⟩
  · intro htexts
    have stored : ReferencesStored ctx.config s' := by
      refine references_added hc h prepared.get?_id (fun r hr => ?_) hi
      obtain ⟨name, hname⟩ := htexts r hr
      obtain ⟨-, e, he, hid⟩ := exists_named hs htargets hr
      rw [Document.field, hname] at hid
      exact ⟨name, hname, e, Store.mem_scan_of_fetch? he, hid⟩
    exact namedAlike_of_references hc hopen hdepth sound stored hfit prepared.get?_id hi
      fun r hr => (exists_named hs htargets hr).1

/-! ## A number for a text -/

/-- A list whose id is a numeral, and an entity. -/
def numeralList : Store where
  rows := [⟨"List", "5", [("_id", .text "5"), ("_name", .text "L")]⟩,
    ⟨"GenericEntity", "e", [("_id", .text "e"), ("_name", .text "E")]⟩]

/-- The request to put the entity into the list, which it names by a value. -/
def puttingInto (list : Value) : Write Document :=
  create openContext .relations (.object [("_listId", list), ("_entityId", .text "e")]) "r"

theorem sound_numeralList : numeralList.Sound where
  named := by
    simp only [numeralList, List.forall_mem_cons]
    exact ⟨rfl, rfl, List.forall_mem_nil _⟩
  unique := by decide
  texts := by
    simp only [numeralList, List.forall_mem_cons]
    exact ⟨⟨"5", rfl⟩, ⟨"e", rfl⟩, List.forall_mem_nil _⟩

/-- Neither the list nor the entity names anything. -/
theorem referencesStored_numeralList : ReferencesStored openContext.config numeralList := by
  intro f d hd r hr
  cases f <;> first | exact absurd hr List.not_mem_nil | exact absurd hd List.not_mem_nil

/-- A relation that names the list by its text is treated everywhere as naming it. -/
theorem namedAlike_iff_texts_numeralList :
    openContext.config.Separate ∧ numeralList.Sound ∧
      ReferencesStored openContext.config numeralList ∧
      ∃ doc s', (puttingInto (.text "5")).run numeralList = (.ok doc, s') ∧
        FitsPages openContext s' ∧ NamedAlike openContext numeralList s' .relations doc := by
  have made : ((puttingInto (.text "5")).run numeralList).1.toOption.any (fun doc =>
      (doc.field "_listId").same (.text "5") && (doc.field "_entityId").same (.text "e")) =
        true := by
    decide +kernel
  have fits : Family.all.all (fun f =>
      (((puttingInto (.text "5")).run numeralList).2.scan (openContext.collection f)).length ≤
        (openContext.config.policy f).responseLimit) = true := by
    decide +kernel
  refine ⟨separate_openContext, sound_numeralList, referencesStored_numeralList, ?_⟩
  rcases hrun : (puttingInto (.text "5")).run numeralList with ⟨_ | doc, s'⟩
  · rw [hrun] at made
    cases made
  · rw [hrun] at made fits
    have hfit : FitsPages openContext s' := by
      intro f
      exact of_decide_eq_true (List.all_eq_true.1 fits f (Family.mem_all f))
    refine ⟨doc, s', rfl, hfit, (namedAlike_iff_texts separate_openContext rfl (by decide)
      sound_numeralList referencesStored_numeralList hrun hfit).2 ?_⟩
    obtain ⟨hlist, hentity⟩ := Bool.and_eq_true_iff.1 made
    rw [Family.references, List.forall_mem_cons, List.forall_mem_singleton]
    exact ⟨⟨"5", Document.get?_of_field (Value.same_text.1 hlist)⟩,
      ⟨"e", Document.get?_of_field (Value.same_text.1 hentity)⟩⟩

/-- A relation that names the list by the number is made, but it is not listed, it takes no room in
    the list, which has no entities, and it is still there when the list is not. -/
theorem unlisted_numberedRelation :
    ∃ doc s', (puttingInto (.int 5)).run numeralList = (.ok doc, s') ∧
      (listing openContext s' .relations).toOption.map List.length = some 0 ∧
      ((s'.fetch? "List" "5").bind fun list => (numberInList openContext s' list).toOption) =
        some 0 ∧
      (listEntities openContext s' "5" (.object [])).toOption.map List.length = some 0 ∧
      ((delete openContext .lists "5").run s').2.rows.map (fun r => (r.collection, r.id)) =
        [("GenericEntity", "e"), ("ListToEntityRelation", "r")] ∧
      ¬NamedAlike openContext numeralList s' .relations doc := by
  have made : ((puttingInto (.int 5)).run numeralList).1.toOption.isSome = true := by
    decide +kernel
  have unlisted : (listing openContext ((puttingInto (.int 5)).run numeralList).2
      .relations).toOption.map List.length = some 0 := by
    decide +kernel
  have uncounted : ((((puttingInto (.int 5)).run numeralList).2.fetch? "List" "5").bind fun list =>
      (numberInList openContext ((puttingInto (.int 5)).run numeralList).2 list).toOption) =
        some 0 := by
    decide +kernel
  have unshown : (listEntities openContext ((puttingInto (.int 5)).run numeralList).2 "5"
      (.object [])).toOption.map List.length = some 0 := by
    decide +kernel
  have kept : ((delete openContext .lists "5").run
      ((puttingInto (.int 5)).run numeralList).2).2.rows.map (fun r => (r.collection, r.id)) =
        [("GenericEntity", "e"), ("ListToEntityRelation", "r")] := by
    decide +kernel
  rcases hrun : (puttingInto (.int 5)).run numeralList with ⟨_ | doc, s'⟩
  · rw [hrun] at made
    cases made
  · rw [hrun] at unlisted uncounted unshown kept
    refine ⟨doc, s', rfl, unlisted, uncounted, unshown, kept, fun alike => ?_⟩
    obtain ⟨docs, hdocs, d, hd, -⟩ := alike.listed rfl
    rw [toOption_eq_some.2 hdocs, Option.map_some, Option.some.injEq, List.length_eq_zero_iff]
      at unlisted
    rw [unlisted] at hd
    exact List.not_mem_nil hd

end Service

end Catalog
