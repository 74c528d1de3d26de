import Catalog.Proofs.Service.History
import Catalog.Proofs.Service.Naming

/-!
# Room in lists

A list of a kind that is limited is never named by more relations than its limit says, whatever
requests have come before (`list_limits_kept`). The limit is only looked at when a relation is made.
That it holds from then on, rests on what else is known of every step of a request:

* a relation names one list, and a list is of one kind, for as long as they are there
  (`Continues.of_revised`);
* a list that is new is named by no relation, since what relations name is stored
  (`ReferencesStored`); this is also why a list that is made again begins empty;
* what is removed only makes room.

So of the relations of one list there is at most one more after a step, and then the list was stored
and had room (`numberNaming_change`).
-/

namespace Catalog

/-- All values that a setting has for some kind. -/
def KindScoped.values {α : Type} (s : KindScoped α) : List α := s.default :: s.byKind.map Prod.snd

theorem KindScoped.mem_values_of_get {α : Type} {s : KindScoped α} {kind : Value} {v : α}
    (h : s.get kind = .ok v) : v ∈ s.values := by
  obtain ⟨own, hown, h⟩ := bind_eq_ok.1 h
  cases h
  cases own with
  | none => exact List.mem_cons_self
  | some own =>
    cases kind with
    | text kind =>
      obtain ⟨before, after, found, -⟩ := List.lookup_eq_some_iff.1 (Except.ok.inj hown)
      refine List.mem_cons_of_mem _ (List.mem_map.2 ⟨(kindKey kind, own), ?_, rfl⟩)
      rw [found]
      exact List.mem_append_right _ List.mem_cons_self
    | _ => cases hown

namespace Service

variable {config : Configuration} {ctx : Context} {s s' : Store} {request : WriteRequest}

/-- The number of stored relations that name a list by an id. -/
def numberNaming (config : Configuration) (s : Store) (id : Value) : Nat :=
  (s.scan (config.policy .relations).collection).countP fun d => (d.field "_listId").same id

theorem numberNaming_eq (ctx : Context) (s : Store) (id : Value) :
    numberNaming ctx.config s id = (s.scan (ctx.collection .relations)).countP fun d =>
      (d.field "_listId").same id := rfl

/-- The greatest number of entities in a list, which depends on the kind of the list. -/
def listLimit (config : Configuration) (list : Document) : Except Fault (Option Int) :=
  (config.policy .relations).listEntityLimit.get (Value.orNull (list.get? "_kind"))

/-- No stored list is named by more relations than its limit says, if it has one. -/
def ListLimitsKept (config : Configuration) (s : Store) : Prop :=
  ∀ list ∈ s.scan (config.policy .lists).collection, ∀ limit : Int,
    listLimit config list = .ok (some limit) →
      (numberNaming config s (list.field "_id") : Int) ≤ limit

/-- Where references are whole, the relations that name a list are those that are counted before
    there is one more. -/
theorem numberInList_eq_numberNaming (h : ReferencesStored ctx.config s) {list : Document}
    {id : String} (hid : list.get? "_id" = some (.text id)) :
    numberInList ctx s list = .ok (numberNaming ctx.config s (.text id)) := by
  rw [numberInList_eq hid]
  refine congrArg Except.ok (List.countP_congr fun d hd => ?_)
  obtain ⟨name, hname, -⟩ := h .relations d hd ("_listId", .lists) List.mem_cons_self
  rw [Condition.met_equals_same (by decide) ⟨name, hname⟩]

/-- A list that is not stored is named by no relation. -/
theorem numberNaming_of_unstored (h : ReferencesStored config s) {id : String}
    (hid : ∀ list ∈ s.scan (config.policy .lists).collection,
      list.get? "_id" ≠ some (.text id)) : numberNaming config s (.text id) = 0 := by
  refine List.countP_eq_zero.2 fun d hd hsame => ?_
  obtain ⟨name, hname, list, hlist, named⟩ :=
    h .relations d hd ("_listId", .lists) List.mem_cons_self
  rw [Document.field, hname] at hsame
  cases Value.same_text.1 hsame
  exact hid list hlist named

/-! ## One step -/

section Step

variable (hc : ctx.config.Separate) (hw : request.WellFormed) (hs : WellKept ctx.config s)
  (h : Change ctx request s s')

include hc hw hs h

/-- The relations of a list become no more in a step, or they become one more, and then the list is
    stored and has had room. -/
theorem numberNaming_change (id : String) :
    numberNaming ctx.config s' (.text id) ≤ numberNaming ctx.config s (.text id) ∨
      ∃ list ∈ s.scan (ctx.collection .lists), list.get? "_id" = some (.text id) ∧
        numberNaming ctx.config s' (.text id) = numberNaming ctx.config s (.text id) + 1 ∧
        ∀ limit : Int, listLimit ctx.config list = .ok (some limit) →
          (numberNaming ctx.config s (.text id) : Int) < limit := by
  cases h.records hc hs.toKeyed .relations with
  | @added given docId doc _ new is =>
    have counted : numberNaming ctx.config s' (.text id) = numberNaming ctx.config s (.text id) +
        if (doc.field "_listId").same (.text id) then 1 else 0 := by
      rw [numberNaming_eq, is, List.countP_append, List.countP_singleton]
      rfl
    by_cases names : (doc.field "_listId").same (.text id) = true
    · obtain ⟨list, found, room⟩ := room_of_newRecord new
      rw [Value.same_text.1 names] at found
      have stored := hs.get?_id_of_fetch? found
      refine .inr ⟨list, Store.mem_scan_of_fetch? found, stored, ?_, fun limit hlimit => ?_⟩
      · rw [counted, if_pos names]
      · obtain ⟨n, hn, fits⟩ :=
          (checkListRoom_eq_ok (hc.family .relations) stored hlimit).1 room
        cases (numberInList_eq_numberNaming hs.references stored).symm.trans hn
        exact fits
    · rw [if_neg names] at counted
      exact .inl (Nat.le_of_eq counted)
  | @revised payload body old new now before after hr hbody revised _ was is =>
    have hold : old ∈ s.scan (ctx.collection .relations) := by
      rw [was]
      exact List.mem_append_right _ List.mem_cons_self
    -- A new version names the list that the old one named.
    have continues := Continues.of_revised (hc.family .relations) (hs.managed _ old hold)
      (hw.revision hr _ (members_eq_ok hbody))
      (fun r href => by
        obtain ⟨name, hname, -⟩ := hs.references .relations old hold r href
        exact ⟨name, hname⟩) revised
    have same : new.field "_listId" = old.field "_listId" :=
      congrArg Value.orNull (continues.fixed "_listId" (by decide))
    refine .inl (Nat.le_of_eq ?_)
    rw [numberNaming_eq, numberNaming_eq, is, was, List.countP_append, List.countP_append,
      List.countP_cons, List.countP_cons, same]
  | fewer sub => exact .inl sub.countP_le

/-- After a step a list has the id and the kind of a list that was stored, or it has an id that no
    stored list had. -/
theorem lists_change : ∀ list' ∈ s'.scan (ctx.collection .lists),
    (∃ list ∈ s.scan (ctx.collection .lists),
      list'.get? "_id" = list.get? "_id" ∧ list'.get? "_kind" = list.get? "_kind") ∨
    ∀ list ∈ s.scan (ctx.collection .lists), list'.get? "_id" ≠ list.get? "_id" := by
  intro list' hlist'
  cases h.records hc hs.toKeyed .lists with
  | @added given id doc _ new is =>
    rw [is] at hlist'
    rcases List.mem_append.1 hlist' with old | made
    · exact .inl ⟨list', old, rfl, rfl⟩
    · obtain rfl := List.mem_singleton.1 made
      refine .inr fun list hlist same => ?_
      refine (h.keyed hs.toKeyed).id?_ne_of_scan_eq is list (List.mem_append_left _ hlist) ?_
      rw [Document.id?, Document.id?, same]
  | @revised payload body old new now before after hr hbody revised _ was is =>
    have hold : old ∈ s.scan (ctx.collection .lists) := by
      rw [was]
      exact List.mem_append_right _ List.mem_cons_self
    have continues := Continues.of_revised (hc.family .lists) (hs.managed _ old hold)
      (hw.revision hr _ (members_eq_ok hbody)) (fun r href => absurd href List.not_mem_nil) revised
    refine .inl ?_
    rw [is] at hlist'
    rcases eq_or_mem_of_replaced hlist' with rfl | other
    · exact ⟨old, hold, continues.fixed "_id" (by decide), continues.fixed "_kind" (by decide)⟩
    · exact ⟨list', was ▸ other, rfl, rfl⟩
  | fewer sub => exact .inl ⟨list', sub.subset hlist', rfl, rfl⟩

/-- No step exceeds the limit of a list. -/
theorem listLimitsKept_change
    (hlimits : ∀ limit : Int,
      some limit ∈ (ctx.config.policy .relations).listEntityLimit.values → 0 ≤ limit)
    (hk : ListLimitsKept ctx.config s) : ListLimitsKept ctx.config s' := by
  intro list' hlist' limit hlimit
  obtain ⟨id, hid⟩ := (h.sound hs.toSound).textIds _ list' hlist'
  have field : list'.field "_id" = .text id := Document.field_of_get? hid
  rw [field]
  rcases lists_change hc hw hs h list' hlist' with ⟨list, hlist, sameId, sameKind⟩ | new
  · have hid₀ : list.get? "_id" = some (.text id) := sameId.symm.trans hid
    have hlimit₀ : listLimit ctx.config list = .ok (some limit) := by
      rw [listLimit, ← sameKind]
      exact hlimit
    have kept := hk list hlist limit hlimit₀
    rw [Document.field, hid₀] at kept
    change (numberNaming ctx.config s (.text id) : Int) ≤ limit at kept
    rcases numberNaming_change hc hw hs h id with fewer | ⟨named, hnamed, hid₁, one, room⟩
    · omega
    · -- The list that has had room is this one.
      obtain rfl := hs.eq_of_text_id hnamed hlist hid₁ hid₀
      have room := room limit hlimit₀
      omega
  · have unstored : ∀ list ∈ s.scan (ctx.collection .lists),
        list.get? "_id" ≠ some (.text id) :=
      fun list hlist hid₀ => new list hlist (hid.trans hid₀.symm)
    have none := numberNaming_of_unstored hs.references unstored
    have positive := hlimits limit (KindScoped.mem_values_of_get hlimit)
    rcases numberNaming_change hc hw hs h id with fewer | ⟨named, hnamed, hid₁, -⟩
    · omega
    · exact absurd hid₁ (unstored named hnamed)

end Step

/-! ## Runs -/

/-- After every run of well-formed requests from the empty store, no stored list is named by more
    relations than there may be for a list of its kind, if no limit is negative. -/
theorem list_limits_kept (hc : config.Separate)
    (hlimits : ∀ limit : Int,
      some limit ∈ (config.policy .relations).listEntityLimit.values → 0 ≤ limit)
    (h : Run config WriteRequest.WellFormed {} s) : ListLimitsKept config s := by
  have kept := h.keeps (P := fun s => WellKept config s ∧ ListLimitsKept config s)
    Store.Sound.empty.toKeyed ⟨.empty config, fun _ hlist => absurd hlist List.not_mem_nil⟩
    fun ctx request s s' hconfig hw _ hs hchange => by
      subst hconfig
      exact ⟨wellKept_change hc hw hs.1 hchange,
        listLimitsKept_change hc hw hs.1 hchange hlimits hs.2⟩
  exact kept.2.2

/-- A request to a catalogue where an album has room for one entity, and any other list for two. -/
def albumContext : Context where
  config :=
    { policy := fun f =>
        { Policy.standard f with
          listEntityLimit := { default := some 2, byKind := [("album", some 1)] } } }
  now := ⟨.first, 0⟩

/-- An album is filled, removed, made again and filled again. The requests for a second entity, for
    a relation to an entity that is there, and to make the album another kind of list are
    refused. -/
def fillingAlbum : List WriteRequest := [
  .create .lists (.object [("_name", .text "L"), ("_kind", .text "album")]) "l",
  .create .entities (.object [("_name", .text "D")]) "d",
  .createInList "l" (.object [("_name", .text "E")]) "e" "p",
  .createInList "l" (.object [("_name", .text "F")]) "f" "q",
  .update .lists "l" (.object [("_kind", .text "list")]),
  .create .relations (.object [("_listId", .text "l"), ("_entityId", .text "d")]) "r",
  .delete .lists "l",
  .create .lists (.object [("_name", .text "M"), ("_kind", .text "album")]) "l",
  .create .relations (.object [("_listId", .text "l"), ("_entityId", .text "d")]) "r",
  .createInList "l" (.object [("_name", .text "F")]) "f" "q"]

theorem wellFormed_fillingAlbum : ∀ request ∈ fillingAlbum, request.WellFormed := by
  have distinct (body : Document) (h : body.Distinct) : HasDistinctKeys (.object body) :=
    fun _ hb => by cases hb; exact h
  have named (f : Family) (hf : f.references = []) (payload : Value) : NamesByTexts f payload :=
    fun _ _ r hr => by rw [hf] at hr; exact absurd hr List.not_mem_nil
  have ends : NamesByTexts .relations
      (.object [("_listId", .text "l"), ("_entityId", .text "d")]) := by
    intro body hb r hr v hv
    cases hb
    rcases List.mem_cons.1 hr with rfl | hr
    · cases hv
      exact ⟨"l", rfl⟩
    · obtain rfl := List.mem_singleton.1 hr
      cases hv
      exact ⟨"d", rfl⟩
  simp only [fillingAlbum, List.forall_mem_cons]
  exact ⟨⟨distinct _ (by decide), named _ rfl _⟩, ⟨distinct _ (by decide), named _ rfl _⟩,
    distinct _ (by decide), distinct _ (by decide), distinct _ (by decide),
    ⟨distinct _ (by decide), ends⟩, trivial, ⟨distinct _ (by decide), named _ rfl _⟩,
    ⟨distinct _ (by decide), ends⟩, distinct _ (by decide), List.forall_mem_nil _⟩

/-- The album is full in the end, with the one relation that found room in it. -/
theorem list_limits_kept_fillingAlbum :
    let s := performAll albumContext fillingAlbum {}
    albumContext.config.Separate ∧
      (∀ limit : Int,
        some limit ∈ (albumContext.config.policy .relations).listEntityLimit.values → 0 ≤ limit) ∧
      Run albumContext.config WriteRequest.WellFormed {} s ∧
      ((s.scan "List").map fun list => (listLimit albumContext.config list).toOption) =
        [some (some 1)] ∧
      numberNaming albumContext.config s (.text "l") = 1 ∧
      (s.scan "ListToEntityRelation").map (fun d => (d.field "_id").display) = ["r"] ∧
      ListLimitsKept albumContext.config s := by
  intro s
  have separate : albumContext.config.Separate :=
    { family := fun f => by cases f <;> rfl
      collections := fun f g => by cases f <;> cases g <;> decide }
  have limits : ∀ limit : Int,
      some limit ∈ (albumContext.config.policy .relations).listEntityLimit.values →
        0 ≤ limit := by
    intro limit h
    have h : some limit ∈ [some 2, some 1] := h
    simp only [List.mem_cons, Option.some.injEq, List.not_mem_nil, or_false] at h
    omega
  have run : Run albumContext.config WriteRequest.WellFormed {} s :=
    Run.performAll wellFormed_fillingAlbum .start
  exact ⟨separate, limits, run, by decide +kernel, by decide +kernel, by decide +kernel,
    list_limits_kept separate limits run⟩

end Service

end Catalog
