import Catalog.Proofs.Service.Step
import Mathlib.Data.List.Induction

/-!
# The history of a record

A run of the service is a list of events: requests that only read, and requests that may change the
store, each with who asks and when. From its creation until it is removed, a record keeps its id,
kind, time of creation and references (`Continues.fixed`); each request that succeeds and selects it
for a change raises its version by one, so that the version tells how many there were
(`Continues.version`); and nothing else that happens changes anything of it (`Continues.same`) or
its place among the records of its family. All this is `record_history`.

Ids of new records are drawn once only. The number of events is bounded by what can be written as a
version, a number of 4300 digits; without the bound, a bulk update could write some of its records
before it comes to one whose next version is too long.
-/

namespace Catalog.Service

/-! ## Events -/

/-- Something that the service is asked to do. -/
inductive Operation where
  /-- To read. -/
  | read (request : ReadRequest)
  /-- To write. -/
  | write (request : WriteRequest)

/-- An operation, with who asks for it and when. -/
structure Event where
  /-- Who asks, when, and of which installation. -/
  ctx : Context
  /-- What is asked for. -/
  operation : Operation

namespace Event

/-- The store after an event. -/
def after (e : Event) (s : Store) : Store :=
  match e.operation with
  | .read _ => s
  | .write request => ((perform e.ctx request).run s).2

/-- The ids that are drawn for new records, with their families. -/
def drawn (e : Event) : List (Family × String) :=
  match e.operation with
  | .read _ => []
  | .write request => request.drawn

/-- Whether the event is a request that succeeds and selects a record to change it. -/
def revises (f : Family) (id : String) (s : Store) (e : Event) : Bool :=
  match e.operation with
  | .read _ => false
  | .write request => request.revises e.ctx s f id

/-- Whether the event is a request that succeeds in removing records. -/
def removes (s : Store) (e : Event) : Bool :=
  match e.operation with
  | .read _ => false
  | .write request => request.removes e.ctx s

/-- What the request brings with it is well formed. -/
def WellFormed (e : Event) : Prop :=
  match e.operation with
  | .read _ => True
  | .write request => request.WellFormed

end Event

/-- The store after several events, one after the other. -/
def afterAll (events : List Event) (s : Store) : Store := events.foldl (fun s e => e.after s) s

/-- How many of several events have a property of events and the stores that they find. -/
def countEvents (q : Store → Event → Bool) : List Event → Store → Nat
  | [], _ => 0
  | e :: events, s => (if q s e then 1 else 0) + countEvents q events (e.after s)

/-- How many of several events succeed in changing a record. -/
def writesTo (f : Family) (id : String) (events : List Event) (s : Store) : Nat :=
  countEvents (Event.revises f id) events s

/-- How many of several events succeed in removing records. -/
def removals (events : List Event) (s : Store) : Nat := countEvents Event.removes events s

variable {config : Configuration} {events before after : List Event} {e : Event} {s s' : Store}
  {f : Family}

theorem afterAll_append (before after : List Event) (s : Store) :
    afterAll (before ++ after) s = afterAll after (afterAll before s) :=
  List.foldl_append

theorem countEvents_append (q : Store → Event → Bool) (before after : List Event) (s : Store) :
    countEvents q (before ++ after) s =
      countEvents q before s + countEvents q after (afterAll before s) := by
  induction before generalizing s with
  | nil =>
    rw [List.nil_append, countEvents, Nat.zero_add]
    rfl
  | cons e before ih =>
    rw [List.cons_append, countEvents, ih, countEvents, Nat.add_assoc]
    rfl

theorem writesTo_append (f : Family) (id : String) (before after : List Event) (s : Store) :
    writesTo f id (before ++ after) s =
      writesTo f id before s + writesTo f id after (afterAll before s) :=
  countEvents_append (Event.revises f id) before after s

theorem countEvents_le_length (q : Store → Event → Bool) (events : List Event) (s : Store) :
    countEvents q events s ≤ events.length := by
  induction events generalizing s with
  | nil => exact Nat.le_refl 0
  | cons e events ih =>
    have rest := ih (e.after s)
    rw [countEvents, List.length_cons]
    split <;> omega

/-- A run that the theorems below are about. -/
structure History (config : Configuration) (events : List Event) : Prop where
  /-- All events are about one installation. -/
  config : ∀ e ∈ events, e.ctx.config = config
  /-- What requests bring with them is well formed. -/
  wellFormed : ∀ e ∈ events, e.WellFormed
  /-- No id is drawn twice for records of a family. -/
  fresh : (events.flatMap Event.drawn).Nodup
  /-- There are not so many events that the number of a version would be too long to be written. -/
  short : events.length + 1 < 10 ^ Numeral.maxDigits

theorem History.of_append (h : History config (before ++ after)) : History config before where
  config e he := h.config e (List.mem_append_left _ he)
  wellFormed e he := h.wellFormed e (List.mem_append_left _ he)
  fresh := by
    have fresh := h.fresh
    rw [List.flatMap_append] at fresh
    exact (List.nodup_append.1 fresh).1
  short := by
    have short := h.short
    rw [List.length_append] at short
    omega

/-! ## One event -/

/-- An event leaves a well-kept store well kept. -/
theorem wellKept_after (hc : config.Separate) (hconfig : e.ctx.config = config)
    (hw : e.WellFormed) (hs : WellKept config s) : WellKept config (e.after s) := by
  subst hconfig
  obtain ⟨ctx, read | write⟩ := e
  · exact hs
  · exact wellKept_perform hc hw s hs

/-- What an event makes of the records of a family. -/
theorem become_after (hc : config.Separate) (hconfig : e.ctx.config = config)
    (hw : e.WellFormed) (hs : WellKept config s) (hv : HasSmallVersions config s) (f : Family) :
    Become (config.policy f) (fun id => e.revises f id s) (e.removes s)
      (fun id => (f, id) ∈ e.drawn) (s.scan (config.policy f).collection)
      ((e.after s).scan (config.policy f).collection) := by
  subst hconfig
  obtain ⟨ctx, read | request⟩ := e
  · exact .intro (fun _ => true) id [] (by
        rw [List.filter_eq_self.2 fun _ _ => rfl, List.map_id, List.append_nil]
        rfl)
      (fun _ _ _ => rfl) (fun _ _ _ _ h => (nomatch h)) (fun _ _ _ _ _ => rfl)
      (List.forall_mem_nil _)
  · exact recordsStep_perform hc hs hv hw.revisesPlainly f

/-! ## One record -/

/-- The fields of a record that never change. -/
def fixedFields (f : Family) : List String :=
  ["_id", "_kind", "_createdDateTime"] ++ f.references.map Prod.fst

/-- A document is what has become of another one by a number of writes. -/
structure Continues (f : Family) (writes : Nat) (old new : Document) : Prop where
  /-- What never changes has not changed. -/
  fixed : ∀ field ∈ fixedFields f, new.get? field = old.get? field
  /-- Each write has raised the version by one. -/
  version : ∀ n : Int, old.get? "_version" = some (.int n) →
    new.get? "_version" = some (.int (n + writes))
  /-- Without a write it is the same document. -/
  same : writes = 0 → new = old

namespace Continues

theorem refl (f : Family) (d : Document) : Continues f 0 d d where
  fixed _ _ := rfl
  version n hn := by
    rw [hn, Int.natCast_zero, Int.add_zero]
  same _ := rfl

theorem trans {m n : Nat} {a b c : Document} (h : Continues f m a b) (h' : Continues f n b c) :
    Continues f (m + n) a c where
  fixed field hf := (h'.fixed field hf).trans (h.fixed field hf)
  version k hk := by
    rw [h'.version _ (h.version k hk), Int.natCast_add, Int.add_assoc]
  same hmn := by
    obtain ⟨rfl, rfl⟩ := Nat.add_eq_zero_iff.1 hmn
    rw [h'.same rfl, h.same rfl]

/-- A new version is what has become of a record by one write. -/
theorem of_revised {p : Policy} {body old new : Document} {now : Instant} (hf : p.family = f)
    (hm : Record.Managed p old) (hd : body.Distinct)
    (hr : ∀ r ∈ f.references, ∃ t, old.get? r.1 = some (.text t))
    (h : Revised p body now old new) : Continues f 1 old new where
  fixed field hfield := by
    have relabelled := h.relabelled hd
    obtain ⟨kind, hkind, -⟩ := hm.kind
    obtain ⟨t, hcreated⟩ := hm.created
    rcases List.mem_append.1 hfield with label | reference
    · rcases List.mem_cons.1 label with rfl | label
      · exact h.get?_id
      · rcases List.mem_cons.1 label with rfl | label
        · rw [relabelled.kind kind hkind, hkind]
        · obtain rfl := List.mem_singleton.1 label
          rw [relabelled.created, Document.field, hcreated]
          rfl
    · obtain ⟨r, hmem, rfl⟩ := List.mem_map.1 reference
      obtain ⟨t, ht⟩ := hr r hmem
      rw [ht]
      cases h with
      | replaced h => exact Record.get?_reference_replace h (hf ▸ hmem) ht
      | updated h => exact Record.get?_reference_update hd h (hf ▸ hmem) ht
  version n hn := by
    obtain ⟨m, version, positive⟩ := hm.version
    cases version.symm.trans hn
    obtain ⟨next, hnext, hnew⟩ := (h.relabelled hd).version
    rw [Record.nextVersion_eq version positive] at hnext
    cases hnext
    exact hnew
  same h := absurd h (by decide)

end Continues

/-- What becomes of the records of a family in a part of a run that begins with a store. -/
structure Passage (config : Configuration) (f : Family) (events : List Event) (s : Store) : Prop
    where
  /-- A record that is there at the beginning and at the end is the same one, with as many writes to
      it as there were. -/
  continues : ∀ d ∈ s.scan (config.policy f).collection,
    ∀ d' ∈ (afterAll events s).scan (config.policy f).collection, ∀ id,
      d.get? "_id" = some (.text id) → d'.get? "_id" = some (.text id) →
        Continues f (writesTo f id events s) d d'
  /-- A record that is new at the end has one version more than there were writes to it. -/
  made : ∀ d' ∈ (afterAll events s).scan (config.policy f).collection, ∀ id,
    d'.get? "_id" = some (.text id) →
      (∀ d ∈ s.scan (config.policy f).collection, d.get? "_id" ≠ some (.text id)) →
        d'.get? "_version" = some (.int (1 + writesTo f id events s))
  /-- Only records are written to that were there at the beginning or are made. -/
  written : ∀ id, writesTo f id events s ≠ 0 →
    (∃ d ∈ s.scan (config.policy f).collection, d.get? "_id" = some (.text id)) ∨
      (f, id) ∈ events.flatMap Event.drawn
  /-- If no request succeeds in removing records, all are still there. -/
  stays : removals events s = 0 → ∀ d ∈ s.scan (config.policy f).collection,
    ∃ d' ∈ (afterAll events s).scan (config.policy f).collection, d'.get? "_id" = d.get? "_id"
  /-- Records that are still there have kept their order, and new ones come after them. -/
  order : ∃ kept added, ((afterAll events s).scan (config.policy f).collection).map
      (fun d => d.get? "_id") = kept ++ added ∧
    kept.Sublist ((s.scan (config.policy f).collection).map fun d => d.get? "_id") ∧
    ∀ v ∈ added, ∃ id, v = some (.text id) ∧ (f, id) ∈ events.flatMap Event.drawn

namespace Passage

/-- A record that is there at the end was there at the beginning, or is made. -/
theorem exists_or_drawn (h : Passage config f events s) {d' : Document}
    (hd : d' ∈ (afterAll events s).scan (config.policy f).collection) {id : String}
    (hid : d'.get? "_id" = some (.text id)) :
    (∃ d ∈ s.scan (config.policy f).collection, d.get? "_id" = some (.text id)) ∨
      (f, id) ∈ events.flatMap Event.drawn := by
  obtain ⟨kept, added, is, sub, drawn⟩ := h.order
  have among : some (.text id) ∈ kept ++ added := by
    rw [← is, ← hid]
    exact List.mem_map_of_mem hd
  rcases List.mem_append.1 among with old | new
  · obtain ⟨d, hd, hid⟩ := List.mem_map.1 (sub.subset old)
    exact .inl ⟨d, hd, hid⟩
  · obtain ⟨id', hid', hdrawn⟩ := drawn _ new
    cases hid'
    exact .inr hdrawn

/-- Nothing is written to a record that is not there, as long as its id is not drawn. -/
theorem writesTo_eq_zero (h : Passage config f events s) {id : String}
    (unstored : ∀ d ∈ s.scan (config.policy f).collection, d.get? "_id" ≠ some (.text id))
    (undrawn : (f, id) ∉ events.flatMap Event.drawn) : writesTo f id events s = 0 := by
  refine Decidable.not_not.1 fun hne => ?_
  rcases h.written id hne with ⟨d, hd, hid⟩ | drawn
  · exact unstored d hd hid
  · exact undrawn drawn

/-- Two parts of a run, one after the other, if the ids that are drawn in the second are neither
    those of records that were there nor drawn in the first. -/
theorem append (h : Passage config f before s) (h' : Passage config f after (afterAll before s))
    (hs : ∀ d ∈ s.scan (config.policy f).collection, ∀ id, d.get? "_id" = some (.text id) →
      (f, id) ∉ after.flatMap Event.drawn)
    (hfresh : ∀ id, (f, id) ∈ before.flatMap Event.drawn →
      (f, id) ∉ after.flatMap Event.drawn) : Passage config f (before ++ after) s where
  -- A record of the end is in the middle, too, or its id is drawn in the second part. In this case
  -- no record of the beginning has it, and the first part has not written to it.
  continues d hd d' hd' id hid hid' := by
    rw [afterAll_append] at hd'
    rw [writesTo_append]
    rcases h'.exists_or_drawn hd' hid' with ⟨e, he, heid⟩ | drawn
    · exact (h.continues d hd e he id hid heid).trans (h'.continues e he d' hd' id heid hid')
    · exact absurd drawn (hs d hd id hid)
  made d' hd' id hid' hnew := by
    rw [afterAll_append] at hd'
    rw [writesTo_append]
    rcases h'.exists_or_drawn hd' hid' with ⟨e, he, heid⟩ | drawn
    · rw [(h'.continues e he d' hd' id heid hid').version _ (h.made e he id heid hnew),
        Int.natCast_add, Int.add_assoc]
    · have undrawn : (f, id) ∉ before.flatMap Event.drawn := fun hb => hfresh id hb drawn
      rw [h.writesTo_eq_zero hnew undrawn, Nat.zero_add]
      refine h'.made d' hd' id hid' fun e he heid => ?_
      rcases h.exists_or_drawn he heid with ⟨d, hd, hid⟩ | hb
      · exact hnew d hd hid
      · exact undrawn hb
  written id hne := by
    rw [writesTo_append] at hne
    rw [List.flatMap_append, List.mem_append]
    by_cases first : writesTo f id before s = 0
    · rw [first, Nat.zero_add] at hne
      rcases h'.written id hne with ⟨e, he, heid⟩ | drawn
      · exact (h.exists_or_drawn he heid).imp_right .inl
      · exact .inr (.inr drawn)
    · exact (h.written id first).imp_right .inl
  stays hno d hd := by
    rw [removals, countEvents_append] at hno
    obtain ⟨first, second⟩ := Nat.add_eq_zero_iff.1 hno
    rw [afterAll_append]
    obtain ⟨e, he, heid⟩ := h.stays first d hd
    obtain ⟨d', hd', hid'⟩ := h'.stays second e he
    exact ⟨d', hd', hid'.trans heid⟩
  order := by
    obtain ⟨kept, added, is, sub, drawn⟩ := h.order
    obtain ⟨kept', added', is', sub', drawn'⟩ := h'.order
    -- What is left of the middle is left of the beginning or has been made in the first part.
    rw [is] at sub'
    obtain ⟨old, new, rfl, hold, hnew⟩ := List.sublist_append_iff.1 sub'
    refine ⟨old, new ++ added', ?_, hold.trans sub, fun v hv => ?_⟩
    · rw [afterAll_append, is', List.append_assoc]
    · rw [List.flatMap_append]
      rcases List.mem_append.1 hv with hv | hv
      · obtain ⟨id, rfl, hid⟩ := drawn v (hnew.subset hv)
        exact ⟨id, rfl, List.mem_append_left _ hid⟩
      · obtain ⟨id, rfl, hid⟩ := drawn' v hv
        exact ⟨id, rfl, List.mem_append_right _ hid⟩

end Passage

theorem removes_of_drawn {id : String} (h : (f, id) ∈ e.drawn) : e.removes s = false := by
  obtain ⟨ctx, read | request⟩ := e
  · rfl
  · exact WriteRequest.removes_of_drawn h

/-- What an event changes is stored. -/
theorem exists_of_revises (hconfig : e.ctx.config = config) (hs : s.Sound) {id : String}
    (h : e.revises f id s = true) :
    ∃ d ∈ s.scan (config.policy f).collection, d.get? "_id" = some (.text id) := by
  subst hconfig
  obtain ⟨ctx, read | request⟩ := e
  · cases h
  · obtain ⟨d, hd, hid⟩ := WriteRequest.exists_of_revises h
    obtain ⟨id', hid'⟩ := hs.textIds _ d hd
    cases hid.symm.trans (Document.id?_of_text hid')
    exact ⟨d, hd, hid'⟩

/-- What an event writes to is stored. -/
theorem exists_of_writesTo (hconfig : e.ctx.config = config) (hs : s.Sound) {id : String}
    (h : writesTo f id [e] s ≠ 0) :
    ∃ d ∈ s.scan (config.policy f).collection, d.get? "_id" = some (.text id) := by
  have writes : writesTo f id [e] s = if e.revises f id s then 1 else 0 := rfl
  cases hr : e.revises f id s with
  | true => exact exists_of_revises hconfig hs hr
  | false =>
    rw [writes, hr] at h
    exact absurd rfl h

/-- A record is revised by an event that changes it, and stays as it is otherwise. -/
theorem Continues.of_event (hc : config.Separate) (hs : WellKept config s) {d new : Document}
    (hd : d ∈ s.scan (config.policy f).collection) {id : String}
    (revised : e.revises f id s = true → ∃ body now, Document.Distinct body ∧
      Revised (config.policy f) body now d new)
    (same : e.revises f id s = false → new = d) : Continues f (writesTo f id [e] s) d new := by
  have writes : writesTo f id [e] s = if e.revises f id s then 1 else 0 := rfl
  rw [writes]
  cases hr : e.revises f id s with
  | true =>
    obtain ⟨body, now, hdistinct, hrevised⟩ := revised hr
    refine .of_revised (hc.family f) (hs.managed f d hd) hdistinct (fun r hr => ?_) hrevised
    obtain ⟨t, ht, -⟩ := hs.references f d hd r hr
    exact ⟨t, ht⟩
  | false =>
    rw [same hr]
    exact .refl f d

/-- What becomes of the records of a family by one event. -/
theorem passage_event (hc : config.Separate) (hconfig : e.ctx.config = config)
    (hw : e.WellFormed) (hs : WellKept config s) (hv : HasSmallVersions config s) (f : Family) :
    Passage config f [e] s := by
  obtain ⟨kept, next, added, is, all, revised, same, new⟩ :=
    become_after hc hconfig hw hs hv f
  have removed : removals [e] s = if e.removes s then 1 else 0 := rfl
  have drawn : [e].flatMap Event.drawn = e.drawn := List.append_nil _
  have continues {d : Document} (hd : d ∈ s.scan (config.policy f).collection) {id : String}
      (hid : d.get? "_id" = some (.text id)) : Continues f (writesTo f id [e] s) d (next d) :=
    .of_event hc hs hd (revised d hd id (Document.id?_of_text hid))
      (same d hd id (Document.id?_of_text hid))
  have hsame {d : Document} (hd : d ∈ s.scan (config.policy f).collection) :
      (next d).get? "_id" = d.get? "_id" := by
    obtain ⟨id, hid⟩ := hs.textIds _ d hd
    exact (continues hd hid).fixed "_id" (by simp [fixedFields])
  have mem {d' : Document} : d' ∈ (e.after s).scan (config.policy f).collection ↔
      (∃ d ∈ s.scan (config.policy f).collection, kept d = true ∧ next d = d') ∨ d' ∈ added := by
    simp only [is, List.mem_append, List.mem_map, List.mem_filter, and_assoc]
  have written (id : String) (hne : writesTo f id [e] s ≠ 0) :=
    exists_of_writesTo hconfig hs.toSound hne
  refine {
    continues := fun d hd d' hd' id hid hid' => ?_
    made := fun d' hd' id hid' hnew => ?_
    written := fun id hne => .inl (written id hne)
    stays := fun hno d hd => ?_
    order := ?_ }
  · have wellKept := wellKept_after hc hconfig hw hs
    rcases mem.1 hd' with ⟨d₀, hd₀, -, rfl⟩ | hadded
    · have hid₀ := (hsame hd₀).symm.trans hid'
      rw [hs.eq_of_text_id hd hd₀ hid hid₀]
      exact continues hd₀ hid₀
    · -- Where an id is drawn no record is removed, so that the two would be different records.
      obtain ⟨id', body, requester, now, hdrawn, -⟩ := new d' hadded
      have stays := mem.2 (.inl ⟨d, hd, all (removes_of_drawn hdrawn) d hd, rfl⟩)
      rw [wellKept.eq_of_text_id hd' stays hid' ((hsame hd).trans hid)]
      exact continues hd hid
  · have unwritten : writesTo f id [e] s = 0 := by
      refine Decidable.not_not.1 fun hne => ?_
      obtain ⟨d, hd, hid⟩ := written id hne
      exact hnew d hd hid
    rw [unwritten]
    rcases mem.1 hd' with ⟨d, hd, -, rfl⟩ | hadded
    · exact absurd ((hsame hd).symm.trans hid') (hnew d hd)
    · obtain ⟨id', body, requester, now, -, hmade⟩ := new d' hadded
      exact Record.get?_version_create hmade
  · cases hr : e.removes s with
    | true =>
      rw [removed, hr] at hno
      cases hno
    | false => exact ⟨next d, mem.2 (.inl ⟨d, hd, all hr d hd, rfl⟩), hsame hd⟩
  · refine ⟨((s.scan (config.policy f).collection).filter kept).map fun d => d.get? "_id",
      added.map fun d => d.get? "_id", ?_, List.filter_sublist.map _, fun v hv => ?_⟩
    · change ((e.after s).scan _).map _ = _
      rw [is, List.map_append, List.map_map]
      refine congrArg (· ++ _) (List.map_congr_left fun d hd => ?_)
      exact hsame (List.mem_filter.1 hd).1
    · obtain ⟨d, hd, rfl⟩ := List.mem_map.1 hv
      obtain ⟨id, body, requester, now, hdrawn, hmade⟩ := new d hd
      exact ⟨id, Record.get?_id_create hmade, drawn ▸ hdrawn⟩

/-- The versions in a short run can be written, and the next ones, too. -/
theorem hasSmallVersions (hs : (afterAll events {}).Sound)
    (hp : ∀ f, Passage config f events {}) (hshort : events.length + 2 < 10 ^ Numeral.maxDigits) :
    HasSmallVersions config (afterAll events {}) := by
  intro f d hd n hn
  obtain ⟨id, hid⟩ := hs.textIds _ d hd
  have version := (hp f).made d hd id hid fun d hd => absurd hd List.not_mem_nil
  cases version.symm.trans hn
  have few : writesTo f id events {} ≤ events.length := countEvents_le_length _ events {}
  generalize 10 ^ Numeral.maxDigits = bound at hshort ⊢
  omega

/-- Nothing becomes of the records when nothing happens. -/
theorem passage_nil (hs : s.Sound) (config : Configuration) (f : Family) :
    Passage config f [] s where
  continues d hd d' hd' id hid hid' := by
    rw [hs.toKeyed.eq_of_text_id hd' hd hid' hid]
    exact .refl f d
  made d' hd' id hid' hnew := absurd hid' (hnew d' hd')
  written _ hne := absurd rfl hne
  stays _ d hd := ⟨d, hd, rfl⟩
  order := ⟨_, [], (List.append_nil _).symm, .refl _, List.forall_mem_nil _⟩

/-- What becomes of the records in a run from the empty store, which is well kept at the end. -/
theorem passage_start (hc : config.Separate) (h : History config events) :
    WellKept config (afterAll events {}) ∧ ∀ f, Passage config f events {} := by
  induction events using List.reverseRecOn with
  | nil => exact ⟨.empty config, passage_nil .empty config⟩
  | append_singleton events e ih =>
    obtain ⟨hs, hp⟩ := ih h.of_append
    have last : e ∈ events ++ [e] := List.mem_append_right _ List.mem_cons_self
    have small : HasSmallVersions config (afterAll events {}) := by
      have short := h.short
      rw [List.length_append] at short
      exact hasSmallVersions hs.toSound hp short
    have fresh := h.fresh
    rw [List.flatMap_append, List.nodup_append] at fresh
    constructor
    · rw [afterAll_append]
      exact wellKept_after hc (h.config e last) (h.wellFormed e last) hs
    · intro f
      exact (hp f).append (passage_event hc (h.config e last) (h.wellFormed e last) hs small f)
        (fun d hd => absurd hd List.not_mem_nil) fun id hb ha => fresh.2.2 _ hb _ ha rfl

/-- In a run from the empty store, each record has one version more than there were writes to it so
    far, and what becomes of the records from any store of the run on to any later one is this: a
    record that is still there keeps its id, kind, time of creation and references, its version is
    raised by the number of the writes to it, and without such a write it is the same document; all
    records are still there if none are removed; and they keep their order, before all new ones. -/
theorem record_history (hc : config.Separate) (h : History config (before ++ after))
    (f : Family) :
    (∀ d ∈ (afterAll before {}).scan (config.policy f).collection, ∃ id,
      d.get? "_id" = some (.text id) ∧
        d.get? "_version" = some (.int (1 + writesTo f id before {}))) ∧
    Passage config f after (afterAll before {}) := by
  constructor
  · intro d hd
    obtain ⟨hs, hp⟩ := passage_start hc h.of_append
    obtain ⟨id, hid⟩ := hs.textIds _ d hd
    exact ⟨id, hid, (hp f).made d hd id hid fun d hd => absurd hd List.not_mem_nil⟩
  · induction after using List.reverseRecOn with
    | nil => exact passage_nil (passage_start hc h.of_append).1.toSound config f
    | append_singleton after e ih =>
      rw [← List.append_assoc] at h
      obtain ⟨hs, hp⟩ := passage_start hc h.of_append
      have start := (passage_start hc h.of_append.of_append).2 f
      have last : e ∈ before ++ after ++ [e] := List.mem_append_right _ List.mem_cons_self
      have small : HasSmallVersions config (afterAll (before ++ after) {}) := by
        have short := h.short
        rw [List.length_append] at short
        exact hasSmallVersions hs.toSound hp short
      have step := passage_event hc (h.config e last) (h.wellFormed e last) hs small f
      rw [afterAll_append] at step
      have fresh := h.fresh
      rw [List.flatMap_append, List.flatMap_append, List.nodup_append] at fresh
      obtain ⟨-, -, apart⟩ := fresh
      refine (ih h.of_append).append step (fun d hd id hid ha => ?_) fun id hb ha => ?_
      · -- What is stored in the middle of the run has been made in it.
        rcases start.exists_or_drawn hd hid with ⟨d, hd, -⟩ | drawn
        · exact List.not_mem_nil hd
        · exact apart _ (List.mem_append_left _ drawn) _ ha rfl
      · exact apart _ (List.mem_append_right _ hb) _ ha rfl

/-- A list with two entities. -/
def twoEntitiesListed : List WriteRequest := [
  .create .lists (.object [("_name", .text "L"), ("_visibility", .text "public")]) "l",
  .createInList "l" (.object [("_name", .text "E"), ("_visibility", .text "public")]) "e" "r",
  .createInList "l" (.object [("_name", .text "F"), ("_visibility", .text "public")]) "f" "q"]

/-- What happens to the entities: one is updated, both are, one more update is refused, and one of
    them is removed. -/
def updatesAndRemoval : List WriteRequest := [
  .update .entities "e" (.object [("x", .int 1), ("_version", .int 77)]),
  .updateListEntities "l" (.object [("y", .int 2)]) (.object []),
  .update .entities "e" (.object [("_kind", .text "other")]),
  .delete .entities "f"]

/-- The entity that is left has been written to twice and is at its third version. -/
theorem record_history_updatesAndRemoval :
    let ctx : Context := { config := .standard, now := ⟨.first, 0⟩ }
    let before := twoEntitiesListed.map fun request => Event.mk ctx (.write request)
    let after := ⟨ctx, .read (.find .entities .null)⟩ ::
      updatesAndRemoval.map fun request => Event.mk ctx (.write request)
    let s := afterAll before {}
    ctx.config.Separate ∧ History ctx.config (before ++ after) ∧
      (s.scan "GenericEntity").map (fun d => (d.field "_version").display) = ["1", "1"] ∧
      ((afterAll after s).scan "GenericEntity").map (fun d => (d.field "_version").display) =
        ["3"] ∧
      writesTo .entities "e" after s = 2 ∧ Passage ctx.config .entities after s := by
  intro ctx before after s
  have distinct (body : Document) (h : body.Distinct) : HasDistinctKeys (.object body) :=
    fun _ hb => by cases hb; exact h
  have named (payload : Value) : NamesByTexts .lists payload :=
    fun _ _ r hr => absurd hr List.not_mem_nil
  have run : History ctx.config (before ++ after) := {
    config := List.forall_mem_append.2 ⟨List.forall_mem_map.2 fun _ _ => rfl,
      List.forall_mem_cons.2 ⟨rfl, List.forall_mem_map.2 fun _ _ => rfl⟩⟩
    wellFormed := by
      simp only [before, after, twoEntitiesListed, updatesAndRemoval, List.map_cons, List.map_nil,
        List.cons_append, List.nil_append, List.forall_mem_cons]
      exact ⟨⟨distinct _ (by decide), named _⟩, distinct _ (by decide), distinct _ (by decide),
        trivial, distinct _ (by decide), distinct _ (by decide), distinct _ (by decide), trivial,
        List.forall_mem_nil _⟩
    fresh := by decide
    short := by decide +kernel }
  exact ⟨Configuration.separate_standard, run, by decide +kernel, by decide +kernel,
    by decide +kernel, (record_history Configuration.separate_standard run .entities).2⟩

end Catalog.Service
