import Catalog.Proofs.Record.Managed
import Catalog.Store

/-!
# What can be written

A document is not written if it has a whole number of too many digits. Of several records that one
payload is written over, either all new versions can be written or none (`writable_update`): what a
new version has that its record did not have comes from the payload, or is a version, a timestamp, a
slug or a number of items that comes from the payload, too. So a bulk update either fails before it
writes anything, or not at all, as long as versions are small.

This needs that documents have no key twice, as no document that the catalogue writes has
(`distinct_create`, `distinct_replace`, `distinct_update`).
-/

namespace Catalog

/-! ## Members of documents -/

theorem Value.membersCanBeWritten_iff {doc : Document} :
    membersCanBeWritten doc = true ↔ ∀ m ∈ doc, m.2.canBeWritten = true := by
  induction doc with
  | nil => exact ⟨fun _ => nofun, fun _ => rfl⟩
  | cons m rest ih =>
    obtain ⟨k, v⟩ := m
    rw [membersCanBeWritten, Bool.and_eq_true, ih, List.forall_mem_cons]

theorem Value.canBeWritten_int {n : Int} :
    (Value.int n).canBeWritten = true ↔ n.natAbs < 10 ^ Numeral.maxDigits := by
  rw [Value.int, canBeWritten, decide_eq_true_iff]

/-- A document can be written if what its keys have can be. -/
theorem Document.Distinct.canBeWritten_iff {doc : Document} (hd : doc.Distinct) :
    Value.membersCanBeWritten doc = true ↔
      ∀ key v, doc.get? key = some v → v.canBeWritten = true :=
  Value.membersCanBeWritten_iff.trans
    ⟨fun h key _ hv => h (key, _) (mem_of_get? hv), fun h m hm => h m.1 m.2 (hd.get?_of_mem hm)⟩

namespace Record

variable {p : Policy} {payload stored body doc doc' : Document} {now : Instant}

/-! ## Keys are not there twice -/

theorem distinct_putAll {news : Document} (h : doc.Distinct) : (doc.putAll news).Distinct := by
  induction news generalizing doc with
  | nil => exact h
  | cons m news ih => exact ih (h.put m.1 m.2)

theorem distinct_finish (hd : doc.Distinct) (h : finish p doc = .ok doc') : doc'.Distinct := by
  have slug : (putSlug doc).Distinct := by
    rw [putSlug]
    split
    · exact hd.put _ _
    · exact hd
  obtain ⟨-, ⟨-, counted⟩ | ⟨-, rfl⟩⟩ := finish_eq_ok h
  · refine foldlM_keeps (P := Document.Distinct) (fun field _ d d' hd hs => ?_) slug counted
    obtain ⟨n, -, hs⟩ := bind_eq_ok.1 hs
    cases hs
    exact hd.put _ _
  · exact slug

theorem distinct_putWriting (hd : doc.Distinct)
    (h : putWriting p stored body now doc = .ok doc') : doc'.Distinct := by
  obtain ⟨n, t, -, -, rfl⟩ := putWriting_eq_ok h
  exact (hd.put _ _).put _ _

/-- Filling in a field where it is missing writes no key twice. -/
theorem distinct_fill (hd : doc.Distinct) (field : String) (v : Value) :
    Document.Distinct (if doc.lacks field then doc.put field v else doc) := by
  split
  · exact hd.put _ _
  · exact hd

theorem distinct_putAccess {kind : String} {requester : Requester} (hd : doc.Distinct)
    (h : putAccess p kind requester body doc = .ok doc') : doc'.Distinct := by
  obtain ⟨given, v, -, rfl⟩ := putAccess_eq_ok h
  refine List.foldlRecOn _ _ ?_ fun d hd field _ => distinct_fill hd field _
  split
  · exact (hd.put _ _).put _ _
  · exact hd.put _ _

theorem distinct_keepAccess (hd : doc.Distinct) (h : keepAccess p stored doc = .ok doc') :
    doc'.Distinct := by
  rw [(keepAccess_eq_ok h).2]
  exact List.foldlRecOn _ _ hd fun d hd field _ => distinct_fill hd field _

theorem distinct_ifAccess {step : Document → Outcome Document} (hd : doc.Distinct)
    (hs : step doc = .ok doc' → doc'.Distinct) (h : ifAccess p step doc = .ok doc') :
    doc'.Distinct := by
  rcases ifAccess_eq_ok h with ⟨-, h⟩ | ⟨-, rfl⟩
  · exact hs h
  · exact hd

theorem distinct_stamped (now : Instant) (id kind : String) (body : Document)
    (created updated validFrom validUntil : Option String) :
    (stamped now id kind body created updated validFrom validUntil).Distinct := by
  have start : Document.Distinct [("_id", .text id), ("_kind", .text kind)] :=
    (by decide : ["_id", "_kind"].Nodup)
  exact (((((distinct_putAll start).put _ _).put _ _).put _ _).put _ _).put _ _

theorem distinct_create {requester : Requester} {id : String}
    (h : create p payload requester now id = .ok doc) : doc.Distinct := by
  obtain ⟨kind, created, updated, given, approved, validUntil, readable, -, -, -, -, -, -, ha, hf⟩
    := create_eq_ok h
  have stamped := distinct_stamped now id kind (newBody payload) created updated
    (given.or (if approved then some now.timestamp else none)) validUntil
  exact distinct_finish (distinct_ifAccess stamped (distinct_putAccess stamped) ha) hf

/-- The step that writes a time writes no key twice. -/
theorem distinct_writeTime {field : String} {otherwise : Document} (hd : doc.Distinct)
    (ho : otherwise.Distinct) (h : writeTime p body field doc otherwise = .ok doc') :
    doc'.Distinct := by
  rcases writeTime_eq_ok h with ⟨-, t, -, rfl⟩ | ⟨-, rfl⟩
  · exact hd.put _ _
  · exact ho

theorem distinct_replace (h : replace p stored payload now = .ok doc) : doc.Distinct := by
  obtain ⟨id, timed, readable, written, -, -, ht, ha, hw, hf⟩ := replace_eq_ok h
  have start : Document.Distinct [("_id", id), ("_kind", stored.field "_kind")] :=
    (by decide : ["_id", "_kind"].Nodup)
  have distinct : timed.Distinct := by
    refine foldlM_keeps (P := Document.Distinct)
      (fun field _ d d' hd hs => distinct_writeTime hd (hd.put _ _) hs) ?_ ht
    refine List.foldlRecOn _ _ (((distinct_putAll start).put _ _).put _ _) fun d hd r _ => ?_
    dsimp only
    split
    · exact hd.put _ _
    · exact hd
  exact distinct_finish
    (distinct_putWriting (distinct_ifAccess distinct (distinct_keepAccess distinct) ha) hw) hf

theorem distinct_update (hs : stored.Distinct) (h : update p stored payload now = .ok doc) :
    doc.Distinct := by
  obtain ⟨timed, written, -, ht, -, hw, hf⟩ := update_eq_ok h
  have distinct : timed.Distinct := foldlM_keeps (P := Document.Distinct)
    (fun field _ d d' hd hs => distinct_writeTime hd hd hs) (distinct_putAll hs) ht
  exact distinct_finish (distinct_putWriting (distinct.put _ _) hw) hf

/-! ## Where the members of a new version come from -/

/-- Before the derived fields are written, an updated record has what the payload says, or else what
    it had, but for the version and the times. -/
theorem exists_written_update (hp : payload.Distinct)
    (h : update p stored payload now = .ok doc) :
    ∃ written, finish p written = .ok doc ∧ ∀ key, key ∉ stampedFields →
      written.get? key = (payload.withoutServerFields.get? key).or (stored.get? key) := by
  obtain ⟨written, finished, merged⟩ := exists_merged_update h
  refine ⟨written, finished, fun key hk => ?_⟩
  rw [merged key hk, Document.get?_putAll hp.withoutServerFields]

/-- A record of a family that does not say who may read it has no derived numbers. -/
theorem finish_of_not_access (ha : p.family.hasAccessFields = false)
    (h : finish p doc = .ok doc') : doc' = putSlug doc := by
  obtain ⟨-, ⟨ha', -⟩ | ⟨-, rfl⟩⟩ := finish_eq_ok h
  · exact Bool.noConfusion (ha.symm.trans ha')
  · rfl

/-- The slug is what the payload says, or else what it was, if that counts as something or there is
    no text to take its place. -/
theorem get?_slug_update (hp : payload.Distinct) (h : update p stored payload now = .ok doc) :
    doc.get? "_slug" = (payload.get? "_slug").or (stored.get? "_slug") ∨
      (Value.orNull ((payload.get? "_slug").or (stored.get? "_slug"))).truthy = false ∧
        ∃ t, doc.get? "_slug" = some (.text t) := by
  obtain ⟨written, finished, merged⟩ := exists_written_update hp h
  have slug := merged "_slug" (by decide)
  rw [Document.get?_withoutServerFields (by decide)] at slug
  rw [get?_slug_finish finished, putSlug]
  split
  · next missing =>
    rw [Bool.and_eq_true, Bool.not_eq_true'] at missing
    exact .inr ⟨slug ▸ missing.2, _, by rw [Document.get?_put, if_pos rfl]⟩
  · exact .inl slug

/-! ## All or none -/

/-- A value that counts as nothing has no digits to write. -/
theorem canBeWritten_of_not_truthy {v : Value} (h : v.truthy = false) : v.canBeWritten = true := by
  cases v with
  | number n =>
    cases n with
    | int n =>
      obtain rfl : n = 0 := by simpa [Value.truthy, Number.isZero] using h
      exact Value.canBeWritten_int.2 (Nat.pow_pos (by decide))
    | double x => rfl
  | array items =>
    cases items with
    | nil => rfl
    | cons v items => cases h
  | object members =>
    cases members with
    | nil => rfl
    | cons m members => cases h
  | _ => rfl

/-- Managed records that have the same list in a field have the same number beside it. -/
theorem Managed.count_congr {doc doc' : Document} (hm : Managed p doc) (hm' : Managed p doc')
    (ha : p.family.hasAccessFields = true) {field : String} (hf : field ∈ countedArrays)
    (h : doc.field field = doc'.field field) :
    doc.get? (countField field) = doc'.get? (countField field) := by
  obtain ⟨texts, list, count⟩ := hm.counts ha field hf
  obtain ⟨texts', list', count'⟩ := hm'.counts ha field hf
  rw [count, count']
  rw [h] at list
  rcases list with list | ⟨list, rfl⟩
  · rcases list' with list' | ⟨list', rfl⟩
    · have same := Value.array.inj (list.symm.trans list')
      rw [← List.length_map (f := Value.text), same, List.length_map]
    · cases list.symm.trans list'
  · rcases list' with list' | ⟨list', rfl⟩
    · cases list.symm.trans list'
    · rfl

/-- The version and the times of a managed record can be written, unless the version is too great.
    -/
theorem Managed.canBeWritten_stamped (hm : Managed p doc)
    (hversion : ∀ n : Int, doc.get? "_version" = some (.int n) → n.natAbs < 10 ^ Numeral.maxDigits)
    {key : String} (hk : key ∈ stampedFields) {v : Value} (hv : doc.get? key = some v) :
    v.canBeWritten = true := by
  rw [stampedFields, List.mem_append] at hk
  rcases hk with fixed | time
  · simp only [List.mem_cons, List.not_mem_nil, or_false] at fixed
    rcases fixed with rfl | rfl | rfl
    · obtain ⟨n, version, -⟩ := hm.version
      cases version.symm.trans hv
      exact Value.canBeWritten_int.2 (hversion n version)
    · obtain ⟨t, created⟩ := hm.created
      cases created.symm.trans hv
      rfl
    · obtain ⟨t, updated⟩ := hm.updated
      cases updated.symm.trans hv
      rfl
  · obtain ⟨w, hw, time⟩ := hm.validity key time
    cases hw.symm.trans hv
    rcases time with rfl | ⟨t, rfl⟩ <;> rfl

/-! Two records, over which one payload is written: what the new version of the one has can be
written, and so can what the other one had. -/

section Twins

variable {old old' new new' : Document} {key : String} {v : Value}

/-- What is said, or else had, can be written, if it can with something else that was had, and if
    what was had can be. -/
theorem canBeWritten_or {said had' : Option Value} (had : Option Value)
    (h : ∀ v, said.or had = some v → v.canBeWritten = true)
    (h' : ∀ v, had' = some v → v.canBeWritten = true) (hv : said.or had' = some v) :
    v.canBeWritten = true := by
  cases said with
  | none => exact h' v hv
  | some w => exact h v hv

variable (hp : payload.Distinct) (h : update p old payload now = .ok new)
  (h' : update p old' payload now = .ok new')
  (hnew : ∀ key v, new.get? key = some v → v.canBeWritten = true)
  (hhad : ∀ key v, old'.get? key = some v → v.canBeWritten = true)

include hp h h' hnew hhad

/-- What the one new version has from the payload, the other one has from it, too. -/
theorem canBeWritten_merged (hk : key ∉ stampedFields) (hs : key ≠ "_slug")
    (hc : key ∉ countedArrays.map countField) (hv : new'.get? key = some v) :
    v.canBeWritten = true := by
  rw [get?_update_over hk hs hc hp h'] at hv
  refine canBeWritten_or (old.get? key) (fun w hw => hnew key w ?_) (hhad key) hv
  rwa [get?_update_over hk hs hc hp h]

/-- A slug of the payload is only left out where it counts as nothing. -/
theorem canBeWritten_slug (hv : new'.get? "_slug" = some v) : v.canBeWritten = true := by
  rcases get?_slug_update hp h' with said | ⟨-, t, made⟩
  · refine canBeWritten_or (old.get? "_slug") (fun w hw => ?_) (hhad "_slug")
      (said.symm.trans hv)
    rcases get?_slug_update hp h with same | ⟨nothing, -⟩
    · exact hnew "_slug" w (same.trans hw)
    · rw [hw] at nothing
      exact canBeWritten_of_not_truthy nothing
  · cases made.symm.trans hv
    rfl

/-- The number beside a list is that of the same list, in the one new version or in the record. -/
theorem canBeWritten_count (hm : Managed p old) (hm' : Managed p old') {field : String}
    (hf : field ∈ countedArrays) (hv : new'.get? (countField field) = some v) :
    v.canBeWritten = true := by
  cases ha : p.family.hasAccessFields with
  | true =>
    have plain : ∀ field ∈ countedArrays, (field ∉ stampedFields ∧ field ≠ "_slug") ∧
        field ∉ countedArrays.map countField := by decide
    obtain ⟨⟨hk, hs⟩, hc⟩ := plain field hf
    have said := get?_update_over hk hs hc hp h
    have said' := get?_update_over hk hs hc hp h'
    have managed' := managed_update hp hm' h'
    cases hb : payload.withoutServerFields.get? field with
    | none =>
      rw [hb, Option.none_or] at said'
      rw [managed'.count_congr hm' ha hf (congrArg Value.orNull said')] at hv
      exact hhad _ v hv
    | some w =>
      rw [hb, Option.some_or] at said said'
      rw [managed'.count_congr (managed_update hp hm h) ha hf
        (congrArg Value.orNull (said'.trans said.symm))] at hv
      exact hnew _ v hv
  | false =>
    -- Nothing is counted, and the payload has no say about such a field.
    have server : ∀ field ∈ countedArrays, countField field ∈ serverFields ∧
        countField field ∉ stampedFields ∧ countField field ≠ "_slug" := by decide
    obtain ⟨unsaid, hk, hs⟩ := server field hf
    obtain ⟨written, finished, merged⟩ := exists_written_update hp h'
    rw [finish_of_not_access ha finished, get?_putSlug hs, merged _ hk,
      Document.get?_eq_none_iff.2 (Document.not_mem_keys_withoutServerFields unsaid payload),
      Option.none_or] at hv
    exact hhad _ v hv

end Twins

/-- Of several records that one payload is written over, either all new versions can be written or
    none, unless a version is too great. -/
theorem writable_update {old old' new new' : Document} (hp : payload.Distinct)
    (hm : Managed p old) (hm' : Managed p old') (hd : old.Distinct) (hd' : old'.Distinct)
    (h : update p old payload now = .ok new) (h' : update p old' payload now = .ok new')
    (hold' : Value.membersCanBeWritten old' = true)
    (hversion : ∀ n : Int, new'.get? "_version" = some (.int n) →
      n.natAbs < 10 ^ Numeral.maxDigits)
    (hnew : Value.membersCanBeWritten new = true) : Value.membersCanBeWritten new' = true := by
  have hold' := hd'.canBeWritten_iff.1 hold'
  have hnew := (distinct_update hd h).canBeWritten_iff.1 hnew
  rw [(distinct_update hd' h').canBeWritten_iff]
  intro key v hv
  by_cases hk : key ∈ stampedFields
  · exact (managed_update hp hm' h').canBeWritten_stamped hversion hk hv
  by_cases hs : key = "_slug"
  · subst hs
    exact canBeWritten_slug hp h h' hnew hold' hv
  by_cases hc : key ∈ countedArrays.map countField
  · obtain ⟨field, hf, rfl⟩ := List.mem_map.1 hc
    exact canBeWritten_count hp h h' hnew hold' hm hm' hf hv
  · exact canBeWritten_merged hp h h' hnew hold' hk hs hc hv

end Record

end Catalog
