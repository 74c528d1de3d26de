import Catalog.Proofs.Outcome
import Catalog.Record.Lifecycle

/-!
# The steps of writing a record

The operations on a record are read as rows of steps (`create_eq`, `replace_eq`, `update_eq`). What
one of them has done when it gives a document is said by `create_eq_ok`, `replace_eq_ok` and
`update_eq_ok`, and of single steps by the lemmas before them. What is shown of written documents
goes by these lemmas.
-/

namespace Catalog.Record

variable {p : Policy} {stored payload body doc doc' : Document} {now : Instant}

/-! ## Single steps -/

/-- A document with the time that a payload gives in a field, or else another document. -/
def writeTime (p : Policy) (body : Document) (field : String) (doc otherwise : Document) :
    Outcome Document := do
  if body.has field then return doc.put field (timestampValue (← timestampAt p field body))
  else return otherwise

theorem writeTime_eq_ok {field : String} {otherwise : Document}
    (h : writeTime p body field doc otherwise = .ok doc') :
    (body.has field = true ∧ ∃ t, timestampAt p field body = .ok t ∧
        doc' = doc.put field (timestampValue t)) ∨
      body.has field = false ∧ doc' = otherwise := by
  rw [writeTime] at h
  split at h
  · next hf =>
    obtain ⟨t, ht, h⟩ := bind_eq_ok.1 h
    cases h
    exact .inl ⟨hf, t, ht, rfl⟩
  · next hf =>
    cases h
    exact .inr ⟨eq_false_of_ne_true hf, rfl⟩

/-- Whether a payload says something else in a field than a stored document has. -/
def changes (stored payload : Document) (field : String) : Bool :=
  match payload.get? field with
  | some v => !v.same (stored.field field)
  | none => false

/-- The first field that a payload changes but may not is refused: the kind, or else a reference. -/
theorem checkUnchanged_eq (p : Policy) (stored payload : Document) :
    checkUnchanged p stored payload =
      if changes stored payload "_kind" then refuse (.kindChanged p.family (stored.field "_kind"))
      else match p.family.references.find? fun r => changes stored payload r.1 with
        | some (_, target) => refuse (.referenceChanged target)
        | none => .ok () := by
  rw [checkUnchanged]
  split
  · next changed => exact (if_pos changed).symm
  · next same =>
    refine Eq.trans ?_ (if_neg same).symm
    rfl

theorem putWriting_eq_ok (h : putWriting p stored body now doc = .ok doc') :
    ∃ n t, nextVersion stored = .ok n ∧ timestampAt p "_lastUpdatedDateTime" body = .ok t ∧
      doc' = (doc.put "_version" (.int n)).put "_lastUpdatedDateTime"
        (.text (t.getD now.timestamp)) := by
  dsimp only [putWriting] at h
  obtain ⟨n, hn, h⟩ := bind_eq_ok.1 h
  obtain ⟨t, ht, h⟩ := bind_eq_ok.1 h
  cases h
  exact ⟨n, t, lift_eq_ok.1 hn, ht, rfl⟩

theorem keepAccess_eq_ok (h : keepAccess p stored doc = .ok doc') :
    (∃ v, checkVisibility p (doc'.field "_visibility") = .ok v) ∧
      doc' = ("_visibility" :: countedArrays).foldl
        (fun d field => if d.lacks field then d.put field (stored.field field) else d) doc := by
  dsimp only [keepAccess] at h
  obtain ⟨v, hv, h⟩ := bind_eq_ok.1 h
  cases h
  exact ⟨⟨v, hv⟩, rfl⟩

theorem putAccess_eq_ok {kind : String} {requester : Requester}
    (h : putAccess p kind requester body doc = .ok doc') :
    ∃ given v, checkVisibility p given = .ok v ∧
      doc' = ["_ownerGroups", "_viewerUsers", "_viewerGroups", "_parents"].foldl
        (fun d field => if d.lacks field then d.put field (.array []) else d)
        (if body.lacks "_ownerUsers" then
          (doc.put "_visibility" v).put "_ownerUsers" (.array (requester.user.toList.map .text))
        else doc.put "_visibility" v) := by
  dsimp only [putAccess] at h
  split at h
  · obtain ⟨given, -, h⟩ := bind_eq_ok.1 h
    obtain ⟨v, hv, h⟩ := bind_eq_ok.1 h
    cases h
    exact ⟨given, v, hv, rfl⟩
  · obtain ⟨setting, -, h⟩ := bind_eq_ok.1 h
    obtain ⟨given, -, h⟩ := bind_eq_ok.1 h
    obtain ⟨v, hv, h⟩ := bind_eq_ok.1 h
    cases h
    exact ⟨given, v, hv, rfl⟩

/-- What a document goes through if it is to say who may read it. -/
def ifAccess (p : Policy) (step : Document → Outcome Document) (doc : Document) :
    Outcome Document :=
  if p.family.hasAccessFields then step doc else pure doc

theorem ifAccess_eq_ok {step : Document → Outcome Document} (h : ifAccess p step doc = .ok doc') :
    p.family.hasAccessFields = true ∧ step doc = .ok doc' ∨
      p.family.hasAccessFields = false ∧ doc' = doc := by
  rw [ifAccess] at h
  split at h
  · next ha => exact .inl ⟨ha, h⟩
  · next ha =>
    cases h
    exact .inr ⟨eq_false_of_ne_true ha, rfl⟩

theorem ifAccess_bind (step k : Document → Outcome Document) (doc : Document) :
    (if p.family.hasAccessFields then step doc >>= k else pure doc >>= k) =
      ifAccess p step doc >>= k := by
  rw [ifAccess]
  split <;> rfl

/-- The derived fields are written, and then the shape is checked. -/
theorem finish_eq (p : Policy) (doc : Document) : finish p doc = (do
    let counted ← ifAccess p (fun d => putCounts d) (putSlug doc)
    checkShape p counted
    return counted) := by
  dsimp only [finish]
  exact ifAccess_bind (fun d => putCounts d) _ _

theorem finish_eq_ok (h : finish p doc = .ok doc') :
    checkShape p doc' = .ok () ∧
      (p.family.hasAccessFields = true ∧ putCounts (putSlug doc) = .ok doc' ∨
        p.family.hasAccessFields = false ∧ doc' = putSlug doc) := by
  rw [finish_eq] at h
  obtain ⟨d, counted, h⟩ := bind_eq_ok.1 h
  obtain ⟨⟨⟩, checked, h⟩ := bind_eq_ok.1 h
  cases h
  exact ⟨checked, (ifAccess_eq_ok counted).imp_left (And.imp_right lift_eq_ok.1)⟩

/-! ## Operations -/

/-- The members of a payload for a new record that are written. -/
def newBody (payload : Document) : Document := payload.withoutServerFields.erase "_kind"

/-- A new document with its id, kind, version and times. -/
def stamped (now : Instant) (id kind : String) (body : Document)
    (created updated validFrom validUntil : Option String) : Document :=
  (((((Document.putAll [("_id", .text id), ("_kind", .text kind)] body).put
    "_version" (.int 1)).put
    "_createdDateTime" (.text (created.getD now.timestamp))).put
    "_lastUpdatedDateTime" (.text (updated.getD now.timestamp))).put
    "_validFromDateTime" (timestampValue validFrom)).put
    "_validUntilDateTime" (timestampValue validUntil)

/-- A new record gets its times, says who may read it if it is to, and is finished. -/
theorem create_eq (p : Policy) (payload : Document) (requester : Requester) (now : Instant)
    (id : String) : create p payload requester now id = (do
      let kind ← kindOf p payload
      let created ← timestampAt p "_createdDateTime" (newBody payload)
      let updated ← timestampAt p "_lastUpdatedDateTime" (newBody payload)
      let given ← timestampAt p "_validFromDateTime" (newBody payload)
      let approved ← p.autoapprove.get (.text kind)
      let validUntil ← timestampAt p "_validUntilDateTime" (newBody payload)
      let readable ← ifAccess p (putAccess p kind requester (newBody payload))
        (stamped now id kind (newBody payload) created updated
          (given.or (if approved then some now.timestamp else none)) validUntil)
      finish p readable) := by
  dsimp only [create]
  simp only [ifAccess_bind]
  rfl

theorem create_eq_ok {requester : Requester} {id : String}
    (h : create p payload requester now id = .ok doc) :
    ∃ kind created updated given approved validUntil readable,
      kindOf p payload = .ok kind ∧
      timestampAt p "_createdDateTime" (newBody payload) = .ok created ∧
      timestampAt p "_lastUpdatedDateTime" (newBody payload) = .ok updated ∧
      timestampAt p "_validFromDateTime" (newBody payload) = .ok given ∧
      p.autoapprove.get (.text kind) = .ok approved ∧
      timestampAt p "_validUntilDateTime" (newBody payload) = .ok validUntil ∧
      ifAccess p (putAccess p kind requester (newBody payload))
        (stamped now id kind (newBody payload) created updated
          (given.or (if approved then some now.timestamp else none)) validUntil) = .ok readable ∧
      finish p readable = .ok doc := by
  rw [create_eq] at h
  obtain ⟨kind, hkind, h⟩ := bind_eq_ok.1 h
  obtain ⟨created, hcreated, h⟩ := bind_eq_ok.1 h
  obtain ⟨updated, hupdated, h⟩ := bind_eq_ok.1 h
  obtain ⟨given, hgiven, h⟩ := bind_eq_ok.1 h
  obtain ⟨approved, happroved, h⟩ := bind_eq_ok.1 h
  obtain ⟨validUntil, huntil, h⟩ := bind_eq_ok.1 h
  obtain ⟨readable, hr, hf⟩ := bind_eq_ok.1 h
  exact ⟨kind, created, updated, given, approved, validUntil, readable, hkind, hcreated, hupdated,
    hgiven, lift_eq_ok.1 happroved, huntil, hr, hf⟩

/-- A document that takes the place of a stored one starts with the members of the payload. -/
def replaced (p : Policy) (stored payload : Document) (id : Value) : Document :=
  p.family.references.foldl (fun d (field, _) =>
    match stored.get? field with
    | some v => d.put field v
    | none => d)
    (((Document.putAll [("_id", id), ("_kind", stored.field "_kind")]
      payload.withoutServerFields).put "_kind" (stored.field "_kind")).put
      "_createdDateTime" (stored.field "_createdDateTime"))

/-- A document that takes the place of a stored one gets its times, keeps who may read it if it says
    so, is stamped and finished. -/
theorem replace_eq (p : Policy) (stored payload : Document) (now : Instant) :
    replace p stored payload now = (do
      checkUnchanged p stored payload
      let id ← orFault .noId (stored.get? "_id")
      let timed ← ["_validFromDateTime", "_validUntilDateTime"].foldlM (fun d field =>
        writeTime p payload.withoutServerFields field d (d.put field (stored.field field)))
        (replaced p stored payload id)
      let readable ← ifAccess p (keepAccess p stored) timed
      let written ← putWriting p stored payload.withoutServerFields now readable
      finish p written) := by
  dsimp only [replace]
  simp only [ifAccess_bind]
  rfl

theorem replace_eq_ok (h : replace p stored payload now = .ok doc) :
    ∃ id timed readable written, checkUnchanged p stored payload = .ok () ∧
      stored.get? "_id" = some id ∧
      ["_validFromDateTime", "_validUntilDateTime"].foldlM (fun d field =>
        writeTime p payload.withoutServerFields field d (d.put field (stored.field field)))
        (replaced p stored payload id) = .ok timed ∧
      ifAccess p (keepAccess p stored) timed = .ok readable ∧
      putWriting p stored payload.withoutServerFields now readable = .ok written ∧
      finish p written = .ok doc := by
  rw [replace_eq] at h
  obtain ⟨⟨⟩, unchanged, h⟩ := bind_eq_ok.1 h
  obtain ⟨id, hid, h⟩ := bind_eq_ok.1 h
  obtain ⟨timed, ht, h⟩ := bind_eq_ok.1 h
  obtain ⟨readable, hr, h⟩ := bind_eq_ok.1 h
  obtain ⟨written, hw, hf⟩ := bind_eq_ok.1 h
  exact ⟨id, timed, readable, written, unchanged, orFault_eq_ok.1 (lift_eq_ok.1 hid), ht, hr, hw,
    hf⟩

/-- A stored document is written over, gets its times, is checked if it says anew who may read it,
    is stamped and finished. -/
theorem update_eq (p : Policy) (stored payload : Document) (now : Instant) :
    update p stored payload now = (do
      checkUnchanged p stored payload
      let timed ← ["_validFromDateTime", "_validUntilDateTime"].foldlM (fun d field =>
        writeTime p payload.withoutServerFields field d d)
        (stored.putAll payload.withoutServerFields)
      let timed := timed.put "_createdDateTime" (stored.field "_createdDateTime")
      if p.family.hasAccessFields && payload.withoutServerFields.has "_visibility" then
        let _ ← checkVisibility p (timed.field "_visibility")
      let written ← putWriting p stored payload.withoutServerFields now timed
      finish p written) := rfl

theorem update_eq_ok (h : update p stored payload now = .ok doc) :
    ∃ timed written, checkUnchanged p stored payload = .ok () ∧
      ["_validFromDateTime", "_validUntilDateTime"].foldlM (fun d field =>
        writeTime p payload.withoutServerFields field d d)
        (stored.putAll payload.withoutServerFields) = .ok timed ∧
      (p.family.hasAccessFields = true → payload.withoutServerFields.has "_visibility" = true →
        ∃ v, checkVisibility p ((timed.put "_createdDateTime"
          (stored.field "_createdDateTime")).field "_visibility") = .ok v) ∧
      putWriting p stored payload.withoutServerFields now
        (timed.put "_createdDateTime" (stored.field "_createdDateTime")) = .ok written ∧
      finish p written = .ok doc := by
  rw [update_eq] at h
  dsimp only at h
  obtain ⟨⟨⟩, unchanged, h⟩ := bind_eq_ok.1 h
  obtain ⟨timed, ht, h⟩ := bind_eq_ok.1 h
  split at h
  · obtain ⟨v, hv, h⟩ := bind_eq_ok.1 h
    obtain ⟨written, hw, hf⟩ := bind_eq_ok.1 h
    exact ⟨timed, written, unchanged, ht, fun _ _ => ⟨v, hv⟩, hw, hf⟩
  · next unsaid =>
    obtain ⟨written, hw, hf⟩ := bind_eq_ok.1 h
    refine ⟨timed, written, unchanged, ht, fun ha hv => absurd ?_ unsaid, hw, hf⟩
    rw [ha, hv]
    rfl

end Catalog.Record
