import Catalog.Proofs.Record.Writable
import Catalog.Proofs.Service.Managed

/-!
# Well-kept stores

What the catalogue keeps of all its records together, whatever well-formed requests bring with them
and however they are answered (`wellKept_perform`): ids are texts under which the records are kept,
managed fields can be relied on, no key of a record is there twice, each record can be written, and
reference fields name stored records.
-/

namespace Catalog

/-- Each stored document can be written. -/
def Store.Written (s : Store) : Prop :=
  ∀ r ∈ s.rows, Value.membersCanBeWritten r.document = true

namespace Store.Written

variable {s s' : Store} {collection : String} {doc : Document}

theorem of_checkWritten {u : Unit} (h : doc.checkWritten = .ok u) :
    Value.membersCanBeWritten doc = true := by
  rw [Document.checkWritten] at h
  split at h
  · next written => exact written
  · cases h

theorem insert (h : s.Written) (hi : s.insert collection doc = .ok s') : s'.Written := by
  obtain ⟨id, -, hi⟩ := bind_eq_ok.1 hi
  obtain ⟨u, written, hi⟩ := bind_eq_ok.1 hi
  split at hi
  · cases hi
  · cases hi
    rw [Written, List.forall_mem_append, List.forall_mem_singleton]
    exact ⟨h, of_checkWritten written⟩

theorem replace (h : s.Written) (hr : s.replace collection doc = .ok s') : s'.Written := by
  obtain ⟨id, -, hr⟩ := bind_eq_ok.1 hr
  obtain ⟨u, written, hr⟩ := bind_eq_ok.1 hr
  cases hr
  rw [Written, List.forall_mem_map]
  intro r hr
  split
  · exact of_checkWritten written
  · exact h r hr

theorem remove (h : s.Written) (collection : String) (ids : List String) :
    (s.remove collection ids).Written :=
  fun r hr => h r (List.mem_filter.1 hr).1

theorem of_mem_scan (h : s.Written) (hd : doc ∈ s.scan collection) :
    Value.membersCanBeWritten doc = true := by
  obtain ⟨r, hr, -, rfl⟩ := mem_scan.1 hd
  exact h r hr

end Store.Written

namespace Service

variable {ctx : Context} {s s' : Store} {request : WriteRequest}

/-- What the catalogue keeps of all its records. -/
structure WellKept (config : Configuration) (s : Store) : Prop extends s.Sound where
  /-- The managed fields can be relied on. -/
  managed : ∀ f, ∀ d ∈ s.scan (config.policy f).collection, Record.Managed (config.policy f) d
  /-- No key of a record is there twice. -/
  distinct : ∀ f, ∀ d ∈ s.scan (config.policy f).collection, d.Distinct
  /-- The documents can be written. -/
  written : s.Written
  /-- Each reference field names a stored record. -/
  references : ReferencesStored config s

theorem WellKept.empty (config : Configuration) : WellKept config {} where
  toSound := .empty
  managed _ _ hd := absurd hd List.not_mem_nil
  distinct _ _ hd := absurd hd List.not_mem_nil
  written := List.forall_mem_nil _
  references _ _ hd := absurd hd List.not_mem_nil

/-- A step of a request leaves no key of a record twice. -/
theorem distinct_change (hc : ctx.config.Separate) (hk : s.Keyed) (h : Change ctx request s s')
    {f : Family} (hd : ∀ d ∈ s.scan (ctx.collection f), d.Distinct) :
    ∀ d ∈ s'.scan (ctx.collection f), d.Distinct := by
  cases h.records hc hk f with
  | added _ new is =>
    obtain ⟨body, now, -, -, made⟩ := (newRecord_eq_ok new).1.made
    rw [is, List.forall_mem_append, List.forall_mem_singleton]
    exact ⟨hd, Record.distinct_create made⟩
  | revised _ _ revised _ was is =>
    rw [was, List.forall_mem_append, List.forall_mem_cons] at hd
    rw [is, List.forall_mem_append, List.forall_mem_cons]
    obtain ⟨before, old, after⟩ := hd
    refine ⟨before, ?_, after⟩
    cases revised with
    | replaced h => exact Record.distinct_replace h
    | updated h => exact Record.distinct_update old h
  | fewer sub => exact fun d hm => hd d (sub.subset hm)

theorem written_change (hw : s.Written) (h : Change ctx request s s') : s'.Written := by
  cases h with
  | insert _ _ hi => exact hw.insert hi
  | revise _ _ _ _ _ hr => exact hw.replace hr
  | remove _ hr => exact withoutRecords_keeps (fun _ c ids hw => hw.remove c ids) hw hr

theorem WriteRequest.WellFormed.revisesPlainly (h : request.WellFormed) :
    request.RevisesPlainly :=
  fun _ hr => h.revision hr

/-- A step of a well-formed request leaves a well-kept store well kept. -/
theorem wellKept_change (hc : ctx.config.Separate) (hr : request.WellFormed)
    (hs : WellKept ctx.config s) (h : Change ctx request s s') : WellKept ctx.config s' where
  toSound := h.sound hs.toSound
  managed f := managed_change hc hs.toKeyed hr.revisesPlainly h (hs.managed f)
  distinct f := distinct_change hc hs.toKeyed h (hs.distinct f)
  written := written_change hs.written h
  references := references_change hc hr hs.toSound hs.references h

/-- A well-formed request leaves a well-kept store well kept, whatever its answer. -/
theorem wellKept_perform (hc : ctx.config.Separate) (hr : request.WellFormed) :
    Write.Keeps (WellKept ctx.config) (perform ctx request) :=
  keeps_perform (fun _ _ hs h => wellKept_change hc hr hs h) fun _ hs => hs.toKeyed

end Service

end Catalog
