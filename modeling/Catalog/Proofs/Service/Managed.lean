import Catalog.Proofs.Record.Managed
import Catalog.Proofs.Service.Integrity

/-!
# Managed stores

Whatever payloads requests bring with them, also ones that name the fields which only the catalogue
writes, every stored record has managed fields that can be relied on (`Record.Managed`), and is
kept under its own id, which no other record of the family has. A step of a request that makes a
record or revises one keeps this, since the document that it writes is managed
(`managed_change`), and a step that removes records leaves managed ones; so it holds after every run
of requests from the empty store (`managed_run`).

The payload of a change is an object in which no key is there twice, as in the text of an object.
Of a new record not even that is needed.
-/

namespace Catalog.Service

open Record

variable {ctx : Context} {s s' : Store} {f : Family}

/-- The stored records of each family have managed fields, and different ids under which they are
    kept. -/
structure ManagedStore (config : Configuration) (s : Store) : Prop where
  /-- A record is kept under its own id, which is a text. -/
  named : ∀ r ∈ s.rows, r.document.get? "_id" = some (.text r.id)
  /-- No two records of a family have the same id. -/
  unique : ∀ f, ((s.scan (config.policy f).collection).map fun d => d.get? "_id").Nodup
  /-- The managed fields can be relied on. -/
  managed : ∀ f, ∀ d ∈ s.scan (config.policy f).collection, Managed (config.policy f) d

/-- A payload that a request writes to stored records is an object as it is written. -/
def WriteRequest.RevisesPlainly (request : WriteRequest) : Prop :=
  ∀ payload, request.revision? = some payload → HasDistinctKeys payload

/-- A new version is labelled anew, and not by the payload. -/
theorem Revised.relabelled {p : Policy} {body old new : Document} {now : Instant}
    (h : Revised p body now old new) (hd : body.Distinct) : Relabelled p old new := by
  cases h with
  | replaced h => exact relabelled_replace h
  | updated h => exact relabelled_update hd h

/-- The new version of a managed record is managed. -/
theorem Revised.managed {p : Policy} {body old new : Document} {now : Instant}
    (h : Revised p body now old new) (hd : body.Distinct) (hm : Managed p old) :
    Managed p new :=
  (h.relabelled hd).managed h.get?_id hm

/-- A step of a request leaves managed records. -/
theorem managed_change {request : WriteRequest} (hc : ctx.config.Separate) (hk : s.Keyed)
    (hr : request.RevisesPlainly) (h : Change ctx request s s')
    (hm : ∀ d ∈ s.scan (ctx.collection f), Managed (ctx.config.policy f) d) :
    ∀ d ∈ s'.scan (ctx.collection f), Managed (ctx.config.policy f) d := by
  cases h.records hc hk f with
  | added _ new is =>
    obtain ⟨body, now, -, -, made⟩ := (newRecord_eq_ok new).1.made
    rw [is, List.forall_mem_append, List.forall_mem_singleton]
    exact ⟨hm, managed_create made⟩
  | revised hrevision hbody revised _ was is =>
    rw [was, List.forall_mem_append, List.forall_mem_cons] at hm
    rw [is, List.forall_mem_append, List.forall_mem_cons]
    obtain ⟨before, old, after⟩ := hm
    exact ⟨before, revised.managed (hr _ hrevision _ (members_eq_ok hbody)) old, after⟩
  | fewer sub => exact fun d hd => hm d (sub.subset hd)

/-- Documents of a sound store are kept under their own ids, which are texts. -/
theorem get?_id_of_mem_rows (hs : s.Sound) {r : Row} (hr : r ∈ s.rows) :
    r.document.get? "_id" = some (.text r.id) := by
  obtain ⟨id, hid⟩ := hs.texts r hr
  rw [hid, Except.ok.inj ((hs.named r hr).symm.trans (Document.id?_of_text hid))]

/-- After every run of requests from the empty store each record has managed fields that can be
    relied on, and is kept under its own id, which no other record of its family has. -/
theorem managed_run {config : Configuration} (hc : config.Separate)
    (h : Run config WriteRequest.RevisesPlainly {} s) : ManagedStore config s := by
  have kept := h.keeps
    (P := fun s => s.Sound ∧ ∀ f, ∀ d ∈ s.scan (config.policy f).collection,
      Managed (config.policy f) d)
    Store.Sound.empty.toKeyed ⟨.empty, fun f d hd => absurd hd List.not_mem_nil⟩
    fun ctx request s s' hconfig hr hk hs hchange => by
      subst hconfig
      exact ⟨hchange.sound hs.1, fun f => managed_change hc hk hr hchange (hs.2 f)⟩
  obtain ⟨-, sound, managed⟩ := kept
  refine ⟨fun r hr => get?_id_of_mem_rows sound hr, fun f => ?_, managed⟩
  -- Documents with the same id would be the same under `id?`, too.
  rw [List.nodup_iff_pairwise_ne, List.pairwise_map]
  refine sound.toKeyed.pairwise_id?.imp fun hne hid => hne ?_
  rw [Document.id?, Document.id?, hid]

/-- An entity that is made, replaced and updated by payloads that name fields which only the
    catalogue writes, or leave out ones that it has to have. -/
def meddlingRequests : List WriteRequest := [
  .create .entities (.object [("_name", .text "E"), ("_version", .int 9), ("_id", .text "x"),
    ("_ownerUsers", .array [.text "u", .text "v"]), ("_ownerUsersCount", .int 7)]) "e",
  .replace .entities "e" (.object [("_name", .text "F"), ("_createdDateTime", .text "never"),
    ("_parents", .null), ("_version", .text "one")]),
  .update .entities "e" (.object [("_viewerUsers", .null), ("_viewerUsersCount", .int 5),
    ("_id", .text "y")])]

/-- The entity is at its third version, has two owners and no viewer, and keeps its id. -/
theorem managed_run_meddlingRequests :
    let ctx : Context := { config := .standard, now := ⟨.first, 0⟩ }
    let s := performAll ctx meddlingRequests {}
    ctx.config.Separate ∧ Run ctx.config WriteRequest.RevisesPlainly {} s ∧
      (s.scan "GenericEntity").map (fun d => (d.field "_id").display) = ["e"] ∧
      (s.scan "GenericEntity").map (fun d => (d.field "_version").display) = ["3"] ∧
      (s.scan "GenericEntity").map (fun d => (d.field "_ownerUsersCount").display) = ["2"] ∧
      (s.scan "GenericEntity").map (fun d => (d.field "_viewerUsersCount").display) = ["0"] ∧
      ManagedStore ctx.config s := by
  intro ctx s
  have plain : ∀ request ∈ meddlingRequests, request.RevisesPlainly := by
    have distinct (body : Document) (h : body.Distinct) : HasDistinctKeys (.object body) :=
      fun _ hb => by cases hb; exact h
    simp only [meddlingRequests, List.forall_mem_cons]
    refine ⟨fun _ h => (nomatch h), fun _ h => ?_, fun _ h => ?_, List.forall_mem_nil _⟩
    · cases h
      exact distinct _ (by decide)
    · cases h
      exact distinct _ (by decide)
  have run : Run ctx.config WriteRequest.RevisesPlainly {} s := Run.performAll plain .start
  exact ⟨Configuration.separate_standard, run, by decide +kernel, by decide +kernel,
    by decide +kernel, by decide +kernel, managed_run Configuration.separate_standard run⟩

end Catalog.Service
