import Catalog.Proofs.Query.Sameness
import Catalog.Proofs.Record.Writable

/-!
# Documents that the operations lead to

A document is *produced* for a family (`Record.Produced`) if it was made as a record of the family
and then replaced or updated any number of times. Each of these may have gone by another policy:
from what a policy says only the kinds that are allowed can be told on a document, and these are
only asked for when it is made. So what a produced document is does not depend on a policy, but on
the family alone. It is managed, for a policy that allows any kind (`Produced.managed`), and has no
key twice (`Produced.distinct`).

The payloads are objects as they are read: no object within them has a key twice.
-/

namespace Catalog.Record

/-- The documents that the operations on records of a family lead to. -/
inductive Produced (f : Family) : Document → Prop where
  /-- A new record. -/
  | create {p : Policy} {payload doc : Document} {requester : Requester} {now : Instant}
      {id : String} : p.family = f → (Value.object payload).WellKeyed →
      create p payload requester now id = .ok doc → Produced f doc
  /-- A record in the place of another one. -/
  | replace {p : Policy} {stored payload doc : Document} {now : Instant} : p.family = f →
      Produced f stored → (Value.object payload).WellKeyed →
      replace p stored payload now = .ok doc → Produced f doc
  /-- A record that was written over. -/
  | update {p : Policy} {stored payload doc : Document} {now : Instant} : p.family = f →
      Produced f stored → (Value.object payload).WellKeyed →
      update p stored payload now = .ok doc → Produced f doc

variable {p q : Policy} {payload stored doc : Document} {now : Instant}

/-- What takes the place of a record depends on the family alone. -/
theorem replace_of_family (h : p.family = q.family) (stored payload : Document) (now : Instant) :
    replace p stored payload now = replace q stored payload now := by
  cases p
  cases q
  subst h
  rfl

/-- What becomes of a record when it is updated depends on the family alone. -/
theorem update_of_family (h : p.family = q.family) (stored payload : Document) (now : Instant) :
    update p stored payload now = update q stored payload now := by
  cases p
  cases q
  subst h
  rfl

/-- What is managed for a policy is so for another one of the family, if this one allows any
    kind. -/
theorem Managed.of_family (h : Managed p doc) (hf : p.family = q.family) (hk : q.kinds = []) :
    Managed q doc where
  id := h.id
  kind := by
    obtain ⟨kind, hkind, slug, -⟩ := h.kind
    exact ⟨kind, hkind, slug, by rw [Policy.allowsKind, hk]; rfl⟩
  version := h.version
  created := h.created
  updated := h.updated
  validity := h.validity
  name hn := h.name (hf ▸ hn)
  lists := h.lists
  visibility ha := h.visibility (hf ▸ ha)
  counts ha := h.counts (hf ▸ ha)

/-- A produced document is managed, if any kind is allowed. -/
theorem Produced.managed (h : Produced p.family doc) (hk : p.kinds = []) : Managed p doc := by
  generalize hf : p.family = f at h
  induction h with
  | create hq _ made => exact (managed_create made).of_family (hq.trans hf.symm) hk
  | replace hq _ _ made ih =>
    exact managed_replace ih (replace_of_family (hf.trans hq.symm) _ _ _ ▸ made)
  | update hq _ keyed made ih =>
    exact managed_update keyed.distinct ih (update_of_family (hf.trans hq.symm) _ _ _ ▸ made)

/-- A produced document has no key twice. -/
theorem Produced.distinct {f : Family} (h : Produced f doc) : doc.Distinct := by
  induction h with
  | create _ _ made => exact distinct_create made
  | replace _ _ _ made => exact distinct_replace made
  | update _ _ _ made ih => exact distinct_update ih made

/-- A policy of the family that allows any kind. -/
def anyKind (p : Policy) : Policy := { p with kinds := [] }

/-- A produced document is managed for the policy that allows any kind. -/
theorem Produced.managed_anyKind (h : Produced p.family doc) : Managed (anyKind p) doc :=
  Produced.managed (p := anyKind p) h rfl

end Catalog.Record
