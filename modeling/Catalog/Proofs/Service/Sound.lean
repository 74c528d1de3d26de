import Catalog.Proofs.Service.Running
import Catalog.Proofs.Stored

/-!
# Sound stores

A store is *sound* if each document is kept under its own id, which is a text, and no two of a
collection under one id (`Store.Sound`). Storing, replacing and removing documents keep this, if
documents have texts as ids. What is shown of keyed stores with text ids is thus shown of all stores
that requests make of the empty one.

That a request keeps a property of stores, whatever its answer, is `Write.Keeps`.
-/

namespace Catalog

/-- Each document is kept under its own id, a text, and no two of a collection under one id. -/
structure Store.Sound (s : Store) : Prop extends s.Keyed where
  /-- The id of a document is a text. -/
  texts : ∀ r ∈ s.rows, ∃ id, r.document.get? "_id" = some (.text id)

namespace Store.Sound

variable {s s' : Store} {collection : String} {doc : Document}

theorem empty : Sound {} where
  named := List.forall_mem_nil _
  unique := .nil
  texts := List.forall_mem_nil _

/-- The ids in every collection are texts. -/
theorem textIds (h : s.Sound) (collection : String) : s.TextIds collection := by
  intro d hd
  obtain ⟨r, hr, -, rfl⟩ := mem_scan.1 hd
  exact h.texts r hr

/-- What is fetched under an id has this text as its id. -/
theorem get?_id_of_fetch? (h : s.Sound) {id : String} (hf : s.fetch? collection id = some doc) :
    doc.get? "_id" = some (.text id) := by
  obtain ⟨r, hr, -, rfl, rfl⟩ := fetch?_eq_some hf
  obtain ⟨id, hid⟩ := h.texts r hr
  rw [hid, Except.ok.inj ((h.named r hr).symm.trans (Document.id?_of_text hid))]

/-- Storing a document with a text id: the id was free before. -/
theorem insert (h : s.Sound) {id : String} (hid : doc.get? "_id" = some (.text id))
    (hi : s.insert collection doc = .ok s') : s'.Sound := by
  refine ⟨h.toKeyed.insert (Document.id?_of_text hid) hi, ?_⟩
  rw [(insert_eq_ok (Document.id?_of_text hid) hi).2, List.forall_mem_append,
    List.forall_mem_singleton]
  exact ⟨h.texts, id, hid⟩

/-- A new version with the same id takes the row of a stored document. -/
theorem replace (h : s.Sound) {old new : Document} (hold : old ∈ s.scan collection)
    (hid : new.get? "_id" = old.get? "_id") (hr : s.replace collection new = .ok s') :
    s'.Sound := by
  have same : new.id? = old.id? := by
    rw [Document.id?, Document.id?, hid]
  refine ⟨h.toKeyed.replace hold same hr, ?_⟩
  obtain ⟨before, after, id, -, rows, rows'⟩ := h.toKeyed.replace_rows hold same hr
  have texts := h.texts
  rw [rows, List.forall_mem_append, List.forall_mem_cons] at texts
  rw [rows', List.forall_mem_append, List.forall_mem_cons, hid]
  exact texts

/-- Removing documents leaves some of the rows. -/
theorem remove (h : s.Sound) (collection : String) (ids : List String) :
    (s.remove collection ids).Sound where
  toKeyed := h.toKeyed.remove collection ids
  texts r hr := h.texts r (List.mem_filter.1 hr).1

end Store.Sound

/-! ## Requests that keep a property of stores -/

namespace Service.Write

variable {α β : Type}

/-- A property of stores holds after a request if it held before, whatever the answer. -/
def Keeps (P : Store → Prop) (w : Write α) : Prop := ∀ s, P s → P (w.run s).2

variable {P : Store → Prop}

/-- What follows a reading starts from the store that was read. -/
theorem Keeps.read_bind {f : Store → Outcome α} {k : α → Write β}
    (hk : ∀ s a, P s → f s = .ok a → P ((k a).run s).2) : Keeps P (read f >>= k) := by
  intro s h
  rw [run_bind, run_read]
  cases hf : f s with
  | error e => exact h
  | ok a => exact hk s a h hf

theorem keeps_change {f : Store → Outcome Store} (hf : ∀ s s', P s → f s = .ok s' → P s') :
    Keeps P (change f) := by
  intro s h
  rw [run_change]
  cases hs : f s with
  | error e => exact h
  | ok s' => exact hf s s' h hs

theorem Keeps.discard {w : Write α} (hw : Keeps P w) : Keeps P (discard w) := by
  intro s h
  rw [run_discard]
  exact hw s h

end Service.Write

end Catalog
