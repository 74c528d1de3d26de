import Catalog.Proofs.Keyed
import Catalog.Proofs.Outcome
import Catalog.Query.Matching

/-!
# Equality of values

What it is for two values to be equal as they are written in JSON (`Value.JsonEq`): numbers by what
they are worth, arrays item by item, and objects by what their keys lead to, in whatever order. True
is not the number one, and what is not a number is equal to nothing.

A condition compares more loosely: an array is equal to what one of its items is equal to, and
within arrays and objects true counts as one. But values that are equal are also equal to a
condition, each to the other (`JsonEq.equalTo`), so that it finds all of them.
-/

namespace Catalog

/-- Numbers are the same if they lie at one position. -/
theorem Number.same_iff {a b : Number} :
    a.same b = true ↔ ∃ p, a.position? = some p ∧ b.position? = some p := by
  have eq {p q : Position} : p.compare q = .eq ↔ p = q := by
    cases p with
    | «at» m =>
      cases q with
      | «at» n => rw [Position.compare, Std.compare_eq_iff_eq, Position.at.injEq]
      | _ => simp [Position.compare]
    | _ => cases q <;> simp [Position.compare]
  rw [same, compare?, beq_iff_eq]
  cases a.position? with
  | none => simp
  | some p =>
    cases b.position? with
    | none => simp
    | some q =>
      rw [Option.some.injEq, eq]
      simp [eq_comm]

namespace Value

/-- Two values are equal as values of JSON. -/
inductive JsonEq : Value → Value → Prop where
  /-- Null. -/
  | null : JsonEq .null .null
  /-- The same truth value. -/
  | bool (b : Bool) : JsonEq (.bool b) (.bool b)
  /-- Numbers that are worth the same. -/
  | number {a b : Number} : a.same b = true → JsonEq (.number a) (.number b)
  /-- The same text. -/
  | text (s : String) : JsonEq (.text s) (.text s)
  /-- As many items, and equal ones at each place. -/
  | array {a b : List Value} : a.length = b.length →
      (∀ (i : Nat) (v w : Value), a[i]? = some v → b[i]? = some w → JsonEq v w) →
      JsonEq (.array a) (.array b)
  /-- The same keys, and equal values under each key. -/
  | object {a b : Document} : a.Distinct → b.Distinct →
      (∀ key, a.get? key = none ↔ b.get? key = none) →
      (∀ (key : String) (v w : Value), a.get? key = some v → b.get? key = some w → JsonEq v w) →
      JsonEq (.object a) (.object b)

theorem JsonEq.symm {v w : Value} (h : v.JsonEq w) : w.JsonEq v := by
  induction h with
  | null => exact .null
  | bool b => exact .bool b
  | number h =>
    obtain ⟨p, ha, hb⟩ := Number.same_iff.1 h
    exact .number (Number.same_iff.2 ⟨p, hb, ha⟩)
  | text s => exact .text s
  | array hlen _ ih => exact .array hlen.symm fun i v w hv hw => ih i w v hw hv
  | object ha hb hkeys _ ih =>
    exact .object hb ha (fun key => (hkeys key).symm) fun key v w hv hw => ih key w v hw hv

/-- Lists of values that are the same at each place are the same. -/
theorem sameItems_of_forall {a b : List Value} (hlen : a.length = b.length)
    (h : ∀ (i : Nat) (v w : Value), a[i]? = some v → b[i]? = some w → v.same w = true) :
    sameItems a b = true := by
  induction a generalizing b with
  | nil =>
    rw [List.length_nil, eq_comm, List.length_eq_zero_iff] at hlen
    rw [hlen, sameItems]
  | cons v a ih =>
    cases b with
    | nil => cases hlen
    | cons w b =>
      rw [sameItems, h 0 v w rfl rfl, Bool.or_true, Bool.true_and]
      exact ih (Nat.succ.inj hlen) fun i => h (i + 1)

/-- An object is within another one if each of its members is the same there. -/
theorem sameMembers_of_forall {a b : Document}
    (h : ∀ m ∈ a, ∃ w, b.get? m.1 = some w ∧ m.2.same w = true) : sameMembers a b = true := by
  induction a with
  | nil => rw [sameMembers]
  | cons m a ih =>
    obtain ⟨key, v⟩ := m
    rw [List.forall_mem_cons] at h
    obtain ⟨⟨w, hw, hsame⟩, h⟩ := h
    rw [sameMembers, hw]
    dsimp only
    rw [hsame, Bool.or_true, Bool.true_and]
    exact ih h

theorem mem_keys_of_get? {a b : Document} (h : ∀ key, a.get? key = none ↔ b.get? key = none)
    (key : String) : key ∈ a.keys ↔ key ∈ b.keys := by
  rw [← Decidable.not_iff_not, ← Document.get?_eq_none_iff, ← Document.get?_eq_none_iff, h]

/-- Objects with the same keys have as many members. -/
theorem length_eq_of_keys {a b : Document} (ha : a.Distinct) (hb : b.Distinct)
    (h : ∀ key, a.get? key = none ↔ b.get? key = none) : a.length = b.length := by
  have keys : a.keys.Perm b.keys := (List.perm_ext_iff_of_nodup ha hb).2 (mem_keys_of_get? h)
  have lengths := keys.length_eq
  rwa [Document.keys, Document.keys, List.length_map, List.length_map] at lengths

/-- Equal values are the same. -/
theorem JsonEq.same {v w : Value} (h : v.JsonEq w) : v.same w = true := by
  induction h with
  | null => rw [Value.same]
  | bool b =>
    have worth (n : Int) : Number.same (.int n) (.int n) = true :=
      Number.same_iff.2 ⟨_, rfl, rfl⟩
    rw [Value.same, numeric?, Option.map_some, Option.getD_some, worth]
  | number h => rw [Value.same, numeric?, Option.map_some, Option.getD_some, h]
  | text s => rw [Value.same, beq_self_eq_true]
  | array hlen _ ih =>
    rw [Value.same]
    exact sameItems_of_forall hlen ih
  | @object a b ha hb hkeys _ ih =>
    rw [Value.same, length_eq_of_keys ha hb hkeys, beq_self_eq_true, Bool.true_and]
    refine sameMembers_of_forall fun m hm => ?_
    have hv := ha.get?_of_mem hm
    cases hw : b.get? m.1 with
    | none =>
      rw [(hkeys m.1).2 hw] at hv
      cases hv
    | some w => exact ⟨w, rfl, ih m.1 m.2 w hv hw⟩

/-- Equal values are equal to a condition. -/
theorem JsonEq.equalTo {v w : Value} (h : v.JsonEq w) : Catalog.equalTo v w none = .ok true := by
  have same := h.same
  cases h with
  | null => rfl
  | bool b => cases b <;> rfl
  | number h => exact congrArg Except.ok h
  | text s => exact congrArg (fun b => Except.ok (b || false)) same
  | array => exact congrArg Except.ok same
  | object => exact congrArg (fun b => Except.ok (b || false)) same

end Value

/-- Two documents have equal values at the fields that are paths. A missing value counts as null. -/
def Document.JsonEqOn (fields : List Value) (doc doc' : Document) : Prop :=
  ∀ path, .text path ∈ fields →
    (Value.orNull (doc.path? path)).JsonEq (Value.orNull (doc'.path? path))

theorem Document.JsonEqOn.symm {fields : List Value} {doc doc' : Document}
    (h : doc.JsonEqOn fields doc') : doc'.JsonEqOn fields doc :=
  fun path hp => (h path hp).symm

end Catalog
