import Catalog.Proofs.Outcome
import Catalog.Query.FilterReader

/-!
# What readers of filters refuse

What stands in a filter, or is one or a set expression, is refused as a mistake in it and for no
other reason (`Refusal.IsFilter`). Coercion, patterns and JSON text may end in a fault besides; set
expressions, page bounds, orders and fields are always read or refused (`ReadOrRefused`).
-/

namespace Catalog

/-- A refusal that is about a filter or a set expression. -/
def Refusal.IsFilter (r : Refusal) : Prop := ∃ e, r = .filter e

variable {α : Type}

theorem refusesOnly_refuseFilter (e : FilterError) :
    RefusesOnly Refusal.IsFilter (refuseFilter e : Outcome α) := .refuse ⟨e, rfl⟩

/-- An outcome is a value or a refusal that is about a filter, and no fault. -/
inductive ReadOrRefused : Outcome α → Prop where
  /-- A value. -/
  | ok (a : α) : ReadOrRefused (.ok a)
  /-- A refusal. -/
  | refuse (e : FilterError) : ReadOrRefused (refuseFilter e)

namespace ReadOrRefused

variable {β : Type} {x : Outcome α}

theorem bind {k : α → Outcome β} (hx : ReadOrRefused x) (hk : ∀ a, ReadOrRefused (k a)) :
    ReadOrRefused (x >>= k) := by
  cases hx with
  | ok a => exact hk a
  | refuse e => exact .refuse e

theorem refusesOnly (hx : ReadOrRefused x) : RefusesOnly Refusal.IsFilter x := by
  cases hx with
  | ok a => exact .ok a
  | refuse e => exact refusesOnly_refuseFilter e

end ReadOrRefused

/-! ## Sets -/

namespace SetExpr

mutual

theorem readOrRefused_read : ∀ v : Value, ReadOrRefused (read v)
  | .null => .ok _
  | .text _ => .ok _
  | .object members => (readOrRefused_readMembers members).bind fun _ => .ok _
  | .bool _ | .number _ | .instant _ | .array _ => .refuse _

theorem readOrRefused_readMembers : ∀ members : List (String × Value),
    ReadOrRefused (readMembers members)
  | [] => .ok _
  | (key, v) :: rest => by
    have connected := readOrRefused_readConnected v
    have others (e : Option SetExpr) : ReadOrRefused
        (readMembers rest >>= fun es => pure (e.toList ++ es)) :=
      (readOrRefused_readMembers rest).bind fun _ => .ok _
    rw [readMembers]
    dsimp only
    split
    · refine connected.bind fun es => ?_
      split
      · exact (ReadOrRefused.refuse _).bind others
      · exact others _
    · split
      · refine connected.bind fun es => ?_
        split
        · exact (ReadOrRefused.refuse _).bind others
        · exact others _
      · split
        · exact others none
        · exact others _

theorem readOrRefused_readConnected : ∀ v : Value, ReadOrRefused (readConnected v)
  | .array items => readOrRefused_readItems items
  | .object members => (readOrRefused_readMembers members).bind fun _ => .ok _
  | .text _ => .ok _
  | .null | .bool _ | .number _ | .instant _ => .ok _

theorem readOrRefused_readItems : ∀ items : List Value, ReadOrRefused (readItems items)
  | [] => .ok _
  | v :: rest => (readOrRefused_read v).bind fun _ =>
    (readOrRefused_readItems rest).bind fun _ => .ok _

end

theorem refuses_read (v : Value) : RefusesOnly Refusal.IsFilter (read v) :=
  (readOrRefused_read v).refusesOnly

end SetExpr

/-! ## Conditions -/

theorem readOrRefused_asNumber (v : Value) : ReadOrRefused (asNumber v) := by
  unfold asNumber
  split
  · exact .refuse _
  · exact .ok _
  · dsimp only
    split
    · exact .ok _
    · exact .refuse _

theorem refuses_asInstant (v : Value) : RefusesOnly Refusal.IsFilter (asInstant v) := by
  unfold asInstant
  split
  · exact .ok _
  · refine (RefusesOnly.lift _).bind fun t => ?_
    split
    · exact .ok _
    · exact refusesOnly_refuseFilter _

theorem readOrRefused_asBoolean (v : Value) : ReadOrRefused (asBoolean v) := by
  unfold asBoolean
  split
  · exact .ok _
  · dsimp only
    split
    · exact .ok _
    · split
      · exact .ok _
      · exact .refuse _

/-- A value with a hint is meant as a date: the hint says so, and it is neither null nor the text of
    it. -/
def IsDate (hint : String) (v : Value) : Prop :=
  Text.lower hint = "date" ∧ v ≠ .null ∧ v ≠ .text "null"

/-- Only what is meant as a date may be neither read nor refused. -/
theorem coerceHinted_cases (hint : String) (v : Value) :
    (IsDate hint v ∧ coerceHinted hint v = asInstant v) ∨
      (¬IsDate hint v ∧ ReadOrRefused (coerceHinted hint v)) := by
  unfold coerceHinted
  extract_lets isNull kind
  have hnull : isNull = true ↔ ¬(v ≠ .null ∧ v ≠ .text "null") := by
    cases v <;> simp [isNull]
  have other {x : Outcome Value} (hkind : kind ≠ "date") (hx : ReadOrRefused x) :
      (IsDate hint v ∧ x = asInstant v) ∨ (¬IsDate hint v ∧ ReadOrRefused x) :=
    .inr ⟨fun h => hkind h.1, hx⟩
  by_cases hn : isNull = true
  · rw [if_pos hn]
    exact .inr ⟨fun h => hnull.1 hn h.2, .ok _⟩
  rw [if_neg hn]
  by_cases hstring : kind = "string"
  · rw [if_pos hstring]
    exact other (by rw [hstring]; decide) (.ok _)
  rw [if_neg hstring]
  by_cases hnumber : kind = "number"
  · rw [if_pos hnumber]
    exact other (by rw [hnumber]; decide) (readOrRefused_asNumber v)
  rw [if_neg hnumber]
  by_cases hdate : kind = "date"
  · rw [if_pos hdate]
    exact .inl ⟨⟨hdate, Classical.not_not.1 (mt hnull.2 hn)⟩, rfl⟩
  rw [if_neg hdate]
  by_cases hboolean : kind = "boolean"
  · rw [if_pos hboolean]
    exact other hdate (readOrRefused_asBoolean v)
  · rw [if_neg hboolean]
    exact other hdate (.refuse _)

theorem refuses_coerceHinted (hint : String) (v : Value) :
    RefusesOnly Refusal.IsFilter (coerceHinted hint v) := by
  rcases coerceHinted_cases hint v with ⟨-, h⟩ | ⟨-, h⟩
  · rw [h]
    exact refuses_asInstant v
  · exact h.refusesOnly

theorem refuses_coerce (hint v : Value) : RefusesOnly Refusal.IsFilter (coerce hint v) := by
  unfold coerce
  split
  · exact .lift _
  · exact (refuses_coerceHinted _ v).bind fun _ => .ok _
  · exact .giveUp _

theorem refuses_readPattern (path : String) (operator : Operator) (v : Value) :
    RefusesOnly Refusal.IsFilter (Leaf.readPattern path operator v) := by
  unfold Leaf.readPattern
  split
  · split
    · split
      · exact .ok _
      · exact refusesOnly_refuseFilter _
      · exact .giveUp _
    · exact .ok _
  · exact refusesOnly_refuseFilter _

/-! ## Filters -/

theorem readOrRefused_readBound (bound : PageBound) (v : Value) :
    ReadOrRefused (readBound bound v) := by
  unfold readBound
  split
  · exact .refuse _
  · split
    · exact .ok _
    · exact .refuse _
    · exact .refuse _

theorem readOrRefused_readOrderKey (v : Value) : ReadOrRefused (readOrderKey v) := by
  unfold readOrderKey
  split
  · exact .ok _
  · exact .ok _
  · split
    · exact .ok _
    · split
      · exact .ok _
      · exact .refuse _
  · exact .refuse _

theorem readOrRefused_readFields (v : Value) : ReadOrRefused (readFields v) := by
  unfold readFields
  split
  · exact .ok _
  · exact .ok _
  · exact .ok _
  · exact .ok _
  · exact .refuse _

theorem refuses_unwrapped (v : Value) : RefusesOnly Refusal.IsFilter (unwrapped v) := by
  unfold unwrapped
  split
  · split
    · exact .ok _
    · split
      · exact .ok _
      · exact .giveUp _
      · exact refusesOnly_refuseFilter _
  · exact .ok _

theorem refuses_loadFilter (v : Value) : RefusesOnly Refusal.IsFilter (loadFilter v) := by
  refine (refuses_unwrapped v).bind fun v => ?_
  split
  · exact .ok _
  · exact .ok _
  · exact refusesOnly_refuseFilter _

end Catalog
