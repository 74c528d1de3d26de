import Catalog.Proofs.Record.Steps

/-!
# What a new record is refused for

A payload is refused for the kind of the record (`Refusal.IsKind`), or else for the shape of one of
its members (`Refusal.IsShape`): the kind is looked at first, and nothing after it refuses the kind
again (`Record.refuses_create_of_kindOf`).
-/

namespace Catalog

open Text

namespace Refusal

/-- The kind of a record is none that it may be of. -/
def IsKind : Refusal → Prop
  | .kindNotText _ | .kindNotSlug _ _ | .kindNotAllowed _ _ _ => True
  | _ => False

/-- A member of a record is not what such members are. -/
def IsShape : Refusal → Prop
  | .visibility _ _ | .nameMissing _ | .notTexts _ _ | .notTimestamp _ _ => True
  | _ => False

/-- The refusals that are about the kind of a record go by one name. -/
theorem name_eq_invalidKind_iff (r : Refusal) : r.name = "InvalidKindError" ↔ r.IsKind := by
  cases r with
  | kindNotText | kindNotSlug | kindNotAllowed => exact ⟨fun _ => trivial, fun _ => rfl⟩
  | referenceChanged target =>
    exact ⟨fun h => by cases target <;> exact absurd h (by decide), False.elim⟩
  | parentElsewhere f field target own =>
    have other : ∀ target : Family,
        (parentElsewhere .lists "" target .null).name ≠ "InvalidKindError" := by
      intro target
      cases target <;> decide
    exact ⟨fun h => absurd h (other target), False.elim⟩
  | _ => exact ⟨fun h => absurd h (by simp [name]), False.elim⟩

theorem IsShape.not_isKind {r : Refusal} (h : r.IsShape) : ¬r.IsKind := by
  cases r <;> first | exact h.elim | exact id

end Refusal

namespace Record

variable {p : Policy} {payload doc : Document}

/-- A text that is allowed as a kind is refused if there are blanks in it only, and else if it is
    not its own slug. -/
theorem checkKind_text {kind : String} (h : p.allowsKind kind = true) :
    checkKind p (.text kind) =
      if trim kind = "" then refuse (.kindNotText p.family)
      else if slugify kind = kind then .ok kind
      else refuse (.kindNotSlug p.family (slugify kind)) := by
  simp only [checkKind, String.isEmpty_iff, h, if_true, ne_eq, ite_not]

theorem refuses_checkKind (v : Value) : RefusesOnly Refusal.IsKind (checkKind p v) := by
  unfold checkKind
  split
  · extract_lets slug
    split
    · exact .refuse trivial
    · split
      · exact .refuse trivial
      · split
        · exact .ok _
        · exact .refuse trivial
  · exact .refuse trivial

theorem refuses_checkVisibility (v : Value) :
    RefusesOnly Refusal.IsShape (checkVisibility p v) := by
  unfold checkVisibility
  split
  · split
    · exact .ok _
    · exact .refuse trivial
  · exact .refuse trivial

theorem refuses_timestampAt (field : String) (doc : Document) :
    RefusesOnly Refusal.IsShape (timestampAt p field doc) := by
  unfold timestampAt
  split
  · exact .ok _
  · split
    · exact .ok _
    · exact .giveUp _
    · exact .refuse trivial
  · exact .refuse trivial

theorem refuses_checkShape (doc : Document) : RefusesOnly Refusal.IsShape (checkShape p doc) := by
  unfold checkShape
  refine .refuseIf (x := fun _ => _) trivial ?_
  split
  · exact .refuse trivial
  · exact .ok _

theorem refuses_ifAccess {P : Refusal → Prop} {step : Document → Outcome Document}
    (h : ∀ doc, RefusesOnly P (step doc)) (doc : Document) :
    RefusesOnly P (ifAccess p step doc) := by
  unfold ifAccess
  split
  · exact h doc
  · exact .ok _

theorem refuses_finish (doc : Document) : RefusesOnly Refusal.IsShape (finish p doc) := by
  rw [finish_eq]
  exact (refuses_ifAccess (fun _ => .lift _) _).bind fun _ =>
    (refuses_checkShape _).bind fun _ => .ok _

theorem refuses_putAccess (kind : String) (requester : Requester) (body doc : Document) :
    RefusesOnly Refusal.IsShape (putAccess p kind requester body doc) := by
  unfold putAccess
  dsimp only
  split
  · exact .bind (.ok _) fun _ => (refuses_checkVisibility _).bind fun _ => .ok _
  · exact (RefusesOnly.lift _).bind fun _ => .bind (.ok _) fun _ =>
      (refuses_checkVisibility _).bind fun _ => .ok _

/-- A payload with a kind that there is is refused for the shape of a member only. -/
theorem refuses_create_of_kindOf {kind : String} (h : kindOf p payload = .ok kind)
    (requester : Requester) (now : Instant) (id : String) :
    RefusesOnly Refusal.IsShape (create p payload requester now id) := by
  rw [create_eq, h, ok_bind]
  exact (refuses_timestampAt _ _).bind fun _ => (refuses_timestampAt _ _).bind fun _ =>
    (refuses_timestampAt _ _).bind fun _ => (RefusesOnly.lift _).bind fun _ =>
      (refuses_timestampAt _ _).bind fun _ =>
        (refuses_ifAccess (refuses_putAccess _ _ _) _).bind fun _ => refuses_finish _

/-- A payload is refused for the kind or for the shape of a member. -/
theorem refuses_create (payload : Document) (requester : Requester) (now : Instant)
    (id : String) :
    RefusesOnly (fun r => r.IsKind ∨ r.IsShape) (create p payload requester now id) := by
  cases hkind : kindOf p payload with
  | ok kind => exact (refuses_create_of_kindOf hkind _ _ _).mono fun _ => .inr
  | error e =>
    rw [create_eq, hkind]
    rintro r hr
    cases hr
    exact .inl (refuses_checkKind _ r hkind)

end Record

end Catalog
