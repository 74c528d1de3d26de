import Catalog.Proofs.Plan.Selection
import Catalog.Proofs.Query.Reading
import Catalog.Proofs.Record.Refusals
import Catalog.Service.Write

/-!
# Which checks refuse for a limit

Of all that a new record goes through, only the checks of limits refuse it because something is full
(`Refusal.IsLimit`). The others refuse for reasons of their own, among them a scope that is no
query, or meet a fault.
-/

namespace Catalog

/-- There is no room, be it in the scope of a rule or in a list. -/
def Refusal.IsLimit : Refusal → Prop
  | .limitExceeded _ _ _ => True
  | .listFull _ _ _ => True
  | _ => False

/-- The refusals that are about limits go by one name. -/
theorem Refusal.name_eq_iff (r : Refusal) : r.name = "LimitExceededError" ↔ r.IsLimit := by
  cases r with
  | limitExceeded => exact ⟨fun _ => trivial, fun _ => rfl⟩
  | listFull => exact ⟨fun _ => trivial, fun _ => rfl⟩
  | referenceChanged target =>
    exact ⟨fun h => by cases target <;> exact absurd h (by decide), False.elim⟩
  | parentElsewhere f field target own =>
    have other : ∀ target : Family,
        (parentElsewhere .lists "" target .null).name ≠ "LimitExceededError" := by
      intro target
      cases target <;> decide
    exact ⟨fun h => absurd h (other target), False.elim⟩
  | _ => exact ⟨fun h => absurd h (by simp [name]), False.elim⟩

variable {α : Type} {p : Policy} {ctx : Context} {s : Store} {f : Family} {doc : Document}

/-- An outcome is not a refusal because of a limit. -/
abbrev Unlimited (x : Outcome α) : Prop := RefusesOnly (fun r => ¬r.IsLimit) x

/-! ## Making a document -/

/-- What a payload is refused for is no limit. -/
theorem Record.unlimited_create (payload : Document) (requester : Requester) (now : Instant)
    (id : String) : Unlimited (create p payload requester now id) := by
  refine (refuses_create payload requester now id).mono fun r h => ?_
  cases r with
  | limitExceeded | listFull =>
    rcases h with h | h
    · exact h.elim
    · exact h.elim
  | _ => exact not_false

/-! ## References -/

theorem unlimited_referenceTargets (doc : Document) :
    Unlimited (Service.referenceTargets ctx s f doc) := by
  unfold Service.referenceTargets
  dsimp only
  -- If fields are missing, the request is refused, and else their targets are looked up.
  split
  · split
    · exact (RefusesOnly.refuse id).bind_of fun _ h => by cases h
    · exact (RefusesOnly.refuse id).bind_of fun _ h => by cases h
  · refine .mapM fun r _ => ?_
    split
    · exact .ok _
    · exact .refuse id

theorem unlimited_checkForm (c : LookupConstraint) (values : List Value) :
    Unlimited (c.checkForm ctx.config f values) := by
  unfold LookupConstraint.checkForm
  split
  · dsimp only
    split
    · exact .ok _
    · exact .refuse id
  · exact .ok _

theorem unlimited_checkTargets (c : LookupConstraint) (refs : List Reference) :
    Unlimited (c.checkTargets ctx.config s f doc refs) := by
  unfold LookupConstraint.checkTargets
  dsimp only
  refine .refuseIf (x := fun _ => _) id ?_
  split
  rotate_left
  refine .refuseIf (x := fun _ => _) id ?_
  -- Whatever the kind, the parents are checked last.
  all_goals
    split
    · split
      · exact .refuse id
      · exact .ok _
    · exact .ok _

theorem unlimited_checkReferences (doc : Document) :
    Unlimited (checkReferences ctx.config s p doc) := by
  refine .forM fun c _ => ?_
  unfold LookupConstraint.check
  split
  · exact .ok _
  · refine RefusesOnly.bind ?_ fun _ => ?_
    · exact unlimited_checkForm c _
    · split
      · exact .ok _
      · exact unlimited_checkTargets c _

/-! ## Uniqueness -/

theorem Refusal.IsFilter.unlimited {r : Refusal} (h : r.IsFilter) : ¬r.IsLimit := by
  obtain ⟨e, rfl⟩ := h
  exact id

theorem Scope.unlimited_read (query : String) (owners : Option Audience) :
    Unlimited (Scope.read query owners) := by
  unfold Scope.read
  split
  · exact .ok _
  · refine (RefusesOnly.lift _).bind fun v => ?_
    cases v with
    | object members =>
      exact ((SetExpr.refuses_read _).mono fun _ => Refusal.IsFilter.unlimited).bind fun _ =>
        ((refuses_filterRead _ _).mono fun _ => Refusal.IsFilter.unlimited).bind fun _ => .ok _
    | _ => exact .giveUp _

theorem unlimited_countInScope (scope : Scope) (extra : Condition) :
    Unlimited (countInScope ctx s f scope extra) := by
  refine (RefusesOnly.lift _).bind_of fun plan hplan => ?_
  obtain ⟨c, joins, -, -, hjoins, rfl⟩ := Plan.count_eq_ok.1 (lift_eq_ok.1 hplan)
  rw [hjoins rfl, run_ofStages]
  exact ((RefusesOnly.lift _).bind fun _ => .ok _).bind fun _ => .ok _

theorem unlimited_checkUniqueness (exclude : Value) :
    Unlimited (checkUniqueness ctx s p doc exclude) := by
  refine (RefusesOnly.lift _).bind fun _ => (RefusesOnly.lift _).bind fun _ =>
    .forM fun rule _ => ?_
  unfold UniquenessRule.check
  refine (RefusesOnly.lift _).bind fun _ => (Scope.unlimited_read _ _).bind fun _ =>
    (RefusesOnly.lift _).bind fun _ => (unlimited_countInScope _ _).bind fun _ => ?_
  split
  · exact .refuse id
  · exact .ok _

end Catalog
