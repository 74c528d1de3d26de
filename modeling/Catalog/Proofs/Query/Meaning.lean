import Catalog.Proofs.Query.NormalForm
import Catalog.Proofs.Query.Parts

/-!
# What the conditions of filters mean

A condition is given as an object, and read directly it means this (`Condition.ObjectMeans`): all
that its members mean. A member `and` means all of the objects that it connects, a member `or` some
of them, and any other member means something of a field (`Condition.FieldMeans`):

* an object of operators means all of its operators;
* any other object means what its members do of fields of the field, at longer paths;
* any other value means that the field is equal to it.

The condition that is read stands for this (`Condition.gives_standsFor_read`), so it is in normal
form and true exactly if it is, whichever leaves hold.
-/

namespace Catalog

open Text

variable {P : Leaf → Prop}

/-! ## Conditions that are read -/

namespace Condition

/-- The type hint that an object of operators gives; null if it gives none. -/
def hintOf (members : Document) : Value := Value.orNull (Document.get? "type" members)

/-- The options that an object of operators gives. -/
def optionsOf (members : Document) : String :=
  lower ((Document.get? "options" members).getD (.text "")).display

/-- The objects that a connective connects: those in an array, or one that is not empty. -/
def connectedObjects : Value → List Document
  | .array items => items.filterMap fun
    | .object members => some members
    | _ => none
  | .object members => if members.isEmpty then [] else [members]
  | _ => []

mutual

/-- What a member of an object of conditions means, given which leaves hold; `within` is the path of
    the field that the object belongs to, with a point after it. -/
inductive MemberMeans (P : Leaf → Prop) : (within key : String) → Value → Prop where
  /-- All of the objects that `and` connects. -/
  | and {within key : String} {v : Value} (hkey : connective? within key = some .and)
      (h : ∀ o ∈ connectedObjects v, ∀ m ∈ o, MemberMeans P "" m.1 m.2) : MemberMeans P within key v
  /-- Some of the objects that `or` connects. -/
  | or {within key : String} {v : Value} (hkey : connective? within key = some .or) {o : Document}
      (ho : o ∈ connectedObjects v) (h : ∀ m ∈ o, MemberMeans P "" m.1 m.2) :
      MemberMeans P within key v
  /-- What the value next to a field means of it. -/
  | field {within key : String} {v : Value} (hkey : connective? within key = none)
      (h : FieldMeans P (within ++ key) v) : MemberMeans P within key v

/-- What the value next to a field means of the field at a path. -/
inductive FieldMeans (P : Leaf → Prop) : (path : String) → Value → Prop where
  /-- All operators of an object of operators. -/
  | operators {path : String} {members : Document}
      (hkeys : (members.all fun m => isLeafKey m.1) = true)
      (h : ∀ m ∈ members, ∀ operator, operatorOf? (optionsOf members) m.1 = some operator →
        ∃ l, Leaf.read path (hintOf members) operator m.2 = .ok l ∧ P l) :
      FieldMeans P path (.object members)
  /-- All members of any other object, whose fields are reached through the path. -/
  | nested {path : String} {members : Document}
      (hkeys : (members.all fun m => isLeafKey m.1) = false)
      (h : ∀ m ∈ members, MemberMeans P (path ++ ".") m.1 m.2) : FieldMeans P path (.object members)
  /-- The field is equal to an array. -/
  | items {path : String} {items : List Value} {operand : Value} {literal : Option Literal}
      (hread : coerceEach .null items = .ok (operand, literal))
      (h : P { path, operator := .eq, operand, literal }) : FieldMeans P path (.array items)
  /-- The field is equal to any other value. -/
  | value {path : String} {v operand : Value} {literal : Option String}
      (hobject : ∀ members, v ≠ .object members) (harray : ∀ items, v ≠ .array items)
      (hread : coerce .null v = .ok (operand, literal))
      (h : P { path, operator := .eq, operand, literal := literal.map .text }) :
      FieldMeans P path v

end

/-- What an object of conditions means: all that its members do. -/
def ObjectMeans (P : Leaf → Prop) (within : String) (members : Document) : Prop :=
  ∀ m ∈ members, MemberMeans P within m.1 m.2

theorem memberMeans_and {within key : String} {v : Value}
    (hkey : connective? within key = some .and) :
    MemberMeans P within key v ↔ ∀ o ∈ connectedObjects v, ObjectMeans P "" o := by
  refine ⟨fun h => ?_, .and hkey⟩
  cases h with
  | and _ h => exact h
  | or hor | field hor => cases hkey.symm.trans hor

theorem memberMeans_or {within key : String} {v : Value}
    (hkey : connective? within key = some .or) :
    MemberMeans P within key v ↔ ∃ o ∈ connectedObjects v, ObjectMeans P "" o := by
  refine ⟨fun h => ?_, fun ⟨_, ho, h⟩ => .or hkey ho h⟩
  cases h with
  | or _ ho h => exact ⟨_, ho, h⟩
  | and hand | field hand => cases hkey.symm.trans hand

theorem memberMeans_field {within key : String} {v : Value} (hkey : connective? within key = none) :
    MemberMeans P within key v ↔ FieldMeans P (within ++ key) v := by
  refine ⟨fun h => ?_, .field hkey⟩
  cases h with
  | field _ h => exact h
  | and h | or h => cases hkey.symm.trans h

theorem fieldMeans_operators {path : String} {members : Document}
    (hkeys : (members.all fun m => isLeafKey m.1) = true) :
    FieldMeans P path (.object members) ↔ ∀ m ∈ members, ∀ operator,
      operatorOf? (optionsOf members) m.1 = some operator →
        ∃ l, Leaf.read path (hintOf members) operator m.2 = .ok l ∧ P l := by
  refine ⟨fun h => ?_, .operators hkeys⟩
  cases h with
  | operators _ h => exact h
  | nested hnot => cases hkeys.symm.trans hnot
  | value hobject => exact absurd rfl (hobject members)

theorem fieldMeans_nested {path : String} {members : Document}
    (hkeys : (members.all fun m => isLeafKey m.1) = false) :
    FieldMeans P path (.object members) ↔ ObjectMeans P (path ++ ".") members := by
  refine ⟨fun h => ?_, .nested hkeys⟩
  cases h with
  | nested _ h => exact h
  | operators hall => cases hkeys.symm.trans hall
  | value hobject => exact absurd rfl (hobject members)

theorem fieldMeans_items {path : String} {items : List Value} {operand : Value}
    {literal : Option Literal} (hread : coerceEach .null items = .ok (operand, literal)) :
    FieldMeans P path (.array items) ↔ P { path, operator := .eq, operand, literal } := by
  refine ⟨fun h => ?_, .items hread⟩
  cases h with
  | items hread' h =>
    cases hread'.symm.trans hread
    exact h
  | value _ harray => exact absurd rfl (harray items)

theorem fieldMeans_value {path : String} {v operand : Value} {literal : Option String}
    (hobject : ∀ members, v ≠ .object members) (harray : ∀ items, v ≠ .array items)
    (hread : coerce .null v = .ok (operand, literal)) :
    FieldMeans P path v ↔ P { path, operator := .eq, operand, literal := literal.map .text } := by
  refine ⟨fun h => ?_, .value hobject harray hread⟩
  cases h with
  | value _ _ hread' h =>
    cases hread'.symm.trans hread
    exact h
  | operators | nested => exact absurd rfl (hobject _)
  | items => exact absurd rfl (harray _)

/-- An object of operators stands for what it means. -/
theorem gives_standsFor_readOperators {path : String} {members : Document}
    (hkeys : (members.all fun m => isLeafKey m.1) = true) :
    Gives (StandsFor P (FieldMeans P path (.object members))) (readOperators path members) := by
  intro c h
  obtain ⟨leaves, hleaves, h⟩ := bind_eq_ok.1 h
  have normal : ∀ c ∈ leaves, c.Normal := Gives.filterMapM (fun m _ => by
    dsimp only
    split
    · exact .bind_of_any fun l => .ok fun c hc => by cases hc; exact .flat (.leaf l)
    · exact .ok fun c hc => by cases hc) leaves hleaves
  have means : (∀ c ∈ leaves, c.TrueIn P) ↔ FieldMeans P path (.object members) := by
    rw [fieldMeans_operators hkeys]
    refine Gives.filterMapM_iff (fun m _ o ho => ?_) leaves hleaves
    dsimp only at ho
    split at ho
    · next operator hoperator =>
      obtain ⟨l, hl, ho⟩ := bind_eq_ok.1 ho
      cases ho
      refine Iff.trans (b := P l) (by simp) ⟨fun h other hother => ?_, fun h => ?_⟩
      · cases hoperator.symm.trans hother
        exact ⟨l, hl, h⟩
      · obtain ⟨l', hl', h⟩ := h operator hoperator
        cases hl.symm.trans hl'
        exact h
    · next hnone =>
      cases ho
      exact iff_of_true (fun y hy => by cases hy) fun operator h => by cases hnone.symm.trans h
  dsimp only at h
  split at h
  · cases h
  · cases h
    exact ⟨normal_conj normal, trueIn_conj.trans means⟩

mutual

theorem gives_standsFor_readMembers (within : String) : ∀ members : List (String × Value),
    Gives (List.Forall₂ (fun m c => StandsFor P (MemberMeans P within m.1 m.2) c) members)
      (readMembers within members)
  | [] => .ok .nil
  | (key, v) :: rest => by
    have others (c : Condition) (hc : c.StandsFor P (MemberMeans P within key v)) :
        Gives (List.Forall₂ (fun m c => StandsFor P (MemberMeans P within m.1 m.2) c)
            ((key, v) :: rest))
          (readMembers within rest >>= fun cs => pure (c :: cs)) :=
      (gives_standsFor_readMembers within rest).bind fun _ h => .ok (.cons hc h)
    rw [readMembers]
    dsimp only
    split
    · next connective hkey =>
      -- What is connected stands for the objects, one by one, whatever the connective is.
      refine (gives_standsFor_readConnected v).bind fun cs hcs => ?_
      refine Gives.bind (P := StandsFor P (MemberMeans P within key v)) ?_ others
      unfold connected
      split
      · exact .error _
      · cases connective with
        | and => exact .ok ((StandsFor.conj hcs).congr (memberMeans_and hkey).symm)
        | or => exact .ok ((Alternatives.of_forall₂ hcs).disj.congr (memberMeans_or hkey).symm)
    · next hkey =>
      refine (gives_standsFor_readField _ v).bind fun c hc => ?_
      exact others c (hc.congr (memberMeans_field hkey).symm)

theorem gives_standsFor_readConnected : ∀ v : Value,
    Gives (List.Forall₂ (fun o c => StandsFor P (ObjectMeans P "" o) c) (connectedObjects v))
      (readConnected v)
  | .array items => gives_standsFor_readItems items
  | .object [] => .ok .nil
  | .object (m :: members) => (gives_standsFor_readMembers "" (m :: members)).bind fun _ h =>
    .ok (.cons (.conj h) .nil)
  | .null => .ok .nil
  | .text s => by
    rw [readConnected]
    split
    · exact .ok .nil
    · exact .error _
  | .bool _ | .number _ | .instant _ => .error _

theorem gives_standsFor_readItems : ∀ items : List Value,
    Gives (List.Forall₂ (fun o c => StandsFor P (ObjectMeans P "" o) c)
      (connectedObjects (.array items))) (readItems items)
  | [] => .ok .nil
  | .object members :: rest => (gives_standsFor_readMembers "" members).bind fun _ hc =>
    (gives_standsFor_readItems rest).bind fun _ h => .ok (.cons (.conj hc) h)
  | .null :: _ | .bool _ :: _ | .number _ :: _ | .text _ :: _ | .instant _ :: _ | .array _ :: _ =>
    .error _

theorem gives_standsFor_readField (path : String) :
    ∀ v : Value, Gives (StandsFor P (FieldMeans P path v)) (readField path v)
  | .object [] => .error _
  | .object (m :: members) => by
    unfold readField
    split
    · next hkeys => exact gives_standsFor_readOperators hkeys
    · next hkeys =>
      exact (gives_standsFor_readMembers _ (m :: members)).bind fun _ h =>
        .ok ((StandsFor.conj h).congr (fieldMeans_nested (Bool.eq_false_iff.2 hkeys)).symm)
  | .array items => fun c hc => by
    obtain ⟨⟨operand, literal⟩, hread, hc⟩ := bind_eq_ok.1 hc
    cases hc
    exact (StandsFor.leaf _).congr (fieldMeans_items hread).symm
  | .null | .bool _ | .number _ | .text _ | .instant _ => fun c hc => by
    obtain ⟨⟨operand, literal⟩, hread, hc⟩ := bind_eq_ok.1 hc
    cases hc
    exact (StandsFor.leaf _).congr (fieldMeans_value (by simp) (by simp) hread).symm

end

/-- What a condition means that is given as a value: what the object that it is does. -/
def WhereMeans (P : Leaf → Prop) : Value → Prop
  | .object members => ObjectMeans P "" members
  | _ => False

/-- A condition that is read stands for what it means. -/
theorem gives_standsFor_read (v : Value) : Gives (StandsFor P (WhereMeans P v)) (read v) := by
  cases v with
  | object members => exact (gives_standsFor_readMembers "" members).bind fun _ h => .ok (.conj h)
  | _ => exact .error _

end Condition

/-- What a filter means with its condition: everything if that is blank. -/
def Filter.WhereMeans (P : Leaf → Prop) (v : Value) : Prop :=
  v.isBlank = true ∨ Condition.WhereMeans P v

/-- The condition of a filter stands for what it means. -/
theorem Filter.gives_standsFor_readCondition (v : Value) :
    Gives (Condition.StandsFor P (Filter.WhereMeans P v)) (Filter.readCondition v) := by
  unfold Filter.readCondition Filter.WhereMeans
  split
  · next hblank => exact .ok (Condition.StandsFor.always.congr (by simp [hblank]))
  · next hblank => exact fun c hc =>
      (Condition.gives_standsFor_read v c hc).congr (by simp [hblank])

end Catalog
