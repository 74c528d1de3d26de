import Catalog.Proofs.Policy.LimitSettings
import Catalog.Proofs.Rule.OwnScope

/-!
# The scope of one kind

The limit for a kind counts in the scope `filter[where][_kind]=k`, in which the kind stands as it
is. That is what a record of the kind says itself (`Template.render_ownScope_kind`), so that what is
known of such scopes holds for this one: it has one condition, on what is inferred from the text
(`fixedScope_kind`). Records of the kind meet it, and records of other kinds do not, unless the kind
is the word for null, which no record meets (`Condition.holds_inferred_kind`). If the kind is a
numeral of too many digits, there is no scope (`Scope.read_kind_of_fault`).
-/

namespace Catalog

open Text

variable {kind : String}

/-- A slug has no other characters than its own and no capital letters. -/
theorem not_mem_of_slugify (h : slugify kind = kind) {c : Char} (hc : isSlugPart c = false) :
    c ∉ kind.toList :=
  fun hmem => absurd ((isSlugPart_of_slugify h c hmem).symm.trans hc) (by decide)

/-- A slug is no timestamp. -/
theorem not_beginsWithDateAndTime_of_slugify (h : slugify kind = kind) :
    Timestamp.beginsWithDateAndTime kind.toList = false :=
  not_beginsWithDateAndTime (not_mem_of_slugify h (by decide))

/-- Nothing in a slug is percent-encoded. -/
theorem encode_of_slugify (h : slugify kind = kind) (safe : List Char) :
    Percent.encode safe kind.toList = kind.toList := by
  have plain : ∀ c ∈ kind.toList, Percent.encodeChar safe c = [c] := by
    intro c hc
    have unreserved : Percent.isUnreserved c = true := by
      have part := isSlugPart_of_slugify h c hc
      rw [isSlugPart, isSlugChar] at part
      unfold Percent.isUnreserved Char.isAlphanum Char.isAlpha
      grind
    rw [Percent.encodeChar, unreserved, Bool.true_or, if_pos rfl]
  rw [Percent.encode, List.flatMap_def, List.map_congr_left plain, ← List.flatMap_def,
    List.flatMap_singleton']

theorem plainName_kind : PlainName "_kind" := by decide

/-- A record of a kind says the scope of the kind itself. -/
theorem Template.render_ownScope_kind (h : slugify kind = kind) :
    render (ownScope "_kind") (.object [("_kind", .text kind)]) =
      "filter[where][_kind]=" ++ kind := by
  have path : '.' ∉ "_kind".toList := by decide
  have value : (Value.object [("_kind", .text kind)]).path? "_kind" = some (.text kind) :=
    Document.path?_key path _
  have key : ((ownKey "_kind").toList.map Part.char).flatMap
      (Part.render (.object [("_kind", .text kind)])) = (ownKey "_kind").toList := by
    rw [List.flatMap_map]
    exact List.flatMap_singleton' _
  have start : (ownKey "_kind").toList ++ ['='] = "filter[where][_kind]=".toList := by decide
  rw [render, parts_ownScope plainName_kind, ← String.toList_inj, String.toList_ofList,
    String.toList_append, List.flatMap_append, key, List.flatMap_cons, List.flatMap_cons,
    List.flatMap_nil, Part.render, Part.render, value, ← start, List.append_assoc, List.append_nil]
  exact congrArg (fun cs => _ ++ ('=' :: cs)) (encode_of_slugify h _)

/-- The scope of a kind has no placeholders. -/
theorem Template.parts_kind (h : slugify kind = kind) :
    parts ("filter[where][_kind]=" ++ kind) =
      ("filter[where][_kind]=" ++ kind).toList.map .char := by
  have literal : '$' ∉ ("filter[where][_kind]=" ++ kind).toList := by
    rw [String.toList_append, List.mem_append, not_or]
    exact ⟨by decide, not_mem_of_slugify h (by decide)⟩
  have all := partsFrom_chars literal []
  rwa [List.append_nil, partsFrom, List.append_nil] at all

/-- The text of a record's kind is the kind. -/
theorem said_kind {found : Except Fault (Value × Option String)} (h : inferText kind = found) :
    inferText (Template.valueText (Value.orNull (Document.get? "_kind" [("_kind", .text kind)]))) =
      found := h

/-- The scope of a kind has one condition, on what is inferred from the kind. -/
theorem fixedScope_kind (h : slugify kind = kind) {v : Value} {literal : Option String}
    (hinfer : inferText kind = .ok (v, literal)) (limit : Int) :
    FixedScope (kindRule kind limit).scope (.inferred "_kind" v literal) where
  plain := Template.parts_kind h
  reads := by
    have read := Scope.read_ownScope_of_infer plainName_kind (said_kind hinfer) none
    rw [Template.render_ownScope_kind h] at read
    exact ⟨_, read, rfl, rfl, rfl⟩

/-- There is no scope of a kind that cannot be read as a value. -/
theorem Scope.read_kind_of_fault (h : slugify kind = kind) {fault : Fault}
    (hinfer : inferText kind = .error fault) (limit : Int) (record : Value)
    (owners : Option Audience) :
    Scope.read (Template.render (kindRule kind limit).scope record) owners =
      .error (.broken fault) := by
  have read := Scope.read_ownScope_of_fault plainName_kind (said_kind hinfer) owners
  rw [Template.render_ownScope_kind h] at read
  exact (congrArg (Scope.read · owners) (Template.render_of_plain (Template.parts_kind h) _)).trans
    read

namespace Condition

variable {v : Value} {literal : Option String} {doc : Document}

/-- The condition on a kind says no ids. -/
theorem ids?_inferred_kind (v : Value) (literal : Option String) :
    (inferred "_kind" v literal).ids? = .ok none := rfl

theorem holds_inferred_kind_eq (v : Value) (literal : Option String) (doc : Document) :
    (inferred "_kind" v literal).holds (.object doc) =
      equalTo (Value.orNull (doc.get? "_kind")) v (literal.map .text) := by
  have path : '.' ∉ "_kind".toList := by decide
  rw [inferred, holds, Leaf.holds, Document.path?_key path]

/-- Records of the kind meet the condition on it, and records of other kinds do not; but none meets
    the condition on the word for null. -/
theorem holds_inferred_kind (h : slugify kind = kind) (hinfer : inferText kind = .ok (v, literal))
    {other : String} (hdoc : doc.get? "_kind" = some (.text other)) :
    (inferred "_kind" v literal).holds (.object doc) = .ok (other == kind && kind != "null") := by
  have noTime := not_beginsWithDateAndTime_of_slugify h
  rw [holds_inferred_kind_eq, hdoc]
  exact (equalTo_inferred noTime hinfer).1 other

/-- A record of no kind does not meet the condition on a kind, except on the word for null. -/
theorem not_met_inferred_kind (h : slugify kind = kind)
    (hinfer : inferText kind = .ok (v, literal)) (hnull : kind ≠ "null")
    (hdoc : Value.orNull (doc.get? "_kind") = .null) : ¬(inferred "_kind" v literal).Met doc := by
  have noTime := not_beginsWithDateAndTime_of_slugify h
  rw [Met, holds_inferred_kind_eq, hdoc, (equalTo_inferred noTime hinfer).2 hnull]
  exact fun heq => by cases heq

end Condition

end Catalog
