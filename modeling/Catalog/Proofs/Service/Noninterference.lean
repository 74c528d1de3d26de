import Catalog.Policy.Reading
import Catalog.Proofs.Plan.Alike
import Catalog.Service.Request

/-!
# What a requester may not read does not show

A request that only reads is answered the same on stores that are alike for the requester, be it by
records, by a number or by a refusal (`answer_agrees`): nothing that the requester may not read
shows in an answer, neither by its members nor by its absence.

It is needed that the ids of lists and entities are texts: of two lists with ids that count as the
same number, one may hide the other from the relations it is in (`answer_disagrees_numeric_ids`).
-/

namespace Catalog.Service

variable {ctx : Context} {s t : Store}

theorem find_agrees (h : Alike ctx s t) (f : Family) (query : Value) (extra : Condition) :
    Agrees (find ctx s f query extra) (find ctx t f query extra) := by
  rw [find, find]
  cases hp : findPlan ctx f query extra with
  | error e => exact .refl _
  | ok plan =>
    dsimp only [findPlan] at hp
    obtain ⟨v, -, hp⟩ := bind_eq_ok.1 hp
    obtain ⟨filter, -, hp⟩ := bind_eq_ok.1 hp
    obtain ⟨scopes, -, hp⟩ := bind_eq_ok.1 hp
    obtain ⟨w, -, hp⟩ := bind_eq_ok.1 hp
    obtain ⟨set, -, hp⟩ := bind_eq_ok.1 hp
    exact h.query_agrees hp

theorem findById_agrees (h : Alike ctx s t) (f : Family) (id : String) (query : Value) :
    Agrees (findById ctx s f id query) (findById ctx t f id query) :=
  (find_agrees h f query _).bind fun _ => .refl _

theorem demand_agrees (h : Alike ctx s t) (f : Family) (id : String) :
    Agrees (demand ctx s f id) (demand ctx t f id) :=
  (findById_agrees h f id idOnly).bind fun _ => .refl _

/-- Relations are the same for whoever looks for them, with or without access control. -/
theorem matching_agrees (h : Alike ctx s t) (c : Condition) :
    Agrees (matching ctx s .relations c) (matching ctx t .relations c) := by
  rw [matching, matching]
  cases hp : Plan.count { ctx with requester := {}, enforceAccess := false } .relations {} none
    c with
  | error e => exact .refl _
  | ok plan =>
    obtain ⟨c', joins, hc, -, hnone, rfl⟩ := Plan.count_eq_ok.1 hp
    cases hnone rfl
    change Agrees ((Plan.ofStages _ .relations [.select c']).run _ s)
      ((Plan.ofStages _ .relations [.select c']).run _ t)
    rw [run_ofStages, run_ofStages]
    -- Nothing is joined, so that only the relations themselves are read.
    refine .bind (.lift (selection_compatible h.keyed_left h.keyed_right ?_ fun d =>
      access_of_baseCondition hc)) fun _ => .refl _
    rw [Store.readable_relations, Store.readable_relations]
    exact h.relations

theorem through_agrees (h : Alike ctx s t) (source : Family) (sourceField id : String)
    (target : Family) (targetField : String) (query : Value) :
    Agrees (through ctx s source sourceField id target targetField query)
      (through ctx t source sourceField id target targetField query) := by
  refine (demand_agrees h source id).bind fun _ => ?_
  refine (matching_agrees h _).bind fun relations => ?_
  split
  · exact .refl _
  · exact find_agrees h target query _

theorem count_agrees (h : Alike ctx s t) (f : Family) (query : Value) :
    Agrees (count ctx s f query) (count ctx t f query) := by
  refine .bind (.refl _) fun v => ?_
  refine .bind (.refl _) fun filter => ?_
  refine .bind (.refl _) fun scopes => ?_
  refine .bind (.refl _) fun w => ?_
  refine .bind (.refl _) fun set => ?_
  cases hp : Plan.count ctx f filter set .always scopes with
  | error e => exact .refl _
  | ok plan => exact (h.count_agrees hp).bind fun _ => .refl _

theorem findChildren_agrees (h : Alike ctx s t) (f : Family) (id : String) (query : Value) :
    Agrees (findChildren ctx s f id query) (findChildren ctx t f id query) :=
  (demand_agrees h f id).bind fun _ => find_agrees h f query _

theorem findParents_agrees (h : Alike ctx s t) (f : Family) (id : String) (query : Value) :
    Agrees (findParents ctx s f id query) (findParents ctx t f id query) := by
  refine (findById_agrees h f id _).bind fun doc => ?_
  refine .bind (.refl _) fun ids => ?_
  split
  · exact .refl _
  · exact find_agrees h f query _

/-- Requests that only read are answered the same on stores that are alike for the requester,
    unless one of them meets a fault. -/
theorem answer_agrees (config : Configuration) (requester : Requester) (now : Moment)
    (s t : Store) (h : Alike { config, requester, now } s t) (request : ReadRequest) :
    Agrees (answer { config, requester, now } s request)
      (answer { config, requester, now } t request) := by
  cases request with
  | find f query => exact (find_agrees h f query _).bind fun _ => .refl _
  | count f query => exact (count_agrees h f query).bind fun _ => .refl _
  | findById f id query => exact (findById_agrees h f id query).bind fun _ => .refl _
  | findChildren f id query => exact (findChildren_agrees h f id query).bind fun _ => .refl _
  | findParents f id query => exact (findParents_agrees h f id query).bind fun _ => .refl _
  | listEntities listId query =>
    exact (through_agrees h .lists "_listId" listId .entities "_entityId" query).bind
      fun _ => .refl _
  | entityLists entityId query =>
    exact (through_agrees h .entities "_entityId" entityId .lists "_listId" query).bind
      fun _ => .refl _

/-! ## Two stores -/

/-- How many records an answer has, if it has records. -/
def recordCount? : Outcome Answer → Option Nat
  | .ok (.records docs) => some docs.length
  | _ => none

/-- A request to a catalogue for which nothing is configured, by nobody in particular. -/
def plainContext : Context := { config := .standard, now := ⟨.first, 0⟩ }

/-- A list and an entity for everybody, and the relation between them. -/
def publicList : Store where
  rows := [
    ⟨"List", "l", [("_id", .text "l"), ("_visibility", .text "public")]⟩,
    ⟨"GenericEntity", "e", [("_id", .text "e"), ("_visibility", .text "public")]⟩,
    ⟨"ListToEntityRelation", "r",
      [("_id", .text "r"), ("_listId", .text "l"), ("_entityId", .text "e")]⟩]

/-- The same, with a private list. -/
def besidePrivateList : Store where
  rows := publicList.rows ++
    [⟨"List", "h", [("_id", .text "h"), ("_visibility", .text "private")]⟩]

/-- A private list does not show in the relations of a public one. -/
theorem answer_agrees_private_list :
    Alike plainContext publicList besidePrivateList ∧
      Agrees (answer plainContext publicList (.find .relations (.object [])))
        (answer plainContext besidePrivateList (.find .relations (.object []))) ∧
      recordCount? (answer plainContext publicList (.find .relations (.object []))) = some 1 := by
  have alike : Alike plainContext publicList besidePrivateList :=
    { keyed_left :=
        { named := by
            simp only [publicList, List.forall_mem_cons]
            exact ⟨rfl, rfl, rfl, nofun⟩
          unique := by decide }
      keyed_right :=
        { named := by
            simp only [besidePrivateList, publicList, List.cons_append, List.nil_append,
              List.forall_mem_cons]
            exact ⟨rfl, rfl, rfl, rfl, nofun⟩
          unique := by decide }
      texts_left := by
        rintro f (rfl | rfl)
        · exact List.forall_mem_cons.2 ⟨⟨"l", rfl⟩, nofun⟩
        · exact List.forall_mem_cons.2 ⟨⟨"e", rfl⟩, nofun⟩
      texts_right := by
        rintro f (rfl | rfl)
        · exact List.forall_mem_cons.2 ⟨⟨"l", rfl⟩, List.forall_mem_cons.2 ⟨⟨"h", rfl⟩, nofun⟩⟩
        · exact List.forall_mem_cons.2 ⟨⟨"e", rfl⟩, nofun⟩
      relations := rfl
      readable := by
        intro f hf
        cases f with
        | relations => exact absurd rfl hf
        | _ => rfl }
  exact ⟨alike, answer_agrees _ _ _ _ _ alike _, by decide +kernel⟩

/-- A public list whose id is the whole number one, an entity, and the relation between them, with
    two that name lists by the texts that one may be written as. -/
def numberedList : Store where
  rows := [
    ⟨"List", "1", [("_id", .int 1), ("_visibility", .text "public")]⟩,
    ⟨"GenericEntity", "e", [("_id", .text "e"), ("_visibility", .text "public")]⟩,
    ⟨"ListToEntityRelation", "p",
      [("_id", .text "p"), ("_listId", .text "1"), ("_entityId", .text "e")]⟩,
    ⟨"ListToEntityRelation", "q",
      [("_id", .text "q"), ("_listId", .int 1), ("_entityId", .text "e")]⟩,
    ⟨"ListToEntityRelation", "r",
      [("_id", .text "r"), ("_listId", .text "1.0"), ("_entityId", .text "e")]⟩]

/-- The same, with a private list whose id is the double one. -/
def besideHiddenTwin : Store where
  rows := numberedList.rows ++
    [⟨"List", "1.0", [("_id", .number (.double (.ofDecimal false 1 0))),
      ("_visibility", .text "private")]⟩]

/-- A private list takes the place of a public one whose id is the same number, so that a relation
    of the public list does not show any more. -/
theorem answer_disagrees_numeric_ids :
    numberedList.scan "ListToEntityRelation" = besideHiddenTwin.scan "ListToEntityRelation" ∧
      (∀ f, f ≠ .relations →
        numberedList.readable plainContext f = besideHiddenTwin.readable plainContext f) ∧
      (Family.all.map plainContext.collection).Nodup ∧
      plainContext.config.accessControl = true ∧
      recordCount? (answer plainContext numberedList (.find .relations (.object []))) = some 1 ∧
      recordCount? (answer plainContext besideHiddenTwin (.find .relations (.object []))) =
        some 0 := by
  refine ⟨rfl, ?_, by decide, rfl, by decide +kernel, by decide +kernel⟩
  intro f hf
  cases f with
  | relations => exact absurd rfl hf
  | _ => rfl

end Catalog.Service
