/-!
# Families of records

Records come in five families. Entities and lists have names and readers of their own; reactions
belong to an entity or a list; relations put an entity into a list and are gated by the two records
that they join. This module fixes what never changes about a family; what an installation may
choose is its policy.
-/

namespace Catalog

/-- A family of records. -/
inductive Family where
  /-- Things that lists hold and reactions are about. -/
  | entities
  /-- Lists of entities. -/
  | lists
  /-- Reactions to an entity. -/
  | entityReactions
  /-- Reactions to a list. -/
  | listReactions
  /-- Memberships of entities in lists. -/
  | relations
deriving DecidableEq, Repr

namespace Family

/-- All families, in the order in which they are configured and listed. -/
def all : List Family := [.entities, .lists, .entityReactions, .listReactions, .relations]

/-- The word for the family in addresses and references. -/
def segment : Family → String
  | .entities => "entities"
  | .lists => "lists"
  | .entityReactions => "entity-reactions"
  | .listReactions => "list-reactions"
  | .relations => "list-entity-relations"

/-- The family with a segment. -/
def ofSegment? (s : String) : Option Family := all.find? fun f => f.segment = s

/-- The stem of the family's configuration keys. -/
def keyStem : Family → String
  | .entities => "entity"
  | .lists => "list"
  | .entityReactions => "entity_reaction"
  | .listReactions => "list_reaction"
  | .relations => "list_entity_rel"

/-- The kind of a record that names none, unless configured. -/
def defaultKind : Family → String
  | .entities => "entity"
  | .lists => "list"
  | .entityReactions => "entity-reaction"
  | .listReactions => "list-reaction"
  | .relations => "relation"

/-- The collection the records are stored in, unless configured. -/
def collection : Family → String
  | .entities => "GenericEntity"
  | .lists => "List"
  | .entityReactions => "EntityReaction"
  | .listReactions => "ListReaction"
  | .relations => "ListToEntityRelation"

/-- The stem of the family's error codes. -/
def codeStem : Family → String
  | .entities => "ENTITY"
  | .lists => "LIST"
  | .entityReactions => "ENTITY-REACTION"
  | .listReactions => "LIST-REACTION"
  | .relations => "RELATION"

/-- The name of a record of the family at the beginning of a sentence. -/
def display : Family → String
  | .entities => "Entity"
  | .lists => "List"
  | .entityReactions => "Entity reaction"
  | .listReactions => "List reaction"
  | .relations => "Relation"

/-- The name of a record of the family inside a sentence. -/
def friendly : Family → String
  | .entities => "entity"
  | .lists => "list"
  | .entityReactions => "entity reaction"
  | .listReactions => "list reaction"
  | .relations => "relation"

/-- The stem of the configuration keys that say whether new records are approved at once. -/
def approvalStem : Family → String
  | .relations => "list_entity_relations"
  | f => f.keyStem

/-- The configuration key of the limit rules. -/
def limitRulesKey : Family → String
  | .entities => "entity_record_limits"
  | .lists => "list_record_limits"
  | .entityReactions => "entity_reaction_record_limits"
  | .listReactions => "list_reaction_record_limits"
  | .relations => "relation_record_limits"

/-- The fields that name a record of another family, and that family. -/
def references : Family → List (String × Family)
  | .entityReactions => [("_entityId", .entities)]
  | .listReactions => [("_listId", .lists)]
  | .relations => [("_listId", .lists), ("_entityId", .entities)]
  | _ => []

/-- Whether records say themselves who may read them. -/
def hasAccessFields : Family → Bool
  | .relations => false
  | _ => true

/-- Whether records must have a name. -/
def requiresName : Family → Bool
  | .entities | .lists => true
  | _ => false

/-- What can be included with a record: the name, the family of the included records and the field
    by which these name the record. -/
def includes : Family → List (String × Family × String)
  | .entities => [("reactions", .entityReactions, "_entityId")]
  | .lists => [("reactions", .listReactions, "_listId")]
  | _ => []

/-- The family and field behind the name of something that can be included. -/
def include? (f : Family) (name : String) : Option (Family × String) := f.includes.lookup name

theorem ofSegment?_segment (f : Family) : ofSegment? f.segment = some f := by
  cases f <;> decide

theorem eq_segment_of_ofSegment? {s : String} {f : Family} (h : ofSegment? s = some f) :
    s = f.segment := by
  have := List.find?_some h
  simp only [decide_eq_true_eq] at this
  exact this.symm

theorem mem_all (f : Family) : f ∈ all := by cases f <;> simp [all]

end Family

end Catalog
