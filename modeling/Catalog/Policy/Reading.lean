import Catalog.Number.Numeral
import Catalog.Policy.ConfigError
import Catalog.Value.JsonReader
import Catalog.Value.Yaml
import Catalog.Value.Whole

/-!
# Reading a configuration

An installation is configured by an environment, a list of keys with texts, and by rules, the JSON
text of an object with a member for each family. In the keys of the environment case does not count,
and a hyphen is the same as a low line; a key with an empty text is as good as missing. A key
followed by `_for_` and a kind is a setting for that kind alone.

The settings are read family by family in a fixed order, so that of several mistakes always the same
one is reported.
-/

namespace Catalog

open Text

/-! ## The environment -/

/-- Keys, as they are compared, with texts. -/
abbrev Environment := List (String × String)

namespace Environment

/-- A key as it is compared. -/
def keyOf (key : String) : String :=
  String.ofList ((lower key).toList.map fun c => if c = '-' then '_' else c)

/-- Gives a key a text: in its place if the key is there, else at the end. -/
def put (key value : String) : Environment → Environment
  | [] => [(key, value)]
  | (k, v) :: rest => if k = key then (k, value) :: rest else (k, v) :: put key value rest

/-- The environment with the given keys and texts; of several with one key the last counts. -/
def ofList (pairs : List (String × String)) : Environment :=
  pairs.foldl (fun env p => env.put (keyOf p.1) p.2) []

/-- The text of a key, if it is not empty. -/
def get? (env : Environment) (key : String) : Option String :=
  (env.lookup (lower key)).filter fun v => !v.isEmpty

/-- The texts of a key for single kinds, which the rest of the key names. -/
def perKind (env : Environment) (key : String) : List (String × String) :=
  let marker := (key ++ "_for_").toList
  env.filterMap fun (k, v) =>
    if marker.isPrefixOf k.toList && !v.isEmpty then
      some (String.ofList (k.toList.drop marker.length), v)
    else none

end Environment

/-! ## Single settings -/

/-- Whether a text stands for yes. -/
def isYes (s : String) : Bool := ["true", "1", "yes", "on"].contains (lower (trim s))

/-- What stands between the commas of a text, without blanks around it; nothing empty. -/
def commaList (s : String) : List String :=
  ((splitOn ',' s).map trim).filter fun part => !part.isEmpty

/-- A whole number, the text of a key. -/
def readInteger (key s : String) : Except ConfigFailure Int :=
  match Numeral.int? (trim s) with
  | some n => .ok n
  | none => refuseConfig (.notInteger key s)

/-- A visibility, the text of a key. -/
def readVisibility (key s : String) : Except ConfigFailure String :=
  let name := lower (trim s)
  if visibilities.contains name then .ok name else refuseConfig (.notVisibility key)

/-- The whole number of a key, and those for single kinds. -/
def readCounts (env : Environment) (key : String) :
    Except ConfigFailure (KindScoped (Option Int)) := do
  let default ← (env.get? key).mapM (readInteger key)
  let byKind ← (env.perKind key).mapM fun (kind, s) => do
    return (kind, some (← readInteger s!"{key}_for_{kind}" s))
  return .ofList default byKind

/-- The visibility of a key, and those for single kinds; `protected` if there is none. -/
def readVisibilities (env : Environment) (key : String) :
    Except ConfigFailure (KindScoped String) := do
  let default ← readVisibility key ((env.get? key).getD "protected")
  let byKind ← (env.perKind key).mapM fun (kind, s) => do
    return (kind, ← readVisibility s!"{key}_for_{kind}" s)
  return .ofList default byKind

/-- What a key is read as, and what it is read as for single kinds. -/
def readScoped {α : Type} (env : Environment) (key : String) (default : α) (read : String → α) :
    KindScoped α :=
  .ofList (((env.get? key).map read).getD default)
    ((env.perKind key).map fun (kind, s) => (kind, read s))

/-! ## Rules -/

/-- Rules as they are given: as they are, or as JSON text; null if there are none. -/
def loadRules (source : String) (v : Value) : Except ConfigFailure Value :=
  match v with
  | .text s =>
    match Json.read s with
    | .ok v => .ok v
    | .error .tooDeep => .error (.broken .tooDeep)
    | .error _ => refuseConfig (.notJson source)
  | v => .ok v

/-- The text of a member that counts as nothing unless it counts as true. -/
def textOrEmpty (v : Option Value) : String :=
  let v := Value.orNull v
  if v.truthy then v.display else ""

/-- A limit rule: an object with a limit and perhaps a scope. -/
def readLimitRule (source : String) (v : Value) : Except ConfigFailure LimitRule :=
  match v with
  | .object members =>
    match Document.get? "limit" members with
    | some limit => do
      let scope := textOrEmpty (Document.get? "scope" members)
      return { scope, limit := ← orFault .notANumeral limit.whole? }
    | none => refuseConfig (.limitMissing source)
  | _ => refuseConfig (.limitMissing source)

/-- Limit rules, or none if they are missing. -/
def readLimitRules (source : String) (given : Option Value) :
    Except ConfigFailure (List LimitRule) := do
  match given with
  | none | some .null => return []
  | some v =>
    match ← loadRules source v with
    | .array items => items.mapM (readLimitRule source)
    | _ => refuseConfig (.limitsNotList source)

/-- The fields of a rule of uniqueness: an array, or a text with commas. -/
def readUniqueFields (source : String) (given : Value) : Except ConfigFailure (List Value) := do
  let fields := match given with
    | .text s => Value.array ((commaList s).map .text)
    | v => v
  if fields.truthy then orFault .shape fields.elements?
  else refuseConfig (.fieldsMissing source)

/-- A rule of uniqueness: an object with fields and perhaps a scope. -/
def readUniquenessRule (source : String) (v : Value) : Except ConfigFailure UniquenessRule :=
  match v with
  | .object members => do
    let fields ← readUniqueFields source (Value.orNull (Document.get? "fields" members))
    return { fields, scope := textOrEmpty (Document.get? "scope" members) }
  | _ => refuseConfig (.fieldsMissing source)

/-- Rules of uniqueness, or none if they are missing. -/
def readUniquenessRules (source : String) (given : Option Value) :
    Except ConfigFailure (List UniquenessRule) := do
  let v := Value.orNull given
  if v.truthy then (← orFault .shape v.elements?).mapM (readUniquenessRule source)
  else return []

/-- The family that a constraint names, by its segment or by the word for one record of it. -/
def constraintFamily? (name : String) : Option Family :=
  match name with
  | "entity" => some .entities
  | "list" => some .lists
  | "entity-reaction" => some .entityReactions
  | "list-reaction" => some .listReactions
  | name => Family.ofSegment? name

/-- The family of the records that a constraint demands, if it says so. -/
def readConstraintFamily (source : String) : Value → Except ConfigFailure (Option Family)
  | .null => .ok none
  | .text name =>
    match constraintFamily? name with
    | some f => .ok (some f)
    | none => refuseConfig (.unknownRecord source (.text name))
  | v => if v.isKey then refuseConfig (.unknownRecord source v) else .error (.broken .notAKey)

/-- A constraint: an object with the path of a property, and what is demanded of it. -/
def readConstraint (source : String) (v : Value) : Except ConfigFailure LookupConstraint :=
  match v with
  | .object members => do
    let get (key : String) : Value := Value.orNull (Document.get? key members)
    if (get "propertyPath").truthy then
      return { path := (get "propertyPath").display,
               family := ← readConstraintFamily source (get "record"),
               sourceKind := get "sourceKind", targetKind := get "targetKind" }
    else refuseConfig (.pathMissing source)
  | _ => refuseConfig (.pathMissing source)

/-- Constraints, or none if they are missing. -/
def readConstraints (source : String) (given : Option Value) :
    Except ConfigFailure (List LookupConstraint) := do
  match given with
  | none | some .null => return []
  | some v =>
    match ← loadRules source v with
    | .array items => items.mapM (readConstraint source)
    | _ => refuseConfig (.constraintsNotList source)

/-- Parents are records of the family itself, unless a constraint says otherwise. -/
def withParents (f : Family) (constraints : List LookupConstraint) : List LookupConstraint :=
  if f.hasAccessFields && !constraints.any (fun c => c.path == "_parents") then
    constraints ++ [{ path := "_parents", family := some f }]
  else constraints

/-! ## The whole -/

/-- A text with the letters of ASCII in upper case. -/
def upperKey (s : String) : String := String.ofList (s.toList.map Char.toUpper)

/-- The number of records in an answer, unless configured. -/
def defaultResponseLimit : Int := 50

/-- The rules of a family among those of all. Rules that count as nothing are none. -/
def ownRules (f : Family) (rules : Document) : Except ConfigFailure Document :=
  match Document.get? f.segment rules with
  | some (.object members) => .ok members
  | some v => if v.truthy then .error (.broken .shape) else .ok []
  | none => .ok []

/-- The numbers of entities in a list, which are limits on relations. -/
def readListEntityLimit (f : Family) (env : Environment) :
    Except ConfigFailure (KindScoped (Option Int)) :=
  if f = .relations then readCounts env "record_limit_list_entity_count"
  else .ok { default := none }

/-- The policy of a family. -/
def Policy.read (f : Family) (env : Environment) (rules : Document) :
    Except ConfigFailure Policy := do
  let stem := f.keyStem
  let defaultKind := trim ((env.get? s!"default_{stem}_kind").getD f.defaultKind)
  let named := ((env.get? s!"{stem}_kinds").map commaList).getD []
  let kinds :=
    if named.isEmpty || named.contains defaultKind then named else named ++ [defaultKind]
  let visibility ← readVisibilities env s!"visibility_{stem}"
  let autoapprove := readScoped env s!"autoapprove_{f.approvalStem}" false isYes
  let responseKey := s!"response_limit_{stem}"
  let said ← (env.get? responseKey).mapM (readInteger responseKey)
  let responseLimit := match said with
    | none => defaultResponseLimit
    | some n => if n = 0 then defaultResponseLimit else n
  let ownLimits ← readLimitRules (upperKey f.limitRulesKey) ((env.get? f.limitRulesKey).map .text)
  let own ← ownRules f rules
  let moreLimits ← readLimitRules s!"{f.segment}.record_limits" (Document.get? "record_limits" own)
  let limitCount ← readCounts env s!"record_limit_{stem}_count"
  let constraintsKey := s!"{stem}_lookup_constraint"
  let ownConstraints ←
    readConstraints (upperKey constraintsKey) ((env.get? constraintsKey).map .text)
  let moreConstraints ←
    readConstraints s!"{f.segment}.lookup_constraints" (Document.get? "lookup_constraints" own)
  let listEntityLimit ← readListEntityLimit f env
  let uniquenessRules ←
    readUniquenessRules s!"{f.segment}.uniqueness" (Document.get? "uniqueness" own)
  return {
    family := f
    collection := (env.get? s!"collection_{stem}").getD f.collection
    kinds, defaultKind, visibility, autoapprove, responseLimit
    limitRules := ownLimits ++ moreLimits
    limitCount
    limitScope := readScoped env s!"record_limit_{stem}_scope" "" id
    uniqueFields := readScoped env s!"uniqueness_{stem}_fields" [] commaList
    uniqueScope := readScoped env s!"uniqueness_{stem}_scope" "" id
    uniquenessRules, listEntityLimit
    constraints := withParents f (ownConstraints ++ moreConstraints) }

/-- The policy of a family for which nothing is configured. -/
def Policy.standard (f : Family) : Policy where
  family := f
  collection := f.collection
  kinds := []
  defaultKind := f.defaultKind
  visibility := { default := "protected" }
  autoapprove := { default := false }
  responseLimit := defaultResponseLimit
  limitRules := []
  limitCount := { default := none }
  limitScope := { default := "" }
  uniqueFields := { default := [] }
  uniqueScope := { default := "" }
  uniquenessRules := []
  listEntityLimit := { default := none }
  constraints := withParents f []

theorem Policy.read_nil (f : Family) : Policy.read f [] [] = .ok (Policy.standard f) := by
  cases f <;> rfl

/-- The configuration of an installation that has chosen nothing. -/
def Configuration.standard : Configuration where
  policy := Policy.standard

/-- The rules of all families, an object. Rules that count as nothing are none. -/
def familyRules (v : Value) : Except ConfigFailure Document :=
  match v with
  | .object members =>
    let unknown := (Document.keys members).filter fun key => (Family.ofSegment? key).isNone
    if unknown.isEmpty then .ok members
    else refuseConfig (.unknownFamilies (unknown.mergeSort fun a b => decide (a ≤ b)))
  | v => if v.truthy then refuseConfig .rulesNotObject else .ok []

/-- Reads the text of the rules, which is JSON, as YAML. An empty text says nothing, and there must
    be one if the environment says where it is. -/
def readRules (env : Environment) : Option String → Except ConfigFailure Document
  | none => if (env.get? "rules_file").isSome then .error (.broken .shape) else .ok []
  | some s =>
    match Yaml.read? s with
    | some v => familyRules v
    | none => .error (.broken .shape)

/-- Reads a configuration from settings, an environment and the text of the rules, if there is
    one. -/
def Configuration.read (settings : Settings) (env : Environment) (rules : Option String) :
    Except ConfigFailure Configuration := do
  let rules ← readRules env rules
  let entities ← Policy.read .entities env rules
  let lists ← Policy.read .lists env rules
  let entityReactions ← Policy.read .entityReactions env rules
  let listReactions ← Policy.read .listReactions env rules
  let relations ← Policy.read .relations env rules
  let accessControl := ((env.get? "access_control").map isYes).getD settings.accessControl
  return { settings with
    accessControl
    policy := fun
      | .entities => entities
      | .lists => lists
      | .entityReactions => entityReactions
      | .listReactions => listReactions
      | .relations => relations }

end Catalog
