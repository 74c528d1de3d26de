import Catalog.Policy.Basic
import Catalog.Value.Display

/-!
# Why a configuration is refused

The causes for which the settings of an installation cannot be used, each with the sentence that
tells its keeper.
-/

namespace Catalog

/-- Why settings cannot be used. -/
inductive ConfigError where
  /-- A setting that should be a whole number is none. -/
  | notInteger (key value : String)
  /-- A setting that should be a visibility is none. -/
  | notVisibility (key : String)
  /-- Rules given as text are no JSON. -/
  | notJson (source : String)
  /-- Limit rules are no list. -/
  | limitsNotList (source : String)
  /-- A limit rule has no limit. -/
  | limitMissing (source : String)
  /-- A rule of uniqueness has no fields. -/
  | fieldsMissing (source : String)
  /-- Constraints are no list. -/
  | constraintsNotList (source : String)
  /-- A constraint is about no property. -/
  | pathMissing (source : String)
  /-- A constraint names a family that does not exist. -/
  | unknownRecord (source : String) (record : Value)
  /-- The rules are no object. -/
  | rulesNotObject
  /-- The rules are about families that do not exist. -/
  | unknownFamilies (names : List String)

/-- The sentence that tells the keeper of the installation. -/
def ConfigError.message : ConfigError → String
  | .notInteger key value =>
    s!"Configuration '{key}' must be an integer, got {(Value.text value).inline}"
  | .notVisibility key =>
    s!"Configuration '{key}' must be one of " ++ ", ".intercalate visibilities
  | .notJson source => s!"{source} is not valid JSON"
  | .limitsNotList source => s!"{source} must be a list of " ++ "\x7bscope, limit\x7d objects"
  | .limitMissing source => s!"{source}: every rule needs a 'limit'"
  | .fieldsMissing source => s!"{source}: every uniqueness rule needs 'fields'"
  | .constraintsNotList source =>
    s!"{source} must be a list of " ++ "\x7bpropertyPath, record, ...\x7d objects"
  | .pathMissing source => s!"{source}: every constraint needs a 'propertyPath'"
  | .unknownRecord source record => s!"{source}: unknown record type '{record.display}'"
  | .rulesNotObject => "Rules file <rules> must contain a mapping"
  | .unknownFamilies names =>
    "Rules file <rules> names unknown families: " ++ ", ".intercalate names

/-- How reading a configuration fails. -/
inductive ConfigFailure where
  /-- A setting cannot be used. -/
  | refused (e : ConfigError)
  /-- A setting has a shape that no rule covers. -/
  | broken (f : Fault)

instance : MonadLift (Except Fault) (Except ConfigFailure) where
  monadLift
    | .ok a => .ok a
    | .error f => .error (.broken f)

/-- Refuses a configuration. -/
def refuseConfig {α : Type} (e : ConfigError) : Except ConfigFailure α := .error (.refused e)

end Catalog
