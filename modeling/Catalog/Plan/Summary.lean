import Catalog.Plan.Basic

/-!
# Summaries of plans

A short account of a plan for those who read it: of each stage its name and the facts that tell it
from others of that name. Conditions are left out.
-/

namespace Catalog

namespace Stage

/-- The name of a stage. -/
def name : Stage → String
  | .select _ => "match"
  | .join _ _ _ => "join"
  | .reshape _ _ => "reshape"
  | .sort _ => "sort"
  | .skip _ => "skip"
  | .limit _ => "limit"
  | .project _ => "project"
  | .lookup _ => "lookup"
  | .includes _ _ => "include"

/-- The facts of a stage that its summary tells. -/
def facts : Stage → Document
  | .join field target as =>
    [("local", .text field), ("target", .text target.segment), ("as_", .text as)]
  | .sort keys => [("keys", .array (keys.map fun k =>
      .text (k.path ++ " " ++ if k.descending then "DESC" else "ASC")))]
  | .skip count => [("count", .int count)]
  | .limit count => [("count", .int count)]
  | .lookup lookups => [("props", .array (lookups.map fun l => .text l.name))]
  | _ => []

/-- The summary of a stage. -/
def summary (s : Stage) : Document := ("stage", .text s.name) :: s.facts

end Stage

/-- The summary of a plan: one entry for each stage, in order. -/
def Plan.summary (plan : Plan) : List Document := plan.stages.map Stage.summary

end Catalog
