import SqlWorkflow.Action.Options
import SqlWorkflow.Settings.Json

/-!
# Options of actions as JSON

What is empty or not set is left out.
-/

namespace SqlWorkflow.Action

open Json (Members)

def Column.toJson (c : Column) : Json :=
  .object ((if c.description.isEmpty then
    [] else Members.one "description" (.string c.description)) ++
    Members.nonEmpty "bigqueryPolicyTags" .string c.policyTags)

/-- The documentation of several columns, by name. -/
def columnsToJson (columns : Dictionary Column) : Json :=
  .object (columns.map fun pair => (pair.1, pair.2.toJson))

def BigQueryOptions.toJson (o : BigQueryOptions) : Json :=
  .object (Members.optional "partitionBy" .string o.partitionBy ++
    Members.nonEmpty "clusterBy" .string o.clusterBy ++
    Members.optional "updatePartitionFilter" .string o.updatePartitionFilter ++
    Dictionary.toMember "labels" o.labels ++ Members.optional
      "partitionExpirationDays" Json.ofNat o.partitionExpirationDays ++
    Members.optional "requirePartitionFilter" .bool o.requirePartitionFilter ++
    Dictionary.toMember "additionalOptions" o.additionalOptions)

end SqlWorkflow.Action
