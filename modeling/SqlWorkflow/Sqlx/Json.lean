import SqlWorkflow.Json.Members
import SqlWorkflow.Sqlx.File

/-!
# Blocks as an object

The blocks of a file are written as one object. Blocks that the file does not
have are left out of it.
-/

namespace SqlWorkflow.Sqlx

open Json (Members)

def Blocks.toJson (blocks : Blocks) : Json :=
  .object (Members.optional "config" .string blocks.config ++
    Members.optional "script" .string blocks.script ++
    Members.one "preOperations" (Json.strings blocks.preOperations) ++
    Members.one "postOperations" (Json.strings blocks.postOperations) ++
    Members.one "body" (.string blocks.body))

end SqlWorkflow.Sqlx
