/-!
# Documentation pages

Fatal messages point at a page of the reference documentation.
-/

namespace SqlWorkflow.Documentation

def baseUrl : String := "https://cloud.google.com/dataform/docs"

/-- The reference of action configs, at an anchor. -/
def configsUrl (anchor : String) : String :=
  baseUrl ++ "/config-reference#" ++ anchor

def settingsUrl : String :=
  baseUrl ++ "/workflow-settings"

end SqlWorkflow.Documentation
