import SqlWorkflow.Compile.Basic
import SqlWorkflow.Proofs.Project.Path

/-!
# Files that listings refer to

An entry of a listing names the file that its action is compiled from by a path
relative to the listing. From any listing every file of the project can be named
in this way, whichever directories the two lie in: by the way up to the root and
the path of the file. Other names of files are resolved as their text says.
-/

namespace SqlWorkflow.Compile

open SqlWorkflow.Action (Kind)
open Project (FoldsTo Normalized ResolvedLexically StaysWithin climb components
  directory pieces resolveRelative)

/-- An entry of a listing describes an action of a kind that is compiled from a
file, and gives a name for the file. -/
structure Refers (listing : String) (entry : Json) (kind : Kind)
    (config : Action.Config) (name : String) : Prop where
  exists_value : ∃ value, entryConfig listing entry = .ok (kind, value) ∧
    Action.normalize value kind .listing listing = .ok config
  kind_ne : kind ≠ .declaration
  filename_eq : config.filename = some name

/-- What an entry yields that is compiled from a file. -/
def findingsFrom (kind : Kind) (config : Action.Config)
    (file contents : String) : List Finding :=
  (contentOf kind file contents).1 ++ [.definition ⟨file, config,
    Sqlx.actionName file, (contentOf kind file contents).2⟩]

section Referring

variable {listing name contents : String} {entry : Json} {kind : Kind}
  {config : Action.Config} {context : Context}

/-- An entry that refers to a file of the project is compiled from it. -/
theorem readEntry_of_refers (h : Refers listing entry kind config name)
    (hfile : Dictionary.get? context.files (resolveRelative listing name) =
      some contents) :
    readEntry context listing entry = .ok
      (findingsFrom kind config (resolveRelative listing name) contents) := by
  obtain ⟨value, hentry, hconfig⟩ := h.exists_value
  rw [readEntry, hentry]
  dsimp only
  rw [hconfig]
  dsimp only
  rw [readConfig, if_neg h.kind_ne, h.filename_eq]
  dsimp only
  rw [hfile]
  rfl

/-- The entry that says nothing but the kind of its action and the name of a
file. -/
def plainEntry (kind : Kind) (name : String) : Json :=
  .object [(kind.name, .object [("filename", .string name)])]

/-- What is written in such an entry. -/
def plainConfig (name : String) : Action.WrittenConfig :=
  { Action.WrittenConfig.empty with filename := some name }

theorem exists_details (h : kind ≠ .declaration) (hname : name ≠ "")
    (listing : String) :
    ∃ details, Action.readDetails kind (plainConfig name) listing =
      .ok details := by
  have hgiven : ¬ name.isEmpty = true := by rwa [String.isEmpty_iff]
  cases kind with
  | declaration => cases h rfl
  | table | view | incremental | operation | assertion => exact ⟨_, rfl⟩
  | notebook | dataPreparation => exact ⟨_, if_neg hgiven⟩

/-- Actions of all kinds that are compiled from a file can be listed by the name
of the file alone. -/
theorem exists_refers_plainEntry (h : kind ≠ .declaration) (hname : name ≠ "")
    (listing : String) :
    ∃ config, Refers listing (plainEntry kind name) kind config name := by
  obtain ⟨details, hdetails⟩ := exists_details h hname listing
  have hentry : entryConfig listing (plainEntry kind name) =
      .ok (kind, .object [("filename", .string name)]) := by
    cases kind <;> rfl
  have hconfig : Action.normalize (.object [("filename", .string name)]) kind
      .listing listing = Action.build kind (plainConfig name) listing := by
    cases kind with
    | declaration => cases h rfl
    | _ => rfl
  have hunnamed : (plainConfig name).name ≠ some "" := by
    intro hname
    cases hname
  rw [Action.build, if_neg hunnamed, hdetails] at hconfig
  exact ⟨_, ⟨_, hentry, hconfig⟩, h, rfl⟩

end Referring

/-- Entries for all kinds of actions that are compiled from a file can give a
name for it, and those that give the name are compiled from this file, whatever
else they say. -/
structure NamesFile (listing name file : String) : Prop where
  exists_entry : ∀ kind ≠ .declaration, ∃ config,
    Refers listing (plainEntry kind name) kind config name
  readEntry_eq : ∀ {entry kind config}, Refers listing entry kind config name →
    ∀ (context : Context) {contents}, Dictionary.get? context.files file =
      some contents →
      readEntry context listing entry =
        .ok (findingsFrom kind config file contents)

theorem namesFile_resolveRelative {name : String} (h : name ≠ "")
    (listing : String) :
    NamesFile listing name (resolveRelative listing name) where
  exists_entry _ hkind := exists_refers_plainEntry hkind h listing
  readEntry_eq hrefers _ _ hfile := readEntry_of_refers hrefers hfile

/-- Every file can be referred to from every listing: the way up to the root and
the path of the file are resolved to the file. Any other name that a listing may
give is resolved as its text says. -/
theorem addressable_from_listing {listing : String} (h : Normalized listing) :
    (∀ file, Normalized file →
      resolveRelative listing (climb (directory listing).length ++ file) =
        file ∧
        NamesFile listing (climb (directory listing).length ++ file) file) ∧
      ∀ name, ResolvedLexically listing name := by
  constructor
  · intro file hfile
    have hresolved := Project.resolveRelative_climb listing hfile
    have hgiven : climb (directory listing).length ++ file ≠ "" :=
      fun hempty => hfile.ne_empty (String.append_eq_empty_iff.1 hempty).2
    have hnames := namesFile_resolveRelative hgiven listing
    rw [hresolved] at hnames
    exact ⟨hresolved, hnames⟩
  · exact Project.resolvedLexically h

/-- A project with a file outside of the definitions. -/
def shelvedContext : Context :=
  ⟨[("sql/orders.sql", "DELETE FROM orders")], Script.noRuntime, .empty, []⟩

theorem addressable_from_listing_orders :
    Normalized "definitions/sales/actions.yaml" ∧ Normalized "sql/orders.sql" ∧
      resolveRelative "definitions/sales/actions.yaml" "../../sql/orders.sql" =
        "sql/orders.sql" ∧
      (∃ config, Refers "definitions/sales/actions.yaml" (plainEntry .operation
        "../../sql/orders.sql") .operation config "../../sql/orders.sql" ∧
        readEntry shelvedContext "definitions/sales/actions.yaml"
          (plainEntry .operation "../../sql/orders.sql") =
          .ok (findingsFrom .operation config "sql/orders.sql"
            "DELETE FROM orders")) ∧
      StaysWithin 2 (pieces "../..//sql/./orders.sql") ∧
      FoldsTo (directory "definitions/sales/actions.yaml" ++
        pieces "../..//sql/./orders.sql") (components "sql/orders.sql") ∧
      resolveRelative "definitions/sales/actions.yaml"
        "../../sql/./orders.sql" = "sql/orders.sql" := by
  have hlisting : Normalized "definitions/sales/actions.yaml" := by decide
  have hfile : Normalized "sql/orders.sql" := by decide
  obtain ⟨hfiles, hnames⟩ := addressable_from_listing hlisting
  obtain ⟨hresolved, hnamed⟩ := hfiles _ hfile
  obtain ⟨config, hrefers⟩ := hnamed.exists_entry .operation (by decide)
  have hread := hnamed.readEntry_eq hrefers shelvedContext rfl
  have hwithin : StaysWithin 2 (pieces "../..//sql/./orders.sql") := by decide
  have hfolds := ((hnames "../..//sql/./orders.sql").foldsTo_iff
    (components "sql/orders.sql")).2 ⟨hwithin, by decide⟩
  have hinserted :=
    (hnames "../../sql/orders.sql").insert "../../sql/" "orders.sql" (by decide)
      (.inr ⟨"../../sql", by decide⟩) "./" List.mem_cons_self
  exact ⟨hlisting, hfile, hresolved, ⟨config, hrefers, hread⟩, hwithin, hfolds,
    hinserted.trans hresolved⟩

end SqlWorkflow.Compile
