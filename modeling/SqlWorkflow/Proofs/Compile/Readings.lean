import SqlWorkflow.Compile.Source
import SqlWorkflow.Proofs.Compile.Identities

/-!
# Reading a project elsewhere

The same files may be read with another configuration, and with other texts for
some of them. With a script runtime that ignores the configuration, a file
yields the same definitions, but for the texts that their actions are compiled
from; and it cannot be read in the one case if it cannot in the other. A listing
depends on the other files as well, but only on which of those that it refers to
there are.
-/

namespace SqlWorkflow

/-- A script runtime that answers without regard to the configuration that a
request shows it. -/
def Script.IgnoresConfig (evaluator : Script.Evaluator) : Prop :=
  ∀ (request : Script.Request) (config : Settings.Config),
    evaluator { request with config := config } = evaluator request

namespace Compile

/-- The context of the same project in another environment. -/
def Context.elsewhere (context : Context) (files : Project.Files)
    (config : Settings.Config) : Context :=
  { context with files := files, config := config }

/-- The file that an entry of a listing refers to. -/
def referredFile? (path : String) (entry : Json) : Option String :=
  match entryConfig path entry with
  | .error _ => none
  | .ok (kind, value) =>
    match Action.normalize value kind .listing path with
    | .error _ => none
    | .ok config => config.filename.map (Project.resolveRelative path)

/-- An entry of some listing of the project refers to a file. -/
def RefersTo (files : Project.Files) (file : String) : Prop :=
  ∃ listing ∈ files, SourceKind.of listing.1 = .listing ∧
    ∃ entries, listedEntries listing.1 listing.2 = .ok entries ∧
      ∃ entry ∈ entries, referredFile? listing.1 entry = some file

/-- Both projects have a file with the path, or neither has one. -/
def HaveAlike (files others : Project.Files) (file : String) : Prop :=
  (Dictionary.get? files file).isSome = (Dictionary.get? others file).isSome

section Collect

variable {α : Type} {read other : α → Except CompileError (List Finding)}
  {as : List α}

theorem findings_all (read : α → Reading) (as : List α) :
    (Reading.all read as).findings =
      collect (fun a => (read a).findings) as := by
  induction as with
  | nil => rfl
  | cons a as ih =>
    rw [Reading.all, collect]
    cases (read a).findings with
    | error e => rfl
    | ok findings => rw [← ih]

/-- Items that yield nothing may be left out. -/
theorem collect_filter (keep : α → Bool)
    (h : ∀ a ∈ as, keep a = false → read a = .ok []) :
    collect read (as.filter keep) = collect read as := by
  induction as with
  | nil => rfl
  | cons a as ih =>
    have hrest := ih fun b hb => h b (List.mem_cons_of_mem a hb)
    cases hkeep : keep a with
    | true => rw [List.filter_cons_of_pos hkeep, collect, collect, hrest]
    | false =>
      rw [List.filter_cons_of_neg (by simp [hkeep]), collect,
        h a List.mem_cons_self hkeep, hrest]
      cases collect read as <;> rfl

theorem outline_collect_cons (read : α → Except CompileError (List Finding))
    (a : α) (as : List α) :
    (collect read (a :: as)).map outline = match (read a).map outline with
      | .error e => .error e
      | .ok definitions =>
        ((collect read as).map outline).map (definitions ++ ·) := by
  rw [collect]
  cases read a with
  | error e => rfl
  | ok findings =>
    cases collect read as with
    | error e => rfl
    | ok rest => exact congrArg Except.ok (outline_append findings rest)

/-- Items with the same outlines have the same outline together, or fail with
the same error. -/
theorem outline_collect
    (h : ∀ a ∈ as, (read a).map outline = (other a).map outline) :
    (collect read as).map outline = (collect other as).map outline := by
  induction as with
  | nil => rfl
  | cons a as ih =>
    have hrest := ih fun b hb => h b (List.mem_cons_of_mem a hb)
    rw [outline_collect_cons, outline_collect_cons,
      h a List.mem_cons_self, hrest]

end Collect

/-- Only diagnostics come before the action that is compiled from a file. -/
theorem outline_contentOf (kind : Action.Kind) (file contents : String) :
    outline (contentOf kind file contents).1 = [] := by
  cases kind <;> try rfl
  rw [contentOf]
  cases notebookText contents <;> rfl

theorem bare_contentOf (kind : Action.Kind) (file contents other : String) :
    (contentOf kind file contents).2.bare =
      (contentOf kind file other).2.bare := by
  cases kind <;> try rfl
  rw [contentOf, contentOf]
  cases notebookText contents <;> cases notebookText other <;> rfl

section Elsewhere

variable {context : Context} (files : Project.Files) (config : Settings.Config)

theorem findings_readSqlFile (hignores : Script.IgnoresConfig context.evaluator)
    (path text : String) :
    (readSqlFile (context.elsewhere files config) path text).findings =
      (readSqlFile context path text).findings := by
  rw [readSqlFile, readSqlFile]
  cases Sqlx.extractBlocks text with
  | error e => rfl
  | ok blocks =>
    dsimp only
    rw [readBlocks, readBlocks]
    cases blocks.config with
    | none => rfl
    | some content =>
      dsimp only
      have hanswer : (context.elsewhere files config).evaluator
          (configRequest (context.elsewhere files config) path content blocks) =
            context.evaluator (configRequest context path content blocks) :=
        hignores (configRequest context path content blocks) config
      cases literalConfig? content with
      | some value => rfl
      | none =>
        dsimp only
        rw [hanswer]
        cases context.evaluator (configRequest context path content blocks) <;>
          rfl

theorem findings_readScriptFile
    (hignores : Script.IgnoresConfig context.evaluator) (path text : String) :
    (readScriptFile (context.elsewhere files config) path text).findings =
      (readScriptFile context path text).findings := by
  have hanswer : (context.elsewhere files config).evaluator
      (definitionRequest (context.elsewhere files config) path text) =
        context.evaluator (definitionRequest context path text) :=
    hignores (definitionRequest context path text) config
  rw [readScriptFile, readScriptFile, hanswer]
  cases context.evaluator (definitionRequest context path text) <;> rfl

theorem outline_readConfig (path : String) (kind : Action.Kind)
    (actionConfig : Action.Config)
    (hpresent : ∀ name, actionConfig.filename = some name →
      HaveAlike context.files files (Project.resolveRelative path name)) :
    (readConfig (context.elsewhere files config) path kind actionConfig).map
      outline =
      (readConfig context path kind actionConfig).map outline := by
  rw [readConfig, readConfig]
  split
  · rfl
  · cases hname : actionConfig.filename with
    | none => rfl
    | some name =>
      have hsome := hpresent name hname
      dsimp only [Context.elsewhere]
      cases hfile :
        Dictionary.get? context.files (Project.resolveRelative path name) with
      | none =>
        cases hother :
          Dictionary.get? files (Project.resolveRelative path name) with
        | none => rfl
        | some other =>
          rw [HaveAlike, hfile, hother] at hsome
          cases hsome
      | some contents =>
        cases hother :
          Dictionary.get? files (Project.resolveRelative path name) with
        | none =>
          rw [HaveAlike, hfile, hother] at hsome
          cases hsome
        | some other =>
          dsimp only
          apply congrArg Except.ok
          rw [outline_append, outline_append, outline_contentOf,
            outline_contentOf]
          exact congrArg
            (fun content => [Definition.mk _ actionConfig _ content])
            (bare_contentOf kind _ other contents)

theorem outline_readEntry (path : String) (entry : Json)
    (hpresent : ∀ file, referredFile? path entry = some file →
      HaveAlike context.files files file) :
    (readEntry (context.elsewhere files config) path entry).map outline =
      (readEntry context path entry).map outline := by
  rw [readEntry, readEntry]
  cases hentry : entryConfig path entry with
  | error e => rfl
  | ok pair =>
    obtain ⟨kind, value⟩ := pair
    dsimp only
    cases hconfig : Action.normalize value kind .listing path with
    | error e => rfl
    | ok actionConfig =>
      apply outline_readConfig
      intro name hname
      apply hpresent
      rw [referredFile?, hentry]
      dsimp only
      rw [hconfig]
      dsimp only
      rw [hname, Option.map_some]

theorem outline_readListing (path text : String)
    (hpresent : ∀ entries, listedEntries path text = .ok entries →
      ∀ entry ∈ entries, ∀ file, referredFile? path entry = some file →
        HaveAlike context.files files file) :
    (readListing (context.elsewhere files config) path text).findings.map
      outline =
      (readListing context path text).findings.map outline := by
  simp only [readListing, Reading.plain, listedFindings]
  cases hentries : listedEntries path text with
  | error e => rfl
  | ok entries =>
    cases entries with
    | nil => rfl
    | cons entry rest =>
      apply outline_collect
      intro entry hentry
      exact outline_readEntry files config path entry
        (hpresent _ hentries entry hentry)

/-- A file yields the same definitions elsewhere, but for their texts. -/
theorem outline_readFile (hignores : Script.IgnoresConfig context.evaluator)
    {file : String × String} (hfile : file ∈ context.files)
    (hpresent : ∀ referred, RefersTo context.files referred →
      HaveAlike context.files files referred) :
    (readFile (context.elsewhere files config) file).findings.map outline =
      (readFile context file).findings.map outline := by
  rw [readFile, readFile]
  cases hkind : SourceKind.of file.1 with
  | sqlTemplate =>
    exact congrArg (·.map outline)
      (findings_readSqlFile files config hignores _ _)
  | script =>
    exact congrArg (·.map outline)
      (findings_readScriptFile files config hignores _ _)
  | listing =>
    apply outline_readListing
    intro entries hentries entry hentry referred hreferred
    exact hpresent referred
      ⟨file, hfile, hkind, entries, hentries, entry, hentry, hreferred⟩
  | referenced => rfl

end Elsewhere

end Compile

end SqlWorkflow
