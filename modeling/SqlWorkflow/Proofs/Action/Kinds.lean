import SqlWorkflow.Action.Basic
import SqlWorkflow.Action.Normalize

/-!
# Kinds and variants

Eight kinds of config make six variants of action. A config that was normalized
for a kind has the details which that kind calls for, so an action that is built
from them has the variant of the kind.
-/

namespace SqlWorkflow.Action

/-- The variant of the actions of a kind. -/
def Kind.variant : Kind → Variant
  | .table | .view | .incremental => .table
  | .operation => .operation
  | .assertion => .assertion
  | .declaration => .declaration
  | .notebook => .notebook
  | .dataPreparation => .dataPreparation

def Details.variant : Details → Variant
  | .table _ => .table
  | .operation _ => .operation
  | .assertion => .assertion
  | .declaration => .declaration
  | .notebook => .notebook
  | .dataPreparation => .dataPreparation

/-- The details of a config are those of a kind: of its variant and, for a
table, of its type. -/
structure Details.Suit (details : Details) (kind : Kind) : Prop where
  variant : details.variant = kind.variant
  type : ∀ table, details = .table table → table.type = kind.tableType

theorem type_of_readTable {kind : Kind} {written : WrittenConfig}
    {config : TableConfig} (h : readTable kind written = .ok config) :
    config.type = kind.tableType := by
  simp only [readTable] at h
  split at h
  · cases h
  · split at h
    · cases h
    · split at h
      · cases h
      · split at h
        · cases h
        · cases hchecks : readChecks written.checks with
          | error e => rw [hchecks] at h; cases h
          | ok checks => rw [hchecks] at h; cases h; rfl

theorem suit_of_readDetails {kind : Kind} {written : WrittenConfig}
    {file : String} {details : Details}
    (h : readDetails kind written file = .ok details) : details.Suit kind := by
  have htable (hread : ((readTable kind written).mapError fun fault =>
      CompileError.invalidActionConfig file fault).map Details.table =
      .ok details) (hkind : kind.variant = .table) : details.Suit kind := by
    cases hconfig : readTable kind written with
    | error e => rw [hconfig] at hread; cases hread
    | ok config =>
      rw [hconfig] at hread
      cases hread
      refine ⟨hkind.symm, ?_⟩
      rintro _ ⟨rfl⟩
      exact type_of_readTable hconfig
  cases kind with
  | table | view | incremental => exact htable h rfl
  | operation =>
    cases hchecks : readChecks written.checks with
    | error e => simp only [readDetails, hchecks] at h; cases h
    | ok checks =>
      simp only [readDetails, hchecks] at h
      cases h
      exact ⟨rfl, fun _ heq => nomatch heq⟩
  | assertion => cases h; exact ⟨rfl, fun _ heq => nomatch heq⟩
  | declaration | notebook | dataPreparation =>
    simp only [readDetails] at h
    split at h
    · cases h
    · cases h
      exact ⟨rfl, fun _ heq => nomatch heq⟩

/-- What a config that was normalized is built from. -/
theorem exists_build_of_normalize {value : Json} {kind : Kind} {source : Source}
    {file : String} {config : Config}
    (h : normalize value kind source file = .ok config) :
    ∃ members written, value = .object members ∧
      WrittenConfig.ofMembers members = .ok written ∧
      build kind written file = .ok config := by
  rw [normalize.eq_def] at h
  split at h
  · rename_i members
    split at h
    · cases h
    · split at h
      · cases h
      · rename_i written hwritten
        split at h
        · cases h
        · exact ⟨members, written, rfl, hwritten, h⟩
  · cases h

/-- A normalized config is of the kind that it was normalized for. -/
theorem kind_of_normalize {value : Json} {kind : Kind} {source : Source}
    {file : String} {config : Config}
    (h : normalize value kind source file = .ok config) :
    config.kind = kind ∧ config.details.Suit kind := by
  obtain ⟨-, written, -, -, hbuild⟩ := exists_build_of_normalize h
  rw [build] at hbuild
  split at hbuild
  · cases hbuild
  · cases hdetails : readDetails kind written file with
    | error e => rw [hdetails] at hbuild; cases hbuild
    | ok details =>
      rw [hdetails] at hbuild
      cases hbuild
      exact ⟨rfl, suit_of_readDetails hdetails⟩

end SqlWorkflow.Action
