import SqlWorkflow.Action.ConfigType
import SqlWorkflow.Action.Normalize

/-!
# Why a config is refused

Normalization checks the form of a config first: one that is no object is
refused as such. The fault of an object lies in its members.
-/

namespace SqlWorkflow.Action

/-- The fault is in the members of a config, not in a config that is no
object. -/
def Fault.InMembers (fault : Fault) : Prop :=
  ∀ kind typeName, fault ≠ .notAnObject kind typeName

theorem inMembers_typeFault (kind : Kind) (mismatch : Json.Mismatch)
    (members : Json.Members) : (typeFault kind mismatch members).InMembers := by
  induction members with
  | nil => nofun
  | cons member rest ih =>
    obtain ⟨key, value⟩ := member
    rw [typeFault]
    split
    · nofun
    · exact ih

theorem inMembers_of_readChecks {written : Option WrittenChecks} {fault : Fault}
    (h : readChecks written = .error fault) : fault.InMembers := by
  unfold readChecks at h
  split at h
  · cases h
  · split at h
    · cases h
      nofun
    · dsimp only at h
      split at h
      · cases h
        nofun
      · cases h

theorem TypedOption.inMembers_of_check {o : TypedOption} {kind : Kind}
    {materialized partitioned : Bool} {free : Dictionary String} {fault : Fault}
    (h : o.check kind materialized partitioned free = .error fault) :
    fault.InMembers := by
  unfold TypedOption.check at h
  repeat' split at h
  all_goals cases h
  all_goals nofun

theorem inMembers_of_readBigQuery {kind : Kind} {materialized : Bool}
    {written : WrittenBigQuery} {fault : Fault}
    (h : readBigQuery kind materialized written = .error fault) :
    fault.InMembers := by
  unfold readBigQuery at h
  dsimp only at h
  split at h
  · rename_i hexpiration
    cases h
    exact TypedOption.inMembers_of_check hexpiration
  · split at h
    · rename_i hfilter
      cases h
      exact TypedOption.inMembers_of_check hfilter
    · cases h

theorem inMembers_of_readTable {kind : Kind} {written : WrittenConfig}
    {fault : Fault}
    (h : readTable kind written = .error fault) : fault.InMembers := by
  unfold readTable at h
  dsimp only at h
  split at h
  · cases h
    nofun
  split at h
  · cases h
    nofun
  split at h
  · cases h
    nofun
  split at h
  · rename_i hbigquery
    cases h
    cases hwritten : written.bigquery with
    | none =>
      rw [hwritten] at hbigquery
      cases hbigquery
    | some options =>
      rw [hwritten] at hbigquery
      cases hoptions :
        readBigQuery kind (written.materialized.getD false) options with
      | ok read =>
        simp only [Option.mapM_some, hoptions] at hbigquery
        cases hbigquery
      | error fault =>
        simp only [Option.mapM_some, hoptions] at hbigquery
        cases hbigquery
        exact inMembers_of_readBigQuery hoptions
  · cases hchecks : readChecks written.checks with
    | error e =>
      rw [hchecks] at h
      cases h
      exact inMembers_of_readChecks hchecks
    | ok checks =>
      rw [hchecks] at h
      cases h

/-- A fatal error that tells of the form of no config. -/
def FormAccepted (e : CompileError) : Prop :=
  ∀ file kind typeName, e ≠
    .invalidActionConfig file (.notAnObject kind typeName)

theorem Fault.InMembers.formAccepted {fault : Fault} (h : fault.InMembers)
    (file : String) : FormAccepted (.invalidActionConfig file fault) := by
  intro other kind typeName heq
  injection heq with _ hfault
  exact h kind typeName hfault

theorem formAccepted_of_mapError {α : Type} {file : String}
    {result : Except Fault α} {e : CompileError}
    (hresult : ∀ fault, result = .error fault → fault.InMembers)
    (h : (result.mapError fun fault => CompileError.invalidActionConfig file
      fault) = .error e) : FormAccepted e := by
  cases result with
  | error fault =>
    cases h
    exact (hresult fault rfl).formAccepted file
  | ok => cases h

theorem formAccepted_of_readDetails {kind : Kind} {written : WrittenConfig}
    {file : String} {e : CompileError}
    (h : readDetails kind written file = .error e) : FormAccepted e := by
  have herror {α : Type} {result : Except CompileError α} {f : α → Details}
      (hmap : result.map f = .error e) : result = .error e := by
    cases result with
    | error => cases hmap; rfl
    | ok => cases hmap
  cases kind with
  | table | view | incremental =>
    exact formAccepted_of_mapError (fun _ => inMembers_of_readTable) (herror h)
  | operation =>
    exact formAccepted_of_mapError (fun _ => inMembers_of_readChecks) (herror h)
  | assertion => cases h
  | declaration =>
    simp only [readDetails] at h
    split at h
    · cases h
      nofun
    · cases h
  | notebook | dataPreparation =>
    simp only [readDetails] at h
    split at h
    · cases h
      nofun
    · cases h

/-- The config of an action is refused for its form only if it is no object. -/
theorem formAccepted_of_normalize {members : Json.Members} {kind : Kind}
    {source : Source} {file : String} {e : CompileError}
    (h : normalize (.object members) kind source file = .error e) :
    FormAccepted e := by
  simp only [normalize] at h
  split at h
  · cases h
    nofun
  split at h
  · rename_i mismatch _
    cases h
    exact (inMembers_typeFault kind mismatch members).formAccepted file
  split at h
  · cases h
    nofun
  rename_i written _ _
  rw [build] at h
  split at h
  · cases h
    nofun
  cases hdetails : readDetails kind written file with
  | error fault =>
    rw [hdetails] at h
    cases h
    exact formAccepted_of_readDetails hdetails
  | ok details =>
    rw [hdetails] at h
    cases h

end SqlWorkflow.Action
