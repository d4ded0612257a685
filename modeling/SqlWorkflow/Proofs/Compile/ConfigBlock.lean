import SqlWorkflow.Compile.SqlFile
import SqlWorkflow.Proofs.Action.Refusals
import SqlWorkflow.Proofs.Compile.Registered
import SqlWorkflow.Proofs.Expr.Balanced
import SqlWorkflow.Proofs.Sqlx.Assembly

/-!
# Where a config block ends

The end of a config block is found by counting braces in the file; its content
is then read as the inside of an object. Both agree on where the block ends, so
a config block that is a literal is an object.
-/

namespace SqlWorkflow.Compile

open Lexical (closing?)

/-- Every block of a cut that fits stands in its place. -/
theorem exists_stands_of_fitsFrom {tail after before : List Char}
    {blocks : List (List Char × Sqlx.Block)}
    (hfits : Sqlx.Partition.FitsFrom tail after before blocks)
    {part : List Char × Sqlx.Block}
    (hpart : part ∈ blocks) : ∃ left right, Sqlx.Stands left part.2 right := by
  induction blocks generalizing before with
  | nil => cases hpart
  | cons first blocks ih =>
    obtain ⟨-, hstands, hrest⟩ := hfits
    rcases List.mem_cons.1 hpart with rfl | hpart
    · exact ⟨_, _, hstands⟩
    · exact ih hrest hpart

/-- The content of a config block, with a brace after it, is closed by this
brace. -/
theorem closing?_config {text : String} {blocks : Sqlx.Blocks}
    {content : String} (hextract : Sqlx.extractBlocks text = .ok blocks)
    (hconfig : blocks.config = some content) :
    closing? .script 0 (content.toList ++ ['}']) =
      some (content.toList, []) := by
  have hextracts : Sqlx.Extracts [] false text.toList
      (Sqlx.pieces none 1 false text.toList) :=
    Sqlx.extracts_pieces rfl rfl
  rw [Sqlx.extractBlocks] at hextract
  generalize Sqlx.pieces none 1 false text.toList = result at hextract hextracts
  cases hextracts with
  | unclosed => cases hextract
  | duplicate => cases hextract
  | cut p ps _ fits body_eq contents_eq once =>
    cases hextract
    have hyields := Sqlx.Partition.yields_ofPieces body_eq contents_eq once
    have hmem : content ∈ p.contents .config := by
      rw [← hyields.config_eq, hconfig]
      exact List.mem_singleton.2 rfl
    obtain ⟨⟨plain, block⟩, hpart, hblock⟩ := List.mem_filterMap.1 hmem
    split at hblock
    · rename_i hkind
      cases hblock
      obtain ⟨left, right, hstands⟩ := exists_stands_of_fitsFrom fits hpart
      have hclosing := Lexical.closing?_boundary hstands.closing? []
      rw [hkind] at hclosing
      rwa [String.toList_ofList]
    · cases hblock

theorem exists_members_of_toJson? {entries : List (String × Expr)}
    {value : Json} (h : (Expr.object entries).toJson? = some value) :
    ∃ members, value = .object members := by
  rw [Expr.toJson?] at h
  obtain ⟨pairs, -, rfl⟩ := Option.map_eq_some_iff.1 h
  exact ⟨_, rfl⟩

theorem formAccepted_of_readConfigured {path : String} {blocks : Sqlx.Blocks}
    {members : Json.Members} {error : CompileError}
    (h : readConfigured path blocks (.object members) = .error error) :
    Action.FormAccepted error := by
  rw [readConfigured] at h
  split at h
  · rename_i fault hfault
    cases h
    rw [Action.Kind.ofConfig] at hfault
    split at hfault
    · cases hfault
    · split at hfault
      · cases hfault
      · cases hfault
        nofun
    · cases hfault
      nofun
  split at h
  · rename_i hnormalize
    cases h
    exact Action.formAccepted_of_normalize hnormalize
  split at h
  · cases h
    nofun
  · cases h

/-- The extraction of blocks and the reader of literals agree on where a config
ends. A config block that is read as an expression is an object from its opening
brace to its closing brace; if it is a literal, its value is an object, and no
config is refused for being none. -/
theorem configBlock_object {text content : String} {blocks : Sqlx.Blocks}
    {e : Expr} (hextract : Sqlx.extractBlocks text = .ok blocks)
    (hconfig : blocks.config = some content)
    (hparse : Expr.parseObjectBody content = .ok e) :
    (∃ entries, e = .object entries) ∧
      Expr.Takes (Expr.Level.primary ⟨Expr.ofLevels (Expr.maxDepth - 1)⟩
        ('{' :: (content.toList ++ ['}']))) e [] ∧
      ∀ value, e.toJson? = some value →
        (∃ members, value = .object members) ∧
          (∀ kind source file error, Action.normalize value kind source file =
            .error error → Action.FormAccepted error) ∧ ∀ context path error,
              (readSqlFile context path text).findings = .error error →
                Action.FormAccepted error := by
  obtain ⟨entries, rfl, htakes⟩ :=
    Expr.exists_object_of_closing? (closing?_config hextract hconfig) hparse
  refine ⟨⟨entries, rfl⟩, htakes, ?_⟩
  intro value hvalue
  obtain ⟨members, rfl⟩ := exists_members_of_toJson? hvalue
  refine ⟨⟨members, rfl⟩, fun _ _ _ _ => Action.formAccepted_of_normalize, ?_⟩
  intro context path error herror
  have hliteral : literalConfig? content = some (.object members) := by
    rw [literalConfig?, hparse]
    exact hvalue
  rw [readSqlFile, hextract] at herror
  dsimp only at herror
  rw [readBlocks, hconfig] at herror
  dsimp only at herror
  rw [hliteral] at herror
  exact formAccepted_of_readConfigured herror

/-- The inside of a config block with braces in its strings and comments. -/
def bracedContent : String :=
  "tags: ['\x7d', \"\\\"\x7b\"], description: \x60\x7d\x60, // \x7d\n/* \x7b */"

theorem configBlock_object_bracedContent :
    ∃ blocks e,
      Sqlx.extractBlocks ("config \x7b" ++ bracedContent ++ "\x7d SELECT 1") =
        .ok blocks ∧
        blocks.config = some bracedContent ∧
        Expr.parseObjectBody bracedContent = .ok e ∧
        (∃ entries, e = .object entries) ∧
        Expr.Takes (Expr.Level.primary ⟨Expr.ofLevels (Expr.maxDepth - 1)⟩
          ('{' :: (bracedContent.toList ++ ['}']))) e [] := by
  have hextract :
      Sqlx.extractBlocks ("config \x7b" ++ bracedContent ++ "\x7d SELECT 1") =
        .ok ⟨some bracedContent, none, [], [], " SELECT 1"⟩ :=
    eq_ok_of_toOption (by decide +kernel)
  have hparse : (Expr.parseObjectBody bracedContent).toOption.isSome =
      true := by decide +kernel
  cases he : Expr.parseObjectBody bracedContent with
  | error fault =>
    rw [he] at hparse
    cases hparse
  | ok e =>
    have hobject := configBlock_object hextract rfl he
    exact ⟨_, e, hextract, rfl, rfl, hobject.1, hobject.2.1⟩

end SqlWorkflow.Compile
