import Mathlib.Data.List.Induction
import Mathlib.Data.List.Infix
import Mathlib.Logic.Relation
import SqlWorkflow.Project.Path
import SqlWorkflow.Proofs.Text.Pieces

/-!
# What a relative path leads to

A path is folded by taking out components that are empty or a dot, and names
together with two dots after them. Folds may be made in any order. The path that
a name makes with the directory it is relative to can be folded to names alone
just if it does not climb above the root of the project, and these names are
then the components of the path that the name is resolved to. From every file
there is a name for every other one: up to the root, and from there along the
path of the file.
-/

namespace SqlWorkflow.Project

/-- A component that names a file or a directory. -/
def IsName (component : List Char) : Prop :=
  component ≠ [] ∧ component ≠ ['.'] ∧ component ≠ ['.', '.']

instance : DecidablePred IsName := fun component =>
  inferInstanceAs
    (Decidable (component ≠ [] ∧ component ≠ ['.'] ∧ component ≠ ['.', '.']))

/-- A component that leads nowhere else. -/
def IsIdle (component : List Char) : Prop := component = [] ∨ component = ['.']

theorem component_cases (component : List Char) :
    IsIdle component ∨ component = ['.', '.'] ∨ IsName component := by
  unfold IsIdle IsName
  tauto

/-- The texts between the slashes of a path. -/
def pieces (path : String) : List (List Char) := Text.splitOn '/' path.toList

/-- The components of a path from the root of the project. The root itself has
the empty path, and this has none. -/
def components (path : String) : List (List Char) :=
  if path = "" then [] else pieces path

/-- A path that consists of names with a slash between them. -/
def Normalized (path : String) : Prop :=
  ∀ component ∈ pieces path, IsName component

instance : DecidablePred Normalized := fun path =>
  inferInstanceAs (Decidable (∀ component ∈ pieces path, IsName component))

/-- The components of the directory that a file lies in. -/
def directory (file : String) : List (List Char) := (pieces file).dropLast

/-- The text that leads a number of directories up. -/
def climb (levels : Nat) : String := String.join (List.replicate levels "../")

theorem pieces_slash (before after : String) :
    pieces (before ++ "/" ++ after) = pieces before ++ pieces after := by
  have htext : (before ++ "/" ++ after).toList =
      before.toList ++ '/' :: after.toList := by simp
  rw [pieces, htext, Text.splitOn_append_cons, pieces, pieces]

theorem pieces_climb (levels : Nat) (target : String) :
    pieces (climb levels ++ target) =
      List.replicate levels ['.', '.'] ++ pieces target := by
  induction levels with
  | zero =>
    rw [climb, List.replicate_zero, String.join_nil, String.empty_append,
      List.replicate_zero, List.nil_append]
  | succ levels ih =>
    have hlevel : climb (levels + 1) ++ target =
        ".." ++ "/" ++ (climb levels ++ target) := by
      rw [climb, List.replicate_succ, String.join_cons, ← climb,
        String.append_assoc]
      rfl
    rw [hlevel, pieces_slash, ih, List.replicate_succ]
    rfl

theorem not_mem_of_mem_pieces {path : String} :
    ∀ piece ∈ pieces path, '/' ∉ piece :=
  Text.not_mem_of_mem_splitOn

/-! ## Folding -/

/-- One fold of a path. -/
inductive Fold : List (List Char) → List (List Char) → Prop
  | idle (before after : List (List Char)) {component : List Char}
      (h : IsIdle component) :
      Fold (before ++ component :: after) (before ++ after)
  | up (before after : List (List Char)) {name : List Char} (h : IsName name) :
      Fold (before ++ name :: ['.', '.'] :: after) (before ++ after)

/-- A path can be folded, however often, to names alone. -/
def FoldsTo (path names : List (List Char)) : Prop :=
  Relation.ReflTransGen Fold path names ∧ ∀ name ∈ names, IsName name

/-- A path from a directory at some depth does not climb above the root: nowhere
on the way does it go up more often than the depth and the names before
allow. -/
def StaysWithin (depth : Nat) (path : List (List Char)) : Prop :=
  ∀ walked, walked <+: path →
    walked.count ['.', '.'] ≤ depth + walked.countP (IsName ·)

instance (depth : Nat)
    (path : List (List Char)) : Decidable (StaysWithin depth path) :=
  decidable_of_iff (∀ walked ∈ path.inits, walked.count ['.', '.'] ≤
    depth + walked.countP (IsName ·))
    (forall_congr' fun walked => imp_congr_left (List.mem_inits walked path))

/-! ## Following a path -/

/-- The components that a path leads to from a directory. -/
def followed (directory path : List (List Char)) : List (List Char) :=
  (path.foldl followComponent directory.reverse).reverse

section Followed

variable {component name : List Char}
  {directory path other names : List (List Char)}

@[simp] theorem followed_nil (directory : List (List Char)) :
    followed directory [] = directory :=
  List.reverse_reverse directory

theorem followed_append (directory path other : List (List Char)) :
    followed directory (path ++ other) =
      followed (followed directory path) other := by
  rw [followed, followed, followed, List.foldl_append, List.reverse_reverse]

theorem followed_idle (h : IsIdle component)
    (directory path : List (List Char)) :
    followed directory (component :: path) = followed directory path := by
  have hstep : followComponent directory.reverse component =
      directory.reverse := if_pos h
  rw [followed, List.foldl_cons, hstep, followed]

theorem followed_up (directory path : List (List Char)) :
    followed directory (['.', '.'] :: path) =
      followed directory.dropLast path := by
  have hstep : followComponent directory.reverse ['.', '.'] =
      directory.reverse.tail := rfl
  rw [followed, List.foldl_cons, hstep, List.tail_reverse, followed]

theorem followed_name (h : IsName component)
    (directory path : List (List Char)) :
    followed directory (component :: path) =
      followed (directory ++ [component]) path := by
  obtain ⟨hempty, hhere, hup⟩ := h
  have hstep : followComponent directory.reverse component =
      component :: directory.reverse := by
    rw [followComponent, if_neg (not_or.2 ⟨hempty, hhere⟩), if_neg hup]
  rw [followed, List.foldl_cons, hstep, followed, List.reverse_concat]

theorem followed_names (h : ∀ name ∈ names, IsName name)
    (directory : List (List Char)) :
    followed directory names = directory ++ names := by
  induction names generalizing directory with
  | nil => rw [followed_nil, List.append_nil]
  | cons name names ih =>
    obtain ⟨hname, hnames⟩ := List.forall_mem_cons.1 h
    rw [followed_name hname, ih hnames, List.append_assoc,
      List.singleton_append]

/-- As many steps up as a directory has components lead to the root. -/
theorem followed_climb (directory path : List (List Char)) :
    followed directory (List.replicate directory.length ['.', '.'] ++ path) =
      followed [] path := by
  induction directory using List.reverseRecOn with
  | nil => rfl
  | append_singleton directory last ih =>
    rw [List.length_append, List.length_singleton, List.replicate_succ,
      List.cons_append, followed_up, List.dropLast_concat, ih]

/-- What holds of the directory and of the names on the way holds of all
components in the end. -/
theorem forall_mem_followed {p : List Char → Prop}
    (hdirectory : ∀ component ∈ directory, p component)
    (hpath : ∀ component ∈ path, IsName component → p component) :
    ∀ component ∈ followed directory path, p component := by
  induction path generalizing directory with
  | nil => rwa [followed_nil]
  | cons component path ih =>
    obtain ⟨hcomponent, hrest⟩ := List.forall_mem_cons.1 hpath
    rcases component_cases component with hidle | rfl | hname
    · rw [followed_idle hidle]
      exact ih hdirectory hrest
    · rw [followed_up]
      exact ih
        (fun c hc => hdirectory c (List.dropLast_subset directory hc)) hrest
    · rw [followed_name hname]
      apply ih _ hrest
      exact List.forall_mem_append.2
        ⟨hdirectory, List.forall_mem_singleton.2 (hcomponent hname)⟩

/-- A fold does not change where a path leads. -/
theorem followed_eq_of_fold (h : Fold path other)
    (directory : List (List Char)) :
    followed directory path = followed directory other := by
  cases h with
  | idle before after hidle =>
    rw [followed_append, followed_append, followed_idle hidle]
  | up before after hname =>
    rw [followed_append, followed_append, followed_name hname, followed_up,
      List.dropLast_concat]

theorem followed_eq_of_folds (h : Relation.ReflTransGen Fold path other)
    (directory : List (List Char)) :
    followed directory path = followed directory other := by
  induction h with
  | refl => rfl
  | tail _ hfold ih => rw [ih, followed_eq_of_fold hfold]

/-- All ways of folding a path to names end with the same names. -/
theorem FoldsTo.eq_followed (h : FoldsTo (directory ++ path) names)
    (hdirectory : ∀ name ∈ directory, IsName name) :
    names = followed directory path := by
  -- Folds reach into the directory as well, so the whole path is followed, from
  -- the root.
  calc names = followed [] names := (followed_names h.2 []).symm
    _ = followed [] (directory ++ path) := (followed_eq_of_folds h.1 []).symm
    _ = followed (followed [] directory) path :=
      followed_append [] directory path
    _ = followed directory path := by
      rw [followed_names hdirectory, List.nil_append]

end Followed

/-! ## Staying within the project -/

section Within

variable {depth : Nat} {component : List Char}
  {directory path other names : List (List Char)}

theorem staysWithin_nil (depth : Nat) : StaysWithin depth [] := by
  intro walked hwalked
  rw [List.prefix_nil.1 hwalked]
  exact Nat.zero_le _

theorem staysWithin_cons :
    StaysWithin depth (component :: path) ↔
      ∀ walked, walked <+: path →
        (component :: walked).count ['.', '.'] ≤
          depth + (component :: walked).countP (IsName ·) := by
  constructor
  · intro h walked hwalked
    exact h _ (List.cons_prefix_cons.2 ⟨rfl, hwalked⟩)
  · intro h walked hwalked
    rcases List.prefix_cons_iff.1 hwalked with rfl | ⟨rest, rfl, hrest⟩
    · exact Nat.zero_le _
    · exact h rest hrest

theorem staysWithin_idle (h : IsIdle component) :
    StaysWithin depth (component :: path) ↔ StaysWithin depth path := by
  rw [staysWithin_cons]
  refine forall₂_congr fun walked _ => ?_
  rcases h with rfl | rfl <;> rfl

theorem staysWithin_name (h : IsName component) :
    StaysWithin depth (component :: path) ↔ StaysWithin (depth + 1) path := by
  rw [staysWithin_cons]
  refine forall₂_congr fun walked _ => ?_
  have hnames : (component :: walked).countP (IsName ·) =
      walked.countP (IsName ·) + 1 :=
    List.countP_cons_of_pos (decide_eq_true h)
  rw [List.count_cons_of_ne h.2.2, hnames]
  omega

theorem staysWithin_up :
    StaysWithin (depth + 1) (['.', '.'] :: path) ↔ StaysWithin depth path := by
  rw [staysWithin_cons]
  refine forall₂_congr fun walked _ => ?_
  rw [List.count_cons_self, List.countP_cons_of_neg (by decide)]
  omega

theorem not_staysWithin_up : ¬ StaysWithin 0 (['.', '.'] :: path) := by
  intro h
  have hfirst := h [['.', '.']] (List.cons_prefix_cons.2 ⟨rfl, List.nil_prefix⟩)
  exact absurd hfirst (by decide)

/-- Two paths that may be followed from the same directories may be followed
after the same beginning. -/
theorem staysWithin_append_congr
    (h : ∀ depth, StaysWithin depth path ↔ StaysWithin depth other)
    (before : List (List Char)) (depth : Nat) :
    StaysWithin depth (before ++ path) ↔
      StaysWithin depth (before ++ other) := by
  induction before generalizing depth with
  | nil => exact h depth
  | cons component before ih =>
    rw [List.cons_append, List.cons_append]
    rcases component_cases component with hidle | rfl | hname
    · rw [staysWithin_idle hidle, staysWithin_idle hidle, ih]
    · cases depth with
      | zero => exact iff_of_false not_staysWithin_up not_staysWithin_up
      | succ depth => rw [staysWithin_up, staysWithin_up, ih]
    · rw [staysWithin_name hname, staysWithin_name hname, ih]

/-- A fold does not change whether a path stays within the project. -/
theorem staysWithin_of_fold (h : Fold path other) :
    StaysWithin depth path ↔ StaysWithin depth other := by
  cases h with
  | idle before after hidle =>
    exact staysWithin_append_congr (fun _ => staysWithin_idle hidle)
      before depth
  | up before after hname =>
    refine staysWithin_append_congr (fun depth => ?_) before depth
    rw [staysWithin_name hname, staysWithin_up]

theorem staysWithin_of_folds (h : Relation.ReflTransGen Fold path other) :
    StaysWithin depth path ↔ StaysWithin depth other := by
  induction h with
  | refl => rfl
  | tail _ hfold ih => rw [ih, staysWithin_of_fold hfold]

theorem staysWithin_names (h : ∀ name ∈ names, IsName name) :
    StaysWithin depth (names ++ path) ↔
      StaysWithin (depth + names.length) path := by
  induction names generalizing depth with
  | nil => rfl
  | cons name names ih =>
    obtain ⟨hname, hnames⟩ := List.forall_mem_cons.1 h
    rw [List.cons_append, staysWithin_name hname, ih hnames, List.length_cons,
      Nat.add_right_comm, Nat.add_assoc]

/-- A path that can be folded to names does not climb above the root. -/
theorem FoldsTo.staysWithin (h : FoldsTo (directory ++ path) names)
    (hdirectory : ∀ name ∈ directory, IsName name) :
    StaysWithin directory.length path := by
  obtain ⟨hfolds, hnames⟩ := h
  have hwithin : StaysWithin 0 names := by
    rw [← List.append_nil names, staysWithin_names hnames]
    exact staysWithin_nil _
  have hwhole : StaysWithin 0 (directory ++ path) :=
    (staysWithin_of_folds hfolds).2 hwithin
  rwa [staysWithin_names hdirectory, Nat.zero_add] at hwhole

/-- A path that stays within the project is folded to the components that it
leads to. -/
theorem folds_followed (hdirectory : ∀ name ∈ directory, IsName name)
    (h : StaysWithin directory.length path) :
    Relation.ReflTransGen Fold (directory ++ path)
      (followed directory path) := by
  -- What has been folded so far is a directory again: names make it longer, and
  -- two dots make it shorter.
  induction path generalizing directory with
  | nil => rw [List.append_nil, followed_nil]
  | cons component path ih =>
    rcases component_cases component with hidle | rfl | hname
    · rw [followed_idle hidle]
      exact .head (.idle directory path hidle)
        (ih hdirectory ((staysWithin_idle hidle).1 h))
    · cases directory using List.reverseRecOn with
      | nil => exact absurd h not_staysWithin_up
      | append_singleton directory last =>
        obtain ⟨hrest, hlast⟩ := List.forall_mem_append.1 hdirectory
        rw [List.length_append, List.length_singleton, staysWithin_up] at h
        rw [followed_up, List.dropLast_concat, List.append_assoc,
          List.singleton_append]
        exact .head (.up directory path (hlast last List.mem_cons_self))
          (ih hrest h)
    · rw [staysWithin_name hname] at h
      rw [followed_name hname, List.append_cons]
      apply ih
      · exact List.forall_mem_append.2
          ⟨hdirectory, List.forall_mem_singleton.2 hname⟩
      · rwa [List.length_append, List.length_singleton]

end Within

/-! ## Resolving a name -/

section Resolved

variable {file name target : String} {names : List (List Char)}

theorem resolveRelative_eq (file name : String) :
    resolveRelative file name =
      String.ofList
        (Text.joinWith ['/'] (followed (directory file) (pieces name))) := by
  rw [resolveRelative, directoryOf, List.tail_reverse]
  rfl

theorem components_ofList_joinWith
    (h : ∀ name ∈ names, name ≠ [] ∧ '/' ∉ name) :
    components (String.ofList (Text.joinWith ['/'] names)) = names := by
  cases names with
  | nil => rfl
  | cons first rest =>
    have hpieces :
        pieces (String.ofList (Text.joinWith ['/'] (first :: rest))) =
          first :: rest := by
      rw [pieces, String.toList_ofList]
      exact Text.splitOn_joinWith (List.cons_ne_nil _ _) fun name hname =>
        (h name hname).2
    -- The one piece of the empty text is empty, and no name is.
    have hne : String.ofList (Text.joinWith ['/'] (first :: rest)) ≠ "" := by
      intro hempty
      rw [hempty] at hpieces
      exact (h first List.mem_cons_self).1 (List.cons.inj hpieces).1.symm
    rw [components, if_neg hne, hpieces]

theorem Normalized.ne_empty (h : Normalized file) : file ≠ "" := by
  rintro rfl
  exact (h [] List.mem_cons_self).1 rfl

theorem Normalized.of_mem_directory (h : Normalized file) :
    ∀ name ∈ directory file, IsName name :=
  fun name hname => h name (List.dropLast_subset _ hname)

theorem names_followed (h : Normalized file) (name : String) :
    ∀ component ∈ followed (directory file) (pieces name), IsName component ∧
      '/' ∉ component := by
  apply forall_mem_followed
  · intro component hcomponent
    exact ⟨h.of_mem_directory component hcomponent,
      not_mem_of_mem_pieces component (List.dropLast_subset _ hcomponent)⟩
  · intro component hcomponent hname
    exact ⟨hname, not_mem_of_mem_pieces component hcomponent⟩

theorem components_resolveRelative (h : Normalized file) (name : String) :
    components (resolveRelative file name) =
      followed (directory file) (pieces name) := by
  rw [resolveRelative_eq]
  apply components_ofList_joinWith
  intro component hcomponent
  obtain ⟨hname, hslash⟩ := names_followed h name component hcomponent
  exact ⟨hname.1, hslash⟩

theorem normalized_resolveRelative (h : Normalized file) (name : String) :
    resolveRelative file name = "" ∨
      Normalized (resolveRelative file name) := by
  by_cases hroot : resolveRelative file name = ""
  · exact .inl hroot
  · right
    have hcomponents := components_resolveRelative h name
    rw [components, if_neg hroot] at hcomponents
    intro component hcomponent
    rw [hcomponents] at hcomponent
    exact (names_followed h name component hcomponent).1

/-- The path that a file and a name make is folded to names just if it stays
within the project, and then to the components of the path that the name is
resolved to. -/
theorem foldsTo_iff (h : Normalized file) :
    FoldsTo (directory file ++ pieces name) names ↔
      StaysWithin (directory file).length (pieces name) ∧
        components (resolveRelative file name) = names := by
  have hdirectory := h.of_mem_directory
  rw [components_resolveRelative h]
  constructor
  · intro hfolds
    exact ⟨hfolds.staysWithin hdirectory, (hfolds.eq_followed hdirectory).symm⟩
  · rintro ⟨hwithin, rfl⟩
    exact ⟨folds_followed hdirectory hwithin,
      fun name hname => (names_followed h _ name hname).1⟩

/-- Names that climb above the root are resolved all the same, but cannot be
folded. -/
example : ¬ StaysWithin 0 (pieces "../orders.sql") ∧
    resolveRelative "actions.yaml" "../orders.sql" = "orders.sql" := by
  decide

/-- From any file, the way up to the root and the path of another file lead to
this file. -/
theorem resolveRelative_climb (file : String) (h : Normalized target) :
    resolveRelative file (climb (directory file).length ++ target) =
      target := by
  rw [resolveRelative_eq, pieces_climb, followed_climb, followed_names h,
    List.nil_append, pieces, Text.joinWith_splitOn, String.ofList_toList]

end Resolved

/-! ## Insertions -/

/-- A component begins after this text. -/
def EndsComponent (before : String) : Prop :=
  before = "" ∨ ∃ earlier, before = earlier ++ "/"

/-- A dot with a slash, or one more slash, adds a component that is folded away
again. -/
theorem fold_insert {before inserted : String} (h : EndsComponent before)
    (hinserted : inserted ∈ ["./", "/"]) (after : String) :
    Fold (pieces (before ++ inserted ++ after)) (pieces (before ++ after)) := by
  have hidle : ∃ component, IsIdle component ∧
      pieces (inserted ++ after) = component :: pieces after := by
    cases hinserted with
    | head => exact ⟨['.'], .inr rfl, pieces_slash "." after⟩
    | tail _ hslash =>
      rw [List.mem_singleton.1 hslash]
      exact ⟨[], .inl rfl, pieces_slash "" after⟩
  obtain ⟨component, hcomponent, hpieces⟩ := hidle
  rw [String.append_assoc]
  rcases h with rfl | ⟨earlier, rfl⟩
  · rw [String.empty_append, String.empty_append, hpieces]
    exact .idle [] (pieces after) hcomponent
  · rw [pieces_slash, pieces_slash, hpieces]
    exact .idle (pieces earlier) (pieces after) hcomponent

theorem resolveRelative_insert {before inserted : String} (file : String)
    (h : EndsComponent before) (hinserted : inserted ∈ ["./", "/"])
    (after : String) :
    resolveRelative file (before ++ inserted ++ after) =
      resolveRelative file (before ++ after) := by
  rw [resolveRelative_eq, resolveRelative_eq,
    followed_eq_of_fold (fold_insert h hinserted after)]

/-! ## Lexical resolution -/

/-- A name is resolved as its text says: to what is left of the directory and
the name when all is folded, and to this only. The path that it is resolved to
consists of names, unless it is the path of the root, which has no components.
Insertions that are folded away make no difference. -/
structure ResolvedLexically (file name : String) : Prop where
  foldsTo_iff : ∀ names, FoldsTo (directory file ++ pieces name) names ↔
    StaysWithin (directory file).length (pieces name) ∧
      components (resolveRelative file name) = names
  normalized : resolveRelative file name = "" ∨
    Normalized (resolveRelative file name)
  insert : ∀ before after, name = before ++ after → EndsComponent before →
    ∀ inserted ∈ ["./", "/"],
      resolveRelative file (before ++ inserted ++ after) =
        resolveRelative file name

theorem resolvedLexically {file : String} (h : Normalized file)
    (name : String) : ResolvedLexically file name where
  foldsTo_iff _ := Project.foldsTo_iff h
  normalized := normalized_resolveRelative h name
  insert before after hname hbefore inserted hinserted := by
    rw [hname, resolveRelative_insert file hbefore hinserted after]

end SqlWorkflow.Project
