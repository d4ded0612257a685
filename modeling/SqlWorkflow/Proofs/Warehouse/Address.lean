import SqlWorkflow.Proofs.Text.Pieces
import SqlWorkflow.Warehouse

/-!
# Addresses in SQL

An address is the parts of a target that are given, put together. In BigQuery
all of it is quoted as one, so a dot inside a part looks like one between two
parts: two addresses are the same just when the pieces between the dots are.
Elsewhere each part is quoted by itself, and parts without a quotation mark can
be read off the address. Which of the parts is the database and which the schema
is not told in either form if only one of them is given.
-/

namespace SqlWorkflow

/-- One target gives a database and no schema, and the other gives this as its
schema and no database. -/
inductive Target.Swapped : Target → Target → Prop
  | mk (container name : String) :
      Swapped ⟨some container, none, name⟩ ⟨none, some container, name⟩

namespace Warehouse

variable {w : Warehouse} {a b : Target}

theorem parts_ne_nil (t : Target) : parts t ≠ [] := by
  simp [parts]

/-- The parts that are given tell a target, but for one that may be the database
or the schema. -/
theorem parts_eq_iff :
    parts a = parts b ↔ a = b ∨ Target.Swapped a b ∨ Target.Swapped b a := by
  constructor
  · intro h
    obtain ⟨database, schema, name⟩ := a
    obtain ⟨database', schema', name'⟩ := b
    cases database <;> cases schema <;> cases database' <;> cases schema' <;>
      simp [parts] at h
    case none.none.none.none => exact .inl (by rw [h])
    case none.some.none.some => exact .inl (by rw [h.1, h.2])
    case none.some.some.none =>
      exact .inr (.inr (by rw [h.1, h.2]; exact ⟨_, _⟩))
    case some.none.none.some =>
      exact .inr (.inl (by rw [h.1, h.2]; exact ⟨_, _⟩))
    case some.none.some.none => exact .inl (by rw [h.1, h.2])
    case some.some.some.some => exact .inl (by rw [h.1, h.2.1, h.2.2])
  · rintro (rfl | ⟨container, name⟩ | ⟨container, name⟩) <;> rfl

/-! ## Signs that bound the parts -/

/-- The sign that bounds the parts in an address: a dot between them, or the
quotation marks around each. -/
def sign : Warehouse → Char
  | .bigquery => '.'
  | _ => '"'

/-- A part of a target holds the sign that bounds the parts. -/
def Marked (w : Warehouse) (t : Target) : Prop :=
  ∃ part ∈ parts t, w.sign ∈ part.toList

/-- How often the sign that bounds the parts stands inside the parts. -/
def signs (w : Warehouse) (t : Target) : Nat :=
  ((parts t).flatMap String.toList).count w.sign

theorem signs_eq_zero_iff {t : Target} : w.signs t = 0 ↔ ¬ w.Marked t := by
  rw [signs, List.count_eq_zero, List.mem_flatMap, Marked]

/-- What a target with fewer parts lacks in signs between its parts it has to
have inside of them. -/
theorem not_marked_of_signs {width : Nat}
    (h : width * (parts a).length + w.signs a =
      width * (parts b).length + w.signs b)
    (hlength : (parts a).length ≤ (parts b).length)
    (hplain : ¬ w.Marked a) : ¬ w.Marked b := by
  have hmore := Nat.mul_le_mul_left width hlength
  rw [← signs_eq_zero_iff] at hplain ⊢
  omega

/-! ## Addresses quoted as a whole -/

/-- The pieces between the dots in the parts of a target. -/
def components (t : Target) : List String :=
  (parts t).flatMap (Text.split '.')

theorem length_components (t : Target) :
    (components t).length =
      1 * (parts t).length + Warehouse.bigquery.signs t := by
  rw [components, signs, sign]
  induction parts t with
  | nil => rfl
  | cons part rest ih =>
    rw [List.flatMap_cons, List.length_append, ih, Text.split, List.length_map,
      Text.length_splitOn, List.flatMap_cons, List.count_append,
      List.length_cons]
    omega

theorem components_of_plain {t : Target}
    (h : ¬ Warehouse.bigquery.Marked t) : components t = parts t := by
  have hsingle : ∀ part ∈ parts t, Text.split '.' part = [part] := by
    intro part hpart
    have hdot : '.' ∉ part.toList := fun hdot => h ⟨part, hpart, hdot⟩
    rw [Text.split, Text.splitOn_of_not_mem hdot, List.map_singleton,
      String.ofList_toList]
  rw [components, List.flatMap_congr hsingle, List.flatMap_singleton']

theorem toList_quoteTarget_bigquery (t : Target) :
    (Warehouse.bigquery.quoteTarget t).toList =
      '\x60' ::
        (['.'].intercalate ((parts t).map String.toList) ++ ['\x60']) := by
  rw [quoteTarget]
  simp [String.toList_intercalate]

/-- An address quoted as a whole tells the pieces between the dots, and nothing
else. -/
theorem quoteTarget_bigquery_eq_iff :
    Warehouse.bigquery.quoteTarget a = Warehouse.bigquery.quoteTarget b ↔
      components a = components b := by
  have hcomponents (t : Target) : components t =
      (Text.splitOn '.' (['.'].intercalate ((parts t).map String.toList))).map
        String.ofList := by
    rw [Text.splitOn_intercalate (mt List.map_eq_nil_iff.1 (parts_ne_nil t)),
      List.flatMap_map, List.map_flatMap]
    rfl
  rw [← String.toList_inj, toList_quoteTarget_bigquery,
    toList_quoteTarget_bigquery, List.cons.injEq, List.append_left_inj,
    hcomponents, hcomponents,
    (List.map_injective_iff.2 fun _ _ => String.ofList_injective).eq_iff,
    Text.splitOn_inj]
  exact and_iff_right rfl

/-! ## Addresses quoted part by part -/

/-- A part in its quotation marks, after a dot. -/
def quotedPart (part : String) : List Char :=
  '.' :: '"' :: (part.toList ++ ['"'])

theorem toList_quoteTarget (hw : w ≠ .bigquery) (t : Target) :
    '.' :: (w.quoteTarget t).toList = (parts t).flatMap quotedPart := by
  have hquoted : w.quoteTarget t =
      ".".intercalate ((parts t).map fun part => "\"" ++ (part ++ "\"")) := by
    cases w with
    | bigquery => cases hw rfl
    | snowflake | postgres | redshift | presto | sqldatawarehouse => rfl
  have hparts : ((parts t).map fun part => "\"" ++ (part ++ "\"")).map
      String.toList ≠ [] := by
    simp [parts]
  rw [hquoted, String.toList_intercalate]
  change '.' :: ['.'].intercalate _ = _
  rw [Text.cons_intercalate hparts, List.flatMap_map, List.flatMap_map]
  apply List.flatMap_congr
  intro part _
  rw [quotedPart, String.toList_append, String.toList_append]
  rfl

theorem count_quotedPart (texts : List String) :
    (texts.flatMap quotedPart).count '"' =
      2 * texts.length + (texts.flatMap String.toList).count '"' := by
  induction texts with
  | nil => rfl
  | cons text rest ih =>
    have hpart : (quotedPart text).count '"' = 2 + text.toList.count '"' := by
      rw [quotedPart, List.count_cons_of_ne (by decide), List.count_cons_self,
        List.count_append]
      simp only [List.count_singleton_self]
      omega
    rw [List.flatMap_cons, List.count_append, ih, hpart, List.flatMap_cons,
      List.count_append, List.length_cons]
    omega

/-- Parts without quotation marks can be read off their quotations. -/
theorem quotedPart_inj {texts others : List String}
    (h : ∀ text ∈ texts, '"' ∉ text.toList)
    (h' : ∀ text ∈ others, '"' ∉ text.toList)
    (heq : texts.flatMap quotedPart = others.flatMap quotedPart) :
    texts = others := by
  induction texts generalizing others with
  | nil =>
    cases others with
    | nil => rfl
    | cons => cases heq
  | cons text texts ih =>
    cases others with
    | nil => cases heq
    | cons other others =>
      obtain ⟨hfirst, hrest⟩ := List.forall_mem_cons.1 h
      obtain ⟨hfirst', hrest'⟩ := List.forall_mem_cons.1 h'
      have hinside : text.toList ++ '"' :: texts.flatMap quotedPart =
          other.toList ++ '"' :: others.flatMap quotedPart := by
        simpa [quotedPart] using heq
      have hpieces := congrArg (Text.splitOn '"') hinside
      rw [Text.splitOn_append hfirst, Text.splitOn_append hfirst'] at hpieces
      obtain ⟨hsame, hothers⟩ := List.cons.inj hpieces
      rw [String.toList_inj.1 hsame,
        ih hrest hrest' (Text.splitOn_inj.1 hothers)]

/-! ## Equal addresses -/

/-- Two targets have the same address only if their parts are the same, unless
the one that has no more parts than the other holds the sign that bounds
them. -/
theorem parts_eq_of_quoteTarget_eq (h : w.quoteTarget a = w.quoteTarget b)
    (hlength : (parts a).length ≤ (parts b).length)
    (hplain : ¬ w.Marked a) : parts a = parts b := by
  by_cases hw : w = .bigquery
  · subst hw
    have hcomponents := quoteTarget_bigquery_eq_iff.1 h
    have hcounts := congrArg List.length hcomponents
    rw [length_components, length_components] at hcounts
    have hplain' := not_marked_of_signs hcounts hlength hplain
    rwa [components_of_plain hplain, components_of_plain hplain'] at hcomponents
  · have hquoted : (parts a).flatMap quotedPart =
        (parts b).flatMap quotedPart := by
      rw [← toList_quoteTarget hw, ← toList_quoteTarget hw, h]
    have hsign : w.sign = '"' := by
      cases w with
      | bigquery => cases hw rfl
      | snowflake | postgres | redshift | presto | sqldatawarehouse => rfl
    have hcounts := congrArg (List.count '"') hquoted
    rw [count_quotedPart, count_quotedPart, ← hsign] at hcounts
    have hplain' := not_marked_of_signs hcounts hlength hplain
    apply quotedPart_inj _ _ hquoted
    · intro part hpart hmark
      exact hplain ⟨part, hpart, by rwa [hsign]⟩
    · intro part hpart hmark
      exact hplain' ⟨part, hpart, by rwa [hsign]⟩

/-- What equal addresses tell of two different targets: either one gives a
database where the other gives a schema, or the one that has no more parts than
the other holds the sign that bounds them. In BigQuery they tell just that the
pieces between the dots are the same. -/
structure ToldBy (w : Warehouse) (a b : Target) : Prop where
  swapped : Target.Swapped a b ∨ Target.Swapped b a →
    w.quoteTarget a = w.quoteTarget b
  marked : w.quoteTarget a = w.quoteTarget b →
    ¬ (Target.Swapped a b ∨ Target.Swapped b a) →
    ((parts a).length ≤ (parts b).length → w.Marked a) ∧
      ((parts b).length ≤ (parts a).length → w.Marked b)
  components : w = .bigquery →
    (w.quoteTarget a = w.quoteTarget b ↔ components a = components b)

theorem toldBy_of_ne (w : Warehouse) (hne : a ≠ b) : w.ToldBy a b where
  swapped := by
    rintro (⟨container, name⟩ | ⟨container, name⟩) <;> rfl
  marked h hnot := by
    have hparts : parts a ≠ parts b :=
      fun hparts => (parts_eq_iff.1 hparts).elim hne hnot
    constructor
    · intro hlength
      by_contra hplain
      exact hparts (parts_eq_of_quoteTarget_eq h hlength hplain)
    · intro hlength
      by_contra hplain
      exact hparts (parts_eq_of_quoteTarget_eq h.symm hlength hplain).symm
  components hw := by
    subst hw
    exact quoteTarget_bigquery_eq_iff

end Warehouse

end SqlWorkflow
