import SqlWorkflow.Json.Typed
import SqlWorkflow.Proofs.Json.Completeness

/-!
# Typed reading follows decoding

A typed reader works on the outline of a text, a decoder on a value. Where a
reader of records passes no member over, it reads from a text what is decoded
from the value at the head of the text, as it is written there.
-/

namespace SqlWorkflow.Json

variable {levels : Nat}

/-! ## Outlines of values -/

/-- The outline of a value, of which what is inside brackets stands in a
text. -/
inductive Mirrors (inner : Heads Json) : Outline → Json → Prop
  | scalar {text after start rest : List Char} {v : Json}
      (h : ScalarAt text v after) : Mirrors inner (.scalar start (.ok v) rest) v
  | array {text rest start : List Char} {items : List Json}
      (h : ListAt inner ']' true text items rest) :
      Mirrors inner (.array start (outlineItems true text).value) (.array items)
  | object {text rest start : List Char} {members : Members}
      (h : ListAt (MemberAt inner) '\x7d' true text members rest) :
      Mirrors inner (.object start (outlineMembers true text).value)
        (.object members)

theorem CompoundAt.mirrors {inner : Heads Json} {text rest : List Char}
    {v : Json} (h : CompoundAt inner (skipBlanks text) v rest)
    (hunread : ScalarAt (skipBlanks text) v rest →
      (outlineValue text).unread? = some rest) :
    Mirrors inner (outlineValue text).value v := by
  generalize hskip : skipBlanks text = skipped at h
  cases h with
  | scalar h =>
    rw [← hskip] at h
    rw [h.value_eq (hunread h)]
    exact .scalar h
  | array h =>
    rw [(Prod.mk.inj (seen_of_array hskip)).1]
    exact .array h
  | object h =>
    rw [(Prod.mk.inj (seen_of_object hskip)).1]
    exact .object h

/-- The outline of a value inside brackets. -/
theorem ValueAt.mirrors {text rest : List Char} {v : Json}
    (h : ValueAt (levels + 1) (skipBlanks text) v rest)
    (hends : EndsNumeral rest) :
    Mirrors (ValueAt levels) (outlineValue text).value v :=
  CompoundAt.mirrors h fun _ =>
    (completeFor_valueAt (levels + 1) text v rest h hends).2

/-- Null is told from its outline on the innermost level, too. -/
theorem ValueAt.exists_mirrors {text rest : List Char} {v : Json}
    (h : ValueAt levels (skipBlanks text) v rest) (hends : EndsNumeral rest) :
    ∃ inner, Mirrors inner (outlineValue text).value v := by
  have hunread := (completeFor_valueAt levels text v rest h hends).2
  cases levels with
  | zero => exact ⟨ScalarAt, CompoundAt.mirrors (.scalar h) fun _ => hunread⟩
  | succ levels => exact ⟨ValueAt levels, CompoundAt.mirrors h fun _ => hunread⟩

/-! ## Readers of values -/

section Readers

variable {α β : Type}

/-- What a reader makes of an outline has a value, and is what a decoder makes
of this value. -/
structure Follows (levels : Nat) (reader : Outline → Except ReadError α)
    (decoder : Decoder α) : Prop where
  valid : ∀ {outline a}, reader outline = .ok a →
    ∃ value, outline.toJson (levels + 2) = .ok value
  reads : ∀ {outline v a}, Mirrors (ValueAt levels) outline v →
    (reader outline = .ok a ↔ decoder v = .ok a)

theorem ok_eq_ok_congr {ε δ : Type} {a b : α} :
    (Except.ok a : Except ε α) = .ok b ↔
      (Except.ok a : Except δ α) = .ok b := by
  rw [Except.ok.injEq, Except.ok.injEq]

theorem error_eq_ok_congr {ε δ : Type} {e : ε} {d : δ} {a : α} {b : β} :
    (Except.error e : Except ε α) = .ok a ↔
      (Except.error d : Except δ β) = .ok b := by
  simp

theorem map_eq_ok_congr {ε δ : Type} {x : Except ε α} {y : Except δ α}
    (h : ∀ a, x = .ok a ↔ y = .ok a) {f : α → β}
    {b : β} : x.map f = .ok b ↔ y.map f = .ok b := by
  constructor
  · intro hx
    obtain ⟨a, ha, rfl⟩ := Text.exists_of_map_eq_ok hx
    rw [(h a).1 ha]
    rfl
  · intro hy
    obtain ⟨a, ha, rfl⟩ := Text.exists_of_map_eq_ok hy
    rw [(h a).2 ha]
    rfl

theorem Typed.wrongType_ne_ok {expected : String} {outline : Outline} {a : α} :
    wrongType expected outline ≠ .ok a := by
  unfold wrongType
  split <;> exact nofun

theorem follows_string (levels : Nat) :
    Follows levels Typed.string Decode.string where
  valid h := by
    unfold Typed.string at h
    split at h
    · exact ⟨_, rfl⟩
    · exact absurd h Typed.wrongType_ne_ok
  reads h := by
    cases h with
    | scalar h =>
      cases h with
      | string _ => exact ok_eq_ok_congr
      | null | true | false | number => exact error_eq_ok_congr
    | array _ => exact error_eq_ok_congr
    | object _ => exact error_eq_ok_congr

/-- Nothing is read from null only. -/
theorem Typed.exists_of_option {reader : Outline → Except ReadError α}
    {outline : Outline} {a : Option α} (hread : option reader outline = .ok a) :
    (a = none ∧ ∃ start after, outline = .scalar start (.ok .null) after) ∨
      ∃ b, a = some b ∧ reader outline = .ok b := by
  unfold option at hread
  split at hread
  · cases hread
    exact .inl ⟨rfl, _, _, rfl⟩
  · obtain ⟨b, hb, rfl⟩ := Text.exists_of_map_eq_ok hread
    exact .inr ⟨b, rfl, hb⟩

theorem Follows.option {reader : Outline → Except ReadError α}
    {decoder : Decoder α} (h : Follows levels reader decoder) :
    Follows levels (Typed.option reader) (Decode.option decoder) where
  valid hread := by
    rcases Typed.exists_of_option hread with ⟨-, start, after, rfl⟩ | ⟨b, -, hb⟩
    · exact ⟨.null, rfl⟩
    · exact h.valid hb
  reads {outline v a} hmirrors := by
    have hsome : (reader outline).map some = .ok a ↔
        (decoder v).map some = .ok a :=
      map_eq_ok_congr fun _ => h.reads hmirrors
    cases hmirrors with
    | scalar hscalar =>
      cases hscalar with
      | null => exact ok_eq_ok_congr
      | string | true | false | number => exact hsome
    | array _ => exact hsome
    | object _ => exact hsome

theorem variantNamed_eq_ok_iff {variants : List (String × α)} {name : String}
    {after : List Char} {a : α} :
    Typed.variantNamed variants name after = .ok a ↔
      Decode.variantNamed variants name = .ok a := by
  unfold Typed.variantNamed
  split
  · rename_i hname
    rw [hname]
    exact ok_eq_ok_congr
  · rename_i hname
    rw [hname]
    exact error_eq_ok_congr

theorem Typed.endVariant_eq_ok_iff {a b : α} {rest : MemberList}
    {after : List Char} :
    endVariant a rest after = .ok b ↔ (∃ last, rest = .close last) ∧ a = b := by
  unfold endVariant
  split
  · simp
  · rename_i hrest
    refine iff_of_false ?_ ?_
    · split <;> exact nofun
    · rintro ⟨⟨last, rfl⟩, -⟩
      exact hrest last rfl

/-- A variant written as an object has one member, which is null. -/
theorem Decode.variant_object_eq_ok_iff {variants : List (String × α)}
    {name : String} {v : Json} {members : Members} {a : α} :
    variant variants (.object ((name, v) :: members)) = .ok a ↔
      variantNamed variants name = .ok a ∧ v = .null ∧ members = [] := by
  cases members with
  | nil =>
    rw [variant]
    split
    · rename_i hname
      rw [hname]
      exact iff_of_false nofun fun h => nomatch h.1
    · rename_i b hname
      rw [hname]
      cases v <;> simp [wrongType]
  | cons member members => exact iff_of_false nofun fun h => nomatch h.2.2

theorem Typed.variant_object_eq_ok_iff {variants : List (String × α)}
    {inner : Heads Json} {name : String} {content : Outline} {v : Json}
    (hcontent : Mirrors inner content v) {start tail : List Char}
    {rest : MemberList} {a : α} :
    variant variants (.object start (.member (.ok name) tail content rest)) =
      .ok a ↔
      Decode.variantNamed variants name = .ok a ∧ v = .null ∧
        ∃ last, rest = .close last := by
  rw [variant, ← variantNamed_eq_ok_iff]
  split
  · rename_i hname
    rw [hname]
    exact iff_of_false nofun fun h => nomatch h.1
  · rename_i b hname
    rw [hname]
    cases hcontent with
    | scalar h =>
      cases h with
      | null => simp [endVariant_eq_ok_iff, and_comm]
      | string | true | false | number =>
        exact iff_of_false nofun fun h => nomatch h.2.1
    | array _ => exact iff_of_false nofun fun h => nomatch h.2.1
    | object _ => exact iff_of_false nofun fun h => nomatch h.2.1

theorem exists_close_iff {after rest : List Char} {members : Members}
    (h : ListAt (MemberAt (ValueAt levels)) '\x7d' false after members rest) :
    (∃ last, (outlineMembers false after).value = .close last) ↔
      members = [] := by
  cases members with
  | nil =>
    exact ⟨fun _ => rfl, fun _ => ⟨rest, (Prod.mk.inj h.seen_membersNil).1⟩⟩
  | cons member members =>
    obtain ⟨_, _, _, _, _, _, hseen⟩ :=
      (completeFor_valueAt levels).exists_member h
    rw [(Prod.mk.inj hseen).1]
    exact ⟨nofun, nofun⟩

theorem follows_variant (levels : Nat) (variants : List (String × α)) :
    Follows levels (Typed.variant variants) (Decode.variant variants) where
  valid h := by
    unfold Typed.variant at h
    split at h
    · exact ⟨_, rfl⟩
    iterate 7 · cases h
    split at h
    · cases h
    · split at h
      · obtain ⟨⟨last, rfl⟩, -⟩ := Typed.endVariant_eq_ok_iff.1 h
        exact ⟨_, rfl⟩
      · exact absurd h Typed.wrongType_ne_ok
  reads {outline v a} h := by
    cases h with
    | scalar h =>
      cases h with
      | string _ => exact variantNamed_eq_ok_iff
      | null | true | false | number => exact error_eq_ok_congr
    | array _ => exact error_eq_ok_congr
    | object h =>
      rename_i text rest start members
      cases members with
      | nil =>
        rw [(Prod.mk.inj h.seen_membersNil).1]
        exact error_eq_ok_congr
      | cons member members =>
        obtain ⟨tail, content, after, hcontent, hends, hmembers, hseen⟩ :=
          (completeFor_valueAt levels).exists_member h
        rw [(Prod.mk.inj hseen).1]
        obtain ⟨inner, hmirrors⟩ := ValueAt.exists_mirrors hcontent hends
        rw [Typed.variant_object_eq_ok_iff hmirrors, exists_close_iff hmembers]
        exact Decode.variant_object_eq_ok_iff.symm

theorem members_collapse (members : Members) :
    Decode.members (fun v => .ok (collapse v)) members =
      .ok (collapseMembers members) := by
  induction members with
  | nil => rfl
  | cons member members ih =>
    rw [Decode.members, ih]
    rfl

theorem follows_map (levels : Nat) :
    Follows levels (Typed.map (levels + 2))
      (Decode.map fun v => .ok (collapse v)) where
  valid {outline a} h := by
    unfold Typed.map at h
    split at h
    · rename_i start members
      cases hmembers : MemberList.toJson (levels + 1) members with
      | ok pairs =>
        refine ⟨.object (Members.ofList pairs), ?_⟩
        rw [Outline.toJson, if_neg (by omega),
          Nat.add_sub_cancel (levels + 1) 1, hmembers]
        rfl
      | error e =>
        rw [Nat.add_sub_cancel (levels + 1) 1, hmembers] at h
        cases h
    · exact absurd h Typed.wrongType_ne_ok
  reads {outline v a} h := by
    cases h with
    | scalar h => cases h <;> exact error_eq_ok_congr
    | array _ => exact error_eq_ok_congr
    | object h =>
      rename_i text rest start members
      have hmembers := ((completeFor_valueAt levels).memberAt h).1
      rw [Typed.map, Nat.add_sub_cancel (levels + 1) 1, hmembers, Decode.map,
        members_collapse]
      exact ok_eq_ok_congr

end Readers

/-! ## Readers of records -/

section Records

variable {σ : Type} {schema : TextSchema σ} {record : RecordSchema σ}

/-- A reader of records sets its fields as a decoder does, and keeps the names
that were passed over. -/
structure TextSchema.Follows (levels : Nat) (schema : TextSchema σ)
    (record : RecordSchema σ) : Prop where
  fields : schema.fields = record.fields
  aliases : record.aliases = []
  strict : record.strict = true
  valid : ∀ {field segment outline progress next}, field ∈ schema.fields →
    schema.set field segment outline progress = .ok next → next.unknown = [] →
    progress.unknown = [] ∧ ∃ value, outline.toJson (levels + 2) = .ok value
  reads : ∀ {field segment outline v before next}, field ∈ schema.fields →
    Mirrors (ValueAt levels) outline v →
    (schema.set field segment outline ⟨before, []⟩ = .ok ⟨next, []⟩ ↔
      record.set field v before = .ok next)

section Fields

variable {α : Type} {reader : Outline → Except ReadError α}
  {decoder : Decoder α}

/-- A field that takes what a reader makes of the value passes no name over. -/
theorem Follows.valid_field (h : Follows levels reader decoder)
    {outline : Outline} {progress next : Progress σ} {f : α → σ}
    (hread : (reader outline).map (fun a => { progress with
      record := f a }) = .ok next) (hunknown : next.unknown = []) :
    progress.unknown = [] ∧
      ∃ value, outline.toJson (levels + 2) = .ok value := by
  obtain ⟨a, ha, rfl⟩ := Text.exists_of_map_eq_ok hread
  exact ⟨hunknown, h.valid ha⟩

theorem Follows.reads_field (h : Follows levels reader decoder)
    {outline : Outline} {v : Json}
    (hmirrors : Mirrors (ValueAt levels) outline v) {f : α → σ} {next : σ} :
    (reader outline).map (fun a => (⟨f a, []⟩ : Progress σ)) = .ok ⟨next, []⟩ ↔
      (decoder v).map f = .ok next := by
  have hrecord : (reader outline).map (fun a => (⟨f a, []⟩ : Progress σ)) =
      .ok ⟨next, []⟩ ↔
      (reader outline).map f = .ok next := by
    cases reader outline <;> simp [Except.map]
  rw [hrecord]
  exact map_eq_ok_congr fun _ => h.reads hmirrors

end Fields

theorem toJson_item {limit : Nat} {outline : Outline} {value : Json}
    {items : ItemList} {values : List Json}
    (hvalue : outline.toJson limit = .ok value)
    (hvalues : items.toJson limit = .ok values) (start : List Char) :
    (ItemList.item start outline items).toJson limit =
      .ok (value :: values) := by
  rw [ItemList.toJson, hvalue, hvalues]
  rfl

theorem toJson_member {limit : Nat} {outline : Outline} {value : Json}
    {members : MemberList} {pairs : List (String × Json)}
    (hvalue : outline.toJson limit = .ok value)
    (hpairs : members.toJson limit = .ok pairs) (name : String)
    (after : List Char) :
    (MemberList.member (.ok name) after outline members).toJson limit =
      .ok ((name, value) :: pairs) := by
  rw [MemberList.toJson, hvalue, hpairs]
  rfl

/-- If no name was passed over, then every member was read. -/
theorem TextSchema.Follows.exists_pairs (h : schema.Follows levels record)
    {seen : List String} {progress result : Progress σ} {members : MemberList}
    (hread : schema.readMembers seen progress members = .ok result)
    (hunknown : result.unknown = []) :
    progress.unknown = [] ∧
      ∃ pairs, members.toJson (levels + 2) = .ok pairs := by
  fun_induction TextSchema.readMembers schema seen progress members with
  | case1 =>
    cases hread
    exact ⟨hunknown, [], rfl⟩
  | case2 | case3 | case4 | case5 | case7 => cases hread
  | case6 seen progress key after outline rest hfield hseen next hset ih =>
    obtain ⟨hnext, pairs, hpairs⟩ := ih hread
    obtain ⟨hprogress, value, hvalue⟩ := h.valid hfield hset hnext
    exact ⟨hprogress, _, toJson_member hvalue hpairs key after⟩
  | case8 seen progress key after outline rest hfield hskip ih =>
    obtain ⟨hnext, -⟩ := ih hread
    exact absurd hnext
      (List.append_ne_nil_of_right_ne_nil _ (List.cons_ne_nil _ _))

theorem TextSchema.Follows.exists_values (h : schema.Follows levels record)
    {fields : List String} (hfields : ∀ field ∈ fields, field ∈ schema.fields)
    {place : Nat} {progress result : Progress σ} {items : ItemList}
    (hread : schema.readItems place progress fields items = .ok result)
    (hunknown : result.unknown = []) :
    progress.unknown = [] ∧
      ∃ values, items.toJson (levels + 2) = .ok values := by
  fun_induction TextSchema.readItems schema place progress fields items with
  | case1 place progress items =>
    unfold TextSchema.endItems at hread
    split at hread
    · cases hread
      exact ⟨hunknown, [], rfl⟩
    · cases hread
    · cases hread
  | case2 =>
    cases hread
    exact ⟨hunknown, [], rfl⟩
  | case3 | case4 => cases hread
  | case5 place progress field fields start outline rest next hset ih =>
    obtain ⟨hfield, hfields⟩ := List.forall_mem_cons.1 hfields
    obtain ⟨hnext, values, hvalues⟩ := ih hfields hread
    obtain ⟨hprogress, value, hvalue⟩ := h.valid hfield hset hnext
    exact ⟨hprogress, _, toJson_item hvalue hvalues start⟩

/-- If no name was passed over, then the whole outline was read. -/
theorem TextSchema.Follows.exists_toJson (h : schema.Follows levels record)
    {progress result : Progress σ} {outline : Outline}
    (hread : schema.read progress outline = .ok result)
    (hunknown : result.unknown = []) :
    progress.unknown = [] ∧
      ∃ value, outline.toJson (levels + 3) = .ok value := by
  unfold TextSchema.read at hread
  split at hread
  · obtain ⟨hprogress, pairs, hpairs⟩ := h.exists_pairs hread hunknown
    refine ⟨hprogress, .object (Members.ofList pairs), ?_⟩
    rw [Outline.toJson, if_neg (by omega),
      Nat.add_sub_cancel (levels + 2) 1, hpairs]
    rfl
  · obtain ⟨hprogress, values, hvalues⟩ :=
      h.exists_values (fun _ hfield => hfield) hread hunknown
    refine ⟨hprogress, .array values, ?_⟩
    rw [Outline.toJson, if_neg (by omega),
      Nat.add_sub_cancel (levels + 2) 1, hvalues]
    rfl
  · exact absurd hread Typed.wrongType_ne_ok

theorem TextSchema.Follows.fieldOf?_eq (h : schema.Follows levels record)
    (key : String) :
    record.fieldOf? key = if key ∈ schema.fields then some key else none := by
  rw [RecordSchema.fieldOf?, h.aliases, h.fields]
  rfl

/-- A member that is set, on both sides. -/
theorem TextSchema.Follows.exists_set_iff (h : schema.Follows levels record)
    {field segment : String} (hfield : field ∈ schema.fields)
    {outline : Outline} {v : Json}
    (hmirrors : Mirrors (ValueAt levels) outline v) {before : σ}
    {next : Progress σ} (hunknown : next.unknown = []) :
    schema.set field segment outline ⟨before, []⟩ = .ok next ↔
      record.set field v before = .ok next.record := by
  obtain ⟨result, unknown⟩ := next
  cases hunknown
  exact h.reads hfield hmirrors

theorem TextSchema.Follows.readMembers_iff (h : schema.Follows levels record)
    {first : Bool} {text rest : List Char} {members : Members}
    (hlist :
      ListAt (MemberAt (ValueAt (levels + 1))) '\x7d' first text members rest)
    {seen : List String} {before next : σ} :
    schema.readMembers seen ⟨before, []⟩ (outlineMembers first text).value =
      .ok ⟨next, []⟩ ↔
      record.readMembers seen before members = .ok next := by
  -- What is written decides the shape of the outline, so the induction is on
  -- the members as they are written.
  induction members generalizing first text seen before with
  | nil =>
    rw [(Prod.mk.inj hlist.seen_membersNil).1]
    simp [TextSchema.readMembers, RecordSchema.readMembers]
  | cons member members ih =>
    obtain ⟨key, v⟩ := member
    obtain ⟨tail, content, after, hcontent, hends, hmembers, hseen⟩ :=
      (completeFor_valueAt (levels + 1)).exists_member hlist
    have hmirrors := ValueAt.mirrors hcontent hends
    rw [(Prod.mk.inj hseen).1, TextSchema.readMembers, RecordSchema.readMembers,
      h.fieldOf?_eq]
    by_cases hfield : key ∈ schema.fields
    · rw [if_pos hfield, if_pos hfield]
      dsimp only
      by_cases hkey : key ∈ seen
      · rw [if_pos hkey, if_pos hkey]
        exact error_eq_ok_congr
      rw [if_neg hkey, if_neg hkey]
      cases hset : record.set key v before with
      | ok middle =>
        rw [(h.reads hfield hmirrors).2 hset]
        exact ih hmembers
      | error e =>
        refine iff_of_false ?_ nofun
        split
        · exact nofun
        · rename_i progress hprogress
          intro hread
          have hunknown := (h.exists_pairs hread rfl).1
          cases hset.symm.trans
            ((h.exists_set_iff hfield hmirrors hunknown).1 hprogress)
    · rw [if_neg hfield, if_neg hfield, h.strict]
      refine iff_of_false ?_ nofun
      split
      · exact nofun
      · -- The name of a member that is passed over stays to the end.
        intro hread
        exact absurd (h.exists_pairs hread rfl).1 (List.cons_ne_nil _ _)

theorem TextSchema.Follows.readItems_iff (h : schema.Follows levels record)
    {fields : List String} (hfields : ∀ field ∈ fields, field ∈ schema.fields)
    {first : Bool} {text rest : List Char} {items : List Json}
    (hlist : ListAt (ValueAt (levels + 1)) ']' first text items rest)
    {place : Nat} {before next : σ} :
    schema.readItems place ⟨before, []⟩ fields (outlineItems first text).value =
      .ok ⟨next, []⟩ ↔
      record.readItems before fields items = .ok next ∧
        items.length ≤ fields.length := by
  induction fields generalizing first text items place before with
  | nil =>
    cases items with
    | nil =>
      rw [(Prod.mk.inj hlist.seen_nil).1]
      simp [TextSchema.readItems, TextSchema.endItems, RecordSchema.readItems]
    | cons item items =>
      obtain ⟨start, after, hitem, hends, hitems, hseen⟩ :=
        (completeFor_valueAt (levels + 1)).exists_item
          (beginsValue_valueAt _) hlist
      rw [(Prod.mk.inj hseen).1]
      exact iff_of_false nofun fun h => absurd h.2 (Nat.not_succ_le_zero _)
  | cons field fields ih =>
    obtain ⟨hfield, hfields⟩ := List.forall_mem_cons.1 hfields
    cases items with
    | nil =>
      rw [(Prod.mk.inj hlist.seen_nil).1]
      simp [TextSchema.readItems, RecordSchema.readItems]
    | cons item items =>
      obtain ⟨start, after, hitem, hends, hitems, hseen⟩ :=
        (completeFor_valueAt (levels + 1)).exists_item
          (beginsValue_valueAt _) hlist
      have hmirrors := ValueAt.mirrors hitem hends
      rw [(Prod.mk.inj hseen).1, TextSchema.readItems, RecordSchema.readItems,
        List.length_cons, List.length_cons, Nat.add_le_add_iff_right]
      cases hset : record.set field item before with
      | ok middle =>
        rw [(h.reads hfield hmirrors).2 hset]
        exact ih hfields hitems
      | error e =>
        refine iff_of_false ?_ fun h => nomatch h.1
        split
        · exact nofun
        · rename_i progress hprogress
          intro hread
          have hunknown := (h.exists_values hfields hread rfl).1
          cases hset.symm.trans
            ((h.exists_set_iff hfield hmirrors hunknown).1 hprogress)

/-- A record is read from an outline as it is decoded from the value. -/
theorem TextSchema.Follows.read_iff (h : schema.Follows levels record)
    {outline : Outline} {v : Json}
    (hmirrors : Mirrors (ValueAt (levels + 1)) outline v) {next : σ} :
    schema.read ⟨record.empty, []⟩ outline = .ok ⟨next, []⟩ ↔
      record.decode v = .ok next := by
  cases hmirrors with
  | scalar h => cases h <;> exact error_eq_ok_congr
  | object hlist => exact h.readMembers_iff hlist
  | array hlist =>
    rename_i text rest start items
    rw [TextSchema.read, h.readItems_iff (fun _ hfield => hfield) hlist,
      RecordSchema.decode, h.fields]
    cases record.readItems record.empty record.fields items with
    | error e => exact iff_of_false (fun h => nomatch h.1) nofun
    | ok result =>
      dsimp only
      by_cases hlength : record.fields.length < items.length
      · rw [if_pos hlength]
        exact iff_of_false (fun h => absurd h.2 (Nat.not_le.2 hlength)) nofun
      · rw [if_neg hlength]
        exact and_iff_left (Nat.not_lt.1 hlength)

theorem ScalarAt.decode_ne_ok {text rest : List Char} {v : Json}
    (h : ScalarAt text v rest) {next : σ} : record.decode v ≠ .ok next := by
  cases h <;> exact nofun

/-- A record is read from a text, with no member passed over, if the text begins
with a value from which it is decoded. What follows the value does not
matter. -/
theorem TextSchema.Follows.read_outlineValue_iff
    (h : schema.Follows levels record) {text : List Char} {next : σ} :
    schema.read ⟨record.empty, []⟩ (outlineValue text).value = .ok ⟨next, []⟩ ↔
      ∃ v rest, ValueAt (levels + 2) (skipBlanks text) v rest ∧
        record.decode v = .ok next := by
  constructor
  · intro hread
    obtain ⟨-, value, hvalue⟩ := h.exists_toJson hread rfl
    obtain ⟨v, rest, hunread, hv, -⟩ :=
      soundFor_valueAt (levels + 2) text value hvalue
    exact ⟨v, rest, hv,
      (h.read_iff (CompoundAt.mirrors hv fun _ => hunread)).1 hread⟩
  · rintro ⟨v, rest, hv, hdecode⟩
    -- Nothing is known of the text after the value, but only a numeral would
    -- depend on it.
    exact (h.read_iff (CompoundAt.mirrors hv fun hscalar =>
      absurd hdecode hscalar.decode_ne_ok)).2 hdecode

/-- An optional record that is read into another one. -/
theorem TextSchema.Follows.reads_option {τ : Type}
    (h : schema.Follows levels record) {outline : Outline} {v : Json}
    (hmirrors : Mirrors (ValueAt (levels + 1)) outline v)
    {f : Option (Progress σ) → Progress τ} {g : Option σ → τ}
    (hnone : f none = ⟨g none, []⟩)
    (hsome : ∀ p, f (some p) = ⟨g (some p.record), p.unknown⟩) {next : τ} :
    (Typed.option (schema.read ⟨record.empty, []⟩) outline).map f =
      .ok ⟨next, []⟩ ↔
      (Decode.option record.decode v).map g = .ok next := by
  have hread : ((schema.read ⟨record.empty, []⟩ outline).map some).map f =
      .ok ⟨next, []⟩ ↔
      ((record.decode v).map some).map g = .ok next := by
    constructor
    · intro hnext
      obtain ⟨result, hresult, hf⟩ := Text.exists_of_map_eq_ok hnext
      obtain ⟨⟨inside, unknown⟩, hp, rfl⟩ := Text.exists_of_map_eq_ok hresult
      rw [hsome] at hf
      cases hf
      rw [(h.read_iff hmirrors).1 hp]
      rfl
    · intro hnext
      obtain ⟨result, hresult, rfl⟩ := Text.exists_of_map_eq_ok hnext
      obtain ⟨inside, hinside, rfl⟩ := Text.exists_of_map_eq_ok hresult
      rw [(h.read_iff hmirrors).2 hinside]
      exact congrArg Except.ok (hsome _)
  cases hmirrors with
  | scalar hscalar =>
    cases hscalar with
    | null =>
      constructor
      · intro hf
        cases hnone.symm.trans (Except.ok.inj hf)
        rfl
      · intro hg
        cases hg
        exact congrArg Except.ok hnone
    | string | true | false | number => exact hread
  | array _ => exact hread
  | object _ => exact hread

end Records

end SqlWorkflow.Json
