import SqlWorkflow.Proofs.Json.Decode

/-!
# How a record may be written

A record that was read tells of its members: each has a name of the schema,
unless other names are passed over, and its value can be read. If setting one
field says nothing about the others, the members may come in any order. An array
is read as the object with its items under the first names of the schema.
-/

namespace SqlWorkflow.Json

namespace Members

variable {members others : Members} {key : String}

theorem get?_eq_some_iff (hnodup : (members.map Prod.fst).Nodup)
    {value : Json} :
    members.get? key = some value ↔ (key, value) ∈ members := by
  induction members with
  | nil => simp [get?]
  | cons member rest ih =>
    obtain ⟨first, content⟩ := member
    rw [List.map_cons, List.nodup_cons] at hnodup
    rw [get?, List.mem_cons, Prod.mk.injEq]
    split
    · rename_i hfirst
      subst hfirst
      have habsent : (first, value) ∉ rest :=
        fun hmem => hnodup.1 (List.mem_map.2 ⟨_, hmem, rfl⟩)
      simp [habsent, eq_comm]
    · rename_i hne
      rw [ih hnodup.2]
      simp [Ne.symm hne]

/-- What an object has under a key does not depend on the order of its
members. -/
theorem get?_perm (hperm : members.Perm others)
    (hnodup : (members.map Prod.fst).Nodup) :
    members.get? key = others.get? key := by
  have hnodup' : (others.map Prod.fst).Nodup :=
    (hperm.map Prod.fst).nodup_iff.1 hnodup
  apply Option.ext
  intro value
  rw [get?_eq_some_iff hnodup, get?_eq_some_iff hnodup', hperm.mem_iff]

end Members

namespace RecordSchema

variable {σ : Type} {schema : RecordSchema σ}

/-- A member that is passed over might as well be left out. -/
theorem readMembers_skip {key : String} (hfield : schema.fieldOf? key = none)
    (hstrict : schema.strict = false) (value : Json) (before after : Members)
    (seen : List String) (record : σ) :
    schema.readMembers seen record (before ++ (key, value) :: after) =
      schema.readMembers seen record (before ++ after) := by
  induction before generalizing seen record with
  | nil =>
    simp only [List.nil_append, readMembers, hfield, hstrict,
      Bool.false_eq_true, if_false]
  | cons member before ih => simp only [List.cons_append, readMembers, ih]

/-- The members of a record that was read. -/
theorem exists_set_of_mem {seen : List String} {record result : σ}
    {members : Members}
    (hread : schema.readMembers seen record members = .ok result)
    {member : String × Json} (hmem : member ∈ members) :
    (schema.fieldOf? member.1 = none ∧ schema.strict = false) ∨
      ∃ field before next, schema.fieldOf? member.1 = some field ∧
        schema.set field member.2 before = .ok next := by
  induction members generalizing seen record with
  | nil => cases hmem
  | cons first rest ih =>
    rcases readMembers_cons_eq_ok_iff.1 hread with
      ⟨hfield, hstrict, hrest⟩ | ⟨field, next, hfield, -, hset, hrest⟩
    · rcases List.mem_cons.1 hmem with rfl | hmem
      · exact .inl ⟨hfield, hstrict⟩
      · exact ih hrest hmem
    · rcases List.mem_cons.1 hmem with rfl | hmem
      · exact .inr ⟨field, record, next, hfield, hset⟩
      · exact ih hrest hmem

/-! ## The order of members -/

theorem readMembers_seen {seen other : List String}
    (h : ∀ field, field ∈ seen ↔ field ∈ other) (record : σ)
    (members : Members) : schema.readMembers seen record members =
      schema.readMembers other record members := by
  induction members generalizing seen other record with
  | nil => rfl
  | cons member rest ih =>
    obtain ⟨key, value⟩ := member
    have hmore (added field : String) : field ∈ added :: seen ↔
        field ∈ added :: other := by
      rw [List.mem_cons, List.mem_cons, h]
    simp only [readMembers, h, ih h, fun added => ih (hmore added)]

/-- Whether a field can be set, and what is set, is independent of the other
fields. -/
def Independent (schema : RecordSchema σ) : Prop :=
  ∀ field value record next, schema.set field value record = .ok next →
    ∃ overlay, schema.Overlays field overlay ∧
      ∀ other, schema.set field value other = .ok (overlay other)

theorem readMembers_swap (h : schema.Independent) {seen : List String}
    {record result : σ} {first second : String × Json} {rest : Members}
    (hread :
      schema.readMembers seen record (first :: second :: rest) = .ok result) :
    schema.readMembers seen record (second :: first :: rest) = .ok result := by
  rcases readMembers_cons_eq_ok_iff.1 hread with
    ⟨hfirst, hstrict, hread⟩ | ⟨f, next, hfirst, hf, hset, hread⟩
  · rcases readMembers_cons_eq_ok_iff.1 hread with
      ⟨hsecond, -, hread⟩ | ⟨s, later, hsecond, hs, hset, hread⟩
    · exact readMembers_cons_eq_ok_iff.2 (.inl ⟨hsecond, hstrict,
        readMembers_cons_eq_ok_iff.2 (.inl ⟨hfirst, hstrict, hread⟩)⟩)
    · exact readMembers_cons_eq_ok_iff.2 (.inr ⟨s, later, hsecond, hs, hset,
        readMembers_cons_eq_ok_iff.2 (.inl ⟨hfirst, hstrict, hread⟩)⟩)
  · rcases readMembers_cons_eq_ok_iff.1 hread with
      ⟨hsecond, hstrict, hread⟩ | ⟨s, later, hsecond, hs, hlater, hread⟩
    · exact readMembers_cons_eq_ok_iff.2 (.inl ⟨hsecond, hstrict,
        readMembers_cons_eq_ok_iff.2 (.inr ⟨f, next, hfirst, hf, hset, hread⟩)⟩)
    · obtain ⟨hne, hs⟩ := not_or.1 (mt List.mem_cons.2 hs)
      obtain ⟨overlay, hoverlay, hoverlays⟩ := h f first.2 record next hset
      cases (hoverlays record).symm.trans hset
      rw [hoverlay s second.2 record hne] at hlater
      obtain ⟨middle, hmiddle, rfl⟩ := Text.exists_of_map_eq_ok hlater
      have hf' : f ∉ s :: seen :=
        fun hmem => (List.mem_cons.1 hmem).elim (fun heq => hne heq.symm) hf
      refine readMembers_cons_eq_ok_iff.2
        (.inr ⟨s, middle, hsecond, hs, hmiddle, ?_⟩)
      refine readMembers_cons_eq_ok_iff.2
        (.inr ⟨f, overlay middle, hfirst, hf', hoverlays middle, ?_⟩)
      rw [← hread]
      apply readMembers_seen
      intro field
      simp only [List.mem_cons, or_left_comm]

/-- The members of a record may come in any order. -/
theorem readMembers_perm (h : schema.Independent) {members others : Members}
    (hperm : members.Perm others) {seen : List String} {record result : σ}
    (hread : schema.readMembers seen record members = .ok result) :
    schema.readMembers seen record others = .ok result := by
  induction hperm generalizing seen record with
  | nil => exact hread
  | cons member _ ih =>
    rcases readMembers_cons_eq_ok_iff.1 hread with
      ⟨hfield, hstrict, hrest⟩ | ⟨field, next, hfield, hseen, hset, hrest⟩
    · exact readMembers_cons_eq_ok_iff.2 (.inl ⟨hfield, hstrict, ih hrest⟩)
    · exact readMembers_cons_eq_ok_iff.2
        (.inr ⟨field, next, hfield, hseen, hset, ih hrest⟩)
  | swap first second rest => exact readMembers_swap h hread
  | trans _ _ ih ih' => exact ih' (ih hread)

/-! ## Records written as arrays -/

theorem readItems_eq_readMembers {fields seen : List String}
    (hnodup : fields.Nodup)
    (hfields : ∀ field ∈ fields, field ∈ schema.fields ∧ field ∉ seen)
    (record : σ) (items : List Json) :
    schema.readItems record fields items =
      schema.readMembers seen record (fields.zip items) := by
  induction fields generalizing seen record items with
  | nil => cases items <;> rfl
  | cons field fields ih =>
    cases items with
    | nil => rfl
    | cons item items =>
      obtain ⟨hfresh, hnodup⟩ := List.nodup_cons.1 hnodup
      obtain ⟨⟨hfield, hseen⟩, hrest⟩ := List.forall_mem_cons.1 hfields
      have hnext : ∀ other ∈ fields, other ∈ schema.fields ∧
          other ∉ field :: seen := by
        intro other hmem
        refine ⟨(hrest other hmem).1, ?_⟩
        rw [List.mem_cons, not_or]
        exact ⟨fun heq => hfresh (heq ▸ hmem), (hrest other hmem).2⟩
      rw [readItems, List.zip_cons_cons, readMembers, fieldOf?, if_pos hfield]
      simp only [hseen, if_false, ih hnodup hnext]

/-- An array with no more items than there are fields is read as the object with
these items. -/
theorem decode_array_eq_object (hnodup : schema.fields.Nodup)
    {items : List Json} (hlength : items.length ≤ schema.fields.length) :
    schema.decode (.array items) =
      schema.decode (.object (schema.fields.zip items)) := by
  rw [decode, decode, readItems_eq_readMembers hnodup fun field hfield =>
    ⟨hfield, List.not_mem_nil⟩]
  cases schema.readMembers [] schema.empty (schema.fields.zip items) with
  | error e => rfl
  | ok record => exact if_neg (Nat.not_lt.2 hlength)

theorem length_le_of_decode_array {items : List Json} {record : σ}
    (h : schema.decode (.array items) = .ok record) :
    items.length ≤ schema.fields.length := by
  rw [decode] at h
  split at h
  · cases h
  · split at h
    · cases h
    · rename_i hlength
      exact Nat.not_lt.1 hlength

/-! ## Records that are told by their members -/

section Told

variable {told : Members → σ} {Plain Suits : String → Json → Prop}

/-- Setting a field goes from the record that some members tell to the one that
they tell with one more. -/
def Tells (schema : RecordSchema σ) (told : Members → σ)
    (Plain Suits : String → Json → Prop) : Prop :=
  ∀ before field value next, field ∈ schema.fields → before.get? field = none →
    Plain field value →
    (schema.set field value (told before) = .ok next ↔
      Suits field value ∧ next = told (before ++ [(field, value)]))

theorem fieldOf?_eq_some_iff (haliases : schema.aliases = [])
    {key field : String} :
    schema.fieldOf? key = some field ↔ key ∈ schema.fields ∧ key = field := by
  rw [fieldOf?, haliases, List.lookup_nil]
  split <;> simp [*]

theorem get?_snoc_eq_none {before : Members} {seen : List String}
    {field : String} (hseen : ∀ other, other ∉ seen → before.get? other = none)
    (value : Json) :
    ∀ other, other ∉ field :: seen →
      (before ++ [(field, value)]).get? other = none := by
  intro other hother
  obtain ⟨hne, hother⟩ := not_or.1 (mt List.mem_cons.2 hother)
  rw [Members.get?_append, hseen other hother, Members.get?,
    if_neg (Ne.symm hne)]
  rfl

/-- The record is read that all members tell: each once, of a field of the
schema, and with a value that suits. -/
theorem Tells.readMembers_eq_ok_iff (htells : schema.Tells told Plain Suits)
    (hstrict : schema.strict = true) (haliases : schema.aliases = [])
    {members before : Members} {seen : List String}
    (hseen : ∀ field, field ∉ seen → before.get? field = none)
    (hplain : ∀ member ∈ members, Plain member.1 member.2) {result : σ} :
    schema.readMembers seen (told before) members = .ok result ↔
      (∀ member ∈ members, member.1 ∈ schema.fields ∧ Suits member.1 member.2) ∧
        ((∀ member ∈ members, member.1 ∉ seen) ∧ (members.map Prod.fst).Nodup) ∧
        result = told (before ++ members) := by
  induction members generalizing before seen with
  | nil => simp [readMembers, eq_comm]
  | cons member members ih =>
    obtain ⟨key, value⟩ := member
    obtain ⟨hfirst, hothers⟩ := List.forall_mem_cons.1 hplain
    rw [readMembers_cons_eq_ok_iff, List.forall_mem_cons, List.forall_mem_cons,
      List.map_cons, List.nodup_cons]
    constructor
    · rintro (⟨-, hlax, -⟩ | ⟨field, next, hfield, hfresh, hnext, hrest⟩)
      · cases hstrict.symm.trans hlax
      obtain ⟨hknown, rfl⟩ := (fieldOf?_eq_some_iff haliases).1 hfield
      obtain ⟨hsuits, rfl⟩ :=
        (htells before key value next hknown (hseen key hfresh) hfirst).1 hnext
      obtain ⟨hall, ⟨hnew, hnodup⟩, rfl⟩ :=
        (ih (get?_snoc_eq_none hseen value) hothers).1 hrest
      have hkey : key ∉ members.map Prod.fst := by
        intro hmem
        obtain ⟨member, hmember, rfl⟩ := List.mem_map.1 hmem
        exact hnew member hmember List.mem_cons_self
      have hnew' : ∀ member ∈ members, member.1 ∉ seen := by
        intro member hmember hmem
        exact hnew member hmember (List.mem_cons_of_mem _ hmem)
      exact ⟨⟨⟨hknown, hsuits⟩, hall⟩, ⟨⟨hfresh, hnew'⟩, hkey, hnodup⟩, by simp⟩
    · rintro ⟨⟨⟨hfield, hsuits⟩, hall⟩, ⟨⟨hfresh, hnew⟩, hkey, hnodup⟩, hresult⟩
      have hnew' : ∀ member ∈ members, member.1 ∉ key :: seen := by
        intro member hmember hmem
        rcases List.mem_cons.1 hmem with heq | hmem
        · exact hkey (List.mem_map.2 ⟨member, hmember, heq⟩)
        · exact hnew member hmember hmem
      refine .inr ⟨key, _, (fieldOf?_eq_some_iff haliases).2 ⟨hfield, rfl⟩,
        hfresh, (htells before key value _ hfield (hseen key hfresh) hfirst).2
          ⟨hsuits, rfl⟩, ?_⟩
      refine (ih (get?_snoc_eq_none hseen value) hothers).2
        ⟨hall, ⟨hnew', hnodup⟩, ?_⟩
      rw [hresult, List.append_assoc]
      rfl

theorem Tells.decode_object_eq_ok_iff (htells : schema.Tells told Plain Suits)
    (hstrict : schema.strict = true) (haliases : schema.aliases = [])
    (hempty : told [] = schema.empty) {members : Members}
    (hplain : ∀ member ∈ members, Plain member.1 member.2) {result : σ} :
    schema.decode (.object members) = .ok result ↔
      (∀ member ∈ members, member.1 ∈ schema.fields ∧ Suits member.1 member.2) ∧
        (members.map Prod.fst).Nodup ∧ result = told members := by
  rw [decode, ← hempty,
    htells.readMembers_eq_ok_iff hstrict haliases (fun _ _ => rfl) hplain]
  simp

end Told

/-! ## Fields with several names -/

/-- A record that was read has each key once. -/
theorem nodup_keys_of_readMembers (hstrict : schema.strict = true)
    {seen : List String} {record result : σ} {members : Members}
    (hread : schema.readMembers seen record members = .ok result) :
    (members.map Prod.fst).Nodup ∧ ∀ member ∈ members, ∃ field,
      schema.fieldOf? member.1 = some field ∧ field ∉ seen := by
  induction members generalizing seen record with
  | nil => exact ⟨.nil, nofun⟩
  | cons member rest ih =>
    obtain ⟨key, value⟩ := member
    rcases readMembers_cons_eq_ok_iff.1 hread with
      ⟨-, hlax, -⟩ | ⟨field, next, hfield, hseen, -, hrest⟩
    · cases hstrict.symm.trans hlax
    · obtain ⟨hnodup, hfields⟩ := ih hrest
      constructor
      · rw [List.map_cons, List.nodup_cons]
        refine ⟨fun hmem => ?_, hnodup⟩
        obtain ⟨member, hmember, rfl⟩ := List.mem_map.1 hmem
        obtain ⟨other, hother, hfresh⟩ := hfields member hmember
        cases hfield.symm.trans hother
        exact hfresh List.mem_cons_self
      · refine List.forall_mem_cons.2
          ⟨⟨field, hfield, hseen⟩, fun member hmember => ?_⟩
        obtain ⟨other, hother, hfresh⟩ := hfields member hmember
        exact ⟨other, hother, fun hmem => hfresh (List.mem_cons_of_mem _ hmem)⟩

/-- What is read for a field is what any member that sets it says: there is no
other one. -/
theorem Keeps.exists_set_of_mem {α : Type} {part : σ → α} {field : String}
    (hkeeps : schema.Keeps field part) {members : Members} {seen : List String}
    {record result : σ}
    (hread : schema.readMembers seen record members = .ok result)
    {member : String × Json} (hmem : member ∈ members)
    (hfield : schema.fieldOf? member.1 = some field) :
    ∃ before next, schema.set field member.2 before = .ok next ∧
      part result = part next := by
  induction members generalizing seen record with
  | nil => cases hmem
  | cons first rest ih =>
    rcases readMembers_cons_eq_ok_iff.1 hread with
      ⟨hnone, -, hrest⟩ | ⟨other, next, hother, -, hset, hrest⟩
    · rcases List.mem_cons.1 hmem with rfl | hmem
      · cases hnone.symm.trans hfield
      · exact ih hrest hmem
    · rcases List.mem_cons.1 hmem with rfl | hmem
      · cases hother.symm.trans hfield
        exact ⟨record, next, hset,
          hkeeps.readMembers (fun _ _ _ => List.mem_cons_self) hrest⟩
      · exact ih hrest hmem

/-- Setting a field that no member has set goes from the record that some
members tell to the one that they tell with one more, whichever of its names the
field has there. -/
def TellsNamed (schema : RecordSchema σ) (told : Members → σ) : Prop :=
  ∀ before key field value next, schema.fieldOf? key = some field →
    (∀ other, schema.fieldOf? other = some field → before.get? other = none) →
    schema.set field value (told before) = .ok next →
    next = told (before ++ [(key, value)])

theorem TellsNamed.eq_told {told : Members → σ}
    (htells : schema.TellsNamed told) (hstrict : schema.strict = true)
    {members before : Members} {seen : List String} {result : σ}
    (hseen : ∀ field, field ∉ seen → ∀ key, schema.fieldOf? key = some field →
      before.get? key = none)
    (hread : schema.readMembers seen (told before) members = .ok result) :
    result = told (before ++ members) := by
  induction members generalizing before seen with
  | nil =>
    cases hread
    rw [List.append_nil]
  | cons member rest ih =>
    obtain ⟨key, value⟩ := member
    rcases readMembers_cons_eq_ok_iff.1 hread with
      ⟨-, hlax, -⟩ | ⟨field, next, hfield, hfresh, hset, hrest⟩
    · cases hstrict.symm.trans hlax
    · obtain rfl :=
        htells before key field value next hfield (hseen field hfresh) hset
      have hseen' : ∀ other, other ∉ field :: seen →
          ∀ name, schema.fieldOf? name = some other →
            (before ++ [(key, value)]).get? name = none := by
        intro other hother name hname
        obtain ⟨hne, hother⟩ := not_or.1 (mt List.mem_cons.2 hother)
        have hkey : key ≠ name := by
          rintro rfl
          exact hne (Option.some.inj (hname.symm.trans hfield))
        rw [Members.get?_append, hseen other hother name hname, Members.get?,
          if_neg hkey]
        rfl
      rw [ih hseen' hrest, List.append_assoc, List.singleton_append]

end RecordSchema

end SqlWorkflow.Json
