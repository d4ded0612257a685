import SqlWorkflow.Json.Decode
import SqlWorkflow.Text.Parsed

/-!
# Records with one more member

Reading a record sets its fields one after another. If setting one field
commutes with setting the others, a member for it may be put anywhere among the
members: the record that is read differs by that field alone, and a fault of the
other members stays the same. What is read for a field is what its member says.
-/

namespace SqlWorkflow.Json

namespace Members

variable {members : Members} {key : String}

theorem insert_eq_append (habsent : members.get? key = none) (value : Json) :
    members.insert key value = members ++ [(key, value)] := by
  induction members with
  | nil => rfl
  | cons member rest ih =>
    obtain ⟨first, content⟩ := member
    rw [get?] at habsent
    split at habsent
    · cases habsent
    · rename_i hne
      rw [insert, if_neg hne, ih habsent]
      rfl

theorem get?_append (others : Members) :
    (members ++ others).get? key = (members.get? key).or (others.get? key) := by
  induction members with
  | nil => rfl
  | cons member rest ih =>
    obtain ⟨first, content⟩ := member
    simp only [List.cons_append, get?]
    split
    · rfl
    · exact ih

theorem key_ne_of_get?_eq_none (habsent : members.get? key = none) :
    ∀ member ∈ members, member.1 ≠ key := by
  induction members with
  | nil => exact fun _ h => absurd h List.not_mem_nil
  | cons member rest ih =>
    obtain ⟨first, content⟩ := member
    rw [get?] at habsent
    split at habsent
    · cases habsent
    · rename_i hne
      exact List.forall_mem_cons.2 ⟨hne, ih habsent⟩

end Members

theorem Decode.items_map {α β : Type} {decoder : Decoder β} {encode : α → Json}
    {f : α → β} (h : ∀ a, decoder (encode a) = .ok (f a)) (as : List α) :
    items decoder (as.map encode) = .ok (as.map f) := by
  induction as with
  | nil => rfl
  | cons a rest ih =>
    simp only [List.map_cons, items, h, ih]
    rfl

namespace RecordSchema

variable {σ : Type} (schema : RecordSchema σ)

/-- A change of a record that concerns one field only: setting any other field
commutes with it. -/
def Overlays (field : String) (overlay : σ → σ) : Prop :=
  ∀ other value record, other ≠ field →
    schema.set other value (overlay record) =
      (schema.set other value record).map overlay

/-- A part of a record that only one field touches. -/
def Keeps {α : Type} (field : String) (part : σ → α) : Prop :=
  ∀ other value record next, other ≠ field →
    schema.set other value record = .ok next → part next = part record

variable {schema}

/-- The field that a key sets has its name or an alias. -/
theorem mem_of_fieldOf?_eq_some {key field : String}
    (h : schema.fieldOf? key = some field) :
    key = field ∨ (key, field) ∈ schema.aliases := by
  rw [fieldOf?] at h
  split at h
  · exact .inl (Option.some.inj h)
  · obtain ⟨former, latter, heq, -⟩ := List.lookup_eq_some_iff.1 h
    right
    rw [heq]
    exact List.mem_append_right _ List.mem_cons_self

/-- One step of reading: the first member sets its field. -/
theorem readMembers_cons {key field : String}
    (hfield : schema.fieldOf? key = some field) {seen : List String}
    (hseen : field ∉ seen) {value : Json} {record next : σ}
    (hset : schema.set field value record = .ok next) (rest : Members) :
    schema.readMembers seen record ((key, value) :: rest) =
      schema.readMembers (field :: seen) next rest := by
  rw [readMembers, hfield]
  simp only [hseen, if_false, hset]

/-- One step of reading: the first member is passed over, or sets its field. -/
theorem readMembers_cons_eq_ok_iff {seen : List String} {record result : σ}
    {key : String} {value : Json} {rest : Members} :
    schema.readMembers seen record ((key, value) :: rest) = .ok result ↔
      (schema.fieldOf? key = none ∧ schema.strict = false ∧
        schema.readMembers seen record rest = .ok result) ∨
        ∃ field next, schema.fieldOf? key = some field ∧ field ∉ seen ∧
          schema.set field value record = .ok next ∧
          schema.readMembers (field :: seen) next rest = .ok result := by
  rw [readMembers]
  cases hfield : schema.fieldOf? key with
  | none => cases schema.strict <;> simp
  | some field =>
    by_cases hseen : field ∈ seen
    · simp [hseen]
    · cases hset : schema.set field value record with
      | error e => simp [hseen, hset]
      | ok next => simp [hseen, hset]

theorem map_overlay {α : Type} {decoded : Except Mismatch α} {put put' : α → σ}
    {overlay : σ → σ} (h : ∀ a, put' a = overlay (put a)) :
    decoded.map put' = (decoded.map put).map overlay := by
  cases decoded with
  | error e => rfl
  | ok a => exact congrArg Except.ok (h a)

/-- Members of other fields are read in the same way when the field is set
already. -/
theorem readMembers_overlay {field : String} {overlay : σ → σ}
    (hoverlay : schema.Overlays field overlay) {members : Members}
    (hother : ∀ member ∈ members, schema.fieldOf? member.1 ≠ some field)
    {seen seen' : List String}
    (hseen : ∀ other, other ≠ field → (other ∈ seen' ↔ other ∈ seen))
    (record : σ) :
    schema.readMembers seen' (overlay record) members =
      (schema.readMembers seen record members).map overlay := by
  induction members generalizing seen seen' record with
  | nil => rfl
  | cons member rest ih =>
    obtain ⟨key, value⟩ := member
    have hrest : ∀ member ∈ rest, schema.fieldOf? member.1 ≠ some field := by
      intro member hmem
      exact hother member (List.mem_cons_of_mem _ hmem)
    have hkey : schema.fieldOf? key ≠ some field :=
      hother (key, value) List.mem_cons_self
    simp only [readMembers]
    cases hfield : schema.fieldOf? key with
    | none =>
      cases hstrict : schema.strict with
      | true => rfl
      | false => exact ih hrest hseen record
    | some other =>
      have hne : other ≠ field := by
        rintro rfl
        exact hkey hfield
      by_cases hmem : other ∈ seen
      · simp only [hmem, (hseen other hne).2 hmem, if_true]
        rfl
      · have hmem' : other ∉ seen' := fun h => hmem ((hseen other hne).1 h)
        simp only [hmem, hmem', if_false, hoverlay other value record hne]
        cases schema.set other value record with
        | error e => rfl
        | ok next =>
          apply ih hrest
          intro other' hne'
          simp only [List.mem_cons, hseen other' hne']

/-- A member that sets a field which no other member sets may stand anywhere. -/
theorem readMembers_insert {field : String} {overlay : σ → σ}
    (hoverlay : schema.Overlays field overlay) {before after : Members}
    {key : String} {value : Json}
    (hother : ∀ member ∈ before ++ after, schema.fieldOf? member.1 ≠ some field)
    (hkey : schema.fieldOf? key = some field)
    (hvalue : ∀ record, schema.set field value record = .ok (overlay record))
    {seen : List String} (hseen : field ∉ seen) (record : σ) :
    schema.readMembers seen record (before ++ (key, value) :: after) =
      (schema.readMembers seen record (before ++ after)).map overlay := by
  induction before generalizing seen record with
  | nil =>
    simp only [List.nil_append, readMembers, hkey, hseen, if_false, hvalue]
    apply readMembers_overlay hoverlay hother
    intro other hne
    simp only [List.mem_cons, hne, false_or]
  | cons member rest ih =>
    obtain ⟨first, content⟩ := member
    have hrest : ∀ member ∈ rest ++ after, schema.fieldOf? member.1 ≠
        some field := by
      intro member hmem
      exact hother member (List.mem_cons_of_mem _ hmem)
    have hfirst : schema.fieldOf? first ≠ some field :=
      hother (first, content) List.mem_cons_self
    simp only [List.cons_append, readMembers]
    cases hfield : schema.fieldOf? first with
    | none =>
      cases hstrict : schema.strict with
      | true => rfl
      | false => exact ih hrest hseen record
    | some other =>
      by_cases hmem : other ∈ seen
      · simp only [hmem, if_true]
        rfl
      · simp only [hmem, if_false]
        cases schema.set other content record with
        | error e => rfl
        | ok next =>
          have hne : field ≠ other := by
            intro heq
            exact hfirst (heq ▸ hfield)
          apply ih hrest
          rw [List.mem_cons, not_or]
          exact ⟨hne, hseen⟩

variable {α : Type} {part : σ → α} {field : String}

/-- What is read for a field stays if no further member for it is allowed, or
there is none. -/
theorem Keeps.readMembers (hkeeps : schema.Keeps field part) {members : Members}
    {seen : List String} {record result : σ} (hother : ∀ member ∈ members,
      schema.fieldOf? member.1 = some field → field ∈ seen)
    (hread : schema.readMembers seen record members = .ok result) :
    part result = part record := by
  induction members generalizing seen record with
  | nil =>
    cases hread
    rfl
  | cons member rest ih =>
    obtain ⟨hfirst, hrest⟩ := List.forall_mem_cons.1 hother
    rcases readMembers_cons_eq_ok_iff.1 hread with
      ⟨-, -, hread⟩ | ⟨other, next, hfield, hseen, hset, hread⟩
    · exact ih hrest hread
    · have hne : other ≠ field := by
        rintro rfl
        exact hseen (hfirst hfield)
      have hresult : part result = part next :=
        ih (fun member hmem hsame =>
          List.mem_cons_of_mem _ (hrest member hmem hsame)) hread
      exact hresult.trans (hkeeps other member.2 record next hne hset)

/-- What is read for a field of one key is what the first member with this key
says. -/
theorem Keeps.exists_set_of_get? (hkeeps : schema.Keeps field part)
    {key : String}
    (hkey : ∀ other, schema.fieldOf? other = some field ↔ other = key)
    {members : Members} {seen : List String} {record result : σ} {value : Json}
    (hget : members.get? key = some value)
    (hread : schema.readMembers seen record members = .ok result) :
    ∃ before next, schema.set field value before = .ok next ∧
      part result = part next := by
  induction members generalizing seen record with
  | nil => cases hget
  | cons member rest ih =>
    obtain ⟨first, content⟩ := member
    rw [Members.get?] at hget
    rcases readMembers_cons_eq_ok_iff.1 hread with
      ⟨hnone, -, hrest⟩ | ⟨other, next, hfield, -, hset, hrest⟩
    · have hfirst : first ≠ key := by
        rintro rfl
        cases hnone.symm.trans ((hkey first).2 rfl)
      rw [if_neg hfirst] at hget
      exact ih hget hrest
    · by_cases hfirst : first = key
      · cases hfield.symm.trans ((hkey first).2 hfirst)
        rw [if_pos hfirst] at hget
        cases hget
        exact ⟨record, next, hset,
          hkeeps.readMembers (fun _ _ _ => List.mem_cons_self) hrest⟩
      · rw [if_neg hfirst] at hget
        exact ih hget hrest

end RecordSchema

end SqlWorkflow.Json
