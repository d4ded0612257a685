import Mathlib.Data.List.DropRight
import SqlWorkflow.Json.Reader
import SqlWorkflow.Proofs.Json.Grammar

/-!
# What is made out of a text

An outline holds what was made out of a text, with proofs that the text gets
shorter. Without them, what is made out of a text that does not begin with a
blank follows from its first character.

Of the members of an object with one name a reader keeps the last only. What is
written holds all of them, and stands for what is read.
-/

namespace SqlWorkflow.Json

mutual

/-- The value that a written one stands for: of several members with one name
the last counts, in the place of the first. -/
def collapse : Json → Json
  | .null => .null
  | .bool b => .bool b
  | .number n => .number n
  | .string s => .string s
  | .array items => .array (collapseItems items)
  | .object members => .object (Members.ofList (collapseMembers members))

def collapseItems : List Json → List Json
  | [] => []
  | v :: vs => collapse v :: collapseItems vs

def collapseMembers : List (String × Json) → List (String × Json)
  | [] => []
  | (name, v) :: rest => (name, collapse v) :: collapseMembers rest

end

/-! ## What is made out, without the proofs that it gets shorter -/

section Seen

variable {α β : Type} {text short long : List Char}

/-- The text after what was made out, if no fault ended it. -/
def Outlined.unread? (o : Outlined α text) : Option (List Char) :=
  match o.rest with
  | .ok ⟨rest, _⟩ => some rest
  | .error _ => none

/-- What was made out and the text after it. -/
def Outlined.seen (o : Outlined α text) : α × Option (List Char) :=
  (o.value, o.unread?)

@[simp]
theorem Outlined.unread?_weaken (f : α → β) (o : Outlined α short)
    (h : short.length ≤ long.length) : (o.weaken f h).unread? = o.unread? := by
  unfold Outlined.unread? Outlined.weaken
  cases o.rest with
  | error e => rfl
  | ok rest => rfl

@[simp]
theorem Outlined.seen_weaken (f : α → β) (o : Outlined α short)
    (h : short.length ≤ long.length) :
    (o.weaken f h).seen = (f o.value, o.unread?) := by
  rw [Outlined.seen, Outlined.unread?_weaken]
  rfl

@[simp]
theorem Outlined.seen_broken (f : SyntaxError → SyntaxError → α)
    (reading skipping : SyntaxError) :
    (Outlined.broken f reading skipping : Outlined α text).seen =
      (f reading skipping, none) := rfl

/-- What is made out of a text that does not begin with a blank. -/
def valueSeen : List Char → Outline × Option (List Char)
  | [] => (.broken ⟨.endInValue, .within []⟩ ⟨.endInValue, .within []⟩, none)
  | c :: rest =>
    if c = '[' then (.array (c :: rest) (outlineItems true rest).value,
      (outlineItems true rest).unread?)
    else if c = '\x7b' then
      (.object (c :: rest) (outlineMembers true rest).value,
        (outlineMembers true rest).unread?)
    else if c = '"' then
      match outlineQuotation rest with
      | .error (reading, skipping) => (.broken reading skipping, none)
      | .ok (value, p) =>
        (.scalar (c :: rest) (value.map .string) p.rest, some p.rest)
    else if c = 'n' then (outlineWord ['u', 'l', 'l'] .null (c :: rest)).seen
    else if c = 't' then
      (outlineWord ['r', 'u', 'e'] (.bool true) (c :: rest)).seen
    else if c = 'f' then
      (outlineWord ['a', 'l', 's', 'e'] (.bool false) (c :: rest)).seen
    else if c = '-' ∨ c.isDigit = true then (outlineNumber (c :: rest)).seen
    else (.broken ⟨.expectedValue, .within (c :: rest)⟩
      ⟨.expectedValue, .within (c :: rest)⟩, none)

theorem seen_outlineValue (text : List Char) :
    (outlineValue text).seen = valueSeen (skipBlanks text) := by
  rw [outlineValue]
  split
  · rename_i hskip
    exact (congrArg valueSeen hskip).symm
  · rename_i c rest hskip
    refine Eq.trans ?_ (congrArg valueSeen hskip).symm
    rw [valueSeen]
    dsimp only
    split
    · exact Outlined.seen_weaken _ _ _
    split
    · exact Outlined.seen_weaken _ _ _
    split
    · rcases outlineQuotation rest with ⟨reading, skipping⟩ | ⟨value, p⟩ <;> rfl
    split
    · exact Outlined.seen_weaken _ _ _
    split
    · exact Outlined.seen_weaken _ _ _
    split
    · exact Outlined.seen_weaken _ _ _
    split
    · exact Outlined.seen_weaken _ _ _
    · rfl

theorem value_outlineValue (text : List Char) :
    (outlineValue text).value = (valueSeen (skipBlanks text)).1 :=
  congrArg Prod.fst (seen_outlineValue text)

theorem unread?_outlineValue (text : List Char) :
    (outlineValue text).unread? = (valueSeen (skipBlanks text)).2 :=
  congrArg Prod.snd (seen_outlineValue text)

/-- What is made out of the items that begin with the one at the head of a
text. -/
def itemSeen (start : List Char) : ItemList × Option (List Char) :=
  match (outlineValue start).rest with
  | .error (reading, skipping) =>
    (.item start (outlineValue start).value (.broken reading skipping), none)
  | .ok ⟨rest, _⟩ =>
    (.item start (outlineValue start).value (outlineItems false rest).value,
      (outlineItems false rest).unread?)

theorem seen_outlineItem (start text : List Char)
    (hs : start.length ≤ text.length) :
    (outlineItem start text hs).seen = itemSeen start := by
  rw [outlineItem, itemSeen]
  rcases (outlineValue start).rest with ⟨reading, skipping⟩ | ⟨rest, hr⟩
  · rfl
  · exact Outlined.seen_weaken _ _ _

/-- What is made out of the items of an array, from a text that does not begin
with a blank. -/
def itemsSeen (first : Bool) : List Char → ItemList × Option (List Char)
  | [] => (.broken ⟨.endInList, .within []⟩ ⟨.endInList, .within []⟩, none)
  | c :: rest =>
    if c = ']' then (.close rest, some rest)
    else if first then itemSeen (c :: rest)
    else if c = ',' then
      match skipBlanks rest with
      | [] =>
        (.broken ⟨.endInValue, .within []⟩ ⟨.endInValue, .within []⟩, none)
      | d :: tail =>
        if d = ']' then
          (.broken ⟨.trailingComma, .within (d :: tail)⟩
            ⟨.expectedValue, .within (d :: tail)⟩, none)
        else itemSeen (d :: tail)
    else
      (.broken ⟨.expectedListComma, .within (c :: rest)⟩
        ⟨.expectedListComma, .within (c :: rest)⟩, none)

theorem seen_outlineItems (first : Bool) (text : List Char) :
    (outlineItems first text).seen = itemsSeen first (skipBlanks text) := by
  rw [outlineItems]
  split
  · rename_i hskip
    exact (congrArg (itemsSeen first) hskip).symm
  · rename_i c rest hskip
    refine Eq.trans ?_ (congrArg (itemsSeen first) hskip).symm
    rw [itemsSeen]
    dsimp only
    split
    · rfl
    split
    · exact seen_outlineItem _ _ _
    split
    · split
      · rename_i hrest
        rw [hrest]
        rfl
      · rename_i d tail hrest
        split
        · rename_i hclose
          rw [hrest]
          exact (if_pos hclose).symm
        · rename_i hopen
          rw [seen_outlineItem, hrest]
          exact (if_neg hopen).symm
    · rfl

theorem value_outlineItems (first : Bool) (text : List Char) :
    (outlineItems first text).value = (itemsSeen first (skipBlanks text)).1 :=
  congrArg Prod.fst (seen_outlineItems first text)

theorem unread?_outlineItems (first : Bool) (text : List Char) :
    (outlineItems first text).unread? = (itemsSeen first (skipBlanks text)).2 :=
  congrArg Prod.snd (seen_outlineItems first text)

/-- What is made out of the members that begin with the one of which the name is
at the head of a text. -/
def memberSeen (start : List Char) : MemberList × Option (List Char) :=
  match outlineQuotation start with
  | .error (reading, skipping) => (.broken reading skipping, none)
  | .ok (name, p) =>
    match skipBlanks p.rest with
    | [] =>
      (.broken (errorOr name ⟨.endInObject, .within []⟩)
        ⟨.endInObject, .within []⟩, none)
    | c :: rest =>
      if c = ':' then
        match (outlineValue rest).rest with
        | .error (reading, skipping) =>
          (.member name p.rest (outlineValue rest).value
            (.broken reading skipping), none)
        | .ok ⟨after, _⟩ =>
          (.member name p.rest (outlineValue rest).value (outlineMembers false
            after).value, (outlineMembers false after).unread?)
      else
        (.broken (errorOr name ⟨.expectedColon, .within (c :: rest)⟩)
          ⟨.expectedColon, .within (c :: rest)⟩, none)

theorem seen_outlineMember (start text : List Char)
    (hs : start.length < text.length) :
    (outlineMember start text hs).seen = memberSeen start := by
  rw [outlineMember, memberSeen]
  rcases outlineQuotation start with ⟨reading, skipping⟩ | ⟨name, p⟩
  · rfl
  dsimp only
  split
  · rename_i hrest
    rw [hrest]
    rfl
  · rename_i c rest hrest
    split
    · rename_i hcolon
      split
      · rename_i hvalue
        rw [hrest, Outlined.seen_broken]
        dsimp only
        rw [if_pos hcolon, hvalue]
      · rename_i hvalue
        rw [Outlined.seen_weaken, hrest]
        dsimp only
        rw [if_pos hcolon, hvalue]
    · rename_i hcolon
      rw [hrest]
      exact (if_neg hcolon).symm

/-- What is made out of the members of an object, from a text that does not
begin with a blank. -/
def membersSeen (first : Bool) : List Char → MemberList × Option (List Char)
  | [] => (.broken ⟨.endInObject, .within []⟩ ⟨.endInObject, .within []⟩, none)
  | c :: rest =>
    if c = '\x7d' then (.close rest, some rest)
    else if first then
      if c = '"' then memberSeen rest
      else (.broken ⟨.keyMustBeString, .within (c :: rest)⟩
        ⟨.keyMustBeString, .within (c :: rest)⟩, none)
    else if c = ',' then
      match skipBlanks rest with
      | [] =>
        (.broken ⟨.endInValue, .within []⟩ ⟨.endInObject, .within []⟩, none)
      | d :: tail =>
        if d = '"' then memberSeen tail
        else if d = '\x7d' then
          (.broken ⟨.trailingComma, .within (d :: tail)⟩
            ⟨.keyMustBeString, .within (d :: tail)⟩, none)
        else (.broken ⟨.keyMustBeString, .within (d :: tail)⟩
          ⟨.keyMustBeString, .within (d :: tail)⟩, none)
    else
      (.broken ⟨.expectedObjectComma, .within (c :: rest)⟩
        ⟨.expectedObjectComma, .within (c :: rest)⟩, none)

theorem seen_outlineMembers (first : Bool) (text : List Char) :
    (outlineMembers first text).seen = membersSeen first (skipBlanks text) := by
  rw [outlineMembers]
  split
  · rename_i hskip
    exact (congrArg (membersSeen first) hskip).symm
  · rename_i c rest hskip
    refine Eq.trans ?_ (congrArg (membersSeen first) hskip).symm
    rw [membersSeen]
    dsimp only
    split
    · rfl
    split
    · split
      · exact seen_outlineMember _ _ _
      · rfl
    split
    · split
      · rename_i hrest
        rw [hrest]
        rfl
      · rename_i d tail hrest
        split
        · rename_i hmark
          rw [seen_outlineMember, hrest]
          exact (if_pos hmark).symm
        · rename_i hmark
          split
          · rename_i hclose
            rw [hrest]
            dsimp only
            rw [if_neg hmark, if_pos hclose]
            rfl
          · rename_i hclose
            rw [hrest]
            dsimp only
            rw [if_neg hmark, if_neg hclose]
            rfl
    · rfl

theorem value_outlineMembers (first : Bool) (text : List Char) :
    (outlineMembers first text).value =
      (membersSeen first (skipBlanks text)).1 :=
  congrArg Prod.fst (seen_outlineMembers first text)

theorem unread?_outlineMembers (first : Bool) (text : List Char) :
    (outlineMembers first text).unread? =
      (membersSeen first (skipBlanks text)).2 :=
  congrArg Prod.snd (seen_outlineMembers first text)

theorem Outlined.exists_rest {o : Outlined α text} {rest : List Char}
    (h : o.unread? = some rest) : ∃ hlt, o.rest = .ok ⟨rest, hlt⟩ := by
  unfold Outlined.unread? at h
  split at h
  · rename_i after hlt hrest
    cases h
    exact ⟨hlt, hrest⟩
  · cases h

end Seen

theorem skipBlanks_skipBlanks (text : List Char) :
    skipBlanks (skipBlanks text) = skipBlanks text :=
  List.dropWhile_idempotent isBlank text

section Words

theorem readWord_append (word rest : List Char) :
    ∃ hle, readWord word (word ++ rest) = .ok ⟨rest, hle⟩ := by
  induction word with
  | nil => exact ⟨_, rfl⟩
  | cons c word ih =>
    obtain ⟨hle, ih⟩ := ih
    rw [List.cons_append, readWord, if_pos rfl, ih]
    exact ⟨_, rfl⟩

theorem eq_append_of_readWord {word text : List Char} {p}
    (h : readWord word text = .ok p) : text = word ++ p.1 := by
  induction word generalizing text with
  | nil =>
    cases h
    rfl
  | cons c word ih =>
    cases text with
    | nil => cases h
    | cons d text =>
      rw [readWord] at h
      split at h
      · rename_i hd
        obtain ⟨q, hq, rfl⟩ := Text.exists_of_map_eq_ok h
        exact congrArg₂ List.cons hd.symm (ih hq)
      · cases h

theorem seen_outlineWord (word : List Char) (value : Json) (c : Char)
    (rest : List Char) :
    (outlineWord word value (c :: (word ++ rest))).seen =
      (.scalar (c :: (word ++ rest)) (.ok value) rest, some rest) := by
  obtain ⟨hle, hread⟩ := readWord_append word rest
  rw [outlineWord, hread]
  rfl

theorem exists_of_outlineWord {word tail : List Char} {value v : Json}
    {c : Char} {limit : Nat}
    (h : (outlineWord word value (c :: tail)).seen.1.toJson limit = .ok v) :
    ∃ rest, tail = word ++ rest ∧ v = value := by
  rw [outlineWord] at h
  split at h
  · cases h
  · rename_i after hle hread
    have hv : (Except.ok value : Except SyntaxError Json) = .ok v := h
    exact ⟨after, eq_append_of_readWord hread, (Except.ok.inj hv).symm⟩

end Words

end SqlWorkflow.Json
