import SqlWorkflow.Json.Quotation

/-!
# Outlines of JSON text

A reader of settings stops at the first thing that is wrong, and whether
something is wrong depends on what it expects: a value of the wrong type, or a
fault in the text behind it. So a text is first brought into an outline, which
has every value with its place, in the order of the text, down to the first
fault. A value may be read or passed over, and the two meet different faults; an
outline holds both.
-/

namespace SqlWorkflow.Json

open Text (Parsed)

mutual

/-- A value in a text, as far as it can be made out. -/
inductive Outline
  /-- Null, a truth value, a number or a string that begins at `start`; some can
  be passed over but not read. -/
  | scalar (start : List Char) (value : Except SyntaxError Json)
      (after : List Char)
  /-- An array that begins at `start`. -/
  | array (start : List Char) (items : ItemList)
  /-- An object that begins at `start`. -/
  | object (start : List Char) (members : MemberList)
  /-- A fault: the one met by reading, and the one met by passing over. -/
  | broken (reading skipping : SyntaxError)

inductive ItemList
  | close (after : List Char)
  | item (start : List Char) (value : Outline) (rest : ItemList)
  | broken (reading skipping : SyntaxError)

inductive MemberList
  | close (after : List Char)
  | member (name : Except SyntaxError String) (after : List Char)
      (value : Outline) (rest : MemberList)
  | broken (reading skipping : SyntaxError)

end

def isBlank (c : Char) : Bool :=
  c == ' ' || c == '\n' || c == '\t' || c == '\r'

/-- A text without the blanks it begins with. -/
def skipBlanks (text : List Char) : List Char :=
  text.dropWhile isBlank

theorem skipBlanks_length_le (text : List Char) :
    (skipBlanks text).length ≤ text.length :=
  (List.dropWhile_sublist _).length_le

/-- What follows a word of which the first letter was read. -/
def readWord (word text : List Char) :
    Except SyntaxError { rest : List Char // rest.length ≤ text.length } :=
  match word, text with
  | [], text => .ok ⟨text, Nat.le_refl _⟩
  | _ :: _, [] => faultBefore .endInValue []
  | w :: word, c :: rest =>
    if w = c then
      (readWord word rest).map fun ⟨after, h⟩ => ⟨after, Nat.le_succ_of_le h⟩
    else faultWithin .expectedIdent (c :: rest)

/-- The error of a result, or another one if there is none. -/
def errorOr {α : Type} (result : Except SyntaxError α)
    (other : SyntaxError) : SyntaxError :=
  match result with
  | .error e => e
  | .ok _ => other

/-- What was made out, and either the text after it or the fault that ended
it. -/
structure Outlined (α : Type) (text : List Char) where
  value : α
  rest : Except (SyntaxError × SyntaxError)
    { rest : List Char // rest.length < text.length }

namespace Outlined

/-- The same result, for a text that is not shorter. -/
def weaken {α β : Type} {short long : List Char} (f : α → β)
    (o : Outlined α short) (h : short.length ≤ long.length) : Outlined β long :=
  ⟨f o.value, o.rest.map fun ⟨rest, hr⟩ => ⟨rest, Nat.lt_of_lt_of_le hr h⟩⟩

/-- Nothing more can be made out: the faults met by reading and by passing
over. -/
def broken {α : Type} {text : List Char} (f : SyntaxError → SyntaxError → α)
    (reading skipping : SyntaxError) : Outlined α text :=
  ⟨f reading skipping, .error (reading, skipping)⟩

/-- A fault that reading and passing over meet alike. -/
def fault {α : Type} {text : List Char} (f : SyntaxError → SyntaxError → α)
    (fault : Fault) (place : Place) : Outlined α text :=
  broken f ⟨fault, place⟩ ⟨fault, place⟩

end Outlined

/-- The outline of a word that stands for a value. -/
def outlineWord (word : List Char) (value : Json)
    (text : List Char) : Outlined Outline text :=
  match text with
  | [] => .fault .broken .endInValue (.within [])
  | c :: rest =>
    match readWord word rest with
    | .error e => .broken .broken e e
    | .ok ⟨after, h⟩ =>
      ⟨.scalar (c :: rest) (.ok value) after, .ok ⟨after, Nat.lt_succ_of_le h⟩⟩

def outlineNumber (text : List Char) : Outlined Outline text :=
  let value := (readNumber text).map fun (n, _) => Json.number n
  match h : skipNumber text with
  | .error e => .broken .broken (errorOr value e) e
  | .ok after => ⟨.scalar text value after, .ok ⟨after, skipNumber_length_lt h⟩⟩

/-- The string after a quotation mark, and the text after it. -/
def outlineQuotation (text : List Char) :
    Except (SyntaxError × SyntaxError)
      (Except SyntaxError String × Parsed Unit text) :=
  let value := (readQuotation text).map fun (s, _) => String.ofList s
  match skipQuotation text with
  | .error e => .error (errorOr value e, e)
  | .ok p => .ok (value, p)

mutual

/-- The outline of the value at the head of a text. -/
def outlineValue (text : List Char) : Outlined Outline text :=
  have hle := skipBlanks_length_le text
  match h : skipBlanks text with
  | [] => .fault .broken .endInValue (.within [])
  | c :: rest =>
    have hc : (c :: rest).length ≤ text.length := h ▸ hle
    have hlt : rest.length < text.length := hc
    if c = '[' then
      (outlineItems true rest).weaken (.array (c :: rest)) (Nat.le_of_lt hlt)
    else if c = '{' then
      (outlineMembers true rest).weaken (.object (c :: rest)) (Nat.le_of_lt hlt)
    else if c = '"' then
      match outlineQuotation rest with
      | .error (reading, skipping) => .broken .broken reading skipping
      | .ok (value, p) =>
        ⟨.scalar (c :: rest) (value.map .string) p.rest,
          .ok ⟨p.rest, Nat.lt_trans p.shorter hlt⟩⟩
    else if c = 'n' then
      (outlineWord ['u', 'l', 'l'] .null (c :: rest)).weaken id hc
    else if c = 't' then
      (outlineWord ['r', 'u', 'e'] (.bool true) (c :: rest)).weaken id hc
    else if c = 'f' then
      (outlineWord ['a', 'l', 's', 'e'] (.bool false) (c :: rest)).weaken id hc
    else if c = '-' ∨ c.isDigit then (outlineNumber (c :: rest)).weaken id hc
    else .fault .broken .expectedValue (.within (c :: rest))
termination_by 3 * text.length
decreasing_by all_goals omega

/-- The items of an array, up to its bracket; `first` tells that none was read
yet. -/
def outlineItems (first : Bool) (text : List Char) : Outlined ItemList text :=
  have hle := skipBlanks_length_le text
  match h : skipBlanks text with
  | [] => .fault .broken .endInList (.within [])
  | c :: rest =>
    have hc : (c :: rest).length ≤ text.length := h ▸ hle
    have hlt : rest.length < text.length := hc
    if c = ']' then ⟨.close rest, .ok ⟨rest, hlt⟩⟩
    else if first then outlineItem (c :: rest) text hc
    else if c = ',' then
      have hsk := skipBlanks_length_le rest
      match hr : skipBlanks rest with
      | [] => .fault .broken .endInValue (.within [])
      | d :: tail =>
        have hd : (d :: tail).length ≤ text.length :=
          Nat.le_trans (hr ▸ hsk) (Nat.le_of_lt hlt)
        if d = ']' then
          .broken .broken ⟨.trailingComma, .within (d :: tail)⟩
            ⟨.expectedValue, .within (d :: tail)⟩
        else outlineItem (d :: tail) text hd
    else .fault .broken .expectedListComma (.within (c :: rest))
termination_by 3 * text.length + 2
decreasing_by all_goals omega

/-- An item and those that follow it. -/
def outlineItem (start text : List Char)
    (hs : start.length ≤ text.length) : Outlined ItemList text :=
  let value := outlineValue start
  match value.rest with
  | .error (reading, skipping) =>
    .broken (fun r s => .item start value.value (.broken r s)) reading skipping
  | .ok ⟨rest, hr⟩ =>
    (outlineItems false rest).weaken (.item start value.value)
      (Nat.le_of_lt (Nat.lt_of_lt_of_le hr hs))
termination_by 3 * start.length + 1
decreasing_by all_goals omega

/-- The members of an object, up to its brace; `first` tells that none was read
yet. -/
def outlineMembers (first : Bool)
    (text : List Char) : Outlined MemberList text :=
  have hle := skipBlanks_length_le text
  match h : skipBlanks text with
  | [] => .fault .broken .endInObject (.within [])
  | c :: rest =>
    have hc : (c :: rest).length ≤ text.length := h ▸ hle
    have hlt : rest.length < text.length := hc
    if c = '}' then ⟨.close rest, .ok ⟨rest, hlt⟩⟩
    else if first then
      if c = '"' then outlineMember rest text hlt
      else .fault .broken .keyMustBeString (.within (c :: rest))
    else if c = ',' then
      have hsk := skipBlanks_length_le rest
      match hr : skipBlanks rest with
      | [] =>
        .broken .broken ⟨.endInValue, .within []⟩ ⟨.endInObject, .within []⟩
      | d :: tail =>
        have hd : (d :: tail).length ≤ rest.length := hr ▸ hsk
        have ht : tail.length < text.length := Nat.lt_trans hd hlt
        if d = '"' then outlineMember tail text ht
        else if d = '}' then
          .broken .broken ⟨.trailingComma, .within (d :: tail)⟩
            ⟨.keyMustBeString, .within (d :: tail)⟩
        else .fault .broken .keyMustBeString (.within (d :: tail))
    else .fault .broken .expectedObjectComma (.within (c :: rest))
termination_by 3 * text.length + 2
decreasing_by all_goals omega

/-- A member, after the quotation mark of its name, and those that follow it. -/
def outlineMember (start text : List Char) (hs : start.length < text.length) :
    Outlined MemberList text :=
  match outlineQuotation start with
  | .error (reading, skipping) => .broken .broken reading skipping
  | .ok (name, p) =>
    have hle := skipBlanks_length_le p.rest
    match h : skipBlanks p.rest with
    | [] =>
      .broken .broken (errorOr name ⟨.endInObject, .within []⟩)
        ⟨.endInObject, .within []⟩
    | c :: rest =>
      if c = ':' then
        have hc : (c :: rest).length ≤ p.rest.length := h ▸ hle
        have hrest : rest.length < start.length := Nat.lt_trans hc p.shorter
        let value := outlineValue rest
        match value.rest with
        | .error (reading, skipping) =>
          .broken (fun r s => .member name p.rest value.value (.broken r s))
            reading skipping
        | .ok ⟨after, ha⟩ =>
          (outlineMembers false after).weaken (.member name p.rest value.value)
            (by omega)
      else
        let e : SyntaxError := ⟨.expectedColon, .within (c :: rest)⟩
        .broken .broken (errorOr name e) e
termination_by 3 * start.length + 1
decreasing_by all_goals omega

end

end SqlWorkflow.Json
