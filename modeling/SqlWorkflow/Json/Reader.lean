import SqlWorkflow.Json.Outline

/-!
# Reading JSON text

The value of an outline, and the value of a text that holds nothing else. Arrays
and objects may nest only so deep. Of several members with one name the last
counts, in the place of the first.
-/

namespace SqlWorkflow.Json

/-- How many brackets may be open, the limit itself excluded. -/
def nestingLimit : Nat := 128

def tooDeep {α : Type} (start : List Char) : Except SyntaxError α :=
  faultWithin .nestedTooDeeply start

mutual

/-- The value of an outline; `limit` is one more than the number of brackets
that may be open in it. -/
def Outline.toJson (limit : Nat) : Outline → Except SyntaxError Json
  | .scalar _ value _ => value
  | .broken reading _ => .error reading
  | .array start items =>
    if limit ≤ 1 then tooDeep start
    else (ItemList.toJson (limit - 1) items).map .array
  | .object start members =>
    if limit ≤ 1 then tooDeep start
    else (MemberList.toJson (limit - 1) members).map fun pairs =>
      .object (Members.ofList pairs)

def ItemList.toJson (limit : Nat) : ItemList → Except SyntaxError (List Json)
  | .close _ => .ok []
  | .broken reading _ => .error reading
  | .item _ value rest =>
    match Outline.toJson limit value with
    | .error e => .error e
    | .ok v => (ItemList.toJson limit rest).map (v :: ·)

def MemberList.toJson (limit : Nat) :
    MemberList → Except SyntaxError (List (String × Json))
  | .close _ => .ok []
  | .broken reading _ => .error reading
  | .member name _ value rest =>
    match name with
    | .error e => .error e
    | .ok n =>
      match Outline.toJson limit value with
      | .error e => .error e
      | .ok v => (MemberList.toJson limit rest).map ((n, v) :: ·)

end

mutual

/-- Passes over a value: only its brackets, names and separators are looked
at. -/
def Outline.skip : Outline → Except SyntaxError Unit
  | .scalar _ _ _ => .ok ()
  | .broken _ skipping => .error skipping
  | .array _ items => ItemList.skip items
  | .object _ members => MemberList.skip members

def ItemList.skip : ItemList → Except SyntaxError Unit
  | .close _ => .ok ()
  | .broken _ skipping => .error skipping
  | .item _ value rest =>
    match Outline.skip value with
    | .error e => .error e
    | .ok () => ItemList.skip rest

def MemberList.skip : MemberList → Except SyntaxError Unit
  | .close _ => .ok ()
  | .broken _ skipping => .error skipping
  | .member _ _ value rest =>
    match Outline.skip value with
    | .error e => .error e
    | .ok () => MemberList.skip rest

end

/-- What is left of a text after its first value; nothing if a fault ended
it. -/
def Outlined.unread {α : Type} {text : List Char}
    (o : Outlined α text) : List Char :=
  match o.rest with
  | .ok ⟨rest, _⟩ => rest
  | .error _ => []

/-- Reads a text that holds one value and nothing else. -/
def parseChars (text : List Char) : Except SyntaxError Json :=
  let outlined := outlineValue text
  match outlined.value.toJson nestingLimit with
  | .error e => .error e
  | .ok value =>
    match skipBlanks outlined.unread with
    | [] => .ok value
    | c :: rest => faultWithin .trailingCharacters (c :: rest)

/-- Reads a string that holds one value and nothing else; a fault is reported
with its position. -/
def parse (text : String) : Except String Json :=
  match parseChars text.toList with
  | .ok value => .ok value
  | .error e => .error (e.message text.toList)

end SqlWorkflow.Json
