import SqlWorkflow.Proofs.Expr.Literal

/-!
# JSON documents as expressions

The compact text of a JSON document is an expression. Reading it gives the
literal that is built like the document, and this literal denotes the document
again. It holds of all documents whose numbers are integers of 64 bits and which
nest no deeper than the reader goes, whatever their strings and keys are.
-/

namespace SqlWorkflow

namespace Json

mutual

/-- The levels of arrays and objects that a value nests. -/
def depth : Json → Nat
  | .array items => depthOfItems items + 1
  | .object members => depthOfMembers members + 1
  | .null | .bool _ | .number _ | .string _ => 0

def depthOfItems : List Json → Nat
  | [] => 0
  | item :: items => max (depth item) (depthOfItems items)

def depthOfMembers : List (String × Json) → Nat
  | [] => 0
  | (_, value) :: members => max (depth value) (depthOfMembers members)

end

mutual

/-- All numbers are integers of 64 bits, and no object has a key twice. -/
def Integral : Json → Prop
  | .number (.int n) => -0x8000000000000000 ≤ n ∧ n < 0x8000000000000000
  | .number (.float _) => False
  | .array items => IntegralItems items
  | .object members => (members.map Prod.fst).Nodup ∧ IntegralMembers members
  | .null | .bool _ | .string _ => True

def IntegralItems : List Json → Prop
  | [] => True
  | item :: items => Integral item ∧ IntegralItems items

def IntegralMembers : List (String × Json) → Prop
  | [] => True
  | (_, value) :: members => Integral value ∧ IntegralMembers members

end

/-- Members with different keys are those of the object that they make. -/
theorem Members.ofList_of_nodup {pairs : Members}
    (h : (pairs.map Prod.fst).Nodup) : Members.ofList pairs = pairs := by
  have hinsert (key : String) (value : Json) (members : Members)
      (hkey : key ∉ members.map Prod.fst) :
      Members.insert key value members = members ++ [(key, value)] := by
    induction members with
    | nil => rfl
    | cons first rest ih =>
      rw [List.map_cons, List.mem_cons, not_or] at hkey
      rw [Members.insert, if_neg (Ne.symm hkey.1), ih hkey.2]
      rfl
  suffices hfold : ∀ before : Members, ((before ++ pairs).map Prod.fst).Nodup →
      pairs.foldl (fun members pair => Members.insert pair.1 pair.2 members)
        before = before ++ pairs from hfold [] h
  induction pairs with
  | nil =>
    intro before _
    exact (List.append_nil before).symm
  | cons first rest ih =>
    intro before hnodup
    have hfirst : first.1 ∉ before.map Prod.fst := by
      rw [List.map_append, List.map_cons] at hnodup
      exact fun hmem =>
        (List.nodup_append.1 hnodup).2.2 _ hmem _ List.mem_cons_self rfl
    rw [List.map_cons, List.nodup_cons] at h
    rw [List.foldl_cons, hinsert _ _ _ hfirst, ih h.2]
    · rw [List.append_assoc]
      rfl
    · rwa [List.append_assoc]

end Json

namespace Expr

mutual

/-- The literal that is built like a value. -/
def ofJson : Json → Expr
  | .null => .null
  | .bool b => .bool b
  | .number n => .number n
  | .string s => .string s
  | .array items => .array (ofItems items)
  | .object members => .object (ofMembers members)

def ofItems : List Json → List Expr
  | [] => []
  | item :: items => ofJson item :: ofItems items

def ofMembers : List (String × Json) → List (String × Expr)
  | [] => []
  | (key, value) :: members => (key, ofJson value) :: ofMembers members

end

section Denotes

open Json (Integral IntegralItems IntegralMembers)

mutual

/-- The literal of a value denotes the value. -/
theorem toJson?_ofJson :
    ∀ value : Json, Integral value → toJson? (ofJson value) = some value
  | .null, _ | .bool _, _ | .number _, _ | .string _, _ => rfl
  | .array items, h => by
    rw [ofJson, toJson?, listToJson?_ofItems items h]
    rfl
  | .object members, ⟨hkeys, h⟩ => by
    rw [ofJson, toJson?, entriesToJson?_ofMembers members h, Option.map_some,
      Json.Members.ofList_of_nodup hkeys]

theorem listToJson?_ofItems : ∀ items : List Json, IntegralItems items →
    listToJson? (ofItems items) = some items
  | [], _ => rfl
  | item :: items, ⟨hitem, hitems⟩ => by
    rw [ofItems, listToJson?, toJson?_ofJson item hitem,
      listToJson?_ofItems items hitems]

theorem entriesToJson?_ofMembers :
    ∀ members : List (String × Json), IntegralMembers members →
      entriesToJson? (ofMembers members) = some members
  | [], _ => rfl
  | (key, value) :: members, ⟨hvalue, hmembers⟩ => by
    rw [ofMembers, entriesToJson?, toJson?_ofJson value hvalue,
      entriesToJson?_ofMembers members hmembers]

end

end Denotes

section Reads

/-- A text that ends what stands before it: nothing, a comma or a closing
bracket. -/
inductive Ends : List Char → Prop
  | nil : Ends []
  | comma (rest : List Char) : Ends (',' :: rest)
  | bracket (rest : List Char) : Ends (']' :: rest)
  | brace (rest : List Char) : Ends ('}' :: rest)

namespace Ends

variable {rest : List Char} (h : Ends rest)
include h

theorem startsTrivia_eq : startsTrivia rest = false := by
  cases h with
  | nil => rfl
  | comma | bracket | brace => exact startsTrivia_cons (by decide) (by decide)

/-- None of what may follow an expression begins with an opening character. -/
theorem eat?_eq_none {c : Char}
    (hc : c ≠ ',' ∧ c ≠ ']' ∧ c ≠ '}') : eat? c rest = none := by
  have htrivia := h.startsTrivia_eq
  cases h with
  | nil => exact eat?_nil
  | comma => exact eat?_of_ne htrivia (Ne.symm hc.1)
  | bracket => exact eat?_of_ne htrivia (Ne.symm hc.2.1)
  | brace => exact eat?_of_ne htrivia (Ne.symm hc.2.2)

theorem numeralChars_eq_nil : numeralChars rest = [] := by
  cases h with
  | nil => rfl
  | comma rest | bracket rest | brace rest => cases rest <;> rfl

theorem takeWhile_isIdentPart : rest.takeWhile isIdentPart = [] := by
  cases h with
  | nil => rfl
  | comma | bracket | brace => exact List.takeWhile_cons_of_neg (by decide)

theorem takes_expression {level : Level} {text : List Char} {head : Expr}
    (hprimary : Takes (level.primary text) head rest) :
    Takes (level.expression text) head rest :=
  Level.takes_expression hprimary h.startsTrivia_eq (h.eat?_eq_none (by decide))
    (h.eat?_eq_none (by decide)) (h.eat?_eq_none (by decide))

/-- A word with a meaning of its own, or a name. -/
theorem takes_word (level : Level) {c : Char} {word : List Char}
    (hc : isIdentStart c = true) (hdigit : c.isDigit = false)
    (hword : word.all isIdentPart = true) :
    Takes (level.primary (c :: (word ++ rest)))
      (Level.ofWord (String.ofList (c :: word))) rest :=
  Level.takes_primary_word hc hdigit
    (takes_readIdentifier hc (List.all_eq_true.1 hword) h.takeWhile_isIdentPart
      (startsTrivia_of_class isIdentStart (by decide) hc))

end Ends

/-- The characters with which the text of a value begins. -/
def beginsValue (c : Char) : Bool :=
  isIdentStart c || c.isDigit || c == '-' || c == '"' || c == '[' || c == '{'

theorem exists_beginsValue (value : Json) (h : value.Integral) :
    ∃ c tail, value.compactChars = c :: tail ∧ beginsValue c = true := by
  cases value with
  | null => exact ⟨_, _, rfl, by decide⟩
  | bool b => cases b <;> exact ⟨_, _, rfl, by decide⟩
  | string s => exact ⟨_, _, rfl, by decide⟩
  | array items => exact ⟨_, _, rfl, by decide⟩
  | object members => exact ⟨_, _, rfl, by decide⟩
  | number n =>
    cases n with
    | float => cases h
    | int n =>
      obtain ⟨c, tail, htext, hc⟩ := (writes_intText n).exists_head
      refine ⟨c, tail, htext, ?_⟩
      rw [Bool.or_eq_true] at hc
      rcases hc with hminus | hdigit
      · simp [beginsValue, hminus]
      · simp [beginsValue, hdigit]

/-- The text of a value begins with nothing that is skipped, and with no closing
bracket. -/
theorem compactChars_append (value : Json) (h : value.Integral)
    (rest : List Char) :
    startsTrivia (value.compactChars ++ rest) = false ∧
      eat? ']' (value.compactChars ++ rest) = none := by
  obtain ⟨c, tail, htext, hc⟩ := exists_beginsValue value h
  have htrivia : startsTrivia (c :: (tail ++ rest)) = false :=
    startsTrivia_of_class beginsValue (by decide) hc
  rw [htext]
  refine ⟨htrivia, eat?_of_ne htrivia ?_⟩
  rintro rfl
  cases hc

/-- A key is read as itself. -/
theorem takes_key (key : String) (rest : List Char) :
    Takes (Level.key (Json.quoted key.toList ++ rest)) key rest := by
  apply takes_afterTrivia (startsTrivia_cons (by decide) (by decide))
  exact takes_quoted key rest

theorem eat?_quoted (key : String) (rest : List Char) :
    eat? '}' (Json.quoted key.toList ++ rest) = none :=
  eat?_of_ne (startsTrivia_cons (by decide) (by decide)) (by decide)

theorem eat?_colon (rest : List Char) : eat? ':' (':' :: rest) = some rest :=
  eat?_self (startsTrivia_cons (by decide) (by decide))

section Values

open Json
  (Integral IntegralItems IntegralMembers depth depthOfItems depthOfMembers)
open Json (compactChars compactItems compactMembers)

-- The induction is on the document. The levels that are left go down by one
-- with each array and object, and what may follow a value is kept general,
-- since it is a comma or a bracket inside of a collection.
mutual

theorem takes_compactChars :
    ∀ (value : Json), Integral value → ∀ levels, depth value < levels →
      ∀ rest, Ends rest →
        Takes (ofLevels levels (compactChars value ++ rest)) (ofJson value) rest
  | .null, _, levels + 1, _, rest, hrest =>
    hrest.takes_expression
      (hrest.takes_word ⟨ofLevels levels⟩ (by decide) (by decide) (by decide))
  | .bool true, _, levels + 1, _, rest, hrest =>
    hrest.takes_expression
      (hrest.takes_word ⟨ofLevels levels⟩ (by decide) (by decide) (by decide))
  | .bool false, _, levels + 1, _, rest, hrest =>
    hrest.takes_expression
      (hrest.takes_word ⟨ofLevels levels⟩ (by decide) (by decide) (by decide))
  | .number (.int n), h, levels + 1, _, rest, hrest =>
    hrest.takes_expression ((writes_intText n).takes_primary h.1 h.2
      ⟨ofLevels levels⟩ hrest.numeralChars_eq_nil)
  | .string s, _, levels + 1, _, rest, hrest =>
    hrest.takes_expression
      (Level.takes_primary_string (.inr rfl) (takes_quoted s rest))
  | .array items, h, levels + 1, hdepth, rest, hrest => by
    have htext : compactChars (.array items) ++ rest =
        '[' :: (compactItems items ++ ']' :: rest) := by
      rw [compactChars, List.cons_append, List.append_assoc,
        List.singleton_append]
    rw [htext]
    rw [depth] at hdepth
    have hitems := takes_compactItems items h levels (by omega) rest
    exact hrest.takes_expression (Level.takes_primary_array hitems)
  | .object members, ⟨_, h⟩, levels + 1, hdepth, rest, hrest => by
    have htext : compactChars (.object members) ++ rest =
        '{' :: (compactMembers members ++ '}' :: rest) := by
      rw [compactChars, List.cons_append, List.append_assoc,
        List.singleton_append]
    rw [htext]
    rw [depth] at hdepth
    have hmembers := takes_compactMembers members h levels (by omega) rest
    exact hrest.takes_expression (Level.takes_primary_object hmembers)

theorem takes_compactItems :
    ∀ items : List Json, IntegralItems items → ∀ levels,
      depthOfItems items < levels → ∀ rest,
        Takes (Level.list ⟨ofLevels levels⟩ ']'
          (compactItems items ++ ']' :: rest)) (ofItems items) rest
  | [], _, levels, _, rest =>
    Level.takes_list_close
      (eat?_self (startsTrivia_cons (by decide) (by decide)))
  | [item], ⟨hitem, _⟩, levels, hdepth, rest => by
    rw [depthOfItems] at hdepth
    have hread :=
      takes_compactChars item hitem levels (by omega) _ (.bracket rest)
    obtain ⟨htrivia, hopen⟩ := compactChars_append item hitem (']' :: rest)
    have hstop := Ends.startsTrivia_eq (.bracket rest)
    exact Level.takes_list_last hopen (takes_afterTrivia htrivia hread)
      (eat?_of_ne hstop (by decide)) (eat?_self hstop)
  | item :: next :: items, ⟨hitem, hitems⟩, levels, hdepth, rest => by
    rw [depthOfItems] at hdepth
    have htext : compactItems (item :: next :: items) ++ ']' :: rest =
        compactChars item ++ ',' ::
          (compactItems (next :: items) ++ ']' :: rest) := by
      rw [compactItems, List.append_assoc]
      · rfl
      · exact List.cons_ne_nil next items
    rw [htext]
    have hread := takes_compactChars item hitem levels (by omega) _
      (.comma (compactItems (next :: items) ++ ']' :: rest))
    obtain ⟨htrivia, hopen⟩ := compactChars_append item hitem
      (',' :: (compactItems (next :: items) ++ ']' :: rest))
    exact Level.takes_list_more hopen (takes_afterTrivia htrivia hread)
      (eat?_self (Ends.startsTrivia_eq (.comma _)))
      (takes_compactItems (next :: items) hitems levels (by omega) rest)

theorem takes_compactMembers :
    ∀ members : List (String × Json), IntegralMembers members → ∀ levels,
      depthOfMembers members < levels → ∀ rest,
        Takes (Level.entries ⟨ofLevels levels⟩
          (compactMembers members ++ '}' :: rest)) (ofMembers members) rest
  | [], _, levels, _, rest =>
    Level.takes_entries_close
      (eat?_self (startsTrivia_cons (by decide) (by decide)))
  | [(key, value)], ⟨hvalue, _⟩, levels, hdepth, rest => by
    have htext : compactMembers [(key, value)] ++ '}' :: rest =
        Json.quoted key.toList ++ ':' ::
          (compactChars value ++ '}' :: rest) := by
      rw [compactMembers, List.append_assoc]
      rfl
    rw [htext]
    rw [depthOfMembers] at hdepth
    have hread :=
      takes_compactChars value hvalue levels (by omega) _ (.brace rest)
    have hstop := Ends.startsTrivia_eq (.brace rest)
    exact Level.takes_entries_last (eat?_quoted key _) (takes_key key _)
      (eat?_colon _) hread (eat?_of_ne hstop (by decide)) (eat?_self hstop)
  | (key, value) :: next :: members, ⟨hvalue, hmembers⟩, levels, hdepth,
    rest => by
    have htext :
        compactMembers ((key, value) :: next :: members) ++ '}' :: rest =
          Json.quoted key.toList ++ ':' :: (compactChars value ++ ',' ::
            (compactMembers (next :: members) ++ '}' :: rest)) := by
      rw [compactMembers, List.append_assoc, List.cons_append,
        List.append_assoc]
      · rfl
      · exact List.cons_ne_nil next members
    rw [htext]
    rw [depthOfMembers] at hdepth
    have hread := takes_compactChars value hvalue levels (by omega) _
      (.comma (compactMembers (next :: members) ++ '}' :: rest))
    exact Level.takes_entries_more (eat?_quoted key _) (takes_key key _)
      (eat?_colon _) hread (eat?_self (Ends.startsTrivia_eq (.comma _)))
      (takes_compactMembers (next :: members) hmembers levels (by omega) rest)

end

end Values

theorem parseChars_of_takes {source : List Char} {e : Expr}
    (h : Takes (ofLevels maxDepth source) e []) :
    parseChars source = .ok e := by
  obtain ⟨hlt, hread⟩ := h
  have hskip : skipTrivia [] = [] := skipTrivia_of_not_startsTrivia rfl
  rw [parseChars, hread]
  dsimp only
  rw [hskip]
  rfl

end Reads

/-- The compact text of a document whose numbers are integers of 64 bits and
which nests at most 255 levels is read as an expression that denotes the
document, and so is the text between the braces of an object. -/
theorem parse_compact {value : Json} (hintegral : value.Integral)
    (hdepth : value.depth ≤ 255) :
    ∃ e, parse value.compact = .ok e ∧ e.toJson? = some value ∧
      ∀ members, value = .object members →
        ∃ body, value.compact = "\x7b" ++ (body ++ "\x7d") ∧
          parseObjectBody body = .ok e := by
  have htakes := takes_compactChars value hintegral maxDepth
    (Nat.lt_succ_of_le hdepth) [] .nil
  rw [List.append_nil] at htakes
  have hparse := parseChars_of_takes htakes
  refine ⟨ofJson value, ?_, toJson?_ofJson value hintegral, ?_⟩
  · rw [parse, Json.compact, String.toList_ofList, hparse]
  · rintro members rfl
    refine ⟨String.ofList (Json.compactMembers members), ?_, ?_⟩
    · apply String.toList_inj.1
      simp only [Json.compact, Json.compactChars, String.toList_append,
        String.toList_ofList]
      rfl
    · rw [parseObjectBody, String.toList_ofList]
      exact hparse

/-- A document with escapes in a key and in a string, the least integer, and
empty collections. -/
def nestedDocument : Json :=
  .object [("a\"b\\", .array [.number (.int (-9223372036854775808)), .bool true,
    .array [], .null]), ("", .object [("\n\x01", .string "$\x7bé\x7d")])]

theorem parse_compact_nestedDocument :
    nestedDocument.Integral ∧ nestedDocument.depth ≤ 255 ∧
      nestedDocument.compact =
        "\x7b\"a\\\"b\\\\\":[-9223372036854775808,true,[],null]," ++
          "\"\":\x7b\"\\n\\u0001\":\"$\x7bé\x7d\"\x7d\x7d" ∧
      ∃ e, parse nestedDocument.compact = .ok e ∧
        e.toJson? = some nestedDocument := by
  have hintegral : nestedDocument.Integral := by
    simp [nestedDocument, Json.Integral, Json.IntegralItems,
      Json.IntegralMembers]
  have hdepth : nestedDocument.depth ≤ 255 := by decide
  obtain ⟨e, hparse, hdenotes, -⟩ := parse_compact hintegral hdepth
  exact ⟨hintegral, hdepth, by decide +kernel, e, hparse, hdenotes⟩

end Expr

end SqlWorkflow
