import SqlWorkflow.Lexical.Lexeme

/-!
# Matching braces

The brace that closes a block is found by counting: braces in comments and
quotations do not count. The search returns what stands before the brace and
what stands after it, so that the text can be put together again.
-/

namespace SqlWorkflow.Lexical

/-- How many blocks are open inside the outer one after a lexeme; none if it
closes the outer one. -/
def depthAfter (inner : Nat) : Lexeme → Option Nat
  | .code '}' => if inner = 0 then none else some (inner - 1)
  | .code '{' => some (inner + 1)
  | _ => some inner

theorem eq_of_depthAfter_eq_none {inner : Nat} {lexeme : Lexeme}
    (h : depthAfter inner lexeme = none) : lexeme = .code '}' := by
  simp only [depthAfter] at h
  split at h <;> first | rfl | cases h

/-- Splits a text at the closing brace of a block that was opened just before
it; `inner` more blocks are open inside it. The brace itself is in neither
part. -/
def closing? (dialect : Dialect) (inner : Nat) (text : List Char) :
    Option (List Char × List Char) :=
  match _h : next? dialect text with
  | none => none
  | some (lexeme, rest) =>
    match depthAfter inner lexeme with
    | none => some ([], rest)
    | some n =>
      (closing? dialect n rest).map fun (inside, after) =>
        (lexeme.text ++ inside, after)
termination_by text.length
decreasing_by exact next?_length_lt _h

/-- The two parts and the brace between them make up the text. -/
theorem closing?_append {dialect : Dialect} {inner : Nat}
    {text inside after : List Char}
    (h : closing? dialect inner text = some (inside, after)) :
    inside ++ '}' :: after = text := by
  fun_induction closing? dialect inner text generalizing inside after with
  | case1 => cases h
  | case2 inner text lexeme rest hn hd =>
    cases h
    rw [eq_of_depthAfter_eq_none hd] at hn
    exact next?_append hn
  | case3 inner text lexeme rest hn n hd ih =>
    obtain ⟨⟨i, a⟩, hi, he⟩ := Option.map_eq_some_iff.1 h
    cases he
    rw [← next?_append hn, ← ih hi, List.append_assoc]

/-- Something was read before the end of a block is reached. -/
theorem closing?_length_lt {dialect : Dialect} {inner : Nat}
    {text inside after : List Char}
    (h : closing? dialect inner text = some (inside, after)) :
    after.length < text.length := by
  have := congrArg List.length (closing?_append h)
  simp only [List.length_append, List.length_cons] at this
  omega

/-- The byte offset of the closing brace, for a text that is read from byte
`start` on. -/
def closingOffset? (dialect : Dialect) (text : List Char)
    (start : Nat) : Option Nat :=
  (closing? dialect 0 (Text.dropBytes start text)).map fun (inside, _) =>
    start + Text.byteCount inside

end SqlWorkflow.Lexical
