import SqlWorkflow.Proofs.Expr.Balanced

/-!
# The parts of an expression

An expression is a part of itself, and so are its items, its entries, what
members and calls are applied to, and the arguments of calls. What is said of
all expressions may be proved part by part. Every template that is a part of an
expression stands between two backticks of its source, so it is shorter than the
source.
-/

namespace SqlWorkflow.Expr

/-- An expression that stands somewhere in another one. -/
inductive Part (part : Expr) : Expr → Prop
  | self : Part part part
  | item {items : List Expr} {e : Expr} (hitem : e ∈ items)
      (h : Part part e) : Part part (.array items)
  | entry {entries : List (String × Expr)} {entry : String × Expr}
      (hentry : entry ∈ entries)
      (h : Part part entry.2) : Part part (.object entries)
  | base {base : Expr} (property : String)
      (h : Part part base) : Part part (.member base property)
  | callee {callee : Expr} (arguments : List Expr)
      (h : Part part callee) : Part part (.call callee arguments)
  | argument (callee : Expr) {arguments : List Expr} {e : Expr}
      (hargument : e ∈ arguments)
      (h : Part part e) : Part part (.call callee arguments)

/-- Induction over an expression, in which a property is known of all items,
entries and arguments. -/
@[elab_as_elim]
theorem induction {motive : Expr → Prop} (null : motive .null)
    (bool : ∀ value, motive (.bool value))
    (number : ∀ value, motive (.number value))
    (string : ∀ value, motive (.string value))
    (template : ∀ raw, motive (.template raw))
    (array : ∀ items, (∀ e ∈ items, motive e) → motive (.array items))
    (object : ∀ entries : List (String × Expr),
      (∀ entry ∈ entries, motive entry.2) → motive (.object entries))
    (ident : ∀ name, motive (.ident name))
    (member : ∀ base property, motive base → motive (.member base property))
    (call : ∀ callee arguments, motive callee → (∀ e ∈ arguments, motive e) →
      motive (.call callee arguments)) (e : Expr) : motive e :=
  @Expr.rec motive (fun items => ∀ e ∈ items, motive e) (fun entries =>
    ∀ entry ∈ entries, motive entry.2) (fun entry => motive entry.2) null bool
    number string template array object ident member call nofun
    (fun _ _ hitem hitems => List.forall_mem_cons.2 ⟨hitem, hitems⟩) nofun
    (fun _ _ hentry hentries => List.forall_mem_cons.2 ⟨hentry, hentries⟩)
    (fun _ _ hvalue => hvalue) e

/-- All templates in an expression are shorter than a number. -/
def Short (bound : Nat) (e : Expr) : Prop :=
  ∀ raw, Part (.template raw) e → raw.length < bound

section Short

variable {bound : Nat}

theorem Short.mono {more : Nat} {e : Expr} (h : Short bound e)
    (hle : bound ≤ more) : Short more e :=
  fun raw hpart => Nat.lt_of_lt_of_le (h raw hpart) hle

theorem short_template {raw : String}
    (h : raw.length < bound) : Short bound (.template raw) := by
  intro other hpart
  cases hpart
  exact h

theorem short_array {items : List Expr}
    (h : ∀ e ∈ items, Short bound e) : Short bound (.array items) := by
  intro raw hpart
  cases hpart with
  | item hitem hpart => exact h _ hitem raw hpart

theorem short_object {entries : List (String × Expr)}
    (h : ∀ entry ∈ entries, Short bound entry.2) :
    Short bound (.object entries) := by
  intro raw hpart
  cases hpart with
  | entry hentry hpart => exact h _ hentry raw hpart

theorem short_member {base : Expr} {property : String} (h : Short bound base) :
    Short bound (.member base property) := by
  intro raw hpart
  cases hpart with
  | base _ hpart => exact h raw hpart

theorem short_call {callee : Expr} {arguments : List Expr}
    (hcallee : Short bound callee) (h : ∀ e ∈ arguments, Short bound e) :
    Short bound (.call callee arguments) := by
  intro raw hpart
  cases hpart with
  | callee _ hpart => exact hcallee raw hpart
  | argument _ hargument hpart => exact h _ hargument raw hpart

theorem short_ofWord (word : String) : Short bound (Level.ofWord word) := by
  intro raw hpart
  unfold Level.ofWord at hpart
  split at hpart
  · cases hpart
  split at hpart
  · cases hpart
  split at hpart <;> cases hpart

end Short

/-! ## Reading -/

/-- What the reader takes off a text has a property, which may depend on the
length of the text. -/
def Reads (p : Nat → Expr → Prop) (reader : Reader Expr) : Prop :=
  ∀ text parsed, reader text = .ok parsed → p text.length parsed.value

theorem Reads.afterTrivia {p : Nat → Expr → Prop}
    (hmono : ∀ e m n, m ≤ n → p m e → p n e) {reader : Reader Expr}
    (h : Reads p reader) : Reads p reader.afterTrivia := by
  intro text parsed hparsed
  obtain ⟨q, hq, rfl⟩ := Text.exists_of_map_eq_ok hparsed
  exact hmono _ _ _ (skipTrivia_length_le text) (h _ q hq)

/-- The expressions of one level have a property if those one level further in
have another one. Both are about an expression in a text of some length; only a
template has to do with the length. -/
structure Inherits (inside whole : Nat → Expr → Prop) : Prop where
  inside_mono : ∀ e m n, m ≤ n → inside m e → inside n e
  whole_mono : ∀ e m n, m ≤ n → whole m e → whole n e
  number : ∀ n value, whole n (.number value)
  string : ∀ n s, whole n (.string s)
  word : ∀ n word, whole n (Level.ofWord word)
  template : ∀ {n raw}, raw.length < n → whole n (.template raw)
  array : ∀ {n} {items : List Expr}, (∀ e ∈ items, inside n e) →
    whole n (.array items)
  object : ∀ {n} {entries : List (String × Expr)},
    (∀ entry ∈ entries, inside n entry.2) → whole n (.object entries)
  parentheses : ∀ {n e}, inside n e → whole n e
  member : ∀ {n base} property, whole n base → whole n (.member base property)
  call : ∀ {n callee} {arguments : List Expr}, whole n callee →
    (∀ e ∈ arguments, inside n e) → whole n (.call callee arguments)

theorem untilQuote?_length {quote : Char} {text raw after : List Char}
    (h : untilQuote? quote text = some (raw, after)) :
    raw.length + after.length < text.length := by
  fun_induction untilQuote? quote text generalizing raw after with
  | case1 => cases h
  | case2 => cases h
  | case3 c rest ih =>
    obtain ⟨⟨inside, tail⟩, hinside, heq⟩ := Option.map_eq_some_iff.1 h
    cases heq
    have hlength := ih hinside
    simp only [List.length_cons]
    omega
  | case4 rest =>
    cases h
    simp
  | case5 c rest _ _ _ ih =>
    obtain ⟨⟨inside, tail⟩, hinside, heq⟩ := Option.map_eq_some_iff.1 h
    cases heq
    have hlength := ih hinside
    simp only [List.length_cons]
    omega

theorem rawQuoted_length {quote : Char} {fault : Fault} {text : List Char}
    {p : Text.Parsed (List Char) text}
    (h : rawQuoted quote fault text = .ok p) :
    p.value.length < text.length := by
  rw [rawQuoted] at h
  split at h
  · rename_i raw after hquote
    cases h
    have hlength := untilQuote?_length hquote
    rw [List.length_drop] at hlength
    dsimp only
    omega
  · cases h

namespace Inherits

variable {inside whole : Nat → Expr → Prop} {level : Level}

theorem list (hinherits : Inherits inside whole)
    (hinner : Reads inside level.inner) {close : Char} {text : List Char}
    {p : Text.Parsed (List Expr) text} (hp : level.list close text = .ok p) :
    ∀ e ∈ p.value, inside text.length e := by
  have hitem := hinner.afterTrivia hinherits.inside_mono
  fun_induction Level.list level close text with
  | case1 =>
    cases hp
    intro e he
    cases he
  | case2 => cases hp
  | case3 => cases hp
  | case4 text _ item hread after _ hlt items hitems ih =>
    cases hp
    rw [List.forall_mem_cons]
    exact ⟨hitem _ _ hread, fun e he =>
      hinherits.inside_mono _ _ _ (Nat.le_of_lt hlt) (ih hitems e he)⟩
  | case5 => cases hp
  | case6 text _ item hread =>
    cases hp
    rw [List.forall_mem_singleton]
    exact hitem _ _ hread

theorem entries (hinherits : Inherits inside whole)
    (hinner : Reads inside level.inner) {text : List Char}
    {p : Text.Parsed (List (String × Expr)) text}
    (hp : level.entries text = .ok p) :
    ∀ entry ∈ p.value, inside text.length entry.2 := by
  have hvalue {text : List Char} {name : Text.Parsed String text}
      {colon : Text.Parsed Unit name.rest} {item : Text.Parsed Expr colon.rest}
      (hitem : level.inner colon.rest = .ok item) :
      inside text.length item.value :=
    hinherits.inside_mono
      _ _ _ (Nat.le_of_lt (Nat.lt_trans colon.shorter name.shorter))
      (hinner _ item hitem)
  fun_induction Level.entries level text with
  | case1 =>
    cases hp
    intro entry hentry
    cases hentry
  | case2 => cases hp
  | case3 => cases hp
  | case4 => cases hp
  | case5 => cases hp
  | case6 text _ name _ colon _ item hitem _ after _ hlt more hmore ih =>
    cases hp
    rw [List.forall_mem_cons]
    refine ⟨hvalue hitem, fun entry hentry => ?_⟩
    exact hinherits.inside_mono _ _ _ (Nat.le_of_lt hlt) (ih hmore entry hentry)
  | case7 => cases hp
  | case8 text _ name _ colon _ item hitem =>
    cases hp
    rw [List.forall_mem_singleton]
    exact hvalue hitem

theorem primary (hinherits : Inherits inside whole)
    (hinner : Reads inside level.inner) : Reads whole level.primary := by
  apply Reads.afterTrivia hinherits.whole_mono
  intro text p hp
  cases text with
  | nil => cases hp
  | cons c rest =>
    have hle : rest.length ≤ (c :: rest).length := Text.length_le_cons c rest
    dsimp only at hp
    split at hp
    · obtain ⟨s, -, rfl⟩ := Text.exists_of_map_eq_ok hp
      exact hinherits.string _ s.value
    split at hp
    · obtain ⟨raw, hraw, rfl⟩ := Text.exists_of_map_eq_ok hp
      apply hinherits.template
      rw [String.length_ofList]
      exact rawQuoted_length hraw
    split at hp
    · obtain ⟨items, hitems, rfl⟩ := Text.exists_of_map_eq_ok hp
      refine hinherits.array fun e he => ?_
      exact hinherits.inside_mono _ _ _ hle (hinherits.list hinner hitems e he)
    split at hp
    · obtain ⟨entries, hentries, rfl⟩ := Text.exists_of_map_eq_ok hp
      refine hinherits.object fun entry hentry => ?_
      exact hinherits.inside_mono _ _ _ hle
        (hinherits.entries hinner hentries entry hentry)
    split at hp
    · split at hp
      · cases hp
      · rename_i item hitem
        obtain ⟨stop, -, rfl⟩ := Text.exists_of_map_eq_ok hp
        exact hinherits.parentheses
          (hinherits.inside_mono _ _ _ hle (hinner rest item hitem))
    split at hp
    · obtain ⟨n, -, rfl⟩ := Text.exists_of_map_eq_ok hp
      exact hinherits.number _ n.value
    split at hp
    · obtain ⟨word, -, rfl⟩ := Text.exists_of_map_eq_ok hp
      exact hinherits.word _ word.value
    · cases hp

theorem applications (hinherits : Inherits inside whole)
    (hinner : Reads inside level.inner) {bound : Nat} {head result : Expr}
    {text rest : List Char} (hhead : whole bound head)
    (hbound : text.length ≤ bound)
    (h : level.Applies head text result rest) : whole bound result := by
  obtain ⟨hle, h⟩ := h
  fun_induction Level.applications level head text with
  | case1 => cases h
  | case2 => cases h
  | case3 head text _ _ name _ hlt _ _ _ hmore ih =>
    cases h
    exact ih (hinherits.member _ hhead)
      (Nat.le_trans (Nat.le_of_lt hlt) hbound) _ hmore
  | case4 => cases h
  | case5 => cases h
  | case6 head text _ tail hcall arguments harguments hlt _ _ _ hmore ih =>
    cases h
    have htail : tail.length ≤ bound :=
      Nat.le_trans (Nat.le_of_lt (eat?_length_lt hcall)) hbound
    have hcalled := hinherits.call hhead fun e he =>
      hinherits.inside_mono _ _ _ htail (hinherits.list hinner harguments e he)
    exact ih hcalled (Nat.le_trans (Nat.le_of_lt hlt) hbound) _ hmore
  | case7 => cases h
  | case8 => cases h
  | case9 => cases h
  | case10 head text _ _ _ _ _ _ _ _ hlt _ _ _ _ _ hmore ih =>
    cases h
    exact ih (hinherits.member _ hhead)
      (Nat.le_trans (Nat.le_of_lt hlt) hbound) _ hmore
  | case11 => cases h
  | case12 =>
    cases h
    exact hhead

theorem expression (hinherits : Inherits inside whole)
    (hinner : Reads inside level.inner) : Reads whole level.expression := by
  intro text p hp
  obtain ⟨head, after, ⟨hlt, hhead⟩, happlies⟩ :=
    exists_of_takes_expression ⟨p.shorter, hp⟩
  exact hinherits.applications hinner (hinherits.primary hinner text _ hhead)
    (Nat.le_of_lt hlt) happlies

end Inherits

theorem inherits_short : Inherits Short Short where
  inside_mono _ _ _ hle h := h.mono hle
  whole_mono _ _ _ hle h := h.mono hle
  number := by rintro n value raw ⟨⟩
  string := by rintro n s raw ⟨⟩
  word _ := short_ofWord
  template := short_template
  array := short_array
  object := short_object
  parentheses h := h
  member _ h := short_member h
  call := short_call

theorem reads_short (levels : Nat) : Reads Short (ofLevels levels) := by
  induction levels with
  | zero => nofun
  | succ levels ih => exact inherits_short.expression ih

/-- Every template in an expression is shorter than the source of the
expression. -/
theorem short_of_parse {source : String} {e : Expr}
    (h : parse source = .ok e) : Short source.length e := by
  obtain ⟨rest, hlt, hread⟩ := exists_takes_of_parseChars h
  have hshort := reads_short maxDepth _ _ hread
  rwa [String.length_toList] at hshort

end SqlWorkflow.Expr
