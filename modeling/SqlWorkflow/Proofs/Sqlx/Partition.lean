import SqlWorkflow.Proofs.Lexical.Reading
import SqlWorkflow.Sqlx.File

/-!
# Partitions of a file

A SQL-template file is a SQL body with keyword blocks cut into it. `Partition`
is such a cut: the blocks in order, each with the plain text before it, and the
plain text after the last one. `Partition.Fits` says when a cut is the right
one, without running the extraction: every block opens at a character of code
and is closed by the brace that matches its own, and no character of code
between the blocks opens another.
-/

namespace SqlWorkflow.Sqlx

open Lexical

/-- A keyword block begins at the head of a text: a keyword after which only
ASCII blanks stand before a brace, and before which no word goes on. -/
def StartsBlock (previous : Option Char) (text : List Char) : Prop :=
  (∀ c ∈ previous, isWordChar c = false) ∧
    ∃ (kind : BlockKind) (blank inside : List Char),
      text = kind.keyword.toList ++ (blank ++ '{' :: inside) ∧
        ∀ c ∈ blank, Text.isAsciiBlank c = true

theorem isWordChar_eq_false_of_isAsciiBlank {c : Char}
    (h : Text.isAsciiBlank c = true) : isWordChar c = false := by
  simp only [Text.isAsciiBlank, Bool.or_eq_true, beq_iff_eq] at h
  rcases h with (((rfl | rfl) | rfl) | rfl) | rfl <;> decide

theorem any_isWordChar_eq_false_iff {previous : Option Char} :
    previous.any isWordChar = false ↔ ∀ c ∈ previous, isWordChar c = false := by
  cases previous <;> simp

theorem isWordChar_head_blank {blank inside : List Char}
    (hblank : ∀ c ∈ blank, Text.isAsciiBlank c = true) :
    ∀ c ∈ (blank ++ '{' :: inside).head?, isWordChar c = false := by
  intro c hc
  cases blank with
  | nil =>
    have hbrace : '{' = c := by simpa using hc
    rw [← hbrace]
    decide
  | cons b bs =>
    have hhead : b = c := by simpa using hc
    exact isWordChar_eq_false_of_isAsciiBlank
      (hhead ▸ hblank b List.mem_cons_self)

/-- A block of a kind opens exactly where its keyword, blanks and a brace
stand. -/
theorem BlockKind.opening?_eq_some_iff {kind : BlockKind}
    {text blank inside : List Char} :
    kind.opening? text = some (blank, inside) ↔
      text = kind.keyword.toList ++ (blank ++ '{' :: inside) ∧
        ∀ c ∈ blank, Text.isAsciiBlank c = true := by
  constructor
  · intro h
    have htext := (BlockKind.opening?_append h).symm
    rw [BlockKind.opening?] at h
    split at h
    · cases h
    · split at h
      · cases h
      · split at h
        · cases h
          refine ⟨htext, ?_⟩
          intro c hc
          exact List.all_eq_true.1 List.all_takeWhile c hc
        · cases h
  · rintro ⟨rfl, hblank⟩
    have htail : Text.after? kind.keyword.toList (kind.keyword.toList ++
        (blank ++ '{' :: inside)) = some (blank ++ '{' :: inside) :=
      Text.after?_eq_some_iff.2 rfl
    have hword : (blank ++ '{' :: inside).head?.any isWordChar = false :=
      any_isWordChar_eq_false_iff.2 (isWordChar_head_blank hblank)
    have hdrop : (blank ++ '{' :: inside).dropWhile Text.isAsciiBlank =
        '{' :: inside := by
      rw [List.dropWhile_append_of_pos hblank]
      rfl
    have htake : (blank ++ '{' :: inside).takeWhile Text.isAsciiBlank =
        blank := by
      rw [List.takeWhile_append_of_pos hblank]
      exact List.append_nil blank
    simp only [BlockKind.opening?, htail, hword, hdrop, htake,
      Bool.false_eq_true, if_false]

/-- No keyword is the beginning of another. -/
theorem BlockKind.eq_of_keyword_append {left right : BlockKind}
    {leftRest rightRest : List Char}
    (h : left.keyword.toList ++ leftRest = right.keyword.toList ++ rightRest) :
    left = right := by
  cases left <;> cases right <;> first | rfl | simp [BlockKind.keyword] at h

theorem opening?_eq_some_iff {kind : BlockKind}
    {text blank inside : List Char} :
    opening? text = some (kind, blank, inside) ↔
      kind.opening? text = some (blank, inside) := by
  constructor
  · intro h
    obtain ⟨k, _, hk⟩ := List.exists_of_findSome?_eq_some h
    obtain ⟨⟨b, i⟩, hb, he⟩ := Option.map_eq_some_iff.1 hk
    cases he
    exact hb
  · intro h
    have hsome : (opening? text).isSome = true := by
      rw [opening?, List.findSome?_isSome_iff]
      exact ⟨kind, by cases kind <;> simp [BlockKind.all], by simp [h]⟩
    obtain ⟨⟨k, b, i⟩, hk⟩ := Option.isSome_iff_exists.1 hsome
    have hkind : k = kind :=
      BlockKind.eq_of_keyword_append
        ((opening?_append hk).trans (BlockKind.opening?_append h).symm)
    subst hkind
    obtain ⟨k', _, hk'⟩ := List.exists_of_findSome?_eq_some hk
    obtain ⟨⟨b', i'⟩, hb, he⟩ := Option.map_eq_some_iff.1 hk'
    cases he
    rw [h] at hb
    cases hb
    exact hk

/-- The head of a block is recognised exactly where a block begins. -/
theorem blockHead?_eq_some_iff {previous : Option Char}
    {text blank inside : List Char} {kind : BlockKind} :
    blockHead? previous text = some (kind, blank, inside) ↔
      (∀ c ∈ previous, isWordChar c = false) ∧
        text = kind.keyword.toList ++ (blank ++ '{' :: inside) ∧
        ∀ c ∈ blank, Text.isAsciiBlank c = true := by
  rw [blockHead?, ← any_isWordChar_eq_false_iff]
  split
  · rename_i hword
    simp [hword]
  · rename_i hword
    rw [opening?_eq_some_iff, BlockKind.opening?_eq_some_iff,
      Bool.not_eq_true] at *
    exact ⟨fun h => ⟨hword, h⟩, fun h => h.2⟩

theorem blockHead?_eq_none_iff {previous : Option Char} {text : List Char} :
    blockHead? previous text = none ↔ ¬ StartsBlock previous text := by
  rw [Option.eq_none_iff_forall_ne_some]
  constructor
  · rintro h ⟨hprevious, kind, blank, inside, htext, hblank⟩
    exact h (kind, blank, inside)
      (blockHead?_eq_some_iff.2 ⟨hprevious, htext, hblank⟩)
  · rintro h ⟨kind, blank, inside⟩ hhead
    obtain ⟨hprevious, htext, hblank⟩ := blockHead?_eq_some_iff.1 hhead
    exact h ⟨hprevious, kind, blank, inside, htext, hblank⟩

/-- A keyword block: its kind, the blanks before its opening brace, and what
stands between its braces. -/
structure Block where
  kind : BlockKind
  blank : List Char
  content : List Char

def Block.head (b : Block) : List Char :=
  b.kind.keyword.toList ++ (b.blank ++ ['{'])

def Block.text (b : Block) : List Char :=
  b.head ++ (b.content ++ ['}'])

theorem Block.text_append (b : Block) (after : List Char) :
    b.text ++ after =
      b.kind.keyword.toList ++
        (b.blank ++ '{' :: (b.content ++ '}' :: after)) := by
  simp [Block.text, Block.head]

/-- A block opens after `before`: the keyword stands at a character of code,
apart from other words, and only ASCII blanks separate it from its brace. -/
structure Opens (before : List Char) (kind : BlockKind)
    (blank inside : List Char) : Prop where
  blank_ascii : ∀ c ∈ blank, Text.isAsciiBlank c = true
  word_ended : ∀ c ∈ before.getLast?, isWordChar c = false
  keyword_ended : ∀ c ∈ (blank ++ '{' :: inside).head?, isWordChar c = false
  at_code : ∃ c rest,
    next? .sql (kind.keyword.toList ++ (blank ++ '{' :: inside)) =
      some (.code c, rest)

/-- A whole block stands between `before` and `after`: it opens there, and the
brace that matches its opening brace, in the dialect of its kind, is the one it
ends with. -/
structure Stands (before : List Char) (b : Block) (after : List Char) : Prop
    extends Opens before b.kind b.blank (b.content ++ '}' :: after) where
  closed : closingOffset? b.kind.dialect (before ++ (b.text ++ after))
    (Text.byteCount (before ++ b.head)) =
    some (Text.byteCount (before ++ (b.head ++ b.content)))

/-- The SQL scan reads `plain` between `before` and `after` as whole lexemes,
and no character of code among them starts a block. -/
def PlainBetween (before plain after : List Char) : Prop :=
  ∃ lexemes, Reads .sql (plain ++ after) lexemes after ∧
    ∀ read c unread, lexemes = read ++ .code c :: unread →
      ¬ StartsBlock (before ++ sourceOf read).getLast?
        (c :: (sourceOf unread ++ after))

/-- A cut of a text at its blocks. -/
structure Partition where
  /-- The blocks in order, each with the plain text before it. -/
  blocks : List (List Char × Block)
  /-- The plain text after the last block. -/
  tail : List Char

namespace Partition

def text (p : Partition) : List Char :=
  p.blocks.flatMap (fun part => part.1 ++ part.2.text) ++ p.tail

def body (p : Partition) : List Char :=
  p.blocks.flatMap Prod.fst ++ p.tail

/-- The contents of the blocks of a kind, in order. -/
def contents (p : Partition) (kind : BlockKind) : List String :=
  p.blocks.filterMap fun part =>
    if part.2.kind = kind then some (String.ofList part.2.content) else none

def whole (plain : List Char) : Partition := ⟨[], plain⟩

def cons (plain : List Char) (block : Block) (p : Partition) : Partition :=
  ⟨(plain, block) :: p.blocks, p.tail⟩

def prepend (plain : List Char) : Partition → Partition
  | ⟨[], tail⟩ => ⟨[], plain ++ tail⟩
  | ⟨(first, block) :: blocks, tail⟩ =>
    ⟨(plain ++ first, block) :: blocks, tail⟩

/-- The blocks of a cut, with the plain texts around them, are those that the
text after `before` calls for. -/
def FitsFrom (tail after : List Char) :
    List Char → List (List Char × Block) → Prop
  | before, [] => PlainBetween before tail after
  | before, (plain, block) :: blocks =>
    let rest := (Partition.mk blocks tail).text ++ after
    PlainBetween before plain (block.text ++ rest) ∧
      Stands (before ++ plain) block rest ∧
        FitsFrom tail after (before ++ (plain ++ block.text)) blocks

/-- A cut of the text between `before` and `after` is the one that the text
calls for. -/
def Fits (before after : List Char) (p : Partition) : Prop :=
  FitsFrom p.tail after before p.blocks

/-- The blocks of a file are those of a cut: contents in order, sorted by kind,
and the scripts on lines of their own. -/
structure Yields (p : Partition) (blocks : Blocks) : Prop where
  body_eq : blocks.body = String.ofList p.body
  config_eq : blocks.config.toList = p.contents .config
  script_eq : blocks.script = if p.contents .script = [] then
    none else some ("\n".intercalate (p.contents .script))
  preOperations_eq : blocks.preOperations = p.contents .preOperations
  postOperations_eq : blocks.postOperations = p.contents .postOperations

@[simp] theorem text_whole (plain : List Char) :
    (whole plain).text = plain := rfl

@[simp] theorem text_cons (plain : List Char) (block : Block) (p : Partition) :
    (p.cons plain block).text = plain ++ (block.text ++ p.text) := by
  simp [text, cons]

@[simp] theorem text_prepend (plain : List Char) (p : Partition) :
    (p.prepend plain).text = plain ++ p.text := by
  obtain ⟨_ | ⟨⟨first, block⟩, blocks⟩, tail⟩ := p <;> simp [text, prepend]

@[simp] theorem body_cons (plain : List Char) (block : Block) (p : Partition) :
    (p.cons plain block).body = plain ++ p.body := by
  simp [body, cons]

@[simp] theorem body_prepend (plain : List Char) (p : Partition) :
    (p.prepend plain).body = plain ++ p.body := by
  obtain ⟨_ | ⟨⟨first, block⟩, blocks⟩, tail⟩ := p <;> simp [body, prepend]

@[simp] theorem contents_whole (plain : List Char) (kind : BlockKind) :
    (whole plain).contents kind = [] := rfl

theorem contents_cons (plain : List Char) (block : Block) (p : Partition)
    (kind : BlockKind) :
    (p.cons plain block).contents kind =
      (if block.kind = kind then [String.ofList block.content] else []) ++
        p.contents kind := by
  by_cases h : block.kind = kind <;> simp [contents, cons, h]

@[simp] theorem contents_prepend (plain : List Char) (p : Partition)
    (kind : BlockKind) : (p.prepend plain).contents kind = p.contents kind := by
  obtain ⟨_ | ⟨⟨first, block⟩, blocks⟩, tail⟩ := p <;> rfl

end Partition

theorem PlainBetween.nil (before after : List Char) :
    PlainBetween before [] after := by
  refine ⟨[], .stop after, ?_⟩
  intro read c unread h
  simp at h

/-- One more lexeme may be read before a plain text, unless it starts a
block. -/
theorem PlainBetween.read {before plain after : List Char} {lexeme : Lexeme}
    (hnext : next? .sql (lexeme.text ++ (plain ++ after)) =
      some (lexeme, plain ++ after))
    (hstart : ¬ StartsBlock before.getLast? (lexeme.text ++ (plain ++ after)))
    (h : PlainBetween (before ++ lexeme.text) plain after) :
    PlainBetween before (lexeme.text ++ plain) after := by
  obtain ⟨lexemes, hreads, hcode⟩ := h
  refine ⟨lexeme :: lexemes,
    .read (by rw [List.append_assoc]; exact hnext) hreads, ?_⟩
  intro read c unread heq
  cases read with
  | nil =>
    obtain ⟨rfl, rfl⟩ := List.cons.inj heq
    rw [sourceOf_nil, List.append_nil, hreads.sourceOf_append]
    exact hstart
  | cons first read =>
    obtain ⟨rfl, hrest⟩ := List.cons.inj heq
    rw [sourceOf_cons, ← List.append_assoc]
    exact hcode read c unread hrest

theorem Partition.Fits.cons {before after : List Char} {block : Block}
    {p : Partition} (hstands : Stands before block (p.text ++ after))
    (h : p.Fits (before ++ block.text) after) :
    (p.cons [] block).Fits before after := by
  refine ⟨.nil before _, ?_, h⟩
  rw [List.append_nil]
  exact hstands

/-- A cut still fits when its first plain text gets one more lexeme at its
head. -/
theorem Partition.Fits.prepend {before after : List Char} {lexeme : Lexeme}
    {p : Partition} (hnext : next? .sql (lexeme.text ++ (p.text ++ after)) =
      some (lexeme, p.text ++ after))
    (hstart : ¬ StartsBlock before.getLast? (lexeme.text ++ (p.text ++ after)))
    (h : p.Fits (before ++ lexeme.text) after) :
    (p.prepend lexeme.text).Fits before after := by
  obtain ⟨_ | ⟨⟨plain, block⟩, blocks⟩, tail⟩ := p
  · exact PlainBetween.read hnext hstart h
  · obtain ⟨hplain, hstands, hrest⟩ := h
    have htext : (Partition.mk ((plain, block) :: blocks) tail).text ++ after =
        plain ++
          (block.text ++ ((Partition.mk blocks tail).text ++ after)) := by
      simp [Partition.text]
    rw [htext] at hnext hstart
    refine ⟨PlainBetween.read hnext hstart hplain, ?_, ?_⟩
    · rw [← List.append_assoc]
      exact hstands
    · rw [List.append_assoc lexeme.text, ← List.append_assoc before]
      exact hrest

end SqlWorkflow.Sqlx
