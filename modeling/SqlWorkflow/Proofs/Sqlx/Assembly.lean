import SqlWorkflow.Proofs.Lexical.Boundary
import SqlWorkflow.Proofs.Sqlx.Extraction

/-!
# Files put together from pieces

Extraction undoes assembly. A cut that fits a text is the one that extraction
finds, and a text that is put together from plain pieces and blocks is cut at
these pieces again, if each of them is in order by itself: no comment, quotation
or keyword straddles the place where two of them meet.
-/

namespace SqlWorkflow.Sqlx

open Lexical

section Fits

/-- A block begins at a character of code. -/
theorem StartsBlock.exists_next? {previous : Option Char} {text : List Char}
    (h : StartsBlock previous text) :
    ∃ c rest, next? .sql text = some (.code c, rest) := by
  obtain ⟨-, kind, blank, inside, rfl, -⟩ := h
  exact kind.next?_keyword_append _

theorem pieces_plain {previous : Option Char} {line : Nat} {configured : Bool}
    {text rest : List Char} {lexeme : Lexeme}
    (hnext : next? .sql text = some (lexeme, rest))
    (hstart : ¬ StartsBlock previous text) :
    pieces previous line configured text =
      (pieces lexeme.text.getLast? (line + Text.lineFeeds lexeme.text)
        configured rest).map (.plain lexeme.text :: ·) := by
  have hhead := blockHead?_eq_none_iff.2 hstart
  rw [pieces]
  split
  · rename_i hnone
    cases hnext.symm.trans hnone
  · rename_i hsome
    cases hnext.symm.trans hsome
    split
    · rename_i hblock
      cases hhead.symm.trans hblock
    · rfl

/-- The pieces that the lexemes of a plain text become. -/
def plainPieces (lexemes : List Lexeme) : List Piece :=
  lexemes.map fun lexeme => .plain lexeme.text

theorem flatMap_body_plainPieces (lexemes : List Lexeme) :
    (plainPieces lexemes).flatMap Piece.body = sourceOf lexemes := by
  rw [plainPieces, List.flatMap_map]
  rfl

theorem filterMap_contentOf?_plainPieces (kind : BlockKind)
    (lexemes : List Lexeme) :
    (plainPieces lexemes).filterMap (Piece.contentOf? kind) = [] := by
  rw [plainPieces, List.filterMap_map]
  exact List.filterMap_eq_nil_iff.2 fun _ _ => rfl

/-- The lexemes of a plain text are pieces of their own, and the cut goes on
after them. -/
theorem pieces_reads {before text after : List Char} {lexemes : List Lexeme}
    (line : Nat) (configured : Bool) (hreads : Reads .sql text lexemes after)
    (hcode : ∀ read c unread, lexemes = read ++ .code c :: unread →
      ¬ StartsBlock (before ++ sourceOf read).getLast?
        (c :: (sourceOf unread ++ after))) :
    ∃ next, pieces before.getLast? line configured text =
      (pieces (before ++ sourceOf lexemes).getLast? next configured after).map
        (plainPieces lexemes ++ ·) := by
  induction hreads generalizing before line with
  | stop text =>
    refine ⟨line, ?_⟩
    rw [sourceOf_nil, List.append_nil]
    cases pieces before.getLast? line configured text <;> rfl
  | @read text rest last lexeme lexemes head tail ih =>
    have hstart : ¬ StartsBlock before.getLast? text := by
      intro hstarts
      obtain ⟨c, others, hnext⟩ := hstarts.exists_next?
      cases head.symm.trans hnext
      apply hcode [] c lexemes rfl
      rw [sourceOf_nil, List.append_nil, tail.sourceOf_append]
      rwa [← next?_append head] at hstarts
    have hrest : ∀ read c unread, lexemes = read ++ .code c :: unread →
        ¬ StartsBlock (before ++ lexeme.text ++ sourceOf read).getLast?
          (c :: (sourceOf unread ++ last)) := by
      rintro read c unread rfl
      rw [List.append_assoc, ← sourceOf_cons]
      exact hcode (lexeme :: read) c unread rfl
    obtain ⟨next, hmore⟩ := ih (line + Text.lineFeeds lexeme.text) hrest
    have hlast : lexeme.text.getLast? = (before ++ lexeme.text).getLast? := by
      rw [List.getLast?_append, Option.or_of_isSome]
      exact List.getLast?_isSome.2 (text_ne_nil_of_next? head)
    refine ⟨next, ?_⟩
    rw [pieces_plain head hstart, hlast, hmore, List.append_assoc,
      sourceOf_cons]
    cases pieces (before ++ (lexeme.text ++ sourceOf lexemes)).getLast? next
      configured last <;> rfl

/-- The closing brace that is found at an offset is the one that ends the
content. -/
theorem closing?_of_closingOffset? {dialect : Dialect}
    {before content after : List Char}
    (h : closingOffset? dialect (before ++ (content ++ '}' :: after))
      (Text.byteCount before) = some (Text.byteCount (before ++ content))) :
    closing? dialect 0 (content ++ '}' :: after) = some (content, after) := by
  rw [closingOffset?, Text.dropBytes_byteCount_append] at h
  obtain ⟨⟨inside, rest⟩, hclosing, hoffset⟩ := Option.map_eq_some_iff.1 h
  have hcount : Text.byteCount inside = Text.byteCount content := by
    rw [Text.byteCount_append] at hoffset
    exact Nat.add_left_cancel hoffset
  have hsplit := closing?_append hclosing
  have hinside : inside = content :=
    calc inside
      _ = Text.takeBytes (Text.byteCount inside)
          (inside ++ '}' :: rest) := by simp
      _ = Text.takeBytes (Text.byteCount content)
          (content ++ '}' :: after) := by rw [hcount, hsplit]
      _ = content := by simp
  subst hinside
  cases List.append_cancel_left hsplit
  exact hclosing

theorem Stands.closing? {before after : List Char} {block : Block}
    (h : Stands before block after) :
    Lexical.closing? block.kind.dialect 0 (block.content ++ '}' :: after) =
      some (block.content, after) := by
  have htext : before ++ (block.text ++ after) =
      (before ++ block.head) ++ (block.content ++ '}' :: after) := by
    simp [Block.text]
  have hclosed := h.closed
  rw [htext, ← List.append_assoc before] at hclosed
  exact closing?_of_closingOffset? hclosed

/-- A block that stands in a text is cut out of it, if it is no second `config`
block. -/
theorem pieces_block {before after : List Char} {block : Block} (line : Nat)
    {configured : Bool} (hstands : Stands before block after)
    (hfirst : ¬ (block.kind = .config ∧ configured = true)) :
    ∃ next, pieces before.getLast? line configured (block.text ++ after) =
      (pieces (before ++ block.text).getLast? next
        (configured || block.kind == .config) after).map
        (.block block.kind block.blank block.content :: ·) := by
  have htext := block.text_append after
  have hhead : blockHead? before.getLast? (block.text ++ after) =
      some (block.kind, block.blank, block.content ++ '}' :: after) :=
    blockHead?_eq_some_iff.2 ⟨hstands.word_ended, htext, hstands.blank_ascii⟩
  obtain ⟨c, rest, hnext⟩ := hstands.at_code
  rw [← htext] at hnext
  have hlast : (before ++ block.text).getLast? = some '}' := by
    simp [Block.text]
  rw [pieces.eq_def before.getLast?, hlast]
  split
  · rename_i hnone
    cases hnext.symm.trans hnone
  · split
    · rename_i hblock
      cases hhead.symm.trans hblock
      split
      · rename_i hunclosed
        cases hstands.closing?.symm.trans hunclosed
      · rename_i hclosing
        cases hstands.closing?.symm.trans hclosing
        rw [if_neg hfirst]
        exact ⟨_, rfl⟩
    · rename_i hnone
      cases hhead.symm.trans hnone

/-- Where there is one `config` block at most, a first one is followed by
none. -/
theorem Partition.once_of_cons {plain : List Char} {block : Block}
    {p : Partition} {configured : Bool}
    (honce :
      ((p.cons plain block).contents .config).length + configured.toNat ≤ 1) :
    ¬ (block.kind = .config ∧ configured = true) ∧
      (p.contents .config).length +
        (configured || block.kind == .config).toNat ≤ 1 := by
  rw [Partition.contents_cons, List.length_append] at honce
  by_cases hkind : block.kind = .config
  · rw [if_pos hkind, List.length_singleton] at honce
    rw [beq_iff_eq.2 hkind, Bool.or_true, Bool.toNat_true]
    refine ⟨?_, by omega⟩
    rintro ⟨-, rfl⟩
    rw [Bool.toNat_true] at honce
    omega
  · rw [if_neg hkind, List.length_nil] at honce
    rw [beq_eq_false_iff_ne.2 hkind, Bool.or_false]
    exact ⟨fun h => hkind h.1, by omega⟩

/-- Cutting a text finds the pieces of the cut that fits it. The text `before`
is what was passed when the scan reached this text. -/
theorem pieces_of_fits {tail : List Char} {blocks : List (List Char × Block)}
    {before : List Char} {configured : Bool} (line : Nat)
    (hfits : Partition.FitsFrom tail [] before blocks)
    (honce : ((Partition.mk blocks tail).contents .config).length +
      configured.toNat ≤ 1) : ∃ ps,
        pieces before.getLast? line configured (Partition.mk blocks tail).text =
          .ok ps ∧
          (Partition.mk blocks tail).body = ps.flatMap Piece.body ∧
          ∀ kind, (Partition.mk blocks tail).contents kind =
            ps.filterMap (Piece.contentOf? kind) := by
  induction blocks generalizing before configured line with
  | nil =>
    obtain ⟨lexemes, hreads, hcode⟩ := hfits
    obtain ⟨next, hpieces⟩ := pieces_reads line configured hreads hcode
    obtain rfl : sourceOf lexemes = tail :=
      List.append_cancel_right hreads.sourceOf_append
    rw [List.append_nil] at hpieces
    refine ⟨plainPieces lexemes, ?_, ?_, ?_⟩
    · change pieces before.getLast? line configured (sourceOf lexemes) = _
      rw [hpieces, pieces]
      exact congrArg Except.ok (List.append_nil _)
    · rw [flatMap_body_plainPieces]
      rfl
    · intro kind
      rw [filterMap_contentOf?_plainPieces]
      rfl
  | cons part blocks ih =>
    obtain ⟨plain, block⟩ := part
    obtain ⟨⟨lexemes, hreads, hcode⟩, hstands, hrest⟩ := hfits
    obtain ⟨hfirst, hmore⟩ :=
      @Partition.once_of_cons plain block ⟨blocks, tail⟩ configured honce
    obtain ⟨next, hplain⟩ := pieces_reads line configured hreads hcode
    obtain rfl : sourceOf lexemes = plain :=
      List.append_cancel_right hreads.sourceOf_append
    obtain ⟨nextLine, hblock⟩ := pieces_block next hstands hfirst
    rw [List.append_assoc] at hblock
    obtain ⟨ps, hpieces, hbody, hps⟩ := ih nextLine hrest hmore
    refine ⟨plainPieces lexemes ++
      .block block.kind block.blank block.content :: ps, ?_, ?_, ?_⟩
    · have htext :
          (Partition.mk ((sourceOf lexemes, block) :: blocks) tail).text =
            sourceOf lexemes ++
              (block.text ++ ((Partition.mk blocks tail).text ++ [])) := by
        simp [Partition.text]
      rw [htext, hplain, hblock, List.append_nil, hpieces]
      rfl
    · rw [List.flatMap_append, flatMap_body_plainPieces,
        List.flatMap_cons, ← hbody]
      exact Partition.body_cons _ _ ⟨blocks, tail⟩
    · intro kind
      refine (Partition.contents_cons _ block ⟨blocks, tail⟩ kind).trans ?_
      rw [hps, List.filterMap_append, filterMap_contentOf?_plainPieces,
        List.filterMap_cons]
      by_cases hkind : block.kind = kind <;> simp [Piece.contentOf?, hkind]

/-- The cut that fits a text is the one that extraction makes. -/
theorem extractBlocks_of_fits {p : Partition} (hfits : p.Fits [] [])
    (honce : (p.contents .config).length ≤ 1) :
    ∃ blocks, extractBlocks (String.ofList p.text) = .ok blocks ∧
      p.Yields blocks := by
  obtain ⟨ps, hpieces, hbody, hcontents⟩ :=
    @pieces_of_fits _ _ [] false 1 hfits honce
  refine ⟨.ofPieces ps, ?_, Partition.yields_ofPieces hbody hcontents honce⟩
  rw [extractBlocks, String.toList_ofList]
  exact congrArg (Except.map Blocks.ofPieces) hpieces

end Fits

section Assembly

/-- A plain text that is in order by itself: read alone, it ends outside every
comment and quotation, and no character of code in it starts a block. -/
structure PlainAlone (plain : List Char) : Prop where
  ends_outside : ∀ lexeme ∈ (lexemes .sql plain).getLast?, lexeme.Complete
  starts_nothing : ∀ read c unread, lexemes .sql plain =
    read ++ .code c :: unread →
    ¬ StartsBlock (sourceOf read).getLast? (c :: sourceOf unread)

/-- A block that is in order by itself: its content with a brace after it is
closed by this brace. -/
structure Block.ClosedAlone (b : Block) : Prop where
  blank_ascii : ∀ c ∈ b.blank, Text.isAsciiBlank c = true
  closed : closingOffset? b.kind.dialect (b.content ++ ['}']) 0 =
    some (Text.byteCount b.content)

/-- The plain texts of a cut, in order. -/
def Partition.plains (p : Partition) : List (List Char) :=
  p.blocks.map Prod.fst ++ [p.tail]

/-- Plain texts and blocks of which each is in order by itself, whatever stands
around it. -/
structure Partition.InOrder (p : Partition) : Prop where
  plain_alone : ∀ plain ∈ p.plains, PlainAlone plain
  closed_alone : ∀ part ∈ p.blocks, part.2.ClosedAlone
  word_ended : ∀ part ∈ p.blocks, ∀ c ∈ part.1.getLast?, isWordChar c = false
  config_once : (p.contents .config).length ≤ 1

/-- What follows a plain text: nothing, or the keyword of a block. -/
def StartsWord (text : List Char) : Prop :=
  ∀ c ∈ text.head?, isWordChar c = true

theorem StartsWord.inert {text : List Char}
    (h : StartsWord text) : Inert text := by
  have hmark : markChars.all (fun c => !isWordChar c) = true := by decide
  intro c hc hmem
  have hword := List.all_eq_true.1 hmark c hmem
  rw [h c hc] at hword
  cases hword

theorem isWordChar_of_mem_keyword {kind : BlockKind} {c : Char}
    (h : c ∈ kind.keyword.toList) : isWordChar c = true := by
  have hall : kind.keyword.toList.all isWordChar = true := by
    cases kind <;> decide
  exact List.all_eq_true.1 hall c h

theorem BlockKind.keyword_ne_nil (kind : BlockKind) :
    kind.keyword.toList ≠ [] := by
  cases kind <;> decide

theorem Block.startsWord_text_append (b : Block)
    (after : List Char) : StartsWord (b.text ++ after) := by
  intro c hc
  obtain ⟨first, hfirst⟩ :=
    Option.isSome_iff_exists.1 (List.isSome_head?.2 b.kind.keyword_ne_nil)
  rw [Block.text_append, List.head?_append, hfirst] at hc
  cases hc
  exact isWordChar_of_mem_keyword (List.mem_of_mem_head? hfirst)

/-- The head of a block does not straddle the place between a text that ends
with no word and a word. -/
theorem StartsBlock.of_append {previous : Option Char} {text after : List Char}
    (hne : text ≠ []) (hafter : StartsWord after)
    (hend : after ≠ [] → ∀ c ∈ text.getLast?, isWordChar c = false)
    (h : StartsBlock previous (text ++ after)) : StartsBlock previous text := by
  cases after with
  | nil => rwa [List.append_nil] at h
  | cons d after =>
    have hd : isWordChar d = true := hafter d rfl
    obtain ⟨hprevious, kind, blank, inside, htext, hblank⟩ := h
    have hlast :=
      hend (List.cons_ne_nil d after) _ (List.getLast?_eq_some_getLast hne)
    -- The keyword ends inside the text, which does not end with a word.
    obtain ⟨tail, rfl, htail⟩ : ∃ tail, text = kind.keyword.toList ++ tail ∧
        blank ++ '{' :: inside = tail ++ d :: after := by
      rcases List.append_eq_append_iff.1 htext with
        ⟨others, hkeyword, -⟩ | ⟨tail, htext, htail⟩
      · have hmem : text.getLast hne ∈ kind.keyword.toList := by
          rw [hkeyword]
          exact List.mem_append_left _ (List.getLast_mem hne)
        cases hlast.symm.trans (isWordChar_of_mem_keyword hmem)
      · exact ⟨tail, htext, htail⟩
    -- So does the brace: what follows the text is a word.
    rcases List.append_eq_append_iff.1 htail with
      ⟨others, rfl, hbrace⟩ | ⟨others, rfl, hbrace⟩
    · cases others with
      | nil =>
        cases hbrace
        cases hd
      | cons e others =>
        cases hbrace
        exact ⟨hprevious, kind, blank, others, rfl, hblank⟩
    · cases others with
      | nil =>
        cases hbrace
        cases hd
      | cons e others =>
        cases hbrace
        have hblank := hblank d (List.mem_append_right _ List.mem_cons_self)
        cases hd.symm.trans (isWordChar_eq_false_of_isAsciiBlank hblank)

/-- A plain text that is in order by itself is one before any word that begins
after it. -/
theorem PlainAlone.plainBetween {plain after : List Char} (h : PlainAlone plain)
    (before : List Char) (hafter : StartsWord after)
    (hend : after ≠ [] → ∀ c ∈ plain.getLast?, isWordChar c = false) :
    PlainBetween before plain after := by
  have hreads := reads_lexemes .sql plain
  have hsource : sourceOf (lexemes .sql plain) = plain :=
    flatMap_text_lexemes .sql plain
  refine ⟨lexemes .sql plain, ?_, ?_⟩
  · have halone : Reads .sql (sourceOf (lexemes .sql plain) ++ [])
        (lexemes .sql plain) [] := by
      rw [List.append_nil, hsource]
      exact hreads
    have hplace := halone.boundary inert_nil hafter.inert (.inr h.ends_outside)
    rwa [hsource] at hplace
  · intro read c unread hsplit hstarts
    have hplain : sourceOf read ++ c :: sourceOf unread = plain := by
      rw [← hsource, hsplit, sourceOf, sourceOf, sourceOf, List.flatMap_append]
      rfl
    have hlast : after ≠ [] →
        ∀ d ∈ (c :: sourceOf unread).getLast?, isWordChar d = false := by
      intro hne d hd
      apply hend hne
      rw [← hplain, List.getLast?_append, Option.mem_def, Option.mem_def.1 hd]
      rfl
    obtain ⟨hword, hhead⟩ :=
      hstarts.of_append (List.cons_ne_nil _ _) hafter hlast
    refine h.starts_nothing read c unread hsplit ⟨?_, hhead⟩
    intro d hd
    apply hword
    rw [List.getLast?_append, Option.mem_def, Option.mem_def.1 hd]
    rfl

/-- A block that is in order by itself stands wherever no word goes on before
it. -/
theorem Block.ClosedAlone.stands {block : Block} (h : block.ClosedAlone)
    {before : List Char} (hbefore : ∀ c ∈ before.getLast?, isWordChar c = false)
    (after : List Char) : Stands before block after := by
  have hclosing : closing? block.kind.dialect 0 (block.content ++ ['}']) =
      some (block.content, []) :=
    @closing?_of_closingOffset? _ [] _ [] h.closed
  exact stands_of_closing? ⟨h.blank_ascii, hbefore,
    isWordChar_head_blank h.blank_ascii, block.kind.next?_keyword_append _⟩
    (closing?_boundary hclosing after)

theorem fitsFrom_of_alone {tail : List Char} {blocks : List (List Char × Block)}
    {before : List Char} (hbefore : ∀ c ∈ before.getLast?, isWordChar c = false)
    (hplain : ∀ part ∈ blocks, PlainAlone part.1) (htail : PlainAlone tail)
    (hclosed : ∀ part ∈ blocks, part.2.ClosedAlone)
    (hword : ∀ part ∈ blocks, ∀ c ∈ part.1.getLast?, isWordChar c = false) :
    Partition.FitsFrom tail [] before blocks := by
  induction blocks generalizing before with
  | nil => exact htail.plainBetween before nofun nofun
  | cons part blocks ih =>
    obtain ⟨plain, block⟩ := part
    rw [List.forall_mem_cons] at hplain hclosed hword
    refine ⟨hplain.1.plainBetween before (block.startsWord_text_append _)
      fun _ => hword.1, hclosed.1.stands ?_ _, ih ?_ hplain.2 hclosed.2 hword.2⟩
    · intro c hc
      rw [List.getLast?_append] at hc
      cases hlast : plain.getLast? with
      | none =>
        rw [hlast, Option.none_or] at hc
        exact hbefore c hc
      | some d =>
        rw [hlast] at hc
        cases hc
        exact hword.1 _ hlast
    · intro c hc
      have hbrace : (before ++ (plain ++ block.text)).getLast? = some '}' := by
        simp [Block.text]
      cases hbrace.symm.trans hc
      decide

theorem Partition.InOrder.fits {p : Partition}
    (h : p.InOrder) : p.Fits [] [] := by
  have hplain : ∀ part ∈ p.blocks, PlainAlone part.1 := fun part hpart =>
    h.plain_alone _ (List.mem_append_left _ (List.mem_map_of_mem hpart))
  have htail : PlainAlone p.tail :=
    h.plain_alone _ (List.mem_append_right _ (List.mem_singleton.2 rfl))
  exact fitsFrom_of_alone nofun hplain htail h.closed_alone h.word_ended

/-- Extraction undoes assembly: pieces that are in order by themselves are found
again in the text that is put together from them. -/
theorem extractBlocks_assembled {p : Partition} (h : p.InOrder) :
    ∃ blocks, extractBlocks (String.ofList p.text) = .ok blocks ∧
      p.Yields blocks :=
  extractBlocks_of_fits h.fits h.config_once

/-- A plain text without a brace starts no block. -/
theorem plainAlone_of_brace_not_mem {plain : List Char} (hbrace : '{' ∉ plain)
    (hends : ∀ lexeme ∈ (lexemes .sql plain).getLast?, lexeme.Complete) :
    PlainAlone plain := by
  refine ⟨hends, ?_⟩
  rintro read c unread hsplit ⟨-, kind, blank, inside, htext, -⟩
  apply hbrace
  rw [← flatMap_text_lexemes .sql plain, hsplit, List.flatMap_append]
  apply List.mem_append_right
  change '{' ∈ c :: sourceOf unread
  rw [htext]
  simp

/-- Pieces that would open comments if they met, and braces in quotations. -/
def nearlyJoined : Partition :=
  ⟨[(['-'], ⟨.script, [' '], ['\'', '}', '\'']⟩),
    (['-', '\'', 'j', 's', '\'', '/'],
      ⟨.config, ['\n'], ['a', ':', '"', '{', '"']⟩),
    (['*', ';', '\n'], ⟨.preOperations, [], ['-', '-', '}', '\n']⟩)],
    ['*', '/']⟩

theorem extractBlocks_assembled_nearlyJoined :
    nearlyJoined.InOrder ∧ nearlyJoined.body = "--'js'/*;\n*/".toList ∧
      ∃ blocks, extractBlocks (String.ofList nearlyJoined.text) = .ok blocks ∧
        nearlyJoined.Yields blocks := by
  have hplain : ∀ plain ∈ nearlyJoined.plains, '{' ∉ plain ∧
      ∀ lexeme ∈ (lexemes .sql plain).getLast?, lexeme.Complete := by
    decide +kernel
  have hinOrder : nearlyJoined.InOrder :=
    { plain_alone := fun plain h => plainAlone_of_brace_not_mem (hplain plain
      h).1 (hplain plain h).2
      closed_alone := by
        have hclosed : ∀ part ∈ nearlyJoined.blocks,
            part.2.blank.all Text.isAsciiBlank = true ∧
              closingOffset? part.2.kind.dialect (part.2.content ++ ['}']) 0 =
                some (Text.byteCount part.2.content) := by
          decide +kernel
        exact fun part h =>
          ⟨List.all_eq_true.1 (hclosed part h).1, (hclosed part h).2⟩
      word_ended := by
        have hended : ∀ part ∈ nearlyJoined.blocks,
            part.1.getLast?.all (fun c => !isWordChar c) = true := by
          decide
        intro part hpart c hc
        have hlast := hended part hpart
        rw [hc, Option.all_some, Bool.not_eq_true'] at hlast
        exact hlast
      config_once := by decide }
  exact ⟨hinOrder, by decide, extractBlocks_assembled hinOrder⟩

end Assembly

end SqlWorkflow.Sqlx
