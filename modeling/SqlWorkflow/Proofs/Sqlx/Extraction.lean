import SqlWorkflow.Proofs.Sqlx.Partition

/-!
# Extraction cuts a file exactly

Extraction either cuts a file into a partition that fits it, or stops at a block
for which there is a reason to stop. The extraction restarts the scan after
every block, so the induction carries the text that was passed before the
restart: its last character decides whether a keyword may begin, and its size
where the next brace is looked for.
-/

namespace SqlWorkflow.Sqlx

open Lexical

/-- What cutting the text after `before` comes to, if `configured` tells whether
a `config` block stands in `before`. -/
inductive Extracts (before : List Char) (configured : Bool) (text : List Char) :
    Except ExtractError (List Piece) → Prop
  | cut (p : Partition) (ps : List Piece) (text_eq : p.text = text)
      (fits : p.Fits before []) (body_eq : p.body = ps.flatMap Piece.body)
      (contents_eq : ∀ kind, p.contents kind =
        ps.filterMap (Piece.contentOf? kind))
      (once : (p.contents .config).length + configured.toNat ≤ 1) :
      Extracts before configured text (.ok ps)
  | unclosed (p : Partition) (kind : BlockKind) (blank inside : List Char)
      (text_eq : p.text ++ (kind.keyword.toList ++ (blank ++ '{' :: inside)) =
        text)
      (fits : p.Fits before (kind.keyword.toList ++ (blank ++ '{' :: inside)))
      (opens : Opens (before ++ p.text) kind blank inside)
      (unclosed : closing? kind.dialect 0 inside = none) :
      Extracts before configured text
        (.error (.unclosedBlock kind (Text.lineFeeds (before ++ p.text) + 1)))
  | duplicate (p : Partition) (b : Block) (after : List Char)
      (kind_eq : b.kind = .config)
      (text_eq : p.text ++ (b.text ++ after) = text)
      (fits : p.Fits before (b.text ++ after))
      (stands : Stands (before ++ p.text) b after)
      (second : (p.contents .config).length + configured.toNat = 1) :
      Extracts before configured text
        (.error (.duplicateConfig (Text.lineFeeds (before ++ p.text) + 1)))

/-- A cut of the rest is one of the whole when the lexeme before it starts no
block. -/
theorem Extracts.plain {before text rest : List Char} {configured : Bool}
    {lexeme : Lexeme} {result : Except ExtractError (List Piece)}
    (hnext : next? .sql text = some (lexeme, rest))
    (hstart : ¬ StartsBlock before.getLast? text)
    (h : Extracts (before ++ lexeme.text) configured rest result) :
    Extracts before configured text (result.map (.plain lexeme.text :: ·)) := by
  obtain rfl : lexeme.text ++ rest = text := next?_append hnext
  cases h with
  | cut p ps text_eq fits body_eq contents_eq once =>
    refine .cut (p.prepend lexeme.text) _ ?_ ?_ ?_ ?_ ?_
    · rw [Partition.text_prepend, text_eq]
    · rw [← text_eq, ← List.append_nil p.text] at hnext hstart
      exact fits.prepend hnext hstart
    · rw [Partition.body_prepend, body_eq]
      rfl
    · intro kind
      rw [Partition.contents_prepend, contents_eq]
      rfl
    · rw [Partition.contents_prepend]
      exact once
  | unclosed p kind blank inside text_eq fits opens unclosed =>
    have hpassed : before ++ lexeme.text ++ p.text =
        before ++ (p.prepend lexeme.text).text := by
      simp
    rw [hpassed] at opens ⊢
    rw [← text_eq] at hnext hstart
    exact .unclosed (p.prepend lexeme.text) kind blank inside
      (by simp [text_eq]) (fits.prepend hnext hstart) opens unclosed
  | duplicate p b after kind_eq text_eq fits stands second =>
    have hpassed : before ++ lexeme.text ++ p.text =
        before ++ (p.prepend lexeme.text).text := by
      simp
    rw [hpassed] at stands ⊢
    rw [← text_eq] at hnext hstart
    exact .duplicate (p.prepend lexeme.text) b after kind_eq (by simp [text_eq])
      (fits.prepend hnext hstart) stands (by simpa using second)

/-- A cut of the rest is one of the whole when a block stands before it, and
this is no second `config` block. -/
theorem Extracts.block {before after : List Char} {configured : Bool}
    {b : Block} {result : Except ExtractError (List Piece)}
    (hstands : Stands before b after)
    (hfirst : ¬ (b.kind = .config ∧ configured = true))
    (h : Extracts (before ++ b.text)
      (configured || b.kind == .config) after result) :
    Extracts before configured (b.text ++ after)
      (result.map (.block b.kind b.blank b.content :: ·)) := by
  have hconfig : ∀ p : Partition,
      ((p.cons [] b).contents .config).length + configured.toNat =
        (p.contents .config).length +
          (configured || b.kind == .config).toNat := by
    intro p
    rw [Partition.contents_cons]
    by_cases hkind : b.kind = .config
    · have hnot : configured = false := by simpa [hkind] using hfirst
      simp [hkind, hnot]
    · rw [if_neg hkind, beq_eq_false_iff_ne.2 hkind, Bool.or_false,
        List.nil_append]
  cases h with
  | cut p ps text_eq fits body_eq contents_eq once =>
    refine .cut (p.cons [] b) _ ?_ ?_ ?_ ?_ ?_
    · rw [Partition.text_cons, text_eq, List.nil_append]
    · rw [← text_eq, ← List.append_nil p.text] at hstands
      exact fits.cons hstands
    · rw [Partition.body_cons, body_eq]
      rfl
    · intro kind
      rw [Partition.contents_cons, contents_eq]
      by_cases hkind : b.kind = kind <;> simp [Piece.contentOf?, hkind]
    · rw [hconfig]
      exact once
  | unclosed p kind blank inside text_eq fits opens unclosed =>
    have hpassed : before ++ b.text ++ p.text =
        before ++ (p.cons [] b).text := by simp
    rw [hpassed] at opens ⊢
    rw [← text_eq] at hstands
    exact .unclosed (p.cons [] b) kind blank inside (by simp [text_eq])
      (fits.cons hstands) opens unclosed
  | duplicate p b' after kind_eq text_eq fits stands second =>
    have hpassed : before ++ b.text ++ p.text =
        before ++ (p.cons [] b).text := by simp
    rw [hpassed] at stands ⊢
    rw [← text_eq] at hstands
    exact .duplicate (p.cons [] b) b' after kind_eq (by simp [text_eq])
      (fits.cons hstands) stands ((hconfig p).trans second)

theorem BlockKind.next?_keyword_append (kind : BlockKind) (rest : List Char) :
    ∃ c after, next? .sql (kind.keyword.toList ++ rest) =
      some (.code c, after) := by
  cases kind <;> exact ⟨_, _, next?_eq_code rfl⟩

theorem opens_of_blockHead? {before text blank inside : List Char}
    {kind : BlockKind}
    (h : blockHead? before.getLast? text = some (kind, blank, inside)) :
    Opens before kind blank inside := by
  obtain ⟨hword, _, hblank⟩ := blockHead?_eq_some_iff.1 h
  exact ⟨hblank, hword, isWordChar_head_blank hblank,
    kind.next?_keyword_append _⟩

theorem stands_of_closing? {before content after : List Char} {kind : BlockKind}
    {blank : List Char}
    (hopens : Opens before kind blank (content ++ '}' :: after))
    (hclosing : closing? kind.dialect 0 (content ++ '}' :: after) =
      some (content, after)) :
    Stands before ⟨kind, blank, content⟩ after := by
  refine ⟨hopens, ?_⟩
  have h := closingOffset?_of_closing?
    (before ++ (Block.mk kind blank content).head) hclosing
  simpa [Block.text] using h

/-- Cutting a text finds a partition that fits, or a reason to stop. The text
`before` is what was passed when the scan reached this text. -/
theorem extracts_pieces {previous : Option Char} {line : Nat}
    {configured : Bool} {before text : List Char}
    (hprevious : previous = before.getLast?)
    (hline : line = Text.lineFeeds before + 1) :
    Extracts before configured text (pieces previous line configured text) := by
  fun_induction pieces previous line configured text generalizing before with
  | case1 previous line configured text hnext =>
    obtain rfl : text = [] := next?_eq_none_iff.1 hnext
    refine .cut (.whole []) [] rfl (.nil before []) rfl (fun _ => rfl) ?_
    cases configured <;> decide
  | case2 previous line configured text lexeme rest hnext kind blank inside
    hhead hclosing =>
    subst hprevious hline
    have hopens := opens_of_blockHead? hhead
    have htext := (blockHead?_eq_some_iff.1 hhead).2.1
    have h : Extracts before configured text (.error (.unclosedBlock kind
        (Text.lineFeeds (before ++ (Partition.whole []).text) + 1))) :=
      .unclosed (.whole []) kind blank inside htext.symm (.nil before _)
        (by simpa using hopens) hclosing
    simpa using h
  | case3 previous line configured text lexeme rest hnext kind blank inside
      hhead content after hclosing hsecond =>
    subst hprevious hline
    obtain rfl : content ++ '}' :: after = inside := closing?_append hclosing
    have htext := (blockHead?_eq_some_iff.1 hhead).2.1
    have hstands := stands_of_closing? (opens_of_blockHead? hhead) hclosing
    have h : Extracts before configured text (.error (.duplicateConfig
        (Text.lineFeeds (before ++ (Partition.whole []).text) + 1))) :=
      .duplicate (.whole []) ⟨kind, blank, content⟩ after hsecond.1
        ((Block.text_append _ _).trans htext.symm) (.nil before _)
        (by simpa using hstands) (by simp [hsecond.2])
    simpa using h
  | case4 previous line configured text lexeme rest hnext kind blank inside
      hhead content after hclosing hfirst piece =>
    rename_i ih
    subst hprevious hline
    obtain rfl : content ++ '}' :: after = inside := closing?_append hclosing
    obtain rfl : text = (Block.mk kind blank content).text ++ after :=
      (blockHead?_eq_some_iff.1 hhead).2.1.trans
        (Block.text_append ⟨kind, blank, content⟩ _).symm
    have hpiece : piece.text = (Block.mk kind blank content).text := by
      simp [piece, Piece.text, Block.text, Block.head]
    have hstands := stands_of_closing? (opens_of_blockHead? hhead) hclosing
    apply Extracts.block hstands hfirst
    apply ih
    · simp [Block.text]
    · rw [Text.lineFeeds_append, ← hpiece]
      omega
  | case5 previous line configured text lexeme rest hnext hhead ih =>
    subst hprevious hline
    apply Extracts.plain hnext (blockHead?_eq_none_iff.1 hhead)
    apply ih
    · rw [List.getLast?_append, Option.or_of_isSome]
      exact List.getLast?_isSome.2 (text_ne_nil_of_next? hnext)
    · rw [Text.lineFeeds_append]
      omega

/-- Pieces that agree with a cut are sorted into the blocks of that cut. -/
theorem Partition.yields_ofPieces {p : Partition} {ps : List Piece}
    (hbody : p.body = ps.flatMap Piece.body)
    (hcontents : ∀ kind, p.contents kind = ps.filterMap (Piece.contentOf? kind))
    (honce : (p.contents .config).length ≤ 1) :
    p.Yields (Blocks.ofPieces ps) := by
  refine ⟨?_, ?_, ?_, ?_, ?_⟩
  · rw [hbody]
    rfl
  · change (ps.filterMap (Piece.contentOf? .config)).head?.toList = _
    rw [← hcontents]
    match p.contents .config, honce with
    | [], _ => rfl
    | [content], _ => rfl
  · rw [hcontents]
    simp only [Blocks.ofPieces, List.isEmpty_iff]
  · exact (hcontents .preOperations).symm
  · exact (hcontents .postOperations).symm

/-- Extraction is an exact cut of the file. It succeeds with the blocks of a
partition that fits the whole text; otherwise a partition fits the text up to a
keyword block that is never closed, or up to a second `config` block. -/
theorem extractBlocks_partition (text : String) :
    match extractBlocks text with
    | .ok blocks =>
      ∃ p : Partition, p.text = text.toList ∧ p.Fits [] [] ∧ p.Yields blocks
    | .error (.unclosedBlock kind line) =>
      ∃ (p : Partition) (blank inside : List Char),
        p.text ++ (kind.keyword.toList ++ (blank ++ '{' :: inside)) =
          text.toList ∧
          p.Fits [] (kind.keyword.toList ++ (blank ++ '{' :: inside)) ∧
          Opens p.text kind blank inside ∧
          closingOffset? kind.dialect text.toList (Text.byteCount (p.text ++
            (kind.keyword.toList ++ (blank ++ ['{'])))) = none ∧
          line = Text.lineOf text.toList (Text.byteCount p.text)
    | .error (.duplicateConfig line) =>
      ∃ (p : Partition) (block : Block) (after : List Char),
        p.text ++ (block.text ++ after) = text.toList ∧
          p.Fits [] (block.text ++ after) ∧ Stands p.text block after ∧
          block.kind = .config ∧ (p.contents .config).length = 1 ∧
          line = Text.lineOf text.toList (Text.byteCount p.text) := by
  have h : Extracts [] false text.toList (pieces none 1 false text.toList) :=
    extracts_pieces rfl rfl
  rw [extractBlocks]
  generalize pieces none 1 false text.toList = result at h
  cases h with
  | cut p ps text_eq fits body_eq contents_eq once =>
    exact ⟨p, text_eq, fits, Partition.yields_ofPieces body_eq contents_eq once⟩
  | unclosed p kind blank inside text_eq fits opens unclosed =>
    refine ⟨p, blank, inside, text_eq, fits, opens, ?_, ?_⟩
    · have hnone := closingOffset?_of_closing?_eq_none
        (p.text ++ (kind.keyword.toList ++ (blank ++ ['{']))) unclosed
      rw [← text_eq]
      simpa using hnone
    · rw [← text_eq, Text.lineOf, Text.takeBytes_byteCount_append]
      rfl
  | duplicate p b after kind_eq text_eq fits stands second =>
    refine ⟨p, b, after, text_eq, fits, stands, kind_eq, second, ?_⟩
    rw [← text_eq, Text.lineOf, Text.takeBytes_byteCount_append]
    rfl

end SqlWorkflow.Sqlx
