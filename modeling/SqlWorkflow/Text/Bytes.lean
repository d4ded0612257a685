/-!
# Byte counts and line numbers

Places in a text are reported as counts of UTF-8 bytes, and lines are numbered
from one. Both are sums over the characters before the place.
-/

namespace SqlWorkflow.Text

/-- The number of UTF-8 bytes that a text takes. -/
def byteCount : List Char → Nat
  | [] => 0
  | c :: cs => c.utf8Size + byteCount cs

@[simp] theorem byteCount_nil : byteCount [] = 0 := rfl

@[simp] theorem byteCount_cons (c : Char) (cs : List Char) :
    byteCount (c :: cs) = c.utf8Size + byteCount cs := rfl

@[simp] theorem byteCount_append (left right : List Char) :
    byteCount (left ++ right) = byteCount left + byteCount right := by
  induction left with
  | nil => simp
  | cons c cs ih => simp [ih, Nat.add_assoc]

theorem byteCount_pos {cs : List Char} (h : cs ≠ []) : 0 < byteCount cs := by
  cases cs with
  | nil => exact absurd rfl h
  | cons c rest =>
    have hpos := c.utf8Size_pos
    rw [byteCount_cons]
    omega

def lineFeeds (cs : List Char) : Nat :=
  cs.count '\n'

/-- The text from byte `offset` on; an offset inside a character counts as the
end of it. -/
def dropBytes : Nat → List Char → List Char
  | 0, cs => cs
  | _ + 1, [] => []
  | offset + 1, c :: cs => dropBytes (offset + 1 - c.utf8Size) cs
termination_by _ cs => cs.length

/-- The characters that lie wholly before byte `offset`. -/
def takeBytes : Nat → List Char → List Char
  | _, [] => []
  | offset, c :: cs =>
    if c.utf8Size ≤ offset then c :: takeBytes (offset - c.utf8Size) cs else []

/-- The line of the byte at `offset`, counted from one. -/
def lineOf (cs : List Char) (offset : Nat) : Nat :=
  lineFeeds (takeBytes offset cs) + 1

@[simp] theorem lineFeeds_append (left right : List Char) :
    lineFeeds (left ++ right) = lineFeeds left + lineFeeds right :=
  List.count_append

@[simp] theorem dropBytes_zero (cs : List Char) : dropBytes 0 cs = cs := by
  unfold dropBytes
  rfl

theorem dropBytes_cons {offset : Nat} {c : Char} {cs : List Char}
    (h : c.utf8Size ≤ offset) :
    dropBytes offset (c :: cs) = dropBytes (offset - c.utf8Size) cs := by
  have hpos : 0 < c.utf8Size := c.utf8Size_pos
  obtain ⟨n, rfl⟩ :=
    Nat.exists_eq_succ_of_ne_zero (Nat.ne_of_gt (Nat.lt_of_lt_of_le hpos h))
  rw [dropBytes]

/-- Dropping as many bytes as a beginning takes drops that beginning. -/
@[simp] theorem dropBytes_byteCount_append (left right : List Char) :
    dropBytes (byteCount left) (left ++ right) = right := by
  induction left with
  | nil => simp
  | cons c cs ih =>
    rw [List.cons_append, byteCount_cons, dropBytes_cons (Nat.le_add_right _ _),
      Nat.add_sub_cancel_left]
    exact ih

/-- Taking as many bytes as a beginning takes gives that beginning. -/
@[simp] theorem takeBytes_byteCount_append (left right : List Char) :
    takeBytes (byteCount left) (left ++ right) = left := by
  induction left with
  | nil =>
    cases right with
    | nil => rfl
    | cons c cs =>
      have hpos : 0 < c.utf8Size := c.utf8Size_pos
      rw [List.nil_append, byteCount_nil, takeBytes, if_neg (by omega)]
  | cons c cs ih =>
    rw [List.cons_append, byteCount_cons, takeBytes,
      if_pos (Nat.le_add_right _ _), Nat.add_sub_cancel_left, ih]

end SqlWorkflow.Text
