import Mathlib.Order.Bounds.Defs
import Mathlib.Order.MinMax
import SqlWorkflow.Text.EditDistance

/-!
# Edit distance is the least number of edits

An edit inserts, deletes or replaces one member anywhere in a list. The least
number of edits between two lists obeys a recursion on their first members. The
rows obey the same recursion read from the other end: a row holds the distances
of one beginning to all beginnings of the other list, so it is about both lists
backwards. Turning two lists around changes nothing about the edits between
them, so the last entry of the last row is the least number. A suggestion is
then the first of the candidates that take the fewest edits.
-/

namespace SqlWorkflow.Text

variable {α : Type}

/-! ## Edits -/

/-- One list comes from another by inserting, deleting or replacing one
member. -/
inductive Edit : List α → List α → Prop
  | insert (before after : List α)
      (a : α) : Edit (before ++ after) (before ++ a :: after)
  | delete (before after : List α)
      (a : α) : Edit (before ++ a :: after) (before ++ after)
  | replace (before after : List α)
      (a b : α) : Edit (before ++ a :: after) (before ++ b :: after)

/-- One list comes from another by a number of edits, one after the other. -/
inductive Edits : Nat → List α → List α → Prop
  | nothing (as : List α) : Edits 0 as as
  | step {n : Nat} {as bs cs : List α} (first : Edit as bs)
      (rest : Edits n bs cs) : Edits (n + 1) as cs

theorem Edit.cons {as bs : List α} (h : Edit as bs)
    (c : α) : Edit (c :: as) (c :: bs) := by
  cases h with
  | insert before after a => exact .insert (c :: before) after a
  | delete before after a => exact .delete (c :: before) after a
  | replace before after a b => exact .replace (c :: before) after a b

/-- An edit of lists is an edit of the lists read backwards. -/
theorem Edit.reverse {as bs : List α}
    (h : Edit as bs) : Edit as.reverse bs.reverse := by
  cases h with
  | insert before after a =>
    simpa using Edit.insert after.reverse before.reverse a
  | delete before after a =>
    simpa using Edit.delete after.reverse before.reverse a
  | replace before after a b =>
    simpa using Edit.replace after.reverse before.reverse a b

theorem Edits.cons {n : Nat} {as bs : List α} (h : Edits n as bs) (c : α) :
    Edits n (c :: as) (c :: bs) := by
  induction h with
  | nothing as => exact .nothing (c :: as)
  | step first _ ih => exact .step (first.cons c) ih

theorem Edits.reverse {n : Nat} {as bs : List α} (h : Edits n as bs) :
    Edits n as.reverse bs.reverse := by
  induction h with
  | nothing as => exact .nothing as.reverse
  | step first _ ih => exact .step first.reverse ih

theorem edits_reverse_iff {n : Nat} {as bs : List α} :
    Edits n as.reverse bs.reverse ↔ Edits n as bs := by
  constructor
  · intro h
    simpa only [List.reverse_reverse] using h.reverse
  · exact Edits.reverse

theorem edits_nil_left (bs : List α) : Edits bs.length [] bs := by
  induction bs with
  | nil => exact .nothing []
  | cons b bs ih => exact .step (.insert [] [] b) (ih.cons b)

theorem edits_nil_right (as : List α) : Edits as.length as [] := by
  induction as with
  | nil => exact .nothing []
  | cons a as ih => exact .step (.delete [] as a) ih

/-! ## The recursion -/

variable [DecidableEq α]

/-- What it costs to put one member in the place of another. -/
def exchange (a b : α) : Nat := if a = b then 0 else 1

theorem exchange_le_one (a b : α) : exchange a b ≤ 1 := by
  rw [exchange]
  split <;> omega

/-- The least number of edits, by what becomes of the first members. -/
def distance : List α → List α → Nat
  | [], bs => bs.length
  | a :: as, [] => as.length + 1
  | a :: as, b :: bs =>
    min (min (distance as (b :: bs) + 1) (distance (a :: as) bs + 1))
      (distance as bs + exchange a b)

@[simp] theorem distance_nil_left (bs : List α) :
    distance [] bs = bs.length := by
  rw [distance]

@[simp] theorem distance_nil_right (as : List α) :
    distance as [] = as.length := by
  cases as with
  | nil => exact distance_nil_left []
  | cons a as => rw [distance, List.length_cons]

theorem distance_cons_cons (a b : α) (as bs : List α) :
    distance (a :: as) (b :: bs) =
      min (min (distance as (b :: bs) + 1) (distance (a :: as) bs + 1))
        (distance as bs + exchange a b) := by
  rw [distance]

@[simp] theorem distance_self (as : List α) : distance as as = 0 := by
  induction as with
  | nil => exact distance_nil_left []
  | cons a as ih =>
    rw [distance_cons_cons, ih, exchange, if_pos rfl]
    omega

/-- The distance is reached: each alternative of the recursion is one edit more,
or none if the first members agree. -/
theorem edits_distance (as bs : List α) : Edits (distance as bs) as bs := by
  fun_induction distance as bs with
  | case1 bs => exact edits_nil_left bs
  | case2 a as => exact edits_nil_right (a :: as)
  | case3 a as b bs ihdelete ihinsert ihexchange =>
    have hdelete : Edits (distance as (b :: bs) + 1) (a :: as) (b :: bs) :=
      .step (.delete [] as a) ihdelete
    have hinsert : Edits (distance (a :: as) bs + 1) (a :: as) (b :: bs) :=
      .step (.insert [] (a :: as) b) (ihinsert.cons b)
    have hexchange :
        Edits (distance as bs + exchange a b) (a :: as) (b :: bs) := by
      by_cases hsame : a = b
      · subst hsame
        rw [exchange, if_pos rfl]
        exact ihexchange.cons a
      · rw [exchange, if_neg hsame]
        exact .step (.replace [] as a b) (ihexchange.cons b)
    rcases min_choice (min (distance as (b :: bs) + 1)
      (distance (a :: as) bs + 1)) (distance as bs + exchange a b) with h | h
    · rw [h]
      rcases min_choice (distance as (b :: bs) + 1) (distance (a :: as) bs + 1)
        with h | h
      · rwa [h]
      · rwa [h]
    · rwa [h]

/-! ## One edit changes the distance by one at most -/

theorem distance_le_cons_right (as : List α) (c : α) (cs : List α) :
    distance as (c :: cs) ≤ distance as cs + 1 := by
  cases as with
  | nil => simp
  | cons a as =>
    rw [distance_cons_cons]
    omega

theorem distance_cons_left_le (a : α)
    (as cs : List α) : distance (a :: as) cs ≤ distance as cs + 1 := by
  cases cs with
  | nil => simp
  | cons c cs =>
    rw [distance_cons_cons]
    omega

theorem distance_le_cons_left (a : α)
    (as cs : List α) : distance as cs ≤ distance (a :: as) cs + 1 := by
  induction cs with
  | nil =>
    simp only [distance_nil_right, List.length_cons]
    omega
  | cons c cs ih =>
    have hlonger := distance_le_cons_right as c cs
    rw [distance_cons_cons]
    omega

theorem distance_cons_le_cons (a b : α) (as cs : List α) :
    distance (a :: as) cs ≤ distance (b :: as) cs + 1 := by
  induction cs with
  | nil => simp
  | cons c cs ih =>
    have hcost := exchange_le_one a c
    rw [distance_cons_cons, distance_cons_cons]
    omega

/-- What holds of two lists holds of them with the same member put in front. -/
theorem distance_cons_le_of_le {as bs : List α}
    (h : ∀ cs, distance as cs ≤ distance bs cs + 1) (a : α)
    (cs : List α) : distance (a :: as) cs ≤ distance (a :: bs) cs + 1 := by
  induction cs with
  | nil => simpa using h []
  | cons c cs ih =>
    have hwhole := h (c :: cs)
    have hrest := h cs
    rw [distance_cons_cons, distance_cons_cons]
    omega

theorem distance_append_le_of_le {as bs : List α}
    (h : ∀ cs, distance as cs ≤ distance bs cs + 1) (before cs : List α) :
    distance (before ++ as) cs ≤ distance (before ++ bs) cs + 1 := by
  induction before generalizing cs with
  | nil => exact h cs
  | cons a before ih => exact distance_cons_le_of_le ih a cs

theorem distance_le_of_edit {as bs : List α} (h : Edit as bs) (cs : List α) :
    distance as cs ≤ distance bs cs + 1 := by
  cases h with
  | insert before after a =>
    exact distance_append_le_of_le (distance_le_cons_left a after) before cs
  | delete before after a =>
    exact distance_append_le_of_le (distance_cons_left_le a after) before cs
  | replace before after a b =>
    exact distance_append_le_of_le (distance_cons_le_cons a b after) before cs

theorem distance_le_of_edits {n : Nat} {as bs : List α}
    (h : Edits n as bs) : distance as bs ≤ n := by
  induction h with
  | nothing as => exact Nat.le_of_eq (distance_self as)
  | @step _ _ _ cs first _ ih =>
    have hfirst := distance_le_of_edit first cs
    omega

/-- The recursion computes the least number of edits. -/
theorem isLeast_distance (as bs : List α) :
    IsLeast {n | Edits n as bs} (distance as bs) :=
  ⟨edits_distance as bs, fun _ h => distance_le_of_edits h⟩

/-! ## The rows -/

/-- The distances of a list to the longer and longer lists that come from
another by putting more members in front of it. -/
def distances (as front : List α) : List α → List Nat
  | [] => []
  | b :: bs => distance as (b :: front) :: distances as (b :: front) bs

/-- A row for one more member is computed from the row above it. -/
theorem rowTail_distances (a : α) (as front bs : List α) :
    rowTail a (distance (a :: as) front) (distance as front) bs
      (distances as front bs) =
      distances (a :: as) front bs := by
  induction bs generalizing front with
  | nil => rfl
  | cons b bs ih =>
    have hentry :
        min (min (distance as (b :: front) + 1) (distance (a :: as) front + 1))
          (distance as front + if a = b then 0 else 1) =
          distance (a :: as) (b :: front) :=
      (distance_cons_cons a b as front).symm
    rw [distances, rowTail, hentry, ih, distances]

theorem nextRow_distances (a : α) (as bs : List α) :
    nextRow a bs (as.length :: distances as [] bs) =
      (a :: as).length :: distances (a :: as) [] bs := by
  have htail := rowTail_distances a as [] bs
  rw [distance_nil_right, distance_nil_right] at htail
  rw [nextRow]
  exact congrArg _ htail

theorem distances_nil (front bs : List α) :
    distances [] front bs = List.range' (front.length + 1) bs.length := by
  induction bs generalizing front with
  | nil => rfl
  | cons b bs ih =>
    rw [distances, ih, distance_nil_left, List.length_cons, List.length_cons,
      List.range'_succ]

/-- The row for a list holds the distances of the list read backwards. -/
theorem foldl_nextRow (done as bs : List α) :
    as.foldl (fun row a => nextRow a bs row)
      (done.length :: distances done [] bs) =
      (as.reverse ++ done).length :: distances (as.reverse ++ done) [] bs := by
  induction as generalizing done with
  | nil => rfl
  | cons a as ih =>
    rw [List.foldl_cons, nextRow_distances, ih, List.reverse_cons,
      List.append_assoc, List.singleton_append]

theorem getLastD_distances (as front bs : List α) :
    (distances as front bs).getLastD (distance as front) =
      distance as (bs.reverse ++ front) := by
  induction bs generalizing front with
  | nil => rfl
  | cons b bs ih =>
    rw [distances, List.getLastD_cons, ih, List.reverse_cons, List.append_assoc,
      List.singleton_append]

theorem editDistance_eq (as bs : List α) :
    editDistance as bs = distance as.reverse bs.reverse := by
  have hfirst : List.range (bs.length + 1) =
      ([] : List α).length :: distances [] [] bs := by
    rw [distances_nil, List.range_eq_range', List.range'_succ]
    rfl
  have hlast := getLastD_distances as.reverse [] bs
  rw [distance_nil_right, List.append_nil] at hlast
  rw [editDistance, hfirst, foldl_nextRow, List.append_nil,
    List.getLastD_cons, hlast]

/-- The distance that the rows compute is the least number of edits. -/
theorem isLeast_editDistance (as bs : List α) :
    IsLeast {n | Edits n as bs} (editDistance as bs) := by
  have hleast := isLeast_distance as.reverse bs.reverse
  simp only [edits_reverse_iff] at hleast
  rwa [editDistance_eq]

/-! ## Suggestions -/

/-- A member of a list has the least value of all, and those before it have
greater ones. -/
def FirstLeast {β : Type} (value : β → Nat) (members : List β) (b : β) : Prop :=
  ∃ before after, members = before ++ b :: after ∧
    (∀ c ∈ before, value b < value c) ∧ ∀ c ∈ after, value b ≤ value c

section

variable {β : Type} {value : β → Nat} {first b : β} {rest : List β}

theorem FirstLeast.mem (h : FirstLeast value rest b) : b ∈ rest := by
  obtain ⟨before, after, rfl, -⟩ := h
  exact List.mem_append_right before List.mem_cons_self

theorem FirstLeast.le (h : FirstLeast value rest b) {c : β}
    (hc : c ∈ rest) : value b ≤ value c := by
  obtain ⟨before, after, rfl, hbefore, hafter⟩ := h
  rcases List.mem_append.1 hc with hc | hc
  · exact Nat.le_of_lt (hbefore c hc)
  · rcases List.mem_cons.1 hc with rfl | hc
    · exact Nat.le_refl _
    · exact hafter c hc

theorem firstLeast_cons_self (h : ∀ c ∈ rest, value first ≤ value c) :
    FirstLeast value (first :: rest) first :=
  ⟨[], rest, rfl, nofun, h⟩

theorem FirstLeast.cons (h : FirstLeast value rest b)
    (hlt : value b < value first) : FirstLeast value (first :: rest) b := by
  obtain ⟨before, after, rfl, hbefore, hafter⟩ := h
  exact ⟨first :: before, after, rfl,
    List.forall_mem_cons.2 ⟨hlt, hbefore⟩, hafter⟩

/-- There is no more than one such member. -/
theorem FirstLeast.eq (h : FirstLeast value rest b)
    (hfirst : FirstLeast value rest first) : b = first := by
  have hle : value b ≤ value first := h.le hfirst.mem
  have hge : value first ≤ value b := hfirst.le h.mem
  obtain ⟨before, after, rfl, hbefore, -⟩ := h
  obtain ⟨before', after', hsplit, hbefore', -⟩ := hfirst
  -- If one stood before the other, its value would be greater.
  rcases List.append_eq_append_iff.1 hsplit with
    ⟨between, rfl, hrest⟩ | ⟨between, rfl, hrest⟩
  · cases between with
    | nil => exact (List.cons.inj hrest).1
    | cons c others =>
      obtain ⟨rfl, -⟩ := List.cons.inj hrest
      exact absurd (hbefore' b
        (List.mem_append_right before List.mem_cons_self)) (Nat.not_lt.2 hle)
  · cases between with
    | nil => exact (List.cons.inj hrest).1.symm
    | cons c others =>
      obtain ⟨rfl, -⟩ := List.cons.inj hrest
      exact absurd (hbefore first
        (List.mem_append_right before' List.mem_cons_self)) (Nat.not_lt.2 hge)

end

/-- The nearest candidate is the first one of least distance. -/
theorem nearest?_eq (unknown : String) (candidates : List String) :
    (candidates = [] ∧ nearest? unknown candidates = none) ∨ ∃ c,
      FirstLeast (fun c => editDistance (bytes unknown) (bytes c)) candidates
        c ∧
        nearest? unknown candidates =
          some (c, editDistance (bytes unknown) (bytes c)) := by
  induction candidates with
  | nil => exact .inl ⟨rfl, rfl⟩
  | cons c cs ih =>
    right
    rcases ih with ⟨rfl, -⟩ | ⟨best, hbest, hnearest⟩
    · exact ⟨c, firstLeast_cons_self nofun, rfl⟩
    · rw [nearest?, hnearest]
      dsimp only
      split
      · rename_i hlt
        exact ⟨best, hbest.cons hlt, rfl⟩
      · rename_i hle
        refine ⟨c, firstLeast_cons_self fun other hother => ?_, rfl⟩
        exact Nat.le_trans (Nat.not_lt.1 hle) (hbest.le hother)

/-- The distance of two words is the least number of edits of bytes that turn
one into the other, and the candidate that is suggested is the first one of
least distance, if that is two at most. -/
theorem suggestion_nearest :
    (∀ as bs : List UInt8, IsLeast {n | Edits n as bs} (editDistance as bs)) ∧
      ∀ (unknown : String) (candidates : List String),
        (∀ c, suggestion? unknown candidates = some c ↔
          FirstLeast (fun c => editDistance (bytes unknown) (bytes c))
            candidates c ∧ editDistance (bytes unknown) (bytes c) ≤ 2) ∧
          (suggestion? unknown candidates = none ↔
            ∀ c ∈ candidates, 2 < editDistance (bytes unknown) (bytes c)) := by
  refine ⟨isLeast_editDistance, fun unknown candidates => ?_⟩
  rcases nearest?_eq unknown candidates with
    ⟨rfl, hnearest⟩ | ⟨best, hbest, hnearest⟩
  · -- Without candidates there is nothing to suggest.
    rw [suggestion?, hnearest]
    refine ⟨fun c => iff_of_false nofun ?_, iff_of_true rfl nofun⟩
    rintro ⟨hfirst, -⟩
    cases hfirst.mem
  · have hsuggestion : suggestion? unknown candidates =
        if editDistance (bytes unknown) (bytes best) ≤ 2 then some best
        else none := by
      rw [suggestion?, hnearest]
      rfl
    rw [hsuggestion]
    split
    · rename_i hnear
      refine ⟨fun c => ⟨?_, ?_⟩, iff_of_false nofun ?_⟩
      · rintro ⟨⟩
        exact ⟨hbest, hnear⟩
      · rintro ⟨hfirst, -⟩
        rw [hbest.eq hfirst]
      · intro hfar
        exact absurd (hfar best hbest.mem) (Nat.not_lt.2 hnear)
    · rename_i hfar
      refine ⟨fun c => iff_of_false nofun ?_, iff_of_true rfl ?_⟩
      · rintro ⟨hfirst, hdistance⟩
        rw [hfirst.eq hbest] at hdistance
        exact hfar hdistance
      · intro c hc
        exact Nat.lt_of_lt_of_le (Nat.not_le.1 hfar) (hbest.le hc)

end SqlWorkflow.Text
