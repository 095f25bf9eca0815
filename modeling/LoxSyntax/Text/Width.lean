/-!
Widths in bytes. A character of a text takes one to four bytes, and an offset counts the bytes
before a place in it. Only the offsets between two characters are places; main statements say that
cutting a text at the width of its first part gives the parts back.
-/

namespace LoxSyntax.Text

def width : List Char → Nat
  | [] => 0
  | c :: cs => c.utf8Size + width cs

/-- Whether the offset lies before a character of the text or at its end. -/
def isPlace : Nat → List Char → Bool
  | 0, _ => true
  | _ + 1, [] => false
  | n + 1, c :: cs => c.utf8Size ≤ n + 1 && isPlace (n + 1 - c.utf8Size) cs

/-- The whole characters within the first `n` bytes. -/
def takeBytes : Nat → List Char → List Char
  | _, [] => []
  | n, c :: cs => if c.utf8Size ≤ n then c :: takeBytes (n - c.utf8Size) cs else []

/-- What follows the whole characters within the first `n` bytes. -/
def dropBytes : Nat → List Char → List Char
  | _, [] => []
  | n, c :: cs => if c.utf8Size ≤ n then dropBytes (n - c.utf8Size) cs else c :: cs

/-- The number of characters that begin within the first `n` bytes. -/
def countWithin : Nat → List Char → Nat
  | 0, _ => 0
  | _ + 1, [] => 0
  | n + 1, c :: cs => countWithin (n + 1 - c.utf8Size) cs + 1

def slice (start stop : Nat) (cs : List Char) : List Char :=
  takeBytes (stop - start) (dropBytes start cs)

/-- The text between two offsets, if they are places of the text in order. -/
def slice? (start stop : Nat) (cs : List Char) : Option (List Char) :=
  if start ≤ stop && isPlace start cs && isPlace stop cs then some (slice start stop cs) else none

@[simp] theorem width_nil : width [] = 0 := rfl

@[simp] theorem width_cons (c : Char) (cs : List Char) :
    width (c :: cs) = c.utf8Size + width cs := rfl

@[simp] theorem width_append (cs ds : List Char) : width (cs ++ ds) = width cs + width ds := by
  induction cs with
  | nil => simp
  | cons c cs ih => simp [ih, Nat.add_assoc]

theorem width_replicate (n : Nat) (c : Char) : width (List.replicate n c) = n * c.utf8Size := by
  induction n with
  | zero => rw [List.replicate_zero, width_nil, Nat.zero_mul]
  | succ n ih => rw [List.replicate_succ, width_cons, ih, Nat.succ_mul, Nat.add_comm]

theorem width_eq_zero_iff {cs : List Char} : width cs = 0 ↔ cs = [] := by
  cases cs with
  | nil => simp
  | cons c cs => simp [Nat.ne_of_gt c.utf8Size_pos]

theorem width_pos {cs : List Char} (h : cs ≠ []) : 0 < width cs :=
  Nat.pos_of_ne_zero (mt width_eq_zero_iff.1 h)

@[simp] theorem takeBytes_zero (cs : List Char) : takeBytes 0 cs = [] := by
  cases cs with
  | nil => rfl
  | cons c cs => simp [takeBytes, Nat.not_le.2 c.utf8Size_pos]

@[simp] theorem dropBytes_zero (cs : List Char) : dropBytes 0 cs = cs := by
  cases cs with
  | nil => rfl
  | cons c cs => simp [dropBytes, Nat.not_le.2 c.utf8Size_pos]

theorem isPrefix_takeBytes (n : Nat) (cs : List Char) : takeBytes n cs <+: cs := by
  induction cs generalizing n with
  | nil => exact List.prefix_refl []
  | cons c cs ih =>
      rw [takeBytes]
      split
      · exact List.cons_prefix_cons.2 ⟨rfl, ih _⟩
      · exact List.nil_prefix

theorem takeBytes_append_width (cs ds : List Char) : takeBytes (width cs) (cs ++ ds) = cs := by
  induction cs with
  | nil => simp
  | cons c cs ih => simp [takeBytes, ih]

theorem dropBytes_append_width (cs ds : List Char) : dropBytes (width cs) (cs ++ ds) = ds := by
  induction cs with
  | nil => simp
  | cons c cs ih => simp [dropBytes, ih]

theorem countWithin_append_width (cs ds : List Char) :
    countWithin (width cs) (cs ++ ds) = cs.length := by
  induction cs with
  | nil => simp [countWithin]
  | cons c cs ih =>
      obtain ⟨n, hn⟩ := Nat.exists_eq_add_one.2 (width_pos (List.cons_ne_nil c cs))
      have hrest : n + 1 - c.utf8Size = width cs := by
        rw [← hn, width_cons, Nat.add_sub_cancel_left]
      rw [hn, List.cons_append, countWithin, hrest, ih, List.length_cons]

theorem slice_append (before text after : List Char) :
    slice (width before) (width before + width text) (before ++ text ++ after) = text := by
  simp only [slice, List.append_assoc, dropBytes_append_width, Nat.add_sub_cancel_left,
    takeBytes_append_width]

theorem isPlace_iff (n : Nat) (cs : List Char) :
    isPlace n cs = true ↔ ∃ before after, cs = before ++ after ∧ n = width before := by
  induction cs generalizing n with
  | nil =>
      cases n with
      | zero => simp [isPlace]
      | succ n => simp [isPlace]
  | cons c cs ih =>
      cases n with
      | zero =>
          simp only [isPlace, true_iff]
          exact ⟨[], c :: cs, rfl, rfl⟩
      | succ n =>
          simp only [isPlace, Bool.and_eq_true, decide_eq_true_eq, ih]
          constructor
          · rintro ⟨hle, before, after, rfl, hw⟩
            exact ⟨c :: before, after, rfl, by simp; omega⟩
          · rintro ⟨before, after, hcs, hw⟩
            cases before with
            | nil => simp at hw
            | cons d before =>
                simp only [List.cons_append, List.cons.injEq] at hcs
                obtain ⟨rfl, rfl⟩ := hcs
                simp only [width_cons] at hw
                exact ⟨by omega, before, after, rfl, by omega⟩

theorem isPlace_width (before after : List Char) :
    isPlace (width before) (before ++ after) = true :=
  (isPlace_iff _ _).2 ⟨before, after, rfl, rfl⟩

/-- A part of a text begins and ends at places. -/
theorem isPlace_ends (before text after : List Char) :
    isPlace (width before) (before ++ text ++ after) = true ∧
      isPlace (width before + width text) (before ++ text ++ after) = true := by
  constructor
  · rw [List.append_assoc]
    exact isPlace_width before (text ++ after)
  · rw [← width_append]
    exact isPlace_width (before ++ text) after

theorem slice?_append (before text after : List Char) :
    slice? (width before) (width before + width text) (before ++ text ++ after) = some text := by
  obtain ⟨hstart, hstop⟩ := isPlace_ends before text after
  simp only [slice?, Nat.le_add_right, decide_true, hstart, hstop, Bool.and_self, if_true,
    slice_append]

end LoxSyntax.Text
