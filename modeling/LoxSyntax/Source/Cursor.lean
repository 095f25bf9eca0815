import LoxSyntax.Source.File

/-!
A cursor over the characters of a source file, with two characters of lookahead. It reads from the
characters that are left, which know their own byte indices, and keeps the offset behind the last
character it has moved over.
-/

namespace LoxSyntax.Source

open Text

/-- The characters of a text that are not read yet, and the byte index of the first of them. -/
structure Unread where
  ahead : List Char
  index : Nat
  deriving DecidableEq, Repr

/-- The first character with its index, and what is left behind it. -/
def Unread.next (unread : Unread) : Option (Nat × Char) × Unread :=
  match unread.ahead with
  | [] => (none, unread)
  | c :: cs => (some (unread.index, c), ⟨cs, unread.index + c.utf8Size⟩)

/-- A place in a file between two characters. -/
structure Cursor where
  file : File
  unread : Unread
  offset : Nat
  deriving DecidableEq, Repr

namespace Cursor

def start (file : File) : Cursor :=
  ⟨file, ⟨file.chars, 0⟩, 0⟩

def ahead (cursor : Cursor) : List Char :=
  cursor.unread.ahead

def peek? (cursor : Cursor) : Option Char :=
  cursor.unread.next.1.map Prod.snd

/-- The character after the next one. -/
def peekSecond? (cursor : Cursor) : Option Char :=
  cursor.unread.next.2.next.1.map Prod.snd

def isAtEnd (cursor : Cursor) : Bool :=
  cursor.file.size ≤ cursor.offset

/-- The next character with its index, and the cursor after it. At the end the cursor stays. -/
def next (cursor : Cursor) : Option (Nat × Char) × Cursor :=
  match cursor.unread.next with
  | (none, unread) => (none, { cursor with unread })
  | (some (index, c), unread) =>
      (some (index, c), { cursor with unread, offset := index + c.utf8Size })

/-- Moves over the next character if it is the expected one. -/
def nextIfEq (cursor : Cursor) (expected : Char) : Bool × Cursor :=
  if cursor.peek? = some expected then (true, cursor.next.2) else (false, cursor)

theorem ahead_next_of_cons {cursor : Cursor} {c : Char} {cs : List Char}
    (h : cursor.ahead = c :: cs) : cursor.next.2.ahead = cs := by
  obtain ⟨file, ⟨_, index⟩, offset⟩ := cursor
  obtain rfl : _ = c :: cs := h
  rfl

theorem length_ahead_next_lt {cursor : Cursor} {c : Char} {cs : List Char}
    (h : cursor.ahead = c :: cs) : cursor.next.2.ahead.length < cursor.ahead.length := by
  rw [ahead_next_of_cons h, h]
  exact Nat.lt_succ_self _

/-- Behind all that comes before what is ahead, a cursor is at the end if nothing is ahead. -/
theorem isAtEnd_iff {cursor : Cursor} {before : List Char}
    (hchars : cursor.file.chars = before ++ cursor.ahead) (hoffset : cursor.offset = width before) :
    cursor.isAtEnd = true ↔ cursor.ahead = [] := by
  have hsize : cursor.file.size = cursor.offset + width cursor.ahead := by
    rw [File.size, hchars, width_append, hoffset]
  rw [isAtEnd, decide_eq_true_iff, hsize, ← width_eq_zero_iff]
  omega

/-- Moves over the characters ahead as long as they satisfy the predicate. -/
def skipWhile (p : Char → Bool) (cursor : Cursor) : Cursor :=
  match h : cursor.ahead with
  | [] => cursor
  | c :: _ =>
      have : cursor.next.2.ahead.length < cursor.ahead.length := length_ahead_next_lt h
      if p c then skipWhile p cursor.next.2 else cursor
termination_by cursor.ahead.length

/-- What `next` gives, over and over up to the end, and the cursor there. -/
def drain (cursor : Cursor) : List (Nat × Char) × Cursor :=
  match h : cursor.ahead with
  | [] => ([], cursor)
  | _ :: _ =>
      have : cursor.next.2.ahead.length < cursor.ahead.length := length_ahead_next_lt h
      let (items, last) := drain cursor.next.2
      (cursor.next.1.toList ++ items, last)
termination_by cursor.ahead.length

/-- The characters ahead, and the cursor after all of them. -/
def rest (cursor : Cursor) : String × Cursor :=
  let (items, last) := cursor.drain
  (String.ofList (items.map Prod.snd), last)

/-- The cursor of a file whose offset is the index of the first character ahead. -/
def facing (file : File) (ahead : List Char) (offset : Nat) : Cursor :=
  ⟨file, ⟨ahead, offset⟩, offset⟩

section Facing

variable (file : File) (ahead : List Char) (offset : Nat)

@[simp] theorem file_facing : (facing file ahead offset).file = file := rfl

@[simp] theorem ahead_facing : (facing file ahead offset).ahead = ahead := rfl

@[simp] theorem offset_facing : (facing file ahead offset).offset = offset := rfl

theorem start_eq : start file = facing file file.chars 0 := rfl

theorem peek?_facing : (facing file ahead offset).peek? = ahead[0]? := by
  cases ahead with
  | nil => rfl
  | cons c cs => rfl

theorem peekSecond?_facing : (facing file ahead offset).peekSecond? = ahead[1]? := by
  match ahead with
  | [] | [_] => rfl
  | c :: d :: cs => rfl

theorem next_facing_nil : (facing file [] offset).next = (none, facing file [] offset) := rfl

theorem next_facing_cons (c : Char) (cs : List Char) :
    (facing file (c :: cs) offset).next =
      (some (offset, c), facing file cs (offset + c.utf8Size)) := rfl

theorem skipWhile_facing (p : Char → Bool) :
    skipWhile p (facing file ahead offset) =
      facing file (ahead.dropWhile p) (offset + width (ahead.takeWhile p)) := by
  induction ahead generalizing offset with
  | nil =>
      rw [skipWhile]
      rfl
  | cons c cs ih =>
      rw [skipWhile]
      split
      · next h => cases h
      · next h =>
          cases h
          by_cases hc : p c = true
          · simp only [hc, if_true, next_facing_cons, ih, List.dropWhile_cons_of_pos hc,
              List.takeWhile_cons_of_pos hc, width_cons, Nat.add_assoc]
          · simp [hc]

end Facing

/-- What can be asked of a cursor of which copies are saved. -/
inductive Step
  | peek
  | peekSecond
  | next
  | nextIfEq (expected : Char)
  | rest
  | save
  /-- Goes back to the copy saved last. -/
  | restore
  /-- Goes back to the copy behind which so many others were saved. -/
  | restoreEarlier (others : Nat)
  deriving DecidableEq, Repr

inductive Answer
  | none
  | character (c : Char)
  | indexed (offset : Nat) (c : Char)
  | moved (yes : Bool)
  | text (text : String)
  deriving DecidableEq, Repr

/-- A cursor with the copies saved of it, the last one in front. The first is the start. -/
structure Walk where
  cursor : Cursor
  saved : List Cursor
  deriving DecidableEq, Repr

namespace Walk

def start (file : File) : Walk :=
  ⟨.start file, [.start file]⟩

/-- Goes back to a saved copy. Without one the cursor stays where it is. -/
def back (walk : Walk) (others : Nat) : Walk :=
  { walk with cursor := walk.saved[others]?.getD walk.cursor }

def step (walk : Walk) : Step → Answer × Walk
  | .peek => ((walk.cursor.peek?.map .character).getD .none, walk)
  | .peekSecond => ((walk.cursor.peekSecond?.map .character).getD .none, walk)
  | .next =>
      let (item, cursor) := walk.cursor.next
      ((item.map fun (index, c) => .indexed index c).getD .none, { walk with cursor })
  | .nextIfEq expected =>
      let (yes, cursor) := walk.cursor.nextIfEq expected
      (.moved yes, { walk with cursor })
  | .rest =>
      let (text, cursor) := walk.cursor.rest
      (.text text, { walk with cursor })
  | .save => (.none, { walk with saved := walk.cursor :: walk.saved })
  | .restore => (.none, walk.back 0)
  | .restoreEarlier others => (.none, walk.back others)

end Walk

end Cursor

end LoxSyntax.Source
