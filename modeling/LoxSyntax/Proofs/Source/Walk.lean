import LoxSyntax.Source.Cursor

/-!
Where a walk can take a cursor. A cursor has two positions, that of the characters it reads from and
the offset it keeps. Only `next` moves them, and it moves both, so after any steps, back to earlier
copies too, both stand behind one and the same number of characters; what the cursor answers from
either of them is then said by that number.
-/

namespace LoxSyntax.Source

open Text

namespace Cursor

/-- The cursor that has moved over the first `count` characters of a file. -/
def behind (file : File) (count : Nat) : Cursor :=
  facing file (file.chars.drop count) (width (file.chars.take count))

/-- A cursor that has moved over the first `count` characters of a file, and its answers. -/
structure Tracks (file : File) (count : Nat) (cursor : Cursor) : Prop where
  count_le : count ≤ file.chars.length
  state : cursor = behind file count
  offset : cursor.offset = width (file.chars.take count)
  drain : ∀ index, cursor.drain.1[index]? =
    file.chars[count + index]?.map fun c => (width (file.chars.take (count + index)), c)
  peek? : cursor.peek? = file.chars[count]?
  peekSecond? : cursor.peekSecond? = file.chars[count + 1]?
  isAtEnd_iff : cursor.isAtEnd = true ↔ cursor.drain.1 = []
  next_of_some : ∀ c, file.chars[count]? = some c →
    cursor.next = (some (width (file.chars.take count), c), behind file (count + 1))
  next_of_isAtEnd : cursor.isAtEnd = true → cursor.next = (none, cursor)
  nextIfEq_iff : ∀ c, (cursor.nextIfEq c).1 = true ↔ file.chars[count]? = some c
  nextIfEq_true : ∀ c, (cursor.nextIfEq c).1 = true →
    (cursor.nextIfEq c).2 = behind file (count + 1)
  nextIfEq_false : ∀ c, (cursor.nextIfEq c).1 = false → (cursor.nextIfEq c).2 = cursor

/-- The walk that some steps lead to. -/
def Walk.after (walk : Walk) (steps : List Step) : Walk :=
  steps.foldl (fun walk s => (walk.step s).2) walk

section Drain

variable (file : File) (ahead : List Char) (offset : Nat)

theorem drain_facing_cons (c : Char) (cs : List Char) :
    (facing file (c :: cs) offset).drain =
      ((offset, c) :: (facing file cs (offset + c.utf8Size)).drain.1,
        (facing file cs (offset + c.utf8Size)).drain.2) := by
  rw [drain]
  split
  · next h => cases h
  · rfl

theorem getElem?_drain_facing (index : Nat) :
    (facing file ahead offset).drain.1[index]? =
      ahead[index]?.map fun c => (offset + width (ahead.take index), c) := by
  induction ahead generalizing offset index with
  | nil =>
      rw [drain]
      rfl
  | cons c cs ih =>
      rw [drain_facing_cons]
      cases index with
      | zero => rfl
      | succ index =>
          rw [List.getElem?_cons_succ, List.getElem?_cons_succ, ih, List.take_succ_cons, width_cons]
          simp only [Nat.add_assoc]

theorem drain_facing_snd :
    (facing file ahead offset).drain.2 = facing file [] (offset + width ahead) := by
  induction ahead generalizing offset with
  | nil =>
      rw [drain]
      rfl
  | cons c cs ih => rw [drain_facing_cons, ih, width_cons, Nat.add_assoc]

end Drain

section Behind

variable {file : File} {count : Nat} {c : Char}

theorem behind_length (file : File) :
    behind file file.chars.length = facing file [] file.size := by
  rw [behind, List.drop_length, List.take_length]
  rfl

theorem next_behind_of_some (h : file.chars[count]? = some c) :
    (behind file count).next =
      (some (width (file.chars.take count), c), behind file (count + 1)) := by
  have hwidth : width (file.chars.take (count + 1)) =
      width (file.chars.take count) + c.utf8Size := by
    rw [List.take_add_one, h, width_append]
    rfl
  obtain ⟨hlt, rfl⟩ := List.getElem?_eq_some_iff.1 h
  rw [behind, List.drop_eq_getElem_cons hlt, next_facing_cons, behind, hwidth]

theorem getElem?_drain_behind (index : Nat) :
    (behind file count).drain.1[index]? =
      file.chars[count + index]?.map fun c => (width (file.chars.take (count + index)), c) := by
  rw [behind, getElem?_drain_facing, List.getElem?_drop, List.take_add, width_append]

/-- The end is reached behind all characters, and not before. -/
theorem isAtEnd_behind_iff (hcount : count ≤ file.chars.length) :
    (behind file count).isAtEnd = true ↔ count = file.chars.length := by
  have hsplit : file.chars = file.chars.take count ++ file.chars.drop count :=
    (List.take_append_drop count file.chars).symm
  rw [behind, isAtEnd_iff hsplit rfl, ahead_facing, List.drop_eq_nil_iff]
  exact ⟨Nat.le_antisymm hcount, Nat.le_of_eq ∘ Eq.symm⟩

theorem tracks_behind (hcount : count ≤ file.chars.length) :
    Tracks file count (behind file count) := by
  have hpeek : (behind file count).peek? = file.chars[count]? := by
    rw [behind, peek?_facing, List.getElem?_drop]
    rfl
  have hnone : (behind file count).isAtEnd = true ↔ file.chars[count]? = none := by
    rw [isAtEnd_behind_iff hcount, List.getElem?_eq_none_iff]
    omega
  refine
    { count_le := hcount
      state := rfl
      offset := rfl
      drain := getElem?_drain_behind
      peek? := hpeek
      peekSecond? := by rw [behind, peekSecond?_facing, List.getElem?_drop]
      isAtEnd_iff := ?_
      next_of_some := fun c h => next_behind_of_some h
      next_of_isAtEnd := ?_
      nextIfEq_iff := ?_
      nextIfEq_true := ?_
      nextIfEq_false := ?_ }
  · rw [hnone, ← List.head?_eq_none_iff, List.head?_eq_getElem?, getElem?_drain_behind,
      Option.map_eq_none_iff]
    rfl
  · intro hend
    rw [(isAtEnd_behind_iff hcount).1 hend, behind_length, next_facing_nil]
  · intro c
    rw [nextIfEq, hpeek]
    split
    · next h => simp [h]
    · next h => simp [h]
  · intro c hmoved
    rw [nextIfEq, hpeek] at hmoved ⊢
    split at hmoved
    · next h => rw [if_pos h, next_behind_of_some h]
    · cases hmoved
  · intro c hstays
    rw [nextIfEq] at hstays ⊢
    split at hstays
    · cases hstays
    · next h => rw [if_neg h]

end Behind

namespace Walk

variable {file : File} {walk : Walk}

/-- The cursor and all copies stand behind some characters of the file. -/
structure Sound (file : File) (walk : Walk) : Prop where
  cursor : ∃ count, Tracks file count walk.cursor
  saved : ∀ copy ∈ walk.saved, ∃ count, Tracks file count copy

theorem sound_start (file : File) : (start file).Sound file := by
  have hstart : Tracks file 0 (Cursor.start file) := tracks_behind (Nat.zero_le _)
  exact ⟨⟨0, hstart⟩, List.forall_mem_singleton.2 ⟨0, hstart⟩⟩

theorem Sound.back (h : walk.Sound file) (others : Nat) : (walk.back others).Sound file := by
  refine ⟨?_, h.saved⟩
  rw [Walk.back]
  cases hcopy : walk.saved[others]? with
  | none => exact h.cursor
  | some copy => exact h.saved copy (List.mem_of_getElem? hcopy)

/-- Moving on from behind some characters leads behind one more, or at the end nowhere. -/
theorem exists_tracks_next {cursor : Cursor} {count : Nat} (h : Tracks file count cursor) :
    ∃ next, Tracks file next cursor.next.2 := by
  cases hchar : file.chars[count]? with
  | some c =>
      have hlt := (List.getElem?_eq_some_iff.1 hchar).1
      rw [h.next_of_some c hchar]
      exact ⟨count + 1, tracks_behind hlt⟩
  | none =>
      have hend : cursor.isAtEnd = true := by
        rw [h.state, isAtEnd_behind_iff h.count_le]
        have hge := List.getElem?_eq_none_iff.1 hchar
        exact Nat.le_antisymm h.count_le hge
      rw [h.next_of_isAtEnd hend]
      exact ⟨count, h⟩

theorem Sound.step (h : walk.Sound file) (s : Step) : (walk.step s).2.Sound file := by
  obtain ⟨count, hcount⟩ := h.cursor
  cases s with
  | peek | peekSecond => exact h
  | next => exact ⟨exists_tracks_next hcount, h.saved⟩
  | nextIfEq expected =>
      refine ⟨?_, h.saved⟩
      change ∃ count, Tracks file count (walk.cursor.nextIfEq expected).2
      rw [nextIfEq]
      split
      · exact exists_tracks_next hcount
      · exact ⟨count, hcount⟩
  | rest =>
      refine ⟨⟨file.chars.length, ?_⟩, h.saved⟩
      change Tracks file _ walk.cursor.drain.2
      rw [hcount.state, behind, drain_facing_snd, ← width_append, List.take_append_drop]
      have htracks : Tracks file file.chars.length (behind file file.chars.length) :=
        tracks_behind (Nat.le_refl _)
      rwa [behind_length] at htracks
  | save => exact ⟨h.cursor, List.forall_mem_cons.2 ⟨h.cursor, h.saved⟩⟩
  | restore => exact h.back 0
  | restoreEarlier others => exact h.back others

theorem Sound.after (h : walk.Sound file) (steps : List Step) : (walk.after steps).Sound file := by
  induction steps generalizing walk with
  | nil => exact h
  | cons s steps ih => exact ih (h.step s)

/-- Wherever steps lead, the cursor has moved over some characters of the file, and everything that
it answers says how many. -/
theorem exists_tracks_after (file : File) (steps : List Step) :
    ∃ count, Tracks file count ((start file).after steps).cursor :=
  ((sound_start file).after steps).cursor

end Walk

end Cursor

end LoxSyntax.Source
