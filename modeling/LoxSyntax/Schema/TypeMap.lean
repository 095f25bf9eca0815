/-!
Mappings between types, kept in the order of the types they map, so that nothing written from them
depends on the order they were given in.
-/

namespace LoxSyntax.Schema

/-- Whether the entries are in the order of their types, with none twice. -/
def Ascending (entries : List (String × String)) : Prop :=
  entries.Pairwise fun a b => a.1 < b.1

/-- Maps a type, in place of what it was mapped to before. -/
def insertEntry (source target : String) : List (String × String) → List (String × String)
  | [] => [(source, target)]
  | entry :: rest =>
      if source < entry.1 then (source, target) :: entry :: rest
      else if source = entry.1 then (source, target) :: rest
      else entry :: insertEntry source target rest

/-- What the first entry of a type maps it to. -/
def valueOf? (source : String) : List (String × String) → Option String
  | [] => none
  | entry :: rest => if source = entry.1 then some entry.2 else valueOf? source rest

theorem valueOf?_insertEntry (source target type : String) (entries : List (String × String)) :
    valueOf? type (insertEntry source target entries) =
      if type = source then some target else valueOf? type entries := by
  induction entries with
  | nil => rfl
  | cons first rest ih => grind [insertEntry, valueOf?]

theorem fst_mem_insertEntry {source target : String} {entries : List (String × String)}
    {entry : String × String} (h : entry ∈ insertEntry source target entries) :
    entry.1 = source ∨ entry ∈ entries := by
  induction entries with
  | nil =>
      cases List.mem_singleton.1 h
      exact .inl rfl
  | cons first rest ih =>
      rw [insertEntry] at h
      split at h
      · simp only [List.mem_cons] at h ⊢
        cases h with
        | inl heq =>
            subst heq
            simp
        | inr h => exact .inr h
      · split at h
        · simp only [List.mem_cons] at h ⊢
          cases h with
          | inl heq =>
              subst heq
              simp
          | inr h => exact .inr (.inr h)
        · simp only [List.mem_cons] at h ⊢
          cases h with
          | inl heq =>
              subst heq
              exact .inr (.inl rfl)
          | inr h => exact (ih h).imp_right .inr

theorem ascending_insertEntry {source target : String} {entries : List (String × String)}
    (h : Ascending entries) : Ascending (insertEntry source target entries) := by
  induction entries with
  | nil => simp [insertEntry, Ascending]
  | cons first rest ih =>
      obtain ⟨hfirst, hrest⟩ := List.pairwise_cons.1 h
      rw [insertEntry]
      split
      · next hlt =>
          refine List.pairwise_cons.2 ⟨fun entry he => ?_, h⟩
          cases List.mem_cons.1 he with
          | inl heq =>
              subst heq
              exact hlt
          | inr he => exact String.lt_trans hlt (hfirst entry he)
      · next hge =>
          split
          · next heq => exact List.pairwise_cons.2 ⟨fun entry he => heq ▸ hfirst entry he, hrest⟩
          · next hne =>
              refine List.pairwise_cons.2 ⟨fun entry he => ?_, ih hrest⟩
              cases fst_mem_insertEntry he with
              | inl heq =>
                  rw [heq]
                  exact Std.lt_of_le_of_ne hge (Ne.symm hne)
              | inr he => exact hfirst entry he

structure TypeMap where
  entries : List (String × String)
  ascending : Ascending entries
  deriving DecidableEq

namespace TypeMap

def empty : TypeMap :=
  ⟨[], List.Pairwise.nil⟩

def insert (map : TypeMap) (source target : String) : TypeMap :=
  ⟨insertEntry source target map.entries, ascending_insertEntry map.ascending⟩

/-- Maps the types in turn; of two mappings of one type the later counts. -/
def insertAll (map : TypeMap) (pairs : List (String × String)) : TypeMap :=
  pairs.foldl (fun map (source, target) => map.insert source target) map

def get? (map : TypeMap) (source : String) : Option String :=
  valueOf? source map.entries

end TypeMap

@[simp] theorem TypeMap.get?_insert (map : TypeMap) (source target type : String) :
    (map.insert source target).get? type = if type = source then some target else map.get? type :=
  valueOf?_insertEntry source target type map.entries

end LoxSyntax.Schema
