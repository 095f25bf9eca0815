import LoxSyntax.Schema.TypeMap
import Mathlib.Data.List.Induction
import Mathlib.Data.List.Perm.Basic

/-!
A mapping between types is determined by what it maps each type to, whatever the order in which its
entries were put in.
-/

namespace LoxSyntax.Schema

variable {source target : String} {entries : List (String × String)} {map other : TypeMap}

/-- In ascending entries no type stands twice, so what is found is all there is. -/
theorem valueOf?_eq_some_iff (h : Ascending entries) :
    valueOf? source entries = some target ↔ (source, target) ∈ entries := by
  induction entries with
  | nil => simp [valueOf?]
  | cons first rest ih =>
      obtain ⟨hfirst, hrest⟩ := List.pairwise_cons.1 h
      rw [valueOf?, List.mem_cons]
      by_cases hsource : source = first.1
      · subst hsource
        rw [if_pos rfl]
        constructor
        · intro heq
          exact .inl (Prod.ext rfl (Option.some.inj heq).symm)
        · intro hmem
          cases hmem with
          | inl heq => rw [← heq]
          | inr hmem => exact absurd (hfirst _ hmem) (String.lt_irrefl _)
      · rw [if_neg hsource, ih hrest]
        constructor
        · exact .inr
        · intro hmem
          exact hmem.resolve_left fun heq => hsource (congrArg Prod.fst heq)

theorem TypeMap.eq_of_get? (h : ∀ source, map.get? source = other.get? source) : map = other := by
  have hmem : ∀ entry, entry ∈ map.entries ↔ entry ∈ other.entries := by
    intro entry
    rw [← valueOf?_eq_some_iff map.ascending, ← valueOf?_eq_some_iff other.ascending]
    exact Eq.congr (h entry.1) rfl
  have hnodup : ∀ map : TypeMap, map.entries.Nodup := by
    intro map
    refine map.ascending.imp ?_
    rintro a _ hlt rfl
    exact String.lt_irrefl _ hlt
  have hperm := (List.perm_ext_iff_of_nodup (hnodup map) (hnodup other)).2 hmem
  have hentries : map.entries = other.entries := by
    refine hperm.eq_of_pairwise (fun a b _ _ hab hba => ?_) map.ascending other.ascending
    exact absurd hab (String.lt_asymm hba)
  cases map
  cases other
  cases hentries
  rfl

end LoxSyntax.Schema
