import Mathlib.Data.List.Nodup
import Mathlib.Data.List.Perm.Subperm

/-!
Items that are each in one place, and the moves that keep them so.
-/

namespace Placement

variable {Item Place : Type}

/-- The valid items, and no others, are each in exactly one place. -/
structure Placed (valid : Item → Prop) (At : Item → Place → Prop) : Prop where
  isValid : ∀ item place, At item place → valid item
  somewhere : ∀ item, valid item → ∃ place, At item place
  unique : ∀ item place other, At item place → At item other → place = other

/-- One item leaves its place for another one, and all other items stay. -/
structure Moves (before after : Item → Place → Prop) (item : Item) (source target : Place) :
    Prop where
  atSource : before item source
  atTarget : after item target
  only : ∀ place, after item place → place = target ∨ (before item place ∧ place ≠ source)
  others : ∀ other, other ≠ item → ∀ place, after other place ↔ before other place

variable {valid : Item → Prop} {before after : Item → Place → Prop}

theorem Placed.exists_unique (h : Placed valid before) {item : Item} (hvalid : valid item) :
    ∃ place, before item place ∧ ∀ other, before item other → other = place := by
  obtain ⟨place, hplace⟩ := h.somewhere item hvalid
  exact ⟨place, hplace, fun other hother => h.unique item other place hother hplace⟩

theorem Placed.congr (h : Placed valid before)
    (hsame : ∀ item place, after item place ↔ before item place) : Placed valid after where
  isValid := fun item place hat => h.isValid item place ((hsame item place).mp hat)
  somewhere := fun item hvalid => by
    obtain ⟨place, hplace⟩ := h.somewhere item hvalid
    exact ⟨place, (hsame item place).mpr hplace⟩
  unique := fun item place other hplace hother =>
    h.unique item place other ((hsame item place).mp hplace) ((hsame item other).mp hother)

theorem Placed.move (h : Placed valid before) {item : Item} {source target : Place}
    (hmove : Moves before after item source target) : Placed valid after := by
  have honly : ∀ place, after item place → place = target := by
    intro place hplace
    rcases hmove.only place hplace with hsame | ⟨hbefore, hne⟩
    · exact hsame
    · exact absurd (h.unique item place source hbefore hmove.atSource) hne
  have hitem := h.isValid item source hmove.atSource
  refine ⟨?_, ?_, ?_⟩
  · intro other place hat
    by_cases hother : other = item
    · exact hother ▸ hitem
    · exact h.isValid other place ((hmove.others other hother place).mp hat)
  · intro other hvalid
    by_cases hother : other = item
    · exact ⟨target, hother ▸ hmove.atTarget⟩
    · obtain ⟨place, hplace⟩ := h.somewhere other hvalid
      exact ⟨place, (hmove.others other hother place).mpr hplace⟩
  · intro other place place' hat hat'
    by_cases hother : other = item
    · subst hother
      rw [honly place hat, honly place' hat']
    · exact h.unique other place place' ((hmove.others other hother place).mp hat)
        ((hmove.others other hother place').mp hat')

/-- A list of distinct items of `all` that lacks one of them is shorter. -/
theorem length_lt_of_absent {xs all : List Item} {item : Item} (hnodup : xs.Nodup)
    (hsub : ∀ x ∈ xs, x ∈ all) (hitem : item ∈ all) (habsent : item ∉ xs) :
    xs.length < all.length := by
  have hcons : (item :: xs).Nodup := List.nodup_cons.mpr ⟨habsent, hnodup⟩
  have hsubset : item :: xs ⊆ all := by
    intro x member
    rcases List.mem_cons.mp member with rfl | hx
    · exact hitem
    · exact hsub x hx
  exact (hcons.subperm hsubset).length_le

end Placement
