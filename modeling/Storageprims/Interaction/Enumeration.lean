import Mathlib.Order.Lattice
import Mathlib.Data.List.Nodup

/-!
# Enumerations in pages

A large ordered set is enumerated page by page, each behind the point at which the one
before it stopped.  The set may change between two pages.  What the pages have in common is
that none repeats an earlier entry, and that an entry that is there all the time is met.
-/

namespace Interaction

variable {K : Type} [LinearOrder K]

/-- A page of what there is behind `after`: all of it, up to the point that `next` names
unless the page is the last. -/
structure IsPage (there : K → Prop) (after next : Option K) (page : List K) : Prop where
  nodup : page.Nodup
  there_of_mem : ∀ entry ∈ page, there entry
  behind : ∀ entry ∈ page, ∀ bound ∈ after, bound < entry
  within : ∀ bound ∈ next, ∀ entry ∈ page, entry ≤ bound
  onward : ∀ bound ∈ next, ∀ start ∈ after, start ≤ bound
  complete : ∀ entry, there entry → (∀ bound ∈ after, bound < entry) →
    entry ∈ page ∨ ∃ bound ∈ next, bound < entry

/-- Pages that follow each other, up to the last, with what there was at each of them. -/
inductive Enumerates : Option K → List ((K → Prop) × List K) → Prop
  | last (there : K → Prop) (after : Option K) (page : List K)
      (hpage : IsPage there after none page) : Enumerates after [(there, page)]
  | more (there : K → Prop) (after : Option K) (next : K) (page : List K)
      (pages : List ((K → Prop) × List K)) (hpage : IsPage there after (some next) page)
      (hpages : Enumerates (some next) pages) : Enumerates after ((there, page) :: pages)

namespace Enumerates

variable {after : Option K} {pages : List ((K → Prop) × List K)}

theorem behind (h : Enumerates after pages) :
    ∀ page ∈ pages, ∀ entry ∈ page.2, ∀ bound ∈ after, bound < entry := by
  induction h with
  | last there after page hpage =>
      intro other hother
      obtain rfl := List.mem_singleton.mp hother
      exact hpage.behind
  | more there after next page pages hpage hpages ih =>
      intro other hother entry hentry bound hbound
      rcases List.mem_cons.mp hother with rfl | hlater
      · exact hpage.behind entry hentry bound hbound
      · exact lt_of_le_of_lt (hpage.onward next rfl bound hbound)
          (ih other hlater entry hentry next rfl)

/-- No entry is met twice. -/
theorem nodup (h : Enumerates after pages) : (pages.flatMap (·.2)).Nodup := by
  induction h with
  | last there after page hpage =>
      rw [List.flatMap_singleton]
      exact hpage.nodup
  | more there after next page pages hpage hpages ih =>
      rw [List.flatMap_cons, List.nodup_append]
      refine ⟨hpage.nodup, ih, ?_⟩
      rintro entry hentry other hother rfl
      obtain ⟨later, hlater, hmem⟩ := List.mem_flatMap.mp hother
      exact absurd (hpages.behind later hlater entry hmem next rfl)
        (not_lt_of_ge (hpage.within next rfl entry hentry))

/-- An entry that is there at every page is met. -/
theorem complete (h : Enumerates after pages) {entry : K}
    (hthere : ∀ page ∈ pages, page.1 entry) (hafter : ∀ bound ∈ after, bound < entry) :
    entry ∈ pages.flatMap (·.2) := by
  induction h with
  | last there after page hpage =>
      rw [List.flatMap_singleton]
      rcases hpage.complete entry (hthere _ List.mem_cons_self) hafter with hmem | ⟨_, hnone, -⟩
      · exact hmem
      · cases hnone
  | more there after next page pages hpage hpages ih =>
      rw [List.flatMap_cons, List.mem_append]
      rcases hpage.complete entry (hthere _ List.mem_cons_self) hafter with hmem | ⟨_, hnext, hlt⟩
      · exact .inl hmem
      · obtain rfl := Option.some.inj hnext
        refine .inr (ih (fun page hmem => hthere page (List.mem_cons_of_mem _ hmem)) ?_)
        intro bound hbound
        obtain rfl := Option.some.inj hbound
        exact hlt

end Enumerates

end Interaction
