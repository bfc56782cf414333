/-!
# Syllabus: the last item that meets a test

`List.findRev?` looks through a list from its end. Of two lists joined, what it finds is in the
second one if there is anything to find there.
-/

namespace Syllabus

/-- Of two lists joined, the second one is looked through first. -/
theorem findRev?_append {α : Type} (p : α → Bool) (items more : List α) :
    (items ++ more).findRev? p = (more.findRev? p).or (items.findRev? p) := by
  simp only [List.findRev?_eq_find?_reverse, List.reverse_append, List.find?_append]

/-- What is found among images is the image of what is found. -/
theorem findRev?_map {α β : Type} (f : α → β) (p : β → Bool) (items : List α) :
    (items.map f).findRev? p = (items.findRev? (p ∘ f)).map f := by
  simp only [List.findRev?_eq_find?_reverse, ← List.map_reverse, List.find?_map]

section Last

variable {α : Type} {p : α → Bool} {items : List α} {item : α}

/-- Nothing is found just if nothing meets the test. -/
theorem findRev?_eq_none_iff : items.findRev? p = none ↔ ∀ item ∈ items, ¬ p item := by
  rw [List.findRev?_eq_find?_reverse, List.find?_eq_none]
  simp only [List.mem_reverse]

theorem mem_of_findRev? (h : items.findRev? p = some item) : item ∈ items := by
  rw [List.findRev?_eq_find?_reverse] at h
  exact List.mem_reverse.mp (List.mem_of_find?_eq_some h)

theorem of_findRev? (h : items.findRev? p = some item) : p item := by
  rw [List.findRev?_eq_find?_reverse] at h
  exact List.find?_some h

/-- What comes last among some is last among fewer of them, if it is one of those. -/
theorem findRev?_of_imp {q : α → Bool} (h : items.findRev? p = some item) (hitem : q item)
    (hsub : ∀ other, q other → p other) : items.findRev? q = some item := by
  -- On the items: the last one is found behind the first, or else is the first.
  induction items with
  | nil => cases h
  | cons first rest ih =>
    rw [← List.singleton_append, findRev?_append, Option.or_eq_some_iff] at h ⊢
    rcases h with hrest | ⟨hnone, hfirst⟩
    · exact .inl (ih hrest)
    · have hsame : first = item := List.mem_singleton.mp (mem_of_findRev? hfirst) |>.symm
      refine .inr ⟨?_, by simp [List.findRev?, hsame, hitem]⟩
      rw [findRev?_eq_none_iff] at hnone ⊢
      exact fun other hother hq => hnone other hother (hsub other hq)

end Last

end Syllabus
