import Mathlib.Data.List.Nodup
import Syllabus.Proofs.Export.ImportOrder

/-!
# Syllabus: where imported pages go

The list of an import is walked once, and what it names last counts: a page lies in the lesson that
stands nearest before the last place where the list names the page. A page that has no such place
lies in the first lesson. The pages are put in order all together and then go to their lessons, so
each lesson has its own in order, and those that get none are left out.

* **`Owns`**: the lesson that a page belongs to, said of the list as a whole.
* **`owns_iff`**: the walk finds it.
* **`importCourse_arranges`**: no page is lost or doubled.
-/

namespace Syllabus.Export

/-! ## Walking over the list -/

/-- The lesson that is named last in a part of the list, or else the one before it. -/
def lessonBehind (isLesson : Id → Bool) (current : Id) (past : List Id) : Id :=
  past.foldl (fun current id => if isLesson id then id else current) current

section Walk

variable {isLesson : Id → Bool} {current first page lesson : Id} {order past behind : List Id}

/-- The rest of the list is placed behind the last lesson in what came before. -/
theorem placements_append (isLesson : Id → Bool) (current : Id) (past rest : List Id) :
    placements isLesson current (past ++ rest)
      = placements isLesson current past
        ++ placements isLesson (lessonBehind isLesson current past) rest := by
  -- On the part in front, with the lesson that is current before it.
  induction past generalizing current with
  | nil => rfl
  | cons id past ih =>
    rw [List.cons_append, placements, placements, lessonBehind, List.foldl_cons]
    split
    · exact ih id
    · rw [ih current]
      rfl

/-- What is placed is in the list, and is no lesson. -/
theorem of_mem_placements {placed : Id × Id} (h : placed ∈ placements isLesson current order) :
    placed.1 ∈ order ∧ isLesson placed.1 = false := by
  induction order generalizing current with
  | nil => cases h
  | cons id rest ih =>
    rw [placements] at h
    -- A lesson is not placed itself; it is only where the next pages go.
    split at h
    · exact (ih h).imp_left (.tail _)
    · next hpage =>
      rcases List.mem_cons.mp h with rfl | h
      · exact ⟨List.mem_cons_self, by simpa using hpage⟩
      · exact (ih h).imp_left (.tail _)

/-- A number without a place. -/
theorem lookup_placements_eq_none (h : page ∉ order ∨ isLesson page = true) :
    (placements isLesson current order).reverse.lookup page = none := by
  rw [List.lookup_eq_none_iff]
  intro placed hplaced
  obtain ⟨hmem, hpage⟩ := of_mem_placements (List.mem_reverse.mp hplaced)
  rw [bne_iff_ne]
  rintro rfl
  -- Either it is not named, or the walk takes it for a lesson.
  rcases h with hmissing | hlesson
  · exact hmissing hmem
  · rw [hpage] at hlesson
    cases hlesson

/-- What is not placed goes to the first lesson. -/
theorem ownerOf_of_unplaced (h : page ∉ order ∨ isLesson page = true) :
    ownerOf (placements isLesson current order) first page = first := by
  rw [ownerOf, lookup_placements_eq_none h]
  rfl

/-- The last place of a page decides. -/
theorem ownerOf_of_last (hpage : isLesson page = false) (hlast : page ∉ behind) :
    ownerOf (placements isLesson current (past ++ page :: behind)) first page
      = lessonBehind isLesson current past := by
  -- Looked for from the end, the last place is the first that is found.
  rw [ownerOf, placements_append, placements, if_neg (by simp [hpage]), List.reverse_append,
    List.reverse_cons, List.lookup_append, List.lookup_append,
    lookup_placements_eq_none (.inl hlast)]
  simp

/-- Without a lesson on the way the current one stays. -/
theorem lessonBehind_of_none (h : ∀ id ∈ past, isLesson id = false) :
    lessonBehind isLesson current past = current := by
  induction past with
  | nil => rfl
  | cons id past ih =>
    obtain ⟨hid, hpast⟩ := List.forall_mem_cons.mp h
    rw [lessonBehind, List.foldl_cons, if_neg (by simp [hid])]
    exact ih hpast

/-- With lessons on the way the last of them is the current one. -/
theorem lessonBehind_of_last (hlesson : isLesson lesson = true)
    (h : ∀ id ∈ behind, isLesson id = false) :
    lessonBehind isLesson current (past ++ lesson :: behind) = lesson := by
  rw [lessonBehind, List.foldl_append, List.foldl_cons, if_pos hlesson]
  exact lessonBehind_of_none h

/-- A part of the list names no lesson, or one of them last. -/
theorem exists_last_lesson (isLesson : Id → Bool) (past : List Id) :
    (∀ id ∈ past, isLesson id = false)
      ∨ ∃ before lesson between, past = before ++ lesson :: between ∧ isLesson lesson = true
        ∧ ∀ id ∈ between, isLesson id = false := by
  -- The last lesson is the first that is found from the end.
  cases h : past.reverse.find? isLesson with
  | none => exact .inl (by simpa [List.find?_eq_none] using h)
  | some lesson =>
    obtain ⟨hlesson, behind, before, hpast, hbehind⟩ := List.find?_eq_some_iff_append.mp h
    refine .inr ⟨before.reverse, lesson, behind.reverse, ?_, hlesson, ?_⟩
    · rw [← List.reverse_reverse past, hpast]
      simp
    · simpa using hbehind

/-- What is in the list has a last place there. -/
theorem exists_last_place (h : page ∈ order) :
    ∃ past behind, order = past ++ page :: behind ∧ page ∉ behind := by
  -- The last place is the first one of the list read backwards.
  obtain ⟨behind, past, horder, hlast⟩ := List.eq_append_cons_of_mem (List.mem_reverse.mpr h)
  refine ⟨past.reverse, behind.reverse, ?_, by simpa using hlast⟩
  rw [← List.reverse_reverse order, horder]
  simp

end Walk

/-! ## Whose a page is -/

/-- Whether an export has a lesson of that number. -/
def IsLesson (exported : Export) (id : Id) : Prop := id ∈ exported.lessons.map (·.1)

instance (exported : Export) : DecidablePred exported.IsLesson := fun id =>
  inferInstanceAs (Decidable (id ∈ exported.lessons.map (·.1)))

/-- Whether a lesson is the one named nearest before the last place of a page. -/
def NamedBefore (exported : Export) (order : List Id) (lesson page : Id) : Prop :=
  ∃ before between behind, order = before ++ lesson :: (between ++ page :: behind)
    ∧ exported.IsLesson lesson ∧ (∀ id ∈ between, ¬ exported.IsLesson id) ∧ page ∉ behind

/-- Whether a lesson stands before all others. -/
def IsFirst (exported : Export) (order : List Id) (lesson : Id) : Prop :=
  exported.IsLesson lesson
    ∧ ∀ other, exported.IsLesson other → other ≠ lesson → standing order lesson < standing order other

/-- The lesson that a page belongs to. -/
inductive Owns (exported : Export) (order : List Id) (lesson page : Id) : Prop where
  | named (hpage : ¬ exported.IsLesson page) (h : exported.NamedBefore order lesson page)
  | first (h : exported.IsFirst order lesson)
      (hnone : exported.IsLesson page ∨ ∀ other, ¬ exported.NamedBefore order other page)

/-- Nothing stands before what stands before it. -/
theorem standing_asymm {order : List Id} {a b : Id} (h : standing order a < standing order b) :
    ¬ standing order b < standing order a := by
  simp only [standing, Prod.Lex.toLex_lt_toLex] at h ⊢
  -- By rank, and of equal ranks by number.
  rintro (hlt | ⟨hsame, hlt⟩)
  · rcases h with h | ⟨h, _⟩
    · exact absurd h hlt.asymm
    · exact absurd h hlt.ne'
  · rcases h with h | ⟨_, h⟩
    · exact absurd hsame h.ne'
    · exact absurd h (UInt32.lt_asymm hlt)

theorem IsFirst.unique {exported : Export} {order : List Id} {first second : Id}
    (hfirst : exported.IsFirst order first) (hsecond : exported.IsFirst order second) :
    first = second := by
  by_contra hne
  -- Each of two different ones would stand before the other.
  exact standing_asymm (hfirst.2 second hsecond.1 (Ne.symm hne)) (hsecond.2 first hfirst.1 hne)

section Owner

variable {exported : Export} {order : List Id} {lesson page : Id}

/-- What is named nearest before the last place of a page is what the walk has found by then. -/
theorem ownerOf_of_named (first : Id) (hpage : ¬ exported.IsLesson page)
    (h : exported.NamedBefore order lesson page) :
    ownerOf (placements (decide <| exported.IsLesson ·) first order) first page = lesson := by
  obtain ⟨before, between, behind, rfl, hlesson, hbetween, hlast⟩ := h
  -- The list is split at the last place of the page, with the lesson somewhere in front.
  rw [← List.cons_append, ← List.append_assoc, ownerOf_of_last (decide_eq_false hpage) hlast]
  exact lessonBehind_of_last (decide_eq_true hlesson) fun id hid => decide_eq_false (hbetween id hid)

/-- Where nothing is named before, the walk is still at the first lesson. -/
theorem ownerOf_of_unnamed (first : Id)
    (hnone : exported.IsLesson page ∨ ∀ other, ¬ exported.NamedBefore order other page) :
    ownerOf (placements (decide <| exported.IsLesson ·) first order) first page = first := by
  -- A number of a lesson is never placed, and neither is one that the list leaves out.
  by_cases hpage : exported.IsLesson page
  · exact ownerOf_of_unplaced (.inr (decide_eq_true hpage))
  by_cases hmem : page ∈ order
  · obtain ⟨past, behind, rfl, hlast⟩ := exists_last_place hmem
    rw [ownerOf_of_last (decide_eq_false hpage) hlast]
    rcases exists_last_lesson (decide <| exported.IsLesson ·) past with
      hpast | ⟨before, other, between, rfl, hother, hbetween⟩
    · exact lessonBehind_of_none hpast
    · -- A lesson before the last place would be one that is named there.
      refine absurd ?_ (hnone.resolve_left hpage other)
      exact ⟨before, between, behind, by simp, of_decide_eq_true hother,
        fun id hid => of_decide_eq_false (hbetween id hid), hlast⟩
  · exact ownerOf_of_unplaced (.inl hmem)

/-- **Whose a page is.** The walk over the list, with the first lesson before it, finds the lesson
that the page belongs to. -/
theorem owns_iff {first : Id} (hfirst : exported.IsFirst order first) :
    exported.Owns order lesson page
      ↔ ownerOf (placements (decide <| exported.IsLesson ·) first order) first page = lesson := by
  constructor
  · rintro (⟨hpage, h⟩ | ⟨h, hnone⟩)
    · exact ownerOf_of_named first hpage h
    · rw [h.unique hfirst]
      exact ownerOf_of_unnamed first hnone
  · rintro rfl
    -- A page is named behind a lesson, or falls to the first one.
    by_cases hnamed : ¬ exported.IsLesson page ∧ ∃ other, exported.NamedBefore order other page
    · obtain ⟨hpage, other, hother⟩ := hnamed
      rw [ownerOf_of_named first hpage hother]
      exact .named hpage hother
    · have hnone : exported.IsLesson page ∨ ∀ other, ¬ exported.NamedBefore order other page := by
        by_contra h
        push Not at h
        exact hnamed h
      rw [ownerOf_of_unnamed first hnone]
      exact .first hfirst hnone

end Owner

/-! ## The pages of the course -/

/-- The page that is made of an item with a text. -/
def pageOf (id : Id) (item : ExportedItem) (text : String) : Page :=
  { id, name := unlessEmpty item.title, rule := some (localizeText text).1 }

/-- Whether an export has a page. -/
def HasPage (exported : Export) (page : Page) : Prop :=
  ∃ item text, (page.id, item) ∈ exported.items ∧ item.text = some text
    ∧ page = pageOf page.id item text

section Pages

variable {exported : Export} {order : List Id} {page : Page}

/-- The pages are those that the export has. -/
theorem mem_pages_iff : page ∈ exported.pages ↔ exported.HasPage page := by
  unfold pages HasPage
  simp only [List.mem_filterMap, Option.map_eq_some_iff, Prod.exists]
  constructor
  · rintro ⟨id, item, hitem, text, htext, rfl⟩
    exact ⟨item, text, hitem, htext, rfl⟩
  · rintro ⟨item, text, hitem, htext, hpage⟩
    exact ⟨page.id, item, hitem, text, htext, hpage.symm⟩

/-- The pages of an export come in the order of their numbers. -/
theorem pairwise_pages (hitems : exported.items.Ascending) :
    exported.pages.Pairwise fun page other => page.id < other.id := by
  -- Items without a text leave gaps, but the order stays.
  refine List.pairwise_filterMap.mpr (hitems.imp ?_)
  rintro ⟨id, item⟩ ⟨other, item'⟩ hlt page hpage page' hpage'
  obtain ⟨_, _, rfl⟩ := Option.map_eq_some_iff.mp hpage
  obtain ⟨_, _, rfl⟩ := Option.map_eq_some_iff.mp hpage'
  exact hlt

theorem nodup_pages (hitems : exported.items.Ascending) : (exported.pages.map Page.id).Nodup :=
  List.pairwise_map.mpr ((pairwise_pages hitems).imp UInt32.ne_of_lt)

theorem mem_orderedPages_iff :
    page ∈ inOrder order Page.id exported.pages ↔ exported.HasPage page :=
  (inOrder_perm order Page.id exported.pages).mem_iff.trans mem_pages_iff

end Pages

/-! ## The lessons of the course -/

/-- Whether a lesson is one of the export, whatever its pages. -/
def HasLesson (exported : Export) (lesson : Lesson) : Prop :=
  ∃ found, (lesson.id, found) ∈ exported.lessons ∧ lesson.name = (unlessEmpty found.name).getD ""
    ∧ lesson.description = unlessEmpty found.description

section Lessons

variable {exported : Export} {order : List Id}

/-- The ordered lessons are those of the export. -/
theorem orderedLessons_perm (exported : Export) (order : List Id) :
    ((exported.orderedLessons order).map Lesson.id).Perm (exported.lessons.map (·.1)) := by
  have hperm := (inOrder_perm order Lesson.id (exported.lessons.map fun entry =>
    { id := entry.1, name := (unlessEmpty entry.2.name).getD "",
      description := unlessEmpty entry.2.description })).map Lesson.id
  rwa [List.map_map] at hperm

/-- An id is that of a lesson just if one of the ordered ones has it. -/
theorem isLesson_iff (order : List Id) {id : Id} :
    exported.IsLesson id ↔ ∃ lesson ∈ exported.orderedLessons order, lesson.id = id := by
  rw [IsLesson, ← (orderedLessons_perm exported order).mem_iff, List.mem_map]

/-- An ordered lesson is one of the export. -/
theorem hasLesson_of_mem {lesson : Lesson} (h : lesson ∈ exported.orderedLessons order) :
    exported.HasLesson lesson := by
  obtain ⟨⟨id, found⟩, hfound, rfl⟩ := List.mem_map.mp ((inOrder_perm _ _ _).mem_iff.mp h)
  exact ⟨found, hfound, rfl, rfl⟩

theorem pairwise_orderedLessons (order : List Id) (hlessons : exported.lessons.Ascending) :
    ((exported.orderedLessons order).map fun lesson => standing order lesson.id).Pairwise
      (· < ·) := by
  refine pairwise_inOrder ?_
  rw [List.map_map]
  exact hlessons.nodup

/-- The first of the ordered lessons is the first one of the export. -/
theorem isFirst_of_orderedLessons {first : Lesson} {rest : List Lesson}
    (hlessons : exported.lessons.Ascending)
    (h : exported.orderedLessons order = first :: rest) : exported.IsFirst order first.id := by
  have hpairwise := pairwise_orderedLessons order hlessons
  rw [h, List.map_cons, List.pairwise_cons] at hpairwise
  refine ⟨(isLesson_iff order).mpr ⟨first, h ▸ List.mem_cons_self, rfl⟩, fun other hother hne => ?_⟩
  -- Any other lesson of the export is among the ordered ones, behind the first.
  obtain ⟨lesson, hlesson, rfl⟩ := (isLesson_iff order).mp hother
  rw [h] at hlesson
  rcases List.mem_cons.mp hlesson with rfl | hrest
  · exact absurd rfl hne
  · exact hpairwise.1 _ (List.mem_map_of_mem hrest)

/-- A lesson with its pages, out of pages that all have an owner. -/
def fill (owner : Id → Id) (pages : List Page) (lesson : Lesson) : Lesson :=
  { lesson with pages := pages.filter fun page => owner page.id == lesson.id }

/-- The pages of a lesson are those that it owns. -/
theorem filter_owned (owner : Id → Id) (pages : List Page) (lesson : Id) :
    ((pages.map fun page => (owner page.id, page)).filter (·.1 == lesson)).map (·.2)
      = pages.filter fun page => owner page.id == lesson := by
  rw [List.filter_map, List.map_map]
  exact List.map_id _

/-- The owner that an import finds for each page. -/
def importOwner (exported : Export) (order : List Id) (first : Id) : Id → Id :=
  ownerOf (placements (decide <| exported.IsLesson ·) first order) first

/-- The lessons that get pages, with their pages. -/
def filledLessons (exported : Export) (order : List Id) (first : Id) : List Lesson :=
  ((exported.orderedLessons order).map
    (fill (exported.importOwner order first) (inOrder order Page.id exported.pages))).filter
      fun lesson => !lesson.pages.isEmpty

/-- An export with lessons becomes a course. -/
theorem toCourse_eq {options : ImportOptions} {first : Lesson} {rest : List Lesson}
    (h : exported.orderedLessons options.order = first :: rest) :
    exported.toCourse options = .ok {
      course := {
        fileName := options.fileName
        name := exported.courseName options
        description := unlessEmpty exported.description
        lessons := exported.filledLessons options.order first.id }
      images := exported.images } := by
  have hlesson : (fun id => (first :: rest).any (·.id == id))
      = (decide <| exported.IsLesson ·) := by
    funext id
    rw [Bool.eq_iff_iff, List.any_eq_true, decide_eq_true_iff, isLesson_iff options.order,
      h]
    simp only [beq_iff_eq]
  unfold toCourse filledLessons
  simp only [h, hlesson, filter_owned]
  rfl

/-- A filled lesson is an ordered one with its pages, if it has any. -/
theorem mem_filledLessons_iff {first : Id} {lesson : Lesson} :
    lesson ∈ exported.filledLessons order first
      ↔ (∃ empty ∈ exported.orderedLessons order,
          fill (exported.importOwner order first) (inOrder order Page.id exported.pages) empty
            = lesson) ∧ lesson.pages ≠ [] := by
  rw [filledLessons, List.mem_filter, List.mem_map, Bool.not_eq_true', List.isEmpty_eq_false_iff]

end Lessons

/-! ## The whole import -/

/-- Whether lessons hold the pages of an export in the order of a list: each page once, in the
lesson that it belongs to, and no lesson without pages. -/
structure Arranges (exported : Export) (order : List Id) (lessons : List Lesson) : Prop where
  /-- Every item with a text is a page of one lesson, and once. -/
  once : ∀ ⦃id item text⦄, (id, item) ∈ exported.items → item.text = some text →
    ∃ lesson ∈ lessons, lesson.pages.count (pageOf id item text) = 1
      ∧ ∀ other ∈ lessons, pageOf id item text ∈ other.pages → other = lesson
  owned : ∀ lesson ∈ lessons, ∀ page ∈ lesson.pages,
    exported.HasPage page ∧ exported.Owns order lesson.id page.id
  known : ∀ lesson ∈ lessons, exported.HasLesson lesson
  /-- A lesson of the export is there just if it owns a page. -/
  kept : ∀ id, (∃ lesson ∈ lessons, lesson.id = id)
    ↔ exported.IsLesson id ∧ ∃ page, exported.HasPage page ∧ exported.Owns order id page.id
  lessonsInOrder : (lessons.map fun lesson => standing order lesson.id).Pairwise (· < ·)
  pagesInOrder : ∀ lesson ∈ lessons,
    (lesson.pages.map fun page => standing order page.id).Pairwise (· < ·)

section Arranged

variable {exported : Export} {order : List Id} {first : Id}

theorem Owns.isLesson {lesson page : Id} (h : exported.Owns order lesson page) :
    exported.IsLesson lesson := by
  cases h with
  | named hpage h =>
    obtain ⟨_, _, _, _, hlesson, _⟩ := h
    exact hlesson
  | first h hnone => exact h.1

/-- The pages of a lesson are those that it owns. -/
theorem mem_pages_of_filled (hfirst : exported.IsFirst order first) {lesson : Lesson}
    (hlesson : lesson ∈ exported.filledLessons order first) {page : Page} :
    page ∈ lesson.pages ↔ exported.HasPage page ∧ exported.Owns order lesson.id page.id := by
  obtain ⟨⟨empty, _, rfl⟩, _⟩ := mem_filledLessons_iff.mp hlesson
  rw [fill, List.mem_filter, mem_orderedPages_iff, beq_iff_eq, owns_iff hfirst]
  rfl

/-- A lesson with a page of its own is filled. -/
theorem exists_filled (hfirst : exported.IsFirst order first) {page : Page} {id : Id}
    (hpage : exported.HasPage page) (howns : exported.Owns order id page.id) :
    ∃ lesson ∈ exported.filledLessons order first, lesson.id = id ∧ page ∈ lesson.pages := by
  obtain ⟨empty, hempty, rfl⟩ := (isLesson_iff order).mp howns.isLesson
  have hmem : page ∈ (fill (exported.importOwner order first)
      (inOrder order Page.id exported.pages) empty).pages :=
    List.mem_filter.mpr ⟨mem_orderedPages_iff.mpr hpage, beq_iff_eq.mpr ((owns_iff hfirst).mp howns)⟩
  exact ⟨_, mem_filledLessons_iff.mpr ⟨⟨empty, hempty, rfl⟩, List.ne_nil_of_mem hmem⟩, rfl, hmem⟩

/-- The filled lessons stand in order too. -/
theorem pairwise_filledLessons (hlessons : exported.lessons.Ascending) :
    ((exported.filledLessons order first).map fun lesson => standing order lesson.id).Pairwise
      (· < ·) := by
  have hall := pairwise_orderedLessons order hlessons
  -- A lesson keeps its number when it gets its pages.
  have hfilled : (((exported.orderedLessons order).map
      (fill (exported.importOwner order first) (inOrder order Page.id exported.pages))).map
        fun lesson => standing order lesson.id).Pairwise (· < ·) := by
    rwa [List.map_map]
  exact hfilled.sublist (List.filter_sublist.map _)

/-- No two filled lessons have one number. -/
theorem nodup_filledLessons (hlessons : exported.lessons.Ascending) :
    ((exported.filledLessons order first).map Lesson.id).Nodup := by
  refine List.pairwise_map.mpr ((List.pairwise_map.mp (pairwise_filledLessons hlessons)).imp ?_)
  intro a b hlt hsame
  rw [hsame] at hlt
  exact standing_asymm hlt hlt

/-- A filled lesson is known by its id. -/
theorem filled_eq_of_id_eq (hlessons : exported.lessons.Ascending) {lesson other : Lesson}
    (hlesson : lesson ∈ exported.filledLessons order first)
    (hother : other ∈ exported.filledLessons order first) (hid : other.id = lesson.id) :
    other = lesson :=
  List.inj_on_of_nodup_map (nodup_filledLessons hlessons) hother hlesson hid

/-- No two pages of a filled lesson have one number. -/
theorem nodup_pageIds_of_filled (hitems : exported.items.Ascending) {lesson : Lesson}
    (hlesson : lesson ∈ exported.filledLessons order first) :
    (lesson.pages.map Page.id).Nodup := by
  obtain ⟨⟨empty, _, rfl⟩, _⟩ := mem_filledLessons_iff.mp hlesson
  have hall : ((inOrder order Page.id exported.pages).map Page.id).Nodup :=
    ((inOrder_perm order Page.id exported.pages).map Page.id).nodup_iff.mpr (nodup_pages hitems)
  exact hall.sublist (List.filter_sublist.map Page.id)

theorem nodup_pages_of_filled (hitems : exported.items.Ascending) {lesson : Lesson}
    (hlesson : lesson ∈ exported.filledLessons order first) : lesson.pages.Nodup :=
  List.Nodup.of_map Page.id (nodup_pageIds_of_filled hitems hlesson)

/-- The filled lessons arrange the export. -/
theorem arranges_filledLessons (hlessons : exported.lessons.Ascending)
    (hitems : exported.items.Ascending) (hfirst : exported.IsFirst order first) :
    exported.Arranges order (exported.filledLessons order first) where
  once id item text hitem htext := by
    have hpage : exported.HasPage (pageOf id item text) := ⟨item, text, hitem, htext, rfl⟩
    have howns : exported.Owns order (exported.importOwner order first id) id :=
      (owns_iff hfirst).mpr rfl
    obtain ⟨lesson, hlesson, hid, hmem⟩ := exists_filled hfirst hpage howns
    refine ⟨lesson, hlesson,
      List.count_eq_one_of_mem (nodup_pages_of_filled hitems hlesson) hmem,
      fun other hother hmem => ?_⟩
    -- Another lesson that holds the page owns it, and a page has one owner.
    obtain ⟨_, hother'⟩ := (mem_pages_of_filled hfirst hother).mp hmem
    have hsame : other.id = lesson.id := ((owns_iff hfirst).mp hother').symm.trans hid.symm
    exact filled_eq_of_id_eq hlessons hlesson hother hsame
  owned lesson hlesson page hpage := (mem_pages_of_filled hfirst hlesson).mp hpage
  known lesson hlesson := by
    obtain ⟨⟨empty, hempty, rfl⟩, _⟩ := mem_filledLessons_iff.mp hlesson
    have hknown : exported.HasLesson empty := hasLesson_of_mem hempty
    exact hknown
  kept id := by
    constructor
    · rintro ⟨lesson, hlesson, rfl⟩
      obtain ⟨page, hpage⟩ := List.exists_mem_of_ne_nil _ (mem_filledLessons_iff.mp hlesson).2
      obtain ⟨hpage, howns⟩ := (mem_pages_of_filled hfirst hlesson).mp hpage
      exact ⟨howns.isLesson, page, hpage, howns⟩
    · rintro ⟨_, page, hpage, howns⟩
      obtain ⟨lesson, hlesson, hid, _⟩ := exists_filled hfirst hpage howns
      exact ⟨lesson, hlesson, hid⟩
  lessonsInOrder := pairwise_filledLessons hlessons
  pagesInOrder lesson hlesson := by
    obtain ⟨⟨empty, _, rfl⟩, _⟩ := mem_filledLessons_iff.mp hlesson
    exact (pairwise_inOrder (nodup_pages hitems)).sublist (List.filter_sublist.map _)

end Arranged

/-- **Importing loses and doubles no page.** A text that is an export with lessons becomes a course
that holds its pages, each in the lesson that it belongs to, whatever list of numbers the import is
given. -/
theorem importCourse_arranges {text : String} {exported : Export} (options : ImportOptions)
    (hread : read? text = some exported) (hlessons : exported.lessons ≠ []) :
    ∃ imported, importCourse text options = .ok imported
      ∧ exported.Arranges options.order imported.course.lessons := by
  obtain ⟨hascending, hitems⟩ := ascending_of_read? hread
  have hperm := orderedLessons_perm exported options.order
  cases hordered : exported.orderedLessons options.order with
  | nil =>
    rw [hordered, List.map_nil] at hperm
    exact absurd (List.map_eq_nil_iff.mp hperm.nil_eq.symm) hlessons
  | cons first rest =>
    have himport : importCourse text options = exported.toCourse options := by
      rw [importCourse, hread]
    exact ⟨_, himport.trans (toCourse_eq hordered), arranges_filledLessons hascending hitems
      (isFirst_of_orderedLessons hascending hordered)⟩

/-! ## A list with everything in it

Item 1 has the number of a lesson, item 4 is named twice, item 5 before any lesson, item 6 has no
text and item 7 no place; 9 is unknown, and lesson 3 gets no page. -/

namespace Tangled

def text : String :=
  "[[\"Parts\",null],\x7b\"3\":[\"Rest\",null],\"2\":[\"Verbs\",null],\"1\":[\"Nouns\",\"\"]\x7d,"
  ++ "\x7b\"1\":[null,[\"\"]],\"7\":[\"Tail\",[\"t\"]],\"4\":[null,[\"f\"]],\"5\":[\"\",[\"g\"]],"
  ++ "\"6\":[\"None\",null]\x7d]"

def exported : Export where
  name := some "Parts"
  lessons := [(1, ⟨some "Nouns", some ""⟩), (2, ⟨some "Verbs", none⟩), (3, ⟨some "Rest", none⟩)]
  items := [(1, ⟨none, some ""⟩), (4, ⟨none, some "f"⟩), (5, ⟨some "", some "g"⟩),
    (6, ⟨some "None", none⟩), (7, ⟨some "Tail", some "t"⟩)]

def options : ImportOptions where
  order := [5, 2, 4, 9, 3, 1, 4]

theorem read?_text : read? text = some exported := by decide +kernel

/-- The import goes through all the same. -/
theorem importCourse_tangled : read? text = some exported ∧ exported.lessons ≠ []
    ∧ ∃ imported, importCourse text options = .ok imported
      ∧ exported.Arranges options.order imported.course.lessons :=
  have hlessons : exported.lessons ≠ [] := List.cons_ne_nil _ _
  ⟨read?_text, hlessons, importCourse_arranges options read?_text hlessons⟩

example : (exported.toCourse options).toOption.map (·.course.lessons.map fun lesson =>
    (lesson.id, lesson.pages.map Page.id)) = some [(2, [5, 1, 7]), (1, [4])] := by cbv

end Tangled

end Syllabus.Export
