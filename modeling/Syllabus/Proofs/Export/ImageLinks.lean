import Mathlib.Data.List.DropRight
import Mathlib.Data.List.Forall2
import Syllabus.Export.Image
import Syllabus.Proofs.Text.Markers

/-!
# Syllabus: the links of a text, before and after import

A text falls in one way into its links, found from left to right, and what stands around them. What
an import puts in the place of an image has no quote, so it ends no link and starts none: in the new
text the same links are found, and between them stands what stood there.

* **`LinkedText.IsRead`**: the links of a text.
* **`localizeLinks_text`**: what becomes of them.
* **`localizeText_restored`**: the way back.
-/

namespace Syllabus.Export

/-! ## Links -/

/-- A link in a text: what stands between the link before it and its marker, and its place. -/
@[ext] structure Link where
  before : List Char
  place : List Char
deriving DecidableEq

namespace Link

def text (link : Link) : List Char := link.before ++ sourceMarker ++ link.place ++ ['"']

/-- The link as it is after import. -/
def localized (link : Link) : Link := { link with place := localSource link.place }

/-- The places of links that are not kept. -/
def movedPlaces (links : List Link) : List (List Char) :=
  (links.map Link.place).filter fun place => !isKept place

/-- Links with other places in turn, but for those that are kept. -/
def replacePlaces : List Link → List (List Char) → List Link
  | [], _ => []
  | link :: links, places =>
    if isKept link.place then link :: replacePlaces links places
    else { link with place := places.headD link.place } :: replacePlaces links places.tail

end Link

/-- Links in a text, and what stands behind the last. -/
structure LinkedText where
  links : List Link
  rest : List Char
deriving DecidableEq

namespace LinkedText

def text (linked : LinkedText) : List Char := linked.links.flatMap Link.text ++ linked.rest

/-- The text as it is after import. -/
def localized (linked : LinkedText) : LinkedText :=
  { linked with links := linked.links.map Link.localized }

/-- Whether these are the links of a text as they are found from left to right: each starts at the
first marker and ends at the first quote, and there are no more of them. -/
structure IsRead (linked : LinkedText) (text : List Char) : Prop where
  text_eq : linked.text = text
  first : ∀ link ∈ linked.links, ¬ sourceMarker <:+: link.before
  closed : ∀ link ∈ linked.links, '"' ∉ link.place
  /-- The first marker that is left has no quote behind it. -/
  unclosed : ∀ before behind, linked.rest = before ++ sourceMarker ++ behind →
    ¬ sourceMarker <:+: before → '"' ∉ behind

end LinkedText

section Cuts

variable {before behind place rest text : List Char}

theorem sourceMarker_ne_nil : sourceMarker ≠ [] := by decide

/-- Where the marker has not come yet, the text is cut at it. -/
theorem cutAt_marker (h : ¬ sourceMarker <:+: before) (behind : List Char) :
    Text.cutAt sourceMarker (before ++ sourceMarker ++ behind) = some (before, behind) :=
  Text.cutAt_append (by decide : 's' ∉ ['r', 'c', '=', '"']) behind h

/-- A place is cut off at the quote behind it. -/
theorem cutAt_quote (h : '"' ∉ place) (rest : List Char) :
    Text.cutAt ['"'] (place ++ ['"'] ++ rest) = some (place, rest) :=
  Text.cutAt_append List.not_mem_nil rest (by rwa [List.singleton_infix_iff])

/-- A link is what comes before its marker, the marker, its place and a quote. -/
theorem Link.text_append (link : Link) (rest : List Char) :
    link.text ++ rest = link.before ++ sourceMarker ++ (link.place ++ ['"'] ++ rest) := by
  simp [Link.text]

/-- The first link of a text can be told from what is behind it. -/
theorem Link.text_append_inj {link other : Link} {behind : List Char}
    (hbefore : ¬ sourceMarker <:+: link.before) (hplace : '"' ∉ link.place)
    (hotherBefore : ¬ sourceMarker <:+: other.before) (hotherPlace : '"' ∉ other.place)
    (h : link.text ++ rest = other.text ++ behind) : link = other ∧ rest = behind := by
  rw [Link.text_append, Link.text_append] at h
  -- Both texts are cut at their first marker, and then at the first quote.
  have hmarker := cutAt_marker hbefore (link.place ++ ['"'] ++ rest)
  rw [h, cutAt_marker hotherBefore, Option.some.injEq, Prod.mk.injEq] at hmarker
  obtain ⟨hsame, hbehind⟩ := hmarker
  have hquote := cutAt_quote hplace rest
  rw [← hbehind, cutAt_quote hotherPlace, Option.some.injEq, Prod.mk.injEq] at hquote
  exact ⟨Link.ext hsame.symm hquote.1.symm, hquote.2.symm⟩

/-- What an import makes of a link. -/
theorem localizeLinks_link {link : Link} (hbefore : ¬ sourceMarker <:+: link.before)
    (hplace : '"' ∉ link.place) (rest : List Char) :
    localizeLinks (link.text ++ rest)
      = (link.localized.text ++ (localizeLinks rest).1,
        if isKept link.place then (localizeLinks rest).2
        else link.place :: (localizeLinks rest).2) := by
  have hmarker := cutAt_marker hbefore (link.place ++ ['"'] ++ rest)
  have hquote := cutAt_quote hplace rest
  rw [Link.text_append, localizeLinks]
  -- The cuts at marker and quote are those just found.
  split
  · next hnone => cases hmarker.symm.trans hnone
  · next hsome =>
    cases hmarker.symm.trans hsome
    split
    · next hnone => cases hquote.symm.trans hnone
    · next hsome =>
      cases hquote.symm.trans hsome
      simp [Link.text, Link.localized]

/-- Nothing becomes of a text without links. -/
theorem localizeLinks_rest
    (h : ∀ before behind, rest = before ++ sourceMarker ++ behind →
      ¬ sourceMarker <:+: before → '"' ∉ behind) :
    localizeLinks rest = (rest, []) := by
  rw [localizeLinks]
  split
  · rfl
  · next before behind hmarker =>
    -- There is a marker, but it has no quote behind it.
    have hopen : Text.cutAt ['"'] behind = none := by
      rw [Text.cutAt_eq_none_iff (List.cons_ne_nil _ _), List.singleton_infix_iff]
      exact h before behind (Text.eq_of_cutAt hmarker)
        (Text.not_infix_of_cutAt sourceMarker_ne_nil hmarker)
    split
    · rfl
    · next hsome => cases hopen.symm.trans hsome

end Cuts

namespace LinkedText

variable {linked other : LinkedText} {text : List Char}

/-! ## Reading -/

/-- The first link is read up to the quote, and the others from there. -/
theorem isRead_cons_iff {link : Link} {links : List Link} {rest : List Char} :
    IsRead ⟨link :: links, rest⟩ text
      ↔ ¬ sourceMarker <:+: link.before ∧ '"' ∉ link.place
        ∧ ∃ behind, text = link.text ++ behind ∧ IsRead ⟨links, rest⟩ behind := by
  constructor
  · rintro ⟨htext, hfirst, hclosed, hunclosed⟩
    obtain ⟨hbefore, hfirst⟩ := List.forall_mem_cons.mp hfirst
    obtain ⟨hplace, hclosed⟩ := List.forall_mem_cons.mp hclosed
    -- The part of the text behind the first link is what the others are read from.
    refine ⟨hbefore, hplace, _, ?_, rfl, hfirst, hclosed, hunclosed⟩
    rw [← htext]
    simp [LinkedText.text]
  · rintro ⟨hbefore, hplace, behind, rfl, hread⟩
    refine ⟨?_, List.forall_mem_cons.mpr ⟨hbefore, hread.first⟩,
      List.forall_mem_cons.mpr ⟨hplace, hread.closed⟩, hread.unclosed⟩
    rw [← hread.text_eq]
    simp [LinkedText.text]

/-- Every text can be read. -/
theorem exists_isRead (text : List Char) : ∃ linked : LinkedText, linked.IsRead text := by
  -- As the links are localized: no marker, a marker that is not closed, or a link.
  induction text using localizeLinks.induct with
  | case1 text hnone =>
    have hfree := (Text.cutAt_eq_none_iff sourceMarker_ne_nil).mp hnone
    refine ⟨⟨[], text⟩, rfl, by simp, by simp, fun before behind htext _ => ?_⟩
    exact absurd ⟨before, behind, htext.symm⟩ hfree
  | case2 text before behind hmarker hnone =>
    refine ⟨⟨[], text⟩, rfl, by simp, by simp, fun before' behind' htext hfirst => ?_⟩
    -- There is one first marker only.
    have hmarker' : Text.cutAt sourceMarker text = some (before', behind') := by
      rw [show text = _ from htext]
      exact cutAt_marker hfirst behind'
    cases hmarker.symm.trans hmarker'
    rwa [Text.cutAt_eq_none_iff (List.cons_ne_nil _ _), List.singleton_infix_iff] at hnone
  | case3 text before behind hmarker place rest hquote _ _ _ ih =>
    obtain ⟨linked, hread⟩ := ih
    have hfirst := Text.not_infix_of_cutAt sourceMarker_ne_nil hmarker
    have hclosed := Text.not_infix_of_cutAt (List.cons_ne_nil _ _) hquote
    rw [List.singleton_infix_iff] at hclosed
    refine ⟨⟨⟨before, place⟩ :: linked.links, linked.rest⟩,
      isRead_cons_iff.mpr ⟨hfirst, hclosed, rest, ?_, hread⟩⟩
    rw [Link.text_append, Text.eq_of_cutAt hmarker, Text.eq_of_cutAt hquote]

/-- A text without links has no first one. -/
theorem not_isRead_cons {link : Link} {links : List Link} {rest rest' : List Char}
    (h : IsRead ⟨[], rest⟩ text) : ¬ IsRead ⟨link :: links, rest'⟩ text := by
  intro hother
  obtain ⟨hbefore, _, behind, htext, _⟩ := isRead_cons_iff.mp hother
  have hrest : rest = link.before ++ sourceMarker ++ (link.place ++ ['"'] ++ behind) := by
    rw [← Link.text_append, ← htext]
    exact h.text_eq
  -- The quote of that link would close the marker that was left open.
  exact h.unclosed _ _ hrest hbefore (by simp)

/-- A text can be read in one way only. -/
theorem IsRead.unique (h : linked.IsRead text) (hother : other.IsRead text) : linked = other := by
  obtain ⟨links, rest⟩ := linked
  obtain ⟨links', rest'⟩ := other
  induction links generalizing links' text with
  | nil =>
    cases links' with
    | nil => exact congrArg _ (h.text_eq.trans hother.text_eq.symm)
    | cons link links' => exact absurd hother (not_isRead_cons h)
  | cons link links ih =>
    cases links' with
    | nil => exact absurd h (not_isRead_cons hother)
    | cons link' links' =>
      obtain ⟨hbefore, hplace, behind, rfl, hread⟩ := isRead_cons_iff.mp h
      obtain ⟨hbefore', hplace', behind', htext, hread'⟩ := isRead_cons_iff.mp hother
      -- The first marker and the first quote behind it are the same in both.
      obtain ⟨rfl, rfl⟩ := Link.text_append_inj hbefore hplace hbefore' hplace' htext
      cases ih hread links' hread'
      rfl

end LinkedText

/-! ## Places -/

/-- Whether a file name is the part of a place behind its last slash or backslash. -/
structure IsFileOf (file source : List Char) : Prop where
  noSlash : ∀ c ∈ file, c ≠ '/' ∧ c ≠ '\\'
  behind : ∃ front, source = front ++ file
    ∧ (front = [] ∨ front.getLast? = some '/' ∨ front.getLast? = some '\\')

section Places

variable {source file : List Char}

/-- Whether a character belongs to a file name. -/
def isNamePart (c : Char) : Bool := c != '/' && c != '\\'

/-- A name has neither kind of slash in it. -/
theorem isNamePart_iff {c : Char} : isNamePart c = true ↔ c ≠ '/' ∧ c ≠ '\\' := by
  simp [isNamePart]

/-- The file of a source is what comes behind its last slash. -/
theorem fileOf_eq (source : List Char) : fileOf source = source.rtakeWhile isNamePart := rfl

theorem isFileOf_fileOf (source : List Char) : IsFileOf (fileOf source) source where
  noSlash c hc := by
    rw [fileOf_eq] at hc
    exact isNamePart_iff.mp (List.mem_rtakeWhile_imp hc)
  behind := by
    refine ⟨source.rdropWhile isNamePart, (List.rdropWhile_append_rtakeWhile ..).symm, ?_⟩
    -- Where nothing is in front there is no slash.
    by_cases hfront : source.rdropWhile isNamePart = []
    · exact .inl hfront
    · have hlast := List.rdropWhile_last_not isNamePart source hfront
      rw [isNamePart_iff, not_and_or, not_not, not_not] at hlast
      rw [List.getLast?_eq_some_getLast hfront, Option.some.injEq, Option.some.injEq]
      exact .inr hlast

/-- Behind the directory of images only a file name is left. -/
theorem fileOf_images (h : ∀ c ∈ file, c ≠ '/' ∧ c ≠ '\\') :
    fileOf ("images/".toList ++ file) = file := by
  -- The directory ends in a slash, which stops the run.
  rw [fileOf, List.reverse_append, List.takeWhile_append_of_pos]
  · simp
  · intro c hc
    exact isNamePart_iff.mpr (h c (List.mem_reverse.mp hc))

theorem localSource_of_isKept (h : isKept source = true) : localSource source = source := by
  rw [localSource, if_pos h]

/-- What is not kept becomes its file among the images. -/
theorem localSource_of_not_isKept (h : isKept source = false) :
    localSource source = "images/".toList ++ fileOf source := by
  rw [localSource, if_neg (by simp [h])]

/-- A place among the images is not one that is kept. -/
theorem isKept_images (file : List Char) : isKept ("images/".toList ++ file) = false := by
  simp [isKept]

/-- Localizing a source does not change whether it is kept. -/
theorem isKept_localSource (source : List Char) : isKept (localSource source) = isKept source := by
  cases h : isKept source with
  | true => rw [localSource_of_isKept h, h]
  | false => rw [localSource_of_not_isKept h, isKept_images]

/-- A place that is local already stays. -/
theorem localSource_localSource (source : List Char) :
    localSource (localSource source) = localSource source := by
  cases h : isKept source with
  | true => rw [localSource_of_isKept h, localSource_of_isKept h]
  | false =>
    rw [localSource_of_not_isKept h, localSource_of_not_isKept (isKept_images _),
      fileOf_images (isFileOf_fileOf source).noSlash]

theorem quote_notMem_localSource (h : '"' ∉ source) : '"' ∉ localSource source := by
  cases hkept : isKept source with
  | true => rwa [localSource_of_isKept hkept]
  | false =>
    rw [localSource_of_not_isKept hkept, List.mem_append, not_or]
    exact ⟨by decide, fun hmem => h ((List.rtakeWhile_suffix isNamePart source).subset hmem)⟩

end Places

/-! ## Import and the way back -/

namespace Link

/-- The first place is moved unless it is kept. -/
theorem movedPlaces_cons (link : Link) (links : List Link) :
    movedPlaces (link :: links)
      = if isKept link.place then movedPlaces links else link.place :: movedPlaces links := by
  rw [movedPlaces, List.map_cons, List.filter_cons]
  cases isKept link.place <;> rfl

/-- Putting the old places back in turn undoes an import. -/
theorem replacePlaces_localized (links : List Link) :
    replacePlaces (links.map Link.localized) (movedPlaces links) = links := by
  induction links with
  | nil => rfl
  | cons link links ih =>
    rw [List.map_cons, replacePlaces, movedPlaces_cons]
    -- A link is kept after import just if it was kept before.
    have hkept : isKept link.localized.place = isKept link.place := isKept_localSource _
    rw [hkept]
    split
    · next h => rw [ih, localized, localSource_of_isKept h]
    · rw [List.headD_cons, List.tail_cons, ih]
      rfl

/-- The new places are the file names of the old ones, in the directory of images. -/
theorem forall₂_movedPlaces (links : List Link) :
    List.Forall₂ (fun place source => ∃ file, place = "images/".toList ++ file
      ∧ IsFileOf file source) (movedPlaces (links.map Link.localized)) (movedPlaces links) := by
  -- On the links; those that are kept are in neither list.
  induction links with
  | nil => exact .nil
  | cons link links ih =>
    have hkept : isKept link.localized.place = isKept link.place := isKept_localSource _
    rw [List.map_cons, movedPlaces_cons, movedPlaces_cons, hkept]
    split
    · exact ih
    · next h =>
      have hplace := localSource_of_not_isKept (by simpa using h)
      exact .cons ⟨_, hplace, isFileOf_fileOf link.place⟩ ih

end Link

namespace LinkedText

variable {linked : LinkedText} {text : List Char}

/-- What becomes of the links of a text. -/
theorem localizeLinks_text (h : linked.IsRead text) :
    localizeLinks text = (linked.localized.text, Link.movedPlaces linked.links) := by
  obtain ⟨links, rest⟩ := linked
  induction links generalizing text with
  | nil =>
    rw [show text = rest from h.text_eq.symm]
    exact localizeLinks_rest h.unclosed
  | cons link links ih =>
    -- The first link is localized, and the import goes on behind it.
    obtain ⟨hbefore, hplace, behind, rfl, hread⟩ := isRead_cons_iff.mp h
    rw [localizeLinks_link hbefore hplace, ih hread, Link.movedPlaces_cons]
    simp [localized, LinkedText.text]

/-- In the text after import the same links are found. -/
theorem IsRead.localized (h : linked.IsRead text) :
    linked.localized.IsRead linked.localized.text where
  text_eq := rfl
  first link hlink := by
    obtain ⟨old, hold, rfl⟩ := List.mem_map.mp hlink
    exact h.first old hold
  closed link hlink := by
    obtain ⟨old, hold, rfl⟩ := List.mem_map.mp hlink
    exact quote_notMem_localSource (h.closed old hold)
  unclosed := h.unclosed

/-- Localizing a text twice is localizing it once. -/
theorem localized_localized (linked : LinkedText) :
    linked.localized.localized = linked.localized := by
  unfold localized Link.localized
  simp only [List.map_map, Function.comp_def, localSource_localSource]

end LinkedText

/-! ## Texts -/

/-- A text is localized as its links are. -/
theorem localizeText_eq {linked : LinkedText} {text : String} (h : linked.IsRead text.toList) :
    localizeText text
      = (.ofList linked.localized.text, (Link.movedPlaces linked.links).map .ofList) := by
  rw [localizeText, LinkedText.localizeLinks_text h]

/-- Nothing is left behind the last link if there is no marker any more. -/
theorem LinkedText.isRead_of_free {linked : LinkedText}
    (hfirst : ∀ link ∈ linked.links, ¬ sourceMarker <:+: link.before)
    (hclosed : ∀ link ∈ linked.links, '"' ∉ link.place) (hrest : ¬ sourceMarker <:+: linked.rest) :
    linked.IsRead linked.text where
  text_eq := rfl
  first := hfirst
  closed := hclosed
  unclosed before behind h _ := absurd ⟨before, behind, h.symm⟩ hrest

/-- **Links before and after import.** In a text after import the same links are found, between the
same texts. Each place that is not kept is the name of the file that the old place led to, in the
directory of images; with the old places put back in turn, it is the text before import; and a
second import changes nothing. -/
theorem localizeText_restored (text : String) :
    ∃ original changed : LinkedText,
      (∀ linked : LinkedText, linked.IsRead text.toList ↔ linked = original)
      ∧ (∀ linked : LinkedText, linked.IsRead (localizeText text).1.toList ↔ linked = changed)
      ∧ changed.links.map Link.before = original.links.map Link.before
      ∧ changed.rest = original.rest
      ∧ LinkedText.text { changed with
          links := Link.replacePlaces changed.links ((localizeText text).2.map String.toList) }
        = text.toList
      ∧ List.Forall₂ (fun place source => ∃ file, place = "images/".toList ++ file
          ∧ IsFileOf file source)
        (Link.movedPlaces changed.links) ((localizeText text).2.map String.toList)
      ∧ (localizeText (localizeText text).1).1 = (localizeText text).1 := by
  obtain ⟨original, hread⟩ := LinkedText.exists_isRead text.toList
  have hchanged := hread.localized
  have hresult := localizeText_eq hread
  have hplaces : (localizeText text).2.map String.toList = Link.movedPlaces original.links := by
    rw [hresult]
    simp [Function.comp_def]
  have htext : (localizeText text).1.toList = original.localized.text := by
    rw [hresult, String.toList_ofList]
  rw [hplaces, htext]
  -- Both readings are unique, and the sources put back are those of the original.
  refine ⟨original, original.localized, fun linked => ⟨fun h => h.unique hread, fun h => h ▸ hread⟩,
    fun linked => ⟨fun h => h.unique hchanged, fun h => h ▸ hchanged⟩, ?_, rfl, ?_,
    Link.forall₂_movedPlaces original.links, ?_⟩
  · rw [LinkedText.localized, List.map_map]
    rfl
  · rw [← hread.text_eq]
    exact congrArg (fun links => LinkedText.text ⟨links, original.rest⟩)
      (Link.replacePlaces_localized original.links)
  · rw [← htext] at hchanged
    rw [localizeText_eq hchanged, LinkedText.localized_localized, hresult]

end Syllabus.Export
