/-!
# Syllabus: cutting texts at markers

`cutAt` finds the first place where a marker stands in a text. What lies before the marker, the
marker, and what lies behind it make up the text again, and the marker does not start any earlier.
-/

namespace Syllabus.Text

/-- What lies before and behind the first occurrence of `marker`, if there is one. -/
def cutAt (marker : List Char) : List Char → Option (List Char × List Char)
  | [] => if marker.isEmpty then some ([], []) else none
  | c :: rest =>
    if marker.isPrefixOf (c :: rest) then some ([], (c :: rest).drop marker.length)
    else (cutAt marker rest).map fun cut => (c :: cut.1, cut.2)

/-- The parts make up the text again, with the marker between them. -/
theorem eq_of_cutAt {marker text before behind : List Char}
    (h : cutAt marker text = some (before, behind)) : text = before ++ marker ++ behind := by
  induction text generalizing before with
  | nil => cases marker <;> simp_all [cutAt]
  | cons c rest ih =>
    unfold cutAt at h
    split at h
    · next found =>
      obtain ⟨rfl, rfl⟩ := by simpa using h
      exact List.prefix_iff_eq_append.mp (List.isPrefixOf_iff_prefix.mp found) |>.symm
    · obtain ⟨⟨before', behind'⟩, cut, both⟩ := Option.map_eq_some_iff.mp h
      obtain ⟨rfl, rfl⟩ := by simpa using both
      simp [ih cut]

/-- What lies behind the marker is shorter than the text, so that cutting on ends. -/
theorem length_lt_of_cutAt {marker text before behind : List Char}
    (h : cutAt marker text = some (before, behind)) (nonempty : marker ≠ []) :
    behind.length < text.length := by
  have := List.length_pos_iff.mpr nonempty
  simp [eq_of_cutAt h]
  omega

/-- The pieces of a text between the occurrences of a marker, found from left to right. A text
without the marker, or cut at an empty marker, is its own only piece. -/
def pieces (marker text : List Char) : List (List Char) :=
  if _nonempty : marker = [] then [text] else
  match _cut : cutAt marker text with
  | none => [text]
  | some (before, behind) => before :: pieces marker behind
termination_by text.length
decreasing_by exact length_lt_of_cutAt _cut _nonempty

/-- The pieces of a string between the occurrences of a character. -/
def fields (separator : Char) (s : String) : List String :=
  (s.toList.splitOn separator).map .ofList

def lineBreaks (cs : List Char) : Nat := cs.count '\n'

end Syllabus.Text
