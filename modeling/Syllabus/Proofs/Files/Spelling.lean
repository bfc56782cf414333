import Mathlib.Data.List.DropRight
import Syllabus.Proofs.Files.Ancestors
import Syllabus.Proofs.Files.Names

/-!
# Syllabus: how paths are written

The path of a name in a directory is the name behind a slash, so both can be told from how the path
is written: the name has no slash, and what stands around it ends with one. Paths that are written
differently can still lead to one place, unless they are written without detours.

* **`Path.div_injective`**: the directory and the name of a path.
* **`Path.eq_or_slash_of_lead_eq`**: only a slash at the end makes two spellings of one directory.
* **`Path.withExtension_div`**: a name with another extension.
* **`Path.IsPlain.eq_of_names_eq`**, **`Path.place_div_of_isPlain`**: what is written without detours
  leads to a place of its own.
-/

namespace Syllabus.Path

variable {name other : String}

/-! ## The last name -/

/-- What stands around the last name of a path: everything up to the last slash. -/
def around (path : Path) : String := .ofList (path.text.toList.rdropWhile (· ≠ '/'))

/-- What stands up to the last slash is not changed by a name behind it. -/
theorem rdropWhile_append_of_noSlash (front : List Char) {last : List Char} (h : '/' ∉ last) :
    (front ++ last).rdropWhile (· ≠ '/') = front.rdropWhile (· ≠ '/') := by
  induction last using List.reverseRecOn with
  | nil => rw [List.append_nil]
  | append_singleton last c ih =>
    have hlast : '/' ∉ last := fun hmem => h (List.mem_append_left _ hmem)
    have hc : c ≠ '/' := fun hsame => h (by simp [hsame])
    rw [← List.append_assoc, List.rdropWhile_concat_pos _ _ _ (by simpa using hc), ih hlast]

/-- What leads into a directory ends in a slash, if anything does. -/
theorem rdropWhile_lead (directory : Path) :
    directory.lead.toList.rdropWhile (· ≠ '/') = directory.lead.toList := by
  by_cases hempty : directory.text = ""
  · rw [lead_of_empty hempty]
    rfl
  · obtain ⟨front, hfront, _⟩ := exists_slash hempty
    rw [hfront, List.rdropWhile_concat_neg _ _ _ (by simp)]

/-- A name without a slash is written behind what leads into the directory. -/
theorem text_div (directory : Path) (hslash : '/' ∉ name.toList) :
    (directory / name).text = directory.lead ++ name :=
  text_join directory (isAbsolute_of_noSlash hslash)

/-- Around a name stands what leads on from its directory. -/
theorem around_div (directory : Path) (hslash : '/' ∉ name.toList) :
    (directory / name).around = directory.lead := by
  rw [around, text_div directory hslash, String.toList_append,
    rdropWhile_append_of_noSlash _ hslash, rdropWhile_lead, String.ofList_toList]

/-- **The directory and the name.** Both can be told from how the path of a name is written. -/
theorem div_injective {directory directory' : Path} (hslash : '/' ∉ name.toList)
    (hslash' : '/' ∉ other.toList) (h : directory / name = directory' / other) :
    directory.lead = directory'.lead ∧ name = other := by
  have hlead : directory.lead = directory'.lead := by
    rw [← around_div directory hslash, h, around_div directory' hslash']
  have htext := congrArg Path.text h
  rw [text_div directory hslash, text_div directory' hslash', hlead] at htext
  exact ⟨hlead, (String.append_right_inj _).mp htext⟩

/-! ## Directories -/

/-- A path that is not empty is led by its own text, with one slash at the end. -/
theorem lead_of_some {path : Path} (h : path.text ≠ "") :
    path.lead = if path.endsWithSlash then path.text else path.text ++ "/" := by
  simp [lead, h]

theorem lead_of_noSlash (hname : name ≠ "") (hslash : '/' ∉ name.toList) :
    lead ⟨name⟩ = name ++ "/" := by
  have hlast : endsWithSlash ⟨name⟩ = false := by
    rw [endsWithSlash, beq_eq_false_iff_ne]
    intro hlast
    exact hslash (List.mem_of_getLast? hlast)
  simp [lead, hname, hlast]

/-- What stands in front does not change how a path ends. -/
theorem endsWithSlash_append (front : String) {path : Path} (h : path.text ≠ "") :
    endsWithSlash ⟨front ++ path.text⟩ = path.endsWithSlash := by
  have hne : path.text.toList ≠ [] := fun hnil => h (String.toList_eq_nil_iff.mp hnil)
  rw [endsWithSlash, endsWithSlash, String.toList_append, List.getLast?_append_of_ne_nil _ hne]

/-- What leads on is written like a directory. -/
theorem lead_lead (directory : Path) : lead ⟨directory.lead⟩ = directory.lead := by
  by_cases hempty : directory.text = ""
  · rw [lead_of_empty hempty]
    rfl
  · obtain ⟨front, hfront, _⟩ := exists_slash hempty
    have hslash : endsWithSlash ⟨directory.lead⟩ = true := by
      rw [endsWithSlash, hfront, List.getLast?_concat]
      rfl
    rw [lead, if_pos (by simp [hslash])]

/-- What leads on from a directory inside another one. -/
theorem lead_join (directory : Path) {path : Path} (hpath : path.isAbsolute = false) :
    (directory.join path).lead = directory.lead ++ path.lead := by
  have hjoin : directory.join path = ⟨directory.lead ++ path.text⟩ :=
    congrArg Path.mk (text_join directory hpath)
  by_cases hempty : path.text = ""
  · rw [hjoin, lead_of_empty hempty, hempty, String.append_empty, lead_lead]
  · have hsome : directory.lead ++ path.text ≠ "" := by simp [hempty]
    rw [hjoin, lead_of_some hsome, lead_of_some hempty, endsWithSlash_append _ hempty]
    split
    · rfl
    · exact String.append_assoc

/-- Only a slash at the end makes two spellings of one directory. -/
theorem eq_or_slash_of_lead_eq (h : lead ⟨name⟩ = lead ⟨other⟩) :
    name = other ∨ name = other ++ "/" ∨ other = name ++ "/" := by
  unfold lead at h
  split at h <;> split at h
  · exact .inl h
  · exact .inr (.inl h)
  · exact .inr (.inr h.symm)
  · exact .inl ((String.append_left_inj _).mp h)

/-- Names without a slash tell directories apart. -/
theorem eq_of_lead_div {directory : Path} (hslash : '/' ∉ name.toList)
    (hslash' : '/' ∉ other.toList)
    (h : (directory / name).lead = (directory / other).lead) : name = other := by
  have hjoin := lead_join directory (isAbsolute_of_noSlash hslash)
  have hjoin' := lead_join directory (isAbsolute_of_noSlash hslash')
  have hlead := (String.append_right_inj _).mp (hjoin.symm.trans (h.trans hjoin'))
  rcases eq_or_slash_of_lead_eq hlead with hsame | hbehind | hbehind
  · exact hsame
  · exact absurd (by simp [hbehind]) hslash
  · exact absurd (by simp [hbehind]) hslash'

/-! ## Extensions -/

/-- The parts of the path of a name in a directory: the name comes last. -/
theorem exists_fields_div (directory : Path) : ∃ before : List String, ∀ name : String,
    '/' ∉ name.toList → Text.fields '/' (directory / name).text = before ++ [name] := by
  have hlead : ∃ before, Text.fields '/' directory.lead = before ++ [""] := by
    by_cases hempty : directory.text = ""
    · rw [lead_of_empty hempty]
      exact ⟨[], fields_empty⟩
    · obtain ⟨front, hfront, _⟩ := exists_slash hempty
      rw [Text.fields, hfront, List.splitOn_append_cons_self, List.map_append]
      exact ⟨_, rfl⟩
  obtain ⟨before, hbefore⟩ := hlead
  refine ⟨before, fun name hslash => ?_⟩
  rw [text_div directory hslash, fields_append hbefore hslash, String.empty_append]

/-- Behind others, the last part has a dot in front of it. -/
theorem suffix_intercalate_of_ne_nil {before : List (List Char)} {last : List Char}
    (h : before ≠ []) : '.' :: last <:+ ['.'].intercalate (before ++ [last]) := by
  induction before with
  | nil => exact absurd rfl h
  | cons first before ih =>
    rw [List.cons_append, List.intercalate_cons_of_ne_nil (by simp), List.append_assoc]
    refine List.IsSuffix.trans ?_ (List.suffix_append _ _)
    cases before with
    | nil => simp
    | cons second before => exact (ih (List.cons_ne_nil _ _)).trans (List.suffix_append _ _)

/-- A name with a dot behind its stem is split at this dot. -/
theorem splitExtension_append {stem extension : String} (hstem : stem ≠ "")
    (hdot : '.' ∉ extension.toList) :
    splitExtension (stem ++ "." ++ extension) = (stem, some extension) := by
  have hfields : Text.fields '.' (stem ++ "." ++ extension)
      = Text.fields '.' stem ++ [extension] := by
    have hlist : (stem ++ "." ++ extension).toList = stem.toList ++ '.' :: extension.toList := by
      simp
    rw [Text.fields, Text.fields, hlist, List.splitOn_append_cons_self,
      List.splitOn_eq_singleton hdot, List.map_append]
    simp
  have hjoin : ".".intercalate (Text.fields '.' stem) = stem := intercalate_fields rfl stem
  -- A stem is more than the nothing in front of a dot at the start.
  have hsome : ¬ ((Text.fields '.' stem).all (· = "") ∧ (Text.fields '.' stem).length ≤ 1) := by
    rintro ⟨hall, hlength⟩
    cases hparts : Text.fields '.' stem with
    | nil =>
      rw [hparts] at hjoin
      exact hstem hjoin.symm
    | cons first rest =>
      rw [hparts] at hall hlength hjoin
      obtain rfl : rest = [] := by simpa using hlength
      obtain rfl : first = "" := by simpa using hall
      exact hstem hjoin.symm
  rw [splitExtension, hfields]
  simp only [List.reverse_append, List.reverse_singleton, List.singleton_append, List.all_reverse,
    List.length_reverse, List.reverse_reverse, hjoin]
  rw [if_neg (by simpa using hsome)]

/-- An extension stands at the end of the name, behind a dot. -/
theorem suffix_of_extensionOf {name extension : String} (h : extensionOf name = some extension) :
    '.' :: extension.toList <:+ name.toList := by
  have hjoin : ".".intercalate (Text.fields '.' name) = name := intercalate_fields rfl name
  rw [extensionOf, splitExtension] at h
  split at h
  · next last before hfields =>
    split at h
    · cases h
    · next hlonger =>
      cases h
      -- The extension is the last of the parts, and there are others.
      rw [List.reverse_eq_cons_iff] at hfields
      have hbefore : before.reverse ≠ [] := by
        intro hnone
        rw [List.reverse_eq_nil_iff] at hnone
        simp [hnone] at hlonger
      rw [← hjoin, hfields, String.toList_intercalate, List.map_append]
      exact suffix_intercalate_of_ne_nil (by simpa using hbefore)
  · cases h

/-- **Another extension.** The name of a file keeps all but its last extension. -/
theorem withExtension_div (directory : Path) {stem extension other : String} (hstem : stem ≠ "")
    (hname : IsName (stem ++ "." ++ extension)) (hdot : '.' ∉ extension.toList)
    (hother : '/' ∉ other.toList) :
    (directory / (stem ++ "." ++ extension)).withExtension other
      = directory / (stem ++ "." ++ other) := by
  have hslash : '/' ∉ (stem ++ "." ++ other).toList := by
    have hnone := hname.noSlash
    simp only [String.toList_append, List.mem_append, not_or] at hnone ⊢
    exact ⟨hnone.1, hother⟩
  obtain ⟨before, hbefore⟩ := exists_fields_div directory
  have hsplit := splitLast?_of_fields (hbefore _ hname.noSlash)
    ⟨hname.nonempty, hname.notSelf, hname.notParent⟩
  rw [withExtension, hsplit]
  simp only [if_neg hname.notParent, splitExtension_append hstem hdot]
  rw [← hbefore _ hslash, intercalate_fields rfl]

/-! ## Without detours -/

/-- Whether a text leads on without a detour: nothing, or names with one slash between them. -/
def IsPlain (name : String) : Prop := name = "" ∨ ∀ part ∈ Text.fields '/' name, IsName part

instance (name : String) : Decidable (IsPlain name) :=
  inferInstanceAs (Decidable (name = "" ∨ ∀ part ∈ Text.fields '/' name, IsName part))

theorem IsName.isPlain (h : IsName name) : IsPlain name := by
  refine .inr fun part hpart => ?_
  rw [Text.fields, List.splitOn_eq_singleton h.noSlash, List.map_singleton, String.ofList_toList,
    List.mem_singleton] at hpart
  rw [hpart]
  exact h

namespace IsPlain

/-- The names on the way are the parts between the slashes. -/
theorem names_eq (h : IsPlain name) (hname : name ≠ "") : names ⟨name⟩ = Text.fields '/' name := by
  have hparts := h.resolve_left hname
  exact List.filter_eq_self.mpr fun part hpart => by simpa using (hparts part hpart).nonempty

/-- The names of a plain path are proper names. -/
theorem isName_of_mem (h : IsPlain name) : ∀ part ∈ names ⟨name⟩, IsName part := by
  by_cases hname : name = ""
  · rw [hname]
    exact nofun
  · rw [h.names_eq hname]
    exact h.resolve_left hname

/-- A plain path is relative. -/
theorem isAbsolute (h : IsPlain name) : Path.isAbsolute ⟨name⟩ = false := by
  by_cases hname : name = ""
  · rw [hname]
    rfl
  · rw [Bool.eq_false_iff]
    intro habsolute
    cases hfields : Text.fields '/' name with
    | nil =>
      have hempty : "/".intercalate (Text.fields '/' name) = name := intercalate_fields rfl name
      rw [hfields] at hempty
      exact hname hempty.symm
    | cons first rest =>
      -- Nothing stands in front of the first slash, which no name is.
      have hiff : Path.isAbsolute ⟨name⟩ = true ↔ first = "" :=
        isAbsolute_iff_of_fields hfields hname
      have hfirst := hiff.mp habsolute
      have hmem : first ∈ Text.fields '/' name := by simp [hfields]
      exact (h.resolve_left hname first hmem).nonempty hfirst

/-- What leads on without a detour is told by its names. -/
theorem eq_of_names_eq (h : IsPlain name) (hother : IsPlain other)
    (hnames : names ⟨name⟩ = names ⟨other⟩) : name = other := by
  have hempty {text : String} (hplain : IsPlain text) (hnone : names ⟨text⟩ = []) : text = "" := by
    by_contra hsome
    have htext : "/".intercalate (Text.fields '/' text) = text := intercalate_fields rfl text
    rw [← hplain.names_eq hsome, hnone] at htext
    exact hsome htext.symm
  -- The empty path has no names, and it is the only plain one.
  by_cases hname : name = ""
  · rw [hname] at hnames ⊢
    exact (hempty hother hnames.symm).symm
  · by_cases hname' : other = ""
    · rw [hname'] at hnames ⊢
      exact hempty h hnames
    · rw [h.names_eq hname, hother.names_eq hname'] at hnames
      have htext : "/".intercalate (Text.fields '/' name) = name := intercalate_fields rfl name
      rw [← htext, hnames, intercalate_fields rfl]

end IsPlain

/-- Proper names are entered one below the other. -/
theorem foldl_enter_of_isName {place names : List String} (h : ∀ name ∈ names, IsName name) :
    names.foldl enter place = place ++ names := by
  induction names generalizing place with
  | nil => exact (List.append_nil place).symm
  | cons name names ih =>
    obtain ⟨hname, hnames⟩ := List.forall_mem_cons.mp h
    rw [List.foldl_cons, ih hnames, enter, if_neg hname.notSelf, if_neg hname.notParent,
      List.append_assoc, List.singleton_append]

/-- What leads on without a detour leads to its names in the place of the directory. -/
theorem place_div_of_isPlain (start : List String) (directory : Path) (h : IsPlain name) :
    (directory / name).place start = directory.place start ++ names ⟨name⟩ := by
  rw [← foldl_enter_of_isName h.isName_of_mem]
  exact place_join start directory h.isAbsolute

end Syllabus.Path
