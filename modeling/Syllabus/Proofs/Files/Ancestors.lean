import Syllabus.Proofs.Files.Places

/-!
# Syllabus: the way down to a path

A path that never goes back up leads through the places of its ancestors: each of them is on the way
to the place of the path. If its last part is a name, this name is all that its place has behind the
place of its parent, and a path with more put behind it leads into the same directory.

* **`Path.place_ancestor`**: the places of ancestors.
* **`Path.Descends.place_parent`**: the place of the parent.
* **`Path.Descends.append`**: the place of a path with an ending put behind it.
-/

namespace Syllabus

namespace Path

/-! ## Parts between slashes -/

/-- A part of the split characters has no slash. -/
theorem not_mem_of_mem_splitOn {part text : List Char} (h : part ∈ text.splitOn '/') :
    '/' ∉ part := by
  -- On the characters: a slash begins another part.
  induction text generalizing part with
  | nil =>
    rw [List.mem_singleton.mp h]
    exact List.not_mem_nil
  | cons c text ih =>
    rw [List.splitOn_cons_eq_if_modifyHead] at h
    split at h
    · rcases List.mem_cons.mp h with rfl | hmem
      · exact List.not_mem_nil
      · exact ih hmem
    · next hc =>
      -- The character goes to the front of the first part.
      cases hsplit : text.splitOn '/' with
      | nil => exact absurd hsplit (List.splitOn_ne_nil _ _)
      | cons first rest =>
        rw [hsplit, List.modifyHead_cons] at h
        rw [hsplit] at ih
        rcases List.mem_cons.mp h with rfl | hmem
        · rw [List.mem_cons, not_or]
          exact ⟨fun hsame => hc (by simp [← hsame]), ih List.mem_cons_self⟩
        · exact ih (.tail _ hmem)

/-- A field between slashes has none itself. -/
theorem not_mem_of_mem_fields {part text : String} (h : part ∈ Text.fields '/' text) :
    '/' ∉ part.toList := by
  obtain ⟨chars, hchars, rfl⟩ := List.mem_map.mp h
  rw [String.toList_ofList]
  exact not_mem_of_mem_splitOn hchars

/-- Parts without slashes are the fields of what joins them. -/
theorem fields_intercalate {parts : List String} (hparts : parts ≠ [])
    (hslash : ∀ part ∈ parts, '/' ∉ part.toList) :
    Text.fields '/' ("/".intercalate parts) = parts := by
  rw [Text.fields, String.toList_intercalate]
  change (List.splitOn '/' (['/'].intercalate (parts.map String.toList))).map String.ofList = parts
  rw [List.splitOn_intercalate '/' (by simpa using hslash) (by simpa using hparts)]
  simp

/-- The parts of a text make it up again, with what separated them between them. -/
theorem intercalate_fields {separator : String} {c : Char} (h : separator.toList = [c])
    (text : String) : separator.intercalate (Text.fields c text) = text := by
  rw [← String.toList_inj, Text.fields, String.toList_intercalate, List.map_map, h]
  simp

/-- The empty text has one empty field. -/
theorem fields_empty : Text.fields '/' "" = [""] := by decide

/-- What is written behind a path without a slash goes to the end of its last part. -/
theorem fields_append {text last ending : String} {before : List String}
    (h : Text.fields '/' text = before ++ [last]) (hending : '/' ∉ ending.toList) :
    Text.fields '/' (text ++ ending) = before ++ [last ++ ending] := by
  have hparts := fun part => @not_mem_of_mem_fields part text
  have htext : text = "/".intercalate (before ++ [last]) := h ▸ (intercalate_fields rfl text).symm
  have hjoin : text ++ ending = "/".intercalate (before ++ [last ++ ending]) := by
    rw [htext, ← String.toList_inj, String.toList_append, String.toList_intercalate,
      String.toList_intercalate, List.map_append, List.map_append]
    simp only [List.map_singleton, String.toList_append]
    -- On the parts in front, which both texts share.
    induction before.map String.toList with
    | nil => simp
    | cons first before ih =>
      rw [List.cons_append, List.cons_append, List.intercalate_cons_of_ne_nil (by simp),
        List.intercalate_cons_of_ne_nil (by simp), List.append_assoc, ih]
  rw [hjoin]
  refine fields_intercalate (by simp) fun part hpart => ?_
  rw [h] at hparts
  rcases List.mem_append.mp hpart with hmem | hmem
  · exact hparts part (List.mem_append_left _ hmem)
  · rw [List.mem_singleton.mp hmem, String.toList_append, List.mem_append, not_or]
    exact ⟨hparts last (by simp), hending⟩

/-- A path is absolute if nothing stands before its first slash. -/
theorem isAbsolute_iff_of_fields {path : Path} {first : String} {rest : List String}
    (h : Text.fields '/' path.text = first :: rest) (hnonempty : path.text ≠ "") :
    path.isAbsolute = true ↔ first = "" := by
  rw [Text.fields] at h
  rw [isAbsolute]
  -- Only a slash at the very front leaves the first field empty.
  cases htext : path.text.toList with
  | nil => exact absurd (String.toList_eq_nil_iff.mp htext) hnonempty
  | cons c cs =>
    rw [htext, List.splitOn_cons_eq_if_modifyHead] at h
    split at h
    · next hc =>
      simp only [List.map_cons, List.cons.injEq] at h
      have hfirst : first = "" := h.1.symm
      simp [hfirst, eq_of_beq hc]
    · next hc =>
      obtain ⟨head, tail, hsplit⟩ := List.exists_cons_of_ne_nil (List.splitOn_ne_nil '/' cs)
      rw [hsplit, List.modifyHead_cons, List.map_cons, List.cons.injEq] at h
      rw [← h.1, String.ofList_eq_empty_iff]
      simpa using hc

/-! ## Where parts lead -/

/-- Where parts between slashes lead, of which the first is empty in an absolute path. The other
parts are given last part first. -/
def placeOfParts (start : List String) (first : String) (others : List String) : List String :=
  ((if first = "" then [] else start)
    ++ (first :: others.reverse).filter (· ≠ "")).foldl enter []

section Parts

variable {start : List String} {first part : String} {others : List String}

/-- The fields of a path that is not empty lead to its place. -/
theorem place_of_fields {path : Path} (h : Text.fields '/' path.text = first :: others.reverse)
    (hnonempty : path.text ≠ "") : path.place start = placeOfParts start first others := by
  have hroot : (if path.isAbsolute then [] else start) = if first = "" then [] else start := by
    simp only [isAbsolute_iff_of_fields h hnonempty]
  rw [place, names, h, hroot]
  rfl

/-- The last part is entered after all others. -/
theorem placeOfParts_cons (start : List String) (first part : String) (others : List String) :
    placeOfParts start first (part :: others)
      = ([part].filter (· ≠ "")).foldl enter (placeOfParts start first others) := by
  rw [placeOfParts, placeOfParts, List.reverse_cons, ← List.cons_append, List.filter_append,
    ← List.append_assoc, List.foldl_append]

/-- An idle part leads nowhere new. -/
theorem placeOfParts_of_isIdle (h : isIdle part = true) :
    placeOfParts start first (part :: others) = placeOfParts start first others := by
  rw [placeOfParts_cons]
  have hidle : part = "" ∨ part = "." := by simpa [isIdle] using h
  rcases hidle with rfl | rfl
  · rfl
  · simp [enter]

/-- A name is entered below where the others lead. -/
theorem placeOfParts_of_isName (h : isIdle part = false) (hparent : part ≠ "..") :
    placeOfParts start first (part :: others) = placeOfParts start first others ++ [part] := by
  rw [placeOfParts_cons]
  have hname : part ≠ "" ∧ part ≠ "." := by simpa [isIdle] using h
  simp [enter, hname, hparent]

/-- Idle parts at the end lead nowhere. -/
theorem placeOfParts_dropWhile (start : List String) (first : String) (others : List String) :
    placeOfParts start first (others.dropWhile isIdle) = placeOfParts start first others := by
  induction others with
  | nil => rfl
  | cons part others ih =>
    rw [List.dropWhile_cons]
    split
    · next hidle => rw [ih, placeOfParts_of_isIdle hidle]
    · rfl

/-- A path made of parts has these as its fields, unless it is the root. -/
theorem fields_ofParts (hslash : ∀ part ∈ first :: others, '/' ∉ part.toList)
    (hsome : ¬ (first = "" ∧ others = [])) :
    Text.fields '/' (ofParts first others).text = first :: others.reverse := by
  rw [ofParts, if_neg (by simpa using hsome)]
  refine fields_intercalate (List.cons_ne_nil _ _) fun part hpart => hslash part ?_
  simpa using hpart

/-- The path of parts leads where the parts lead, and has their names. -/
theorem place_ofParts (hslash : ∀ part ∈ first :: others, '/' ∉ part.toList)
    (start : List String) :
    (ofParts first others).place start = placeOfParts start first others
      ∧ ∀ name ∈ (ofParts first others).names, name ∈ first :: others := by
  -- The root is the one path whose text is not its parts between slashes.
  by_cases hsome : first = "" ∧ others = []
  · obtain ⟨rfl, rfl⟩ := hsome
    have hroot : ofParts "" [] = ⟨"/"⟩ := rfl
    have hnames : names ⟨"/"⟩ = [] := by decide
    rw [hroot, place, hnames]
    exact ⟨rfl, fun name hname => absurd hname List.not_mem_nil⟩
  · have hfields := fields_ofParts hslash hsome
    have hnonempty : (ofParts first others).text ≠ "" := by
      intro hempty
      rw [hempty, fields_empty, List.cons.injEq, List.nil_eq, List.reverse_eq_nil_iff] at hfields
      exact hsome ⟨hfields.1.symm, hfields.2⟩
    refine ⟨place_of_fields hfields hnonempty, fun name hname => ?_⟩
    rw [names, hfields] at hname
    simpa using (List.mem_filter.mp hname).1

/-- Whether parts are those of a path that never goes back up. -/
def OnlyDown (first : String) (others : List String) : Prop :=
  ∀ part ∈ first :: others, '/' ∉ part.toList ∧ part ≠ ".."

namespace OnlyDown

theorem noSlash (h : OnlyDown first others) : ∀ part ∈ first :: others, '/' ∉ part.toList :=
  fun part hpart => (h part hpart).1

theorem of_suffix {before : List String} (h : OnlyDown first others) (hsuffix : before <:+ others) :
    OnlyDown first before :=
  fun part hpart => h part (List.cons_subset_cons first hsuffix.subset hpart)

theorem dropWhile (h : OnlyDown first others) : OnlyDown first (others.dropWhile isIdle) :=
  h.of_suffix (List.dropWhile_suffix _)

theorem tail (h : OnlyDown first (part :: others)) : OnlyDown first others :=
  h.of_suffix (List.suffix_cons part others)

theorem ne_parent (h : OnlyDown first (part :: others)) : part ≠ ".." :=
  (h part (.tail _ List.mem_cons_self)).2

end OnlyDown

/-- The path of the directory around a part. -/
theorem place_ofParts_dropWhile (hparts : OnlyDown first others) (start : List String) :
    (ofParts first (others.dropWhile isIdle)).place start = placeOfParts start first others
      ∧ ".." ∉ (ofParts first (others.dropWhile isIdle)).names := by
  obtain ⟨hplace, hnames⟩ := place_ofParts hparts.dropWhile.noSlash start
  refine ⟨hplace.trans (placeOfParts_dropWhile start first others), fun hmem => ?_⟩
  exact (hparts.dropWhile _ (hnames _ hmem)).2 rfl

/-- The path of the working directory. -/
theorem place_empty (start : List String) :
    place start ⟨""⟩ = start.foldl enter [] ∧ ".." ∉ names ⟨""⟩ := by
  have hnames : names ⟨""⟩ = [] := by decide
  have habsolute : isAbsolute ⟨""⟩ = false := by decide
  rw [place, hnames, habsolute]
  exact ⟨by simp, List.not_mem_nil⟩

/-- **Ancestors of parts.** They are on the way to where the parts lead, and never go back up. -/
theorem place_of_mem_ancestorsOfParts {ancestor : Path} (hparts : OnlyDown first others)
    (h : ancestor ∈ ancestorsOfParts first others) (start : List String) :
    ancestor.place start <+: placeOfParts start first others ∧ ".." ∉ ancestor.names := by
  -- On the parts, the last of which comes first; idle parts are passed over.
  induction others with
  | nil =>
    rw [ancestorsOfParts] at h
    split at h
    · cases h
    · next hfirst =>
      -- A relative path of one part lies in the working directory.
      rw [List.mem_singleton.mp h]
      obtain ⟨hplace, hnames⟩ := place_empty start
      refine ⟨?_, hnames⟩
      have hparent := (hparts first List.mem_cons_self).2
      have hpart : placeOfParts start first [] = enter (start.foldl enter []) first := by
        simp [placeOfParts, hfirst]
      rw [hplace, hpart, enter, if_neg hparent]
      split
      · exact List.prefix_rfl
      · exact List.prefix_append _ _
  | cons part others ih =>
    rw [ancestorsOfParts] at h
    split at h
    · next hidle =>
      rw [placeOfParts_of_isIdle hidle]
      exact ih hparts.tail h
    · next hname =>
      rw [placeOfParts_of_isName (by simpa using hname) hparts.ne_parent]
      rcases List.mem_cons.mp h with rfl | hmem
      · obtain ⟨hplace, hnames⟩ := place_ofParts_dropWhile hparts.tail start
        rw [hplace]
        exact ⟨List.prefix_append _ _, hnames⟩
      · obtain ⟨hplace, hnames⟩ := ih hparts.tail hmem
        exact ⟨hplace.trans (List.prefix_append _ _), hnames⟩

end Parts

/-! ## Ancestors of paths -/

/-- What the parts of a path are like that never goes back up. -/
theorem parts_of_noParent {path : Path} (h : ".." ∉ path.names) {part : String}
    (hpart : part ∈ Text.fields '/' path.text) : '/' ∉ part.toList ∧ part ≠ ".." := by
  refine ⟨not_mem_of_mem_fields hpart, ?_⟩
  rintro rfl
  exact h (List.mem_filter.mpr ⟨hpart, by decide⟩)

/-- **Ancestors.** Those of a path that never goes back up are on the way to its place, and never go
back up themselves. -/
theorem place_ancestor {path ancestor : Path} (hparent : ".." ∉ path.names)
    (h : ancestor ∈ path.ancestors) (start : List String) :
    ancestor.place start <+: path.place start ∧ ".." ∉ ancestor.names := by
  have hparts := fun part => @parts_of_noParent path hparent part
  rw [ancestors] at h
  -- The empty path has nothing around it.
  by_cases hempty : path.text = ""
  · rw [hempty, fields_empty] at h
    cases h
  · cases hsplit : Text.fields '/' path.text with
    | nil =>
      rw [hsplit] at h
      cases h
    | cons first rest =>
      have hfields : Text.fields '/' path.text = first :: rest.reverse.reverse := by
        rw [hsplit, List.reverse_reverse]
      rw [hsplit] at h hparts
      rw [place_of_fields hfields hempty]
      refine place_of_mem_ancestorsOfParts (fun part hpart => hparts part ?_) h start
      simpa using hpart

/-! ## Paths that end in a name -/

/-- Whether a path leads down to a name: it never goes back up, and its last part is no idle one. -/
structure Descends (path : Path) : Prop where
  noParent : ".." ∉ path.names
  last : ∃ before last, Text.fields '/' path.text = before ++ [last] ∧ isIdle last = false

/-- The directory that a name lies in, from the parts before the name. -/
def directoryOfParts : List String → Path
  | [] => ⟨""⟩
  | first :: others => ofParts first (others.reverse.dropWhile isIdle)

/-- The directory of a path that does not end in an idle part is made of the other parts. -/
theorem parent?_of_last {path : Path} {before : List String} {last : String}
    (hfields : Text.fields '/' path.text = before ++ [last]) (hidle : isIdle last = false) :
    path.parent? = some (directoryOfParts before) := by
  rw [parent?, ancestors, hfields]
  cases before with
  | nil =>
    have hlast : last ≠ "" := by
      rintro rfl
      simp [isIdle] at hidle
    simp [ancestorsOfParts, directoryOfParts, hlast]
  | cons first before => simp [ancestorsOfParts, directoryOfParts, hidle]

namespace Descends

variable {path : Path}

/-- A path with such an ending and no `..` in it descends. -/
theorem of_suffix {ending : String} (hending : IsEnding ending)
    (h : ending.toList <:+ path.text.toList) (hparent : ".." ∉ path.names) : path.Descends := by
  obtain ⟨before, last, hfields, hlast⟩ := exists_fields hending h
  obtain ⟨hempty, hself, _⟩ := ne_of_ending hending hlast
  exact ⟨hparent, before, last, hfields, by simp [isIdle, hempty, hself]⟩

theorem exists_last (h : path.Descends) :
    ∃ before last, Text.fields '/' path.text = before ++ [last]
      ∧ last ≠ "" ∧ last ≠ "." ∧ last ≠ ".." := by
  obtain ⟨before, last, hfields, hidle⟩ := h.last
  have hname : last ≠ "" ∧ last ≠ "." := by simpa [isIdle] using hidle
  have hmem : last ∈ Text.fields '/' path.text := by simp [hfields]
  have hparent := (parts_of_noParent h.noParent hmem).2
  exact ⟨before, last, hfields, hname.1, hname.2, hparent⟩

theorem text_ne_empty (h : path.Descends) : path.text ≠ "" := by
  intro hempty
  obtain ⟨before, last, hfields, hlast, _⟩ := h.exists_last
  rw [hempty, fields_empty] at hfields
  obtain ⟨_, rfl⟩ := List.append_singleton_inj.mp (show [] ++ [""] = before ++ [last] from hfields)
  exact hlast rfl

/-- What ends in a name is not written as a directory. -/
theorem noSlash (h : path.Descends) : path.endsWithSlash = false := by
  obtain ⟨before, last, hfields, hlast, _⟩ := h.exists_last
  rw [endsWithSlash, beq_eq_false_iff_ne]
  intro hslash
  obtain ⟨front, hfront⟩ := List.getLast?_eq_some_iff.mp hslash
  rw [Text.fields, hfront, List.splitOn_append_cons_self, List.map_append] at hfields
  exact hlast (List.append_singleton_inj.mp hfields).2.symm

/-- The place of such a path is not around its own directory. -/
theorem not_around (h : path.Descends) (start : List String) :
    ¬ path.place start <+: (path.place start).dropLast := by
  obtain ⟨before, last, hfields, hlast⟩ := h.exists_last
  intro haround
  have hlength := haround.length_le
  rw [(place_of_last hfields hlast start).2, List.dropLast_concat, List.length_append,
    List.length_singleton] at hlength
  omega

/-- The place of a path lies in the place of its parent. -/
theorem place_parent (h : path.Descends) {directory : Path}
    (hdirectory : path.parent? = some directory) (start : List String) :
    directory.place start = (path.place start).dropLast ∧ ".." ∉ directory.names := by
  obtain ⟨before, last, hfields, hlast, hself, hparent⟩ := h.exists_last
  have hparts := fun part => @parts_of_noParent path h.noParent part
  have hidle : isIdle last = false := by simp [isIdle, hlast, hself]
  rw [hfields] at hparts
  rw [parent?_of_last hfields hidle, Option.some.injEq] at hdirectory
  subst hdirectory
  -- Whether anything stands in front of the last name.
  cases before with
  | nil =>
    -- A single name lies in the working directory.
    have hplace : path.place start = start.foldl enter [] ++ [last] := by
      have hsingle : Text.fields '/' path.text = last :: [].reverse := hfields
      rw [place_of_fields hsingle h.text_ne_empty]
      simp [placeOfParts, enter, hlast, hself, hparent]
    rw [hplace, List.dropLast_concat]
    exact place_empty start
  | cons first before =>
    have hplace : path.place start = placeOfParts start first before.reverse ++ [last] := by
      have hparted : Text.fields '/' path.text = first :: (last :: before.reverse).reverse := by
        simp [hfields]
      rw [place_of_fields hparted h.text_ne_empty, placeOfParts_of_isName hidle hparent]
    rw [hplace, List.dropLast_concat]
    refine place_ofParts_dropWhile (fun part hpart => hparts part ?_) start
    simp only [List.mem_cons, List.mem_reverse] at hpart
    simp [or_assoc.symm, hpart]

/-- A path that descends ends in a name. -/
theorem endsInName (h : path.Descends) : FileTree.endsInName path = true := by
  obtain ⟨before, last, hfields, hlast⟩ := h.exists_last
  exact endsInName_of_last hfields hlast

/-- What is put behind a path does not make it absolute. -/
theorem isAbsolute_append (h : path.Descends) (ending : String) :
    isAbsolute ⟨path.text ++ ending⟩ = path.isAbsolute := by
  cases htext : path.text.toList with
  | nil => exact absurd (String.toList_eq_nil_iff.mp htext) h.text_ne_empty
  | cons c cs => simp [isAbsolute, htext]

/-- The last part of a path with something written behind it. -/
theorem exists_last_append (h : path.Descends) {ending : String} (hending : IsEnding ending) :
    ∃ before last, (Text.fields '/' path.text = before ++ [last]
        ∧ last ≠ "" ∧ last ≠ "." ∧ last ≠ "..")
      ∧ Text.fields '/' (⟨path.text ++ ending⟩ : Path).text = before ++ [last ++ ending]
        ∧ last ++ ending ≠ "" ∧ last ++ ending ≠ "." ∧ last ++ ending ≠ ".." := by
  obtain ⟨before, last, hfields, hlast⟩ := h.exists_last
  have hsuffix : ending.toList <:+ (last ++ ending).toList := by
    rw [String.toList_append]
    exact List.suffix_append _ _
  exact ⟨before, last, ⟨hfields, hlast⟩, fields_append hfields hending.noSlash,
    ne_of_ending hending hsuffix⟩

/-- What is written behind a path leaves the directory that it leads into. -/
theorem parent?_append (h : path.Descends) {ending : String} (hending : IsEnding ending) :
    parent? ⟨path.text ++ ending⟩ = path.parent? := by
  obtain ⟨before, last, ⟨hfields, hlast⟩, hfields', hlast'⟩ := h.exists_last_append hending
  have hidle : isIdle last = false := by simp [isIdle, hlast]
  have hidle' : isIdle (last ++ ending) = false := by simp [isIdle, hlast']
  rw [parent?_of_last hfields hidle, parent?_of_last hfields' hidle']

/-- What is written behind a path goes to the end of its place. -/
theorem append (h : path.Descends) {ending : String} (hending : IsEnding ending) :
    Descends ⟨path.text ++ ending⟩
      ∧ ∀ start, ∃ around last, path.place start = around ++ [last]
        ∧ place start ⟨path.text ++ ending⟩ = around ++ [last ++ ending] := by
  obtain ⟨before, last, ⟨hfields, hlast⟩, hfields', hlast'⟩ := h.exists_last_append hending
  refine ⟨⟨fun hmem => ?_, before, last ++ ending, hfields', by simp [isIdle, hlast']⟩,
    fun start => ⟨_, last, (place_of_last hfields hlast start).2, ?_⟩⟩
  · rw [(place_of_last hfields' hlast' []).1] at hmem
    have hnames := h.noParent
    rw [(place_of_last hfields hlast []).1] at hnames
    rcases List.mem_append.mp hmem with hbefore | hend
    · exact hnames (List.mem_append_left _ hbefore)
    · exact hlast'.2.2 (List.mem_singleton.mp hend).symm
  · rw [(place_of_last hfields' hlast' start).2, h.isAbsolute_append]

end Descends

end Path

end Syllabus
