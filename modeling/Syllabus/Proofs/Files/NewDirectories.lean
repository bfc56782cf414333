import Mathlib.Data.List.Chain
import Mathlib.Data.List.TakeWhile
import Syllabus.Proofs.Files.Directories

/-!
# Syllabus: directories that are made together

The directories on the way to a path are made one inside the other, from the outermost that is
missing. A directory that has just been made is empty, so what comes next inside it cannot be in the
way: if one of them is made, all of them are. What could still fail is the path itself, where a name
is too long to be one.

* **`Path.Inside`**: paths one of which leads to a name in the directory of the other.
* **`Path.Descends.isChain_parent`**: those on the way to a path.
* **`FileTree.isMade_parent`**, **`FileTree.hasDirectory_of_mem_ancestors`**: what can be followed
  leads through the directories around it.
* **`createAmong_whole`**: making directories, together or not at all.
* **`madeAround_createDirectories`**: making the directory of a file and of one beside it.
-/

namespace Syllabus

open FileTree FileAction

/-! ## Paths one inside the other -/

namespace Path

/-- Whether a path leads to a name in the directory of another one, wherever that is there. -/
structure Inside (start : List String) (outer inner : Path) : Prop where
  place : ∃ name, inner.place start = outer.place start ++ [name]
  located : ∀ tree : FileTree, tree.workingDirectory = start → tree.isDirectory outer = true →
    tree.locate inner = .ok (inner.place start)

/-- Whether directories are made one inside the other. What lies in the directory of the empty path
need not be found, since this one is never made. -/
def Nested (start : List String) (inner outer : Path) : Prop :=
  outer.text = "" ∨ Inside start outer inner

section Parts

variable {start : List String} {first part : String} {others : List String}

theorem ofParts_ne_empty (hslash : ∀ part ∈ first :: others, '/' ∉ part.toList) :
    (ofParts first others).text ≠ "" := by
  intro hempty
  by_cases hroot : first = "" ∧ others = []
  · obtain ⟨rfl, rfl⟩ := hroot
    exact absurd hempty (by decide)
  · have hfields := fields_ofParts hslash hroot
    rw [hempty, fields_empty, List.cons.injEq, List.nil_eq, List.reverse_eq_nil_iff] at hfields
    exact hroot ⟨hfields.1.symm, hfields.2⟩

theorem names_ofParts (hslash : ∀ part ∈ first :: others, '/' ∉ part.toList) :
    (ofParts first others).names = (first :: others.reverse).filter (· ≠ "") := by
  by_cases hsome : first = "" ∧ others = []
  · obtain ⟨rfl, rfl⟩ := hsome
    decide
  · rw [names, fields_ofParts hslash hsome]

theorem isAbsolute_ofParts (hslash : ∀ part ∈ first :: others, '/' ∉ part.toList) :
    (ofParts first others).isAbsolute = true ↔ first = "" := by
  by_cases hsome : first = "" ∧ others = []
  · obtain ⟨rfl, rfl⟩ := hsome
    decide
  · exact isAbsolute_iff_of_fields (fields_ofParts hslash hsome) (ofParts_ne_empty hslash)

theorem ancestors_ofParts (hslash : ∀ part ∈ first :: others, '/' ∉ part.toList) :
    (ofParts first others).ancestors = ancestorsOfParts first others := by
  by_cases hsome : first = "" ∧ others = []
  · obtain ⟨rfl, rfl⟩ := hsome
    decide
  · rw [ancestors, fields_ofParts hslash hsome]
    simp only [List.reverse_reverse]

theorem ancestorsOfParts_dropWhile (first : String) (others : List String) :
    ancestorsOfParts first (others.dropWhile isIdle) = ancestorsOfParts first others := by
  induction others with
  | nil => rfl
  | cons part others ih =>
    rw [List.dropWhile_cons]
    split
    · next hidle => rw [ancestorsOfParts, if_pos hidle, ih]
    · rfl

end Parts

end Path

namespace FileTree

variable {tree : FileTree}

/-- Names that lead nowhere new can be followed in a directory. -/
theorem foldlM_step_of_self {names location : List String} (h : ∀ name ∈ names, name = ".")
    (hdirectory : tree.HasDirectory location) :
    names.foldlM tree.step location = .ok location := by
  induction names with
  | nil => rfl
  | cons name names ih =>
    obtain ⟨rfl, hnames⟩ := List.forall_mem_cons.mp h
    have hstep : tree.step location "." = .ok location :=
      step_eq_ok_iff.mpr ⟨hdirectory, by simp [Path.enter], .inl rfl⟩
    rw [List.foldlM_cons, hstep]
    exact ih hnames

theorem eq_of_foldlM_self {names location last : List String} (h : ∀ name ∈ names, name = ".")
    (hfollow : names.foldlM tree.step location = .ok last) : last = location := by
  induction names with
  | nil =>
    cases hfollow
    rfl
  | cons name names ih =>
    obtain ⟨rfl, hnames⟩ := List.forall_mem_cons.mp h
    rw [List.foldlM_cons] at hfollow
    obtain ⟨next, hnext, hrest⟩ := exists_of_bind_eq_ok hfollow
    obtain ⟨_, rfl, _⟩ := step_eq_ok_iff.mp hnext
    exact ih hnames hrest

end FileTree

namespace Path

section Parts

variable {start : List String} {first part : String} {others : List String}

/-- The names of parts, up to a part behind others that lead nowhere new. -/
theorem filter_parts (first : String) (others : List String) (hidle : isIdle part = false) :
    ∃ selves : List String, (∀ name ∈ selves, name = ".")
      ∧ (first :: (part :: others).reverse).filter (· ≠ "")
        = (first :: (others.dropWhile isIdle).reverse).filter (· ≠ "") ++ selves ++ [part] := by
  -- What is dropped is empty or leads nowhere, and the empty parts are no names.
  refine ⟨(others.takeWhile isIdle).reverse.filter (· ≠ ""), fun name hname => ?_, ?_⟩
  · obtain ⟨hmem, hnonempty⟩ := List.mem_filter.mp hname
    have hself := List.mem_takeWhile_imp (List.mem_reverse.mp hmem)
    simp only [isIdle, Bool.or_eq_true, decide_eq_true_eq] at hself hnonempty
    exact hself.resolve_left hnonempty
  · have hpart : part ≠ "" := by
      rintro rfl
      simp [isIdle] at hidle
    have hothers : others.reverse
        = (others.dropWhile isIdle).reverse ++ (others.takeWhile isIdle).reverse := by
      rw [← List.reverse_append, List.takeWhile_append_dropWhile]
    rw [List.reverse_cons, hothers, ← List.cons_append, ← List.cons_append, List.filter_append,
      List.filter_append]
    simp [hpart]

/-- A name behind parts that lead nowhere new is inside the directory of what is before them. -/
theorem inside_ofParts (hparts : OnlyDown first (part :: others)) (hidle : isIdle part = false)
    (hpassable : (ofParts first (part :: others)).Passable start) :
    Inside start (ofParts first (others.dropWhile isIdle)) (ofParts first (part :: others)) := by
  have hslash := hparts.noSlash
  have houter := hparts.tail.dropWhile.noSlash
  have hplace := (place_ofParts hslash start).1
  rw [placeOfParts_of_isName hidle hparts.ne_parent,
    ← (place_ofParts_dropWhile hparts.tail start).1] at hplace
  refine ⟨⟨part, hplace⟩, fun tree htree hdirectory => ?_⟩
  subst htree
  obtain ⟨hlocate, hdirectory⟩ := isDirectory_iff.mp hdirectory
  obtain ⟨_, _, _, hfollow⟩ := locate_eq_ok_iff.mp hlocate
  refine locate_eq_ok_iff.mpr ⟨hpassable.nonempty, hpassable.noZero, hpassable.short, ?_⟩
  have habsolute : (ofParts first (part :: others)).isAbsolute
      = (ofParts first (others.dropWhile isIdle)).isAbsolute := by
    rw [Bool.eq_iff_iff, isAbsolute_ofParts hslash, isAbsolute_ofParts houter]
  -- The names go on from those of the directory.
  obtain ⟨selves, hselves, hnames⟩ := filter_parts first others hidle
  rw [← names_ofParts hslash, ← names_ofParts houter] at hnames
  have hstep : tree.step ((ofParts first (others.dropWhile isIdle)).place tree.workingDirectory)
      part = .ok ((ofParts first (part :: others)).place tree.workingDirectory) := by
    refine step_eq_ok_iff.mpr ⟨hdirectory, ?_, hpassable.shortNames part ?_⟩
    · have hname : part ≠ "." := by
        rintro rfl
        simp [isIdle] at hidle
      rw [hplace, enter, if_neg hname, if_neg hparts.ne_parent]
    · rw [way, hnames]
      simp
  rw [habsolute, hnames, ← List.append_assoc, ← List.append_assoc, List.foldlM_append,
    List.foldlM_append, hfollow]
  dsimp only [Bind.bind, Except.bind]
  rw [foldlM_step_of_self hselves hdirectory]
  dsimp only
  rw [List.foldlM_cons, hstep]
  rfl

/-- The directories on the way to parts lie one inside the other. -/
theorem isChain_ofParts (hparts : OnlyDown first others)
    (hpassable : ∀ part behind, part :: behind <:+ others →
      (ofParts first (part :: behind)).Passable start) :
    List.IsChain (Nested start)
      (ofParts first (others.dropWhile isIdle) :: ancestorsOfParts first others) := by
  -- On the parts, the last of which comes first; idle parts are passed over.
  induction others with
  | nil =>
    rw [List.dropWhile_nil, ancestorsOfParts]
    split
    · exact .singleton _
    · exact .cons_cons (.inl rfl) (.singleton _)
  | cons part others ih =>
    have hchain := ih hparts.tail fun part' behind hsuffix =>
      hpassable part' behind (hsuffix.trans (List.suffix_cons part others))
    rw [List.dropWhile_cons, ancestorsOfParts]
    split
    · exact hchain
    · next hidle =>
      have hidle : isIdle part = false := by simpa using hidle
      exact .cons_cons (.inr (inside_ofParts hparts hidle
        (hpassable part others List.suffix_rfl))) hchain

/-- A path that ends in a name is a single part, or its parts end in the name. -/
theorem parts_of_last {path : Path} {before : List String} {last : String}
    (hfields : Text.fields '/' path.text = before ++ [last]) (hidle : isIdle last = false) :
    path = ofParts last [] ∧ before = []
      ∨ ∃ first others, path = ofParts first (last :: others)
        ∧ before = first :: others.reverse := by
  have htext : "/".intercalate (Text.fields '/' path.text) = path.text :=
    intercalate_fields rfl path.text
  rw [hfields] at htext
  -- A single name, or a name behind others.
  cases before with
  | nil =>
    have hlast : last ≠ "" := by
      rintro rfl
      simp [isIdle] at hidle
    rw [ofParts, if_neg (by simp [hlast])]
    exact .inl ⟨congrArg Path.mk htext.symm, rfl⟩
  | cons first before =>
    refine .inr ⟨first, before.reverse, ?_, by simp⟩
    rw [ofParts, if_neg (by simp)]
    exact congrArg Path.mk (by simpa using htext.symm)

/-- What is written for parts starts with what is written for those of them that come first. -/
theorem exists_text_ofParts_append (first : String) (front behind : List String) :
    ∃ more, (ofParts first (front ++ behind)).text = (ofParts first behind).text ++ more := by
  by_cases hfront : front = []
  · exact ⟨"", by simp [hfront]⟩
  have hreverse : front.reverse ≠ [] := by simpa using hfront
  rw [ofParts, if_neg (by simp [hfront]), ofParts]
  split
  · next hroot =>
    -- The path of the root is its slash.
    obtain ⟨rfl, rfl⟩ : first = "" ∧ behind = [] := by simpa using hroot
    rw [List.append_nil, String.intercalate_cons_of_ne_nil hreverse]
    exact ⟨_, by rw [String.empty_append]⟩
  · rw [List.reverse_append, ← List.cons_append,
      String.intercalate_append_of_ne_nil (List.cons_ne_nil _ _) hreverse]
    exact ⟨_, String.append_assoc⟩

/-- What can be followed can be followed up to each of its parts. -/
theorem passable_of_suffix {behind : List String} (hparts : OnlyDown first others)
    (h : (ofParts first others).Passable start) (hsuffix : part :: behind <:+ others) :
    (ofParts first (part :: behind)).Passable start := by
  have hslash := hparts.noSlash
  have hslash' := (hparts.of_suffix hsuffix).noSlash
  obtain ⟨front, rfl⟩ := hsuffix
  have hsplit : first :: (front ++ part :: behind).reverse
      = (first :: (part :: behind).reverse) ++ front.reverse := by simp
  -- All names on the way are on the way of the longer path.
  have hway : (ofParts first (part :: behind)).way start
      ⊆ (ofParts first (front ++ part :: behind)).way start := by
    have habsolute : (ofParts first (part :: behind)).isAbsolute
        = (ofParts first (front ++ part :: behind)).isAbsolute := by
      rw [Bool.eq_iff_iff, isAbsolute_ofParts hslash, isAbsolute_ofParts hslash']
    rw [way, way, habsolute, names_ofParts hslash, names_ofParts hslash', hsplit,
      List.filter_append, ← List.append_assoc]
    exact List.subset_append_left _ _
  obtain ⟨more, htext⟩ := exists_text_ofParts_append first front (part :: behind)
  refine ⟨ofParts_ne_empty hslash', ?_, ?_, fun name hname => h.shortNames name (hway hname)⟩
  · have hzero := h.noZero
    rw [htext, String.toList_append, List.contains_append, Bool.or_eq_false_iff] at hzero
    exact hzero.1
  · have hshort := h.short
    rw [htext, String.utf8ByteSize_append] at hshort
    omega

end Parts

namespace Descends

variable {path : Path} {start : List String}

/-- A path that leads down to a name is a single part, or its parts end in a name. -/
theorem exists_parts (h : path.Descends) :
    ∃ last, isIdle last = false
      ∧ (path = ofParts last [] ∧ Text.fields '/' path.text = [last]
        ∨ ∃ first others, path = ofParts first (last :: others)
          ∧ Text.fields '/' path.text = first :: (last :: others).reverse) := by
  obtain ⟨before, last, hfields, hidle⟩ := h.last
  refine ⟨last, hidle, ?_⟩
  rcases parts_of_last hfields hidle with ⟨hpath, rfl⟩ | ⟨first, others, hpath, rfl⟩
  · exact .inl ⟨hpath, hfields⟩
  · exact .inr ⟨first, others, hpath, by simpa using hfields⟩

/-- What can be followed can be followed with less written behind it. -/
theorem passable_of_append (h : path.Descends) {ending : String} (hending : IsEnding ending)
    (hpassable : Passable start ⟨path.text ++ ending⟩) : path.Passable start := by
  obtain ⟨before, last, ⟨hfields, hlast⟩, hfields', hlast'⟩ := h.exists_last_append hending
  have hnames := (place_of_last hfields hlast []).1
  have hnames' := (place_of_last hfields' hlast' []).1
  have hzero := hpassable.noZero
  have hshort := hpassable.short
  have hnameShort := hpassable.shortNames
  rw [String.toList_append, List.contains_append, Bool.or_eq_false_iff] at hzero
  rw [String.utf8ByteSize_append] at hshort
  rw [way, hnames', h.isAbsolute_append, ← List.append_assoc] at hnameShort
  refine ⟨h.text_ne_empty, hzero.1, by omega, fun name hname => ?_⟩
  rw [way, hnames, ← List.append_assoc] at hname
  -- The last name is shorter than it is with its ending; all others are the same.
  rcases List.mem_append.mp hname with hbefore | hend
  · exact hnameShort name (List.mem_append_left _ hbefore)
  · have hlong := hnameShort (last ++ ending) (List.mem_append_right _ (List.mem_singleton_self _))
    have hshorter := (hlong.resolve_left hlast'.2.1).resolve_left hlast'.2.2
    rw [String.utf8ByteSize_append] at hshorter
    rw [List.mem_singleton.mp hend]
    exact .inr (.inr (by omega))

/-- A path, the directory that it leads into, and those around this one lie one inside the other. -/
theorem isChain_parent (h : path.Descends) (hpassable : path.Passable start) {directory : Path}
    (hdirectory : path.parent? = some directory) :
    List.IsChain (Nested start) (path :: directory :: directory.ancestors) := by
  have hparts := fun part => @parts_of_noParent path h.noParent part
  -- A single name lies in the working directory, any other one in the directory before it.
  obtain ⟨last, hidle, ⟨hpath, hfields⟩ | ⟨first, others, hpath, hfields⟩⟩ := h.exists_parts
  · have hsingle : Text.fields '/' path.text = [] ++ [last] := hfields
    rw [parent?_of_last hsingle hidle, Option.some.injEq] at hdirectory
    have hnone : ancestors ⟨""⟩ = [] := by decide
    rw [← hdirectory, directoryOfParts, hnone]
    exact .cons_cons (.inl rfl) (.singleton _)
  · have hsplit : Text.fields '/' path.text = (first :: others.reverse) ++ [last] := by
      simpa using hfields
    rw [parent?_of_last hsplit hidle, Option.some.injEq, directoryOfParts,
      List.reverse_reverse] at hdirectory
    have hdown : OnlyDown first (last :: others) := fun other hother => hparts other (by
      rw [hsplit]
      simpa [or_comm] using hother)
    have hpassable' : ∀ part behind, part :: behind <:+ last :: others →
        (ofParts first (part :: behind)).Passable start := fun part behind hsuffix =>
      passable_of_suffix hdown (hpath ▸ hpassable) hsuffix
    rw [← hdirectory, hpath, ancestors_ofParts hdown.tail.dropWhile.noSlash,
      ancestorsOfParts_dropWhile]
    refine .cons_cons (.inr ?_) (isChain_ofParts hdown.tail fun part behind hsuffix => ?_)
    · exact inside_ofParts hdown hidle (hpassable' last others List.suffix_rfl)
    · exact hpassable' part behind (hsuffix.trans (List.suffix_cons last others))

end Descends

end Path

/-! ## The directory around a name -/

namespace FileTree

variable {tree : FileTree}

/-- Parts that can be followed to a name lead through the directory that it lies in, even if they go
back up on the way. -/
theorem isMade_ofParts {first part : String} {others location : List String}
    (hslash : ∀ other ∈ first :: part :: others, '/' ∉ other.toList)
    (hidle : Path.isIdle part = false)
    (h : tree.locate (Path.ofParts first (part :: others)) = .ok location) :
    tree.IsMade (Path.ofParts first (others.dropWhile Path.isIdle)) := by
  by_cases hempty : (Path.ofParts first (others.dropWhile Path.isIdle)).text = ""
  · exact .inl hempty
  have hslash' : ∀ other ∈ first :: others.dropWhile Path.isIdle, '/' ∉ other.toList :=
    fun other hother => hslash other (List.cons_subset_cons first
      ((List.dropWhile_suffix _).trans (List.suffix_cons part others)).subset hother)
  obtain ⟨_, hzero, hshort, hfollow⟩ := locate_eq_ok_iff.mp h
  have habsolute : (Path.ofParts first (part :: others)).isAbsolute
      = (Path.ofParts first (others.dropWhile Path.isIdle)).isAbsolute := by
    rw [Bool.eq_iff_iff, Path.isAbsolute_ofParts hslash, Path.isAbsolute_ofParts hslash']
  -- The names go to the directory, stay in it, and end in the last part.
  obtain ⟨selves, hselves, hnames⟩ := Path.filter_parts first others hidle
  rw [← Path.names_ofParts hslash, ← Path.names_ofParts hslash'] at hnames
  rw [habsolute, hnames, ← List.append_assoc, ← List.append_assoc, List.foldlM_append,
    List.foldlM_append] at hfollow
  obtain ⟨stayed, hstayed, hfollow⟩ := exists_of_bind_eq_ok hfollow
  obtain ⟨inner, hinner, hstayed⟩ := exists_of_bind_eq_ok hstayed
  obtain rfl := eq_of_foldlM_self hselves hstayed
  rw [List.foldlM_cons] at hfollow
  obtain ⟨next, hnext, _⟩ := exists_of_bind_eq_ok hfollow
  obtain ⟨hthere, _⟩ := step_eq_ok_iff.mp hnext
  -- What is written for the directory is no longer than what is written for the name.
  obtain ⟨more, htext⟩ := Path.exists_text_ofParts_append first
    (part :: others.takeWhile Path.isIdle) (others.dropWhile Path.isIdle)
  rw [List.cons_append, List.takeWhile_append_dropWhile] at htext
  rw [htext, String.toList_append, List.contains_append, Bool.or_eq_false_iff] at hzero
  rw [htext, String.utf8ByteSize_append] at hshort
  have hlocate : tree.locate (Path.ofParts first (others.dropWhile Path.isIdle)) = .ok stayed :=
    locate_eq_ok_iff.mpr ⟨hempty, hzero.1, by omega, hinner⟩
  obtain ⟨hplace, _⟩ := eq_place_of_locate hlocate
  exact .inr (isDirectory_iff.mpr ⟨hplace ▸ hlocate, hplace ▸ hthere⟩)

/-- **The directory around a name.** It is there if a path to the name can be followed. -/
theorem isMade_parent {path directory : Path} {before : List String} {last : String}
    (hfields : Text.fields '/' path.text = before ++ [last]) (hidle : Path.isIdle last = false)
    {location : List String} (h : tree.locate path = .ok location)
    (hdirectory : path.parent? = some directory) : tree.IsMade directory := by
  rw [Path.parent?_of_last hfields hidle, Option.some.injEq] at hdirectory
  subst hdirectory
  have hparts := fun part => @Path.not_mem_of_mem_fields part path.text
  rcases Path.parts_of_last hfields hidle with ⟨_, rfl⟩ | ⟨first, others, rfl, rfl⟩
  · exact .inl rfl
  · rw [Path.directoryOfParts, List.reverse_reverse]
    refine isMade_ofParts (fun part hpart => hparts part ?_) hidle h
    rw [hfields]
    simpa [or_comm, or_assoc, or_left_comm] using hpart

/-- Around a directory that is there all directories are there. -/
theorem hasDirectory_of_mem_ancestorsOfParts {first : String} {others : List String}
    (hslash : ∀ part ∈ first :: others, '/' ∉ part.toList)
    (hworking : first ≠ "" → tree.HasDirectory (Path.place tree.workingDirectory ⟨""⟩))
    (h : tree.isDirectory (Path.ofParts first (others.dropWhile Path.isIdle)) = true)
    {path : Path} (hpath : path ∈ Path.ancestorsOfParts first others) :
    tree.HasDirectory (path.place tree.workingDirectory) := by
  -- On the parts, the last of which comes first: what is followed leads through directories.
  induction others with
  | nil =>
    rw [Path.ancestorsOfParts] at hpath
    split at hpath
    · cases hpath
    · next hfirst =>
      rw [List.mem_singleton.mp hpath]
      exact hworking hfirst
  | cons part others ih =>
    have hslash' : ∀ other ∈ first :: others, '/' ∉ other.toList := fun other hother =>
      hslash other (List.cons_subset_cons first (List.subset_cons_self part others) hother)
    rw [Path.ancestorsOfParts] at hpath
    rw [List.dropWhile_cons] at h
    split at hpath
    · next hidle =>
      rw [if_pos hidle] at h
      exact ih hslash' h hpath
    · next hidle =>
      rw [if_neg hidle] at h
      have hmade := isMade_ofParts hslash (by simpa using hidle) (isDirectory_iff.mp h).1
      have hthere := hmade.resolve_left (Path.ofParts_ne_empty fun other hother =>
        hslash' other (List.cons_subset_cons first (List.dropWhile_suffix _).subset hother))
      rcases List.mem_cons.mp hpath with rfl | hmem
      · exact (isDirectory_iff.mp hthere).2
      · exact ih hslash' hthere hmem

/-- A relative path is followed from the working directory, which is there. -/
theorem hasDirectory_of_relative {path : Path} {location : List String}
    (h : tree.locate path = .ok location) {first : String} {rest : List String}
    (hfirst : Text.fields '/' path.text = first :: rest) (hrelative : first ≠ "") :
    tree.HasDirectory (Path.place tree.workingDirectory ⟨""⟩) := by
  obtain ⟨hnonempty, _, _, hfollow⟩ := locate_eq_ok_iff.mp h
  have habsolute : path.isAbsolute = false := by
    rw [← Bool.not_eq_true, Path.isAbsolute_iff_of_fields hfirst hnonempty]
    exact hrelative
  have hnames : path.names = first :: rest.filter (· ≠ "") := by
    rw [Path.names, hfirst, List.filter_cons_of_pos (by simpa using hrelative)]
  rw [habsolute, if_neg (by simp), hnames, List.foldlM_append] at hfollow
  obtain ⟨working, hstart, hfollow⟩ := exists_of_bind_eq_ok hfollow
  obtain ⟨next, hnext, _⟩ := exists_of_bind_eq_ok hfollow
  rw [(Path.place_empty _).1, ← (hasDirectory_of_foldlM hstart fun hroot => absurd rfl hroot).1]
  exact (step_eq_ok_iff.mp hnext).1

/-- **The directories around a name.** They are there if a path to the name can be followed. -/
theorem hasDirectory_of_mem_ancestors {path around : Path} {before : List String} {last : String}
    (hfields : Text.fields '/' path.text = before ++ [last]) (hidle : Path.isIdle last = false)
    {location : List String} (h : tree.locate path = .ok location)
    (haround : around ∈ path.ancestors) :
    tree.HasDirectory (around.place tree.workingDirectory) := by
  have hslash := fun part => @Path.not_mem_of_mem_fields part path.text
  rcases Path.parts_of_last hfields hidle with ⟨_, rfl⟩ | ⟨first, others, hpath, rfl⟩
  · have hsingle : Text.fields '/' path.text = [last] := hfields
    rw [Path.ancestors, hsingle] at haround
    dsimp only at haround
    rw [List.reverse_nil, Path.ancestorsOfParts] at haround
    split at haround
    · cases haround
    · next hlast =>
      rw [List.mem_singleton.mp haround]
      exact hasDirectory_of_relative h hsingle hlast
  · have hsplit : Text.fields '/' path.text = first :: (others.reverse ++ [last]) := hfields
    have hparts : ∀ part ∈ first :: last :: others, '/' ∉ part.toList := fun part hpart =>
      hslash part (by
        rw [hsplit]
        simpa [or_comm, or_assoc, or_left_comm] using hpart)
    have hothers : ∀ part ∈ first :: others, '/' ∉ part.toList := fun part hpart =>
      hparts part (List.cons_subset_cons first (List.subset_cons_self last others) hpart)
    rw [Path.ancestors, hsplit] at haround
    dsimp only at haround
    rw [List.reverse_append, List.reverse_reverse, List.reverse_singleton, List.singleton_append,
      Path.ancestorsOfParts, if_neg (by simp [hidle])] at haround
    have hmade := isMade_ofParts hparts hidle (hpath ▸ h)
    have hthere := hmade.resolve_left (Path.ofParts_ne_empty fun part hpart =>
      hothers part (List.cons_subset_cons first (List.dropWhile_suffix _).subset hpart))
    rcases List.mem_cons.mp haround with rfl | hmem
    · exact (isDirectory_iff.mp hthere).2
    · exact hasDirectory_of_mem_ancestorsOfParts hothers (hasDirectory_of_relative h hsplit) hthere
        hmem

end FileTree

/-! ## Directories in new directories -/

namespace FileTree

variable {tree later : FileTree}

/-- Whether a path leads to a directory that is empty. -/
structure IsEmptyDirectory (tree : FileTree) (path : Path) : Prop where
  isDirectory : tree.isDirectory path = true
  empty : tree.root.find? (path.place tree.workingDirectory) = some (.directory [])

namespace IsEmptyDirectory

variable {outer inner : Path}

theorem of_createDirectory (h : tree.createDirectory outer = .ok later) :
    later.IsEmptyDirectory outer := by
  refine ⟨isDirectory_of_createDirectory h, ?_⟩
  rw [(changes_createDirectory h).workingDirectory]
  exact (leafReplaced_createDirectory h).there

/-- In an empty directory there is a place for everything, and nothing in it. -/
theorem missing (h : tree.IsEmptyDirectory outer)
    (hinside : Path.Inside tree.workingDirectory outer inner) :
    tree.locate inner = .ok (inner.place tree.workingDirectory)
      ∧ tree.root.find? (inner.place tree.workingDirectory) = none := by
  refine ⟨hinside.located tree rfl h.isDirectory, ?_⟩
  obtain ⟨name, hplace⟩ := hinside.place
  rw [hplace, Node.find?_append, h.empty]
  rfl

theorem exists_createDirectory (h : tree.IsEmptyDirectory outer)
    (hinside : Path.Inside tree.workingDirectory outer inner) :
    ∃ later, tree.createDirectory inner = .ok later := by
  obtain ⟨hlocate, hmissing⟩ := h.missing hinside
  refine ⟨{ tree with
    root := tree.root.set (.directory []) (inner.place tree.workingDirectory) }, ?_⟩
  rw [createDirectory, hlocate]
  dsimp only [Bind.bind, Except.bind]
  rw [hmissing]

end IsEmptyDirectory

/-! ## All or none -/

/-- How making the directory of the first path ends: with the tree as it was, or with this directory
made. -/
inductive MadeWhole {ε : Type} (tree : FileTree) :
    List Path → EStateM.Result ε FileTree Unit → Prop where
  | failed {paths : List Path} {e : ε} : MadeWhole tree paths (.error e tree)
  | kept {paths : List Path} : MadeWhole tree paths (.ok () tree)
  | made {path : Path} {around : List Path} {later : FileTree} (hpath : path.text ≠ "")
      (hempty : later.IsEmptyDirectory path) : MadeWhole tree (path :: around) (.ok () later)

/-- **Directories that are made together.** If paths lie one inside the other, none of them is made
without the first. -/
theorem createAmong_whole {ε : Type} (onFault : Fault → ε) {paths : List Path} {tree : FileTree}
    (hchain : List.IsChain (Path.Nested tree.workingDirectory) paths) :
    MadeWhole tree paths (createAmong onFault paths tree) := by
  -- On the paths: where one of them is missing, all around it are made first.
  induction paths with
  | nil => exact .failed
  | cons path around ih =>
    rw [createAmong]
    split
    · exact .kept
    next hpath =>
    have hlast (failed : Fault) : MadeWhole tree (path :: around)
        (if tree.isDirectory path then .ok () tree else .error (onFault failed) tree) := by
      split
      · exact .kept
      · exact .failed
    dsimp only
    split
    · next later hcreate => exact .made hpath (.of_createDirectory hcreate)
    · next hmissing =>
      have haround := ih hchain.tail
      have hadds : AddsOnly (fun _ => True) _ tree _ := addsOnly_createAmong onFault around tree
      cases hresult : createAmong onFault around tree with
      | error e between =>
        rw [hresult] at haround
        cases haround
        exact .failed
      | ok _ between =>
        rw [hresult] at haround
        rw [after_of_ok hresult] at hadds
        dsimp only
        cases haround with
        | kept =>
          rw [hmissing]
          exact hlast _
        | @made outer _ _ houter hempty =>
          -- The directory around it has just been made, so there is a place for this one.
          have hinside := hchain.rel.resolve_left houter
          rw [← show between.workingDirectory = tree.workingDirectory from
            hadds.workingDirectory] at hinside
          obtain ⟨later, hcreate⟩ := hempty.exists_createDirectory hinside
          rw [hcreate]
          exact .made hpath (.of_createDirectory hcreate)
    · exact hlast _

/-- How making the directory of files ends: with the tree as it was, or with a place for each of the
files, and nothing in it. -/
inductive MadeAround {ε : Type} (files : List Path) (tree : FileTree) :
    EStateM.Result ε FileTree Unit → Prop where
  | failed {e : ε} : MadeAround files tree (.error e tree)
  | kept : MadeAround files tree (.ok () tree)
  | made {later : FileTree}
      (hmissing : ∀ file ∈ files, later.locate file = .ok (file.place later.workingDirectory)
        ∧ later.root.find? (file.place later.workingDirectory) = none) :
      MadeAround files tree (.ok () later)

/-- **The directory of a file and of one beside it.** It is made only if there is a place for both
in it. -/
theorem madeAround_createDirectories {ε : Type} (onFault : Fault → ε) {path directory : Path}
    (hpath : path.Descends) {ending : String} (hending : Path.IsEnding ending)
    (hdirectory : path.parent? = some directory) {tree : FileTree}
    (hpassable : Path.Passable tree.workingDirectory ⟨path.text ++ ending⟩) :
    MadeAround [⟨path.text ++ ending⟩, path] tree (createDirectories onFault directory tree) := by
  have hinside := hpath.isChain_parent (hpath.passable_of_append hending hpassable) hdirectory
  have hbeside := (hpath.append hending).1.isChain_parent hpassable
    ((hpath.parent?_append hending).trans hdirectory)
  have hwhole : MadeWhole tree (directory :: directory.ancestors)
      (createDirectories onFault directory tree) := createAmong_whole _ hinside.tail
  have hadds : AddsOnly (fun _ => False) _ tree (after (createDirectories onFault directory) tree) :=
    addsOnly_createAmong onFault _ tree
  cases hresult : createDirectories onFault directory tree with
  | error e between =>
    rw [hresult] at hwhole
    cases hwhole
    exact .failed
  | ok _ between =>
    rw [hresult] at hwhole
    rw [after_of_ok hresult] at hadds
    cases hwhole with
    | kept => exact .kept
    | made hnonempty hempty =>
      -- Both are missing in a directory that has just been made.
      refine .made (List.forall_mem_cons.mpr ⟨?_, List.forall_mem_singleton.mpr ?_⟩)
      · exact hempty.missing (hadds.workingDirectory ▸ hbeside.rel.resolve_left hnonempty)
      · exact hempty.missing (hadds.workingDirectory ▸ hinside.rel.resolve_left hnonempty)

end FileTree

end Syllabus
