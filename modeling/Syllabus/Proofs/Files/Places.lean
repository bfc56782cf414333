import Syllabus.Files.Tree
import Syllabus.Proofs.Files.Replacing

/-!
# Syllabus: places in a file tree

Where a path leads to depends on its names and the working directory alone: following it succeeds
or fails with the directories on the way, but it succeeds in one place only. What stands at a place
is a file or a directory, and only the last name of a path decides which kind of file it can be.

* **`eq_place_of_locate`**: a path that can be followed leads to its place.
* **`locate_of_directories`**: and leads there still when directories have been added.
* **`endsIn_place`**: the place of a path ends in the name that the path ends in.
-/

namespace Syllabus

/-- What succeeds in two steps succeeds in each. -/
theorem exists_of_bind_eq_ok {ε α β : Type} {first : Except ε α} {next : α → Except ε β} {value : β}
    (h : first >>= next = .ok value) : ∃ found, first = .ok found ∧ next found = .ok value := by
  cases first with
  | error e => cases h
  | ok found => exact ⟨found, rfl, h⟩

/-- A result is known from its value, where errors cannot be compared. -/
theorem eq_ok_of_toOption {ε α : Type} {result : Except ε α} {value : α}
    (h : result.toOption = some value) : result = .ok value := by
  cases result with
  | error e => cases h
  | ok found =>
    cases h
    rfl

/-! ## Places -/

namespace Path

/-- Where a name leads from a location. -/
def enter (location : List String) (name : String) : List String :=
  if name = "." then location else if name = ".." then location.dropLast else location ++ [name]

/-- Where a path leads to from a working directory, if there are directories all the way. -/
def place (start : List String) (path : Path) : List String :=
  ((if path.isAbsolute then [] else start) ++ path.names).foldl enter []

end Path

namespace FileTree

/-- The bytes of the file at a place. -/
def fileAt (tree : FileTree) (place : List String) : Option ByteArray :=
  match tree.root.find? place with
  | some (.file content) => some content
  | _ => none

/-- Whether there is a directory at a place. -/
def HasDirectory (tree : FileTree) (place : List String) : Prop :=
  ∃ entries, tree.root.find? place = some (.directory entries)

/-- A file is at a place just if its node is found there. -/
theorem fileAt_eq_some_iff {tree : FileTree} {place : List String} {content : ByteArray} :
    tree.fileAt place = some content ↔ tree.root.find? place = some (.file content) := by
  unfold fileAt
  split
  · next found => simp [found]
  · next missing =>
    refine iff_of_false (by simp) fun h => missing content h

/-- Where a file is there is no directory. -/
theorem not_hasDirectory_of_fileAt {tree : FileTree} {place : List String} {content : ByteArray}
    (h : tree.fileAt place = some content) : ¬ tree.HasDirectory place := by
  rintro ⟨entries, hentries⟩
  rw [fileAt_eq_some_iff, hentries] at h
  cases h

/-- Around everything there are directories. -/
theorem hasDirectory_of_append {tree : FileTree} {place behind : List String} {name : String}
    {node : Node} (h : tree.root.find? (place ++ name :: behind) = some node) :
    tree.HasDirectory place := by
  rw [Node.find?_append] at h
  obtain ⟨around, haround, hbehind⟩ := Option.bind_eq_some_iff.mp h
  cases around with
  | file content => cases hbehind
  | directory entries => exact ⟨entries, haround⟩

/-- Around a directory there are directories. -/
theorem HasDirectory.of_prefix {tree : FileTree} {place around : List String}
    (h : tree.HasDirectory place) (haround : around <+: place) : tree.HasDirectory around := by
  obtain ⟨behind, rfl⟩ := haround
  cases behind with
  | nil => simpa using h
  | cons name behind =>
    obtain ⟨entries, hentries⟩ := h
    exact hasDirectory_of_append hentries

theorem HasDirectory.dropLast {tree : FileTree} {place : List String}
    (h : tree.HasDirectory place) (hplace : place ≠ []) : tree.HasDirectory place.dropLast := by
  obtain ⟨entries, hentries⟩ := h
  rw [← List.dropLast_concat_getLast hplace] at hentries
  exact hasDirectory_of_append hentries

/-! ## Following paths -/

/-- A name can be followed from a directory if it is not too long, whether or not anything is
there. -/
theorem step_eq_ok_iff {tree : FileTree} {location next : List String} {name : String} :
    tree.step location name = .ok next
      ↔ tree.HasDirectory location ∧ next = Path.enter location name
        ∧ (name = "." ∨ name = ".." ∨ name.utf8ByteSize ≤ maxNameBytes) := by
  unfold step HasDirectory Path.enter
  split
  · next hnone => simp [hnone]
  · next hfile => simp [hfile]
  · next entries hdirectory =>
    simp only [hdirectory, Option.some.injEq, Node.directory.injEq, exists_eq', true_and]
    -- The three kinds of names, the last of which is bounded in length.
    by_cases hdot : name = "."
    · simp [hdot, eq_comm]
    · by_cases hparent : name = ".."
      · simp [hparent, eq_comm]
      · by_cases hlong : maxNameBytes < name.utf8ByteSize
        · simp [hdot, hparent, hlong]
        · simp [hdot, hparent, hlong, Nat.le_of_not_lt hlong, eq_comm]

/-- Where names lead to there is a directory around. -/
theorem hasDirectory_of_foldlM {tree : FileTree} {names start location : List String}
    (h : names.foldlM tree.step start = .ok location)
    (hstart : start ≠ [] → tree.HasDirectory start.dropLast) :
    location = names.foldl Path.enter start
      ∧ (location ≠ [] → tree.HasDirectory location.dropLast) := by
  -- On the names, with the directory around the current location as the invariant.
  induction names generalizing start with
  | nil =>
    cases h
    exact ⟨rfl, hstart⟩
  | cons name names ih =>
    rw [List.foldlM_cons] at h
    obtain ⟨next, hnext, h⟩ := exists_of_bind_eq_ok h
    obtain ⟨hdirectory, rfl, _⟩ := step_eq_ok_iff.mp hnext
    refine ih h fun hnonempty => ?_
    unfold Path.enter at hnonempty ⊢
    split
    · exact hstart (by simp_all)
    · split
      · -- Two levels up, which are directories since the location itself is one.
        have hparent : start.dropLast ≠ [] := by simp_all
        have hnested : start ≠ [] := by
          rintro rfl
          exact hparent rfl
        exact (hdirectory.dropLast hnested).dropLast hparent
      · rw [List.dropLast_concat]
        exact hdirectory

/-- What a path has to be to lead anywhere. -/
theorem locate_eq_ok_iff {tree : FileTree} {path : Path} {location : List String} :
    tree.locate path = .ok location
      ↔ path.text ≠ "" ∧ path.text.toList.contains '\x00' = false
        ∧ path.text.utf8ByteSize ≤ maxPathBytes
        ∧ ((if path.isAbsolute then [] else tree.workingDirectory)
          ++ path.names).foldlM tree.step [] = .ok location := by
  -- One refusal after another, and then the names are followed.
  unfold locate
  split
  · simp_all
  · split
    · simp_all
    · split
      · next hlong => simp_all [Nat.not_le.mpr hlong]
      · simp_all

/-- **Where paths lead to.** A path that can be followed leads to its place, which is the root or
lies in a directory. -/
theorem eq_place_of_locate {tree : FileTree} {path : Path} {location : List String}
    (h : tree.locate path = .ok location) :
    location = path.place tree.workingDirectory
      ∧ (location ≠ [] → tree.HasDirectory location.dropLast) := by
  obtain ⟨_, _, _, hnames⟩ := locate_eq_ok_iff.mp h
  exact hasDirectory_of_foldlM hnames fun hroot => absurd rfl hroot

/-- Names lead on to where they led, as long as no directory on the way is taken away. -/
theorem foldlM_step_of_directories {tree later : FileTree}
    (hdirectories : ∀ place, tree.HasDirectory place → later.HasDirectory place)
    {names start location : List String} (h : names.foldlM tree.step start = .ok location) :
    names.foldlM later.step start = .ok location := by
  induction names generalizing start with
  | nil => exact h
  | cons name names ih =>
    rw [List.foldlM_cons] at h ⊢
    obtain ⟨next, hnext, h⟩ := exists_of_bind_eq_ok h
    obtain ⟨hdirectory, hlocation⟩ := step_eq_ok_iff.mp hnext
    have hstep : later.step start name = .ok next :=
      step_eq_ok_iff.mpr ⟨hdirectories _ hdirectory, hlocation⟩
    rw [hstep]
    exact ih h

/-- A path leads to its place as long as no directory is taken away. -/
theorem locate_of_directories {tree later : FileTree} {path : Path} {location : List String}
    (hworking : later.workingDirectory = tree.workingDirectory)
    (hdirectories : ∀ place, tree.HasDirectory place → later.HasDirectory place)
    (h : tree.locate path = .ok location) : later.locate path = .ok location := by
  obtain ⟨hnonempty, hzero, hlong, hnames⟩ := locate_eq_ok_iff.mp h
  rw [locate_eq_ok_iff, hworking]
  exact ⟨hnonempty, hzero, hlong, foldlM_step_of_directories hdirectories hnames⟩

end FileTree

/-! ## Endings of names -/

namespace Path

/-- Whether a text can be the ending of a name. What ends in it is neither nothing nor one of the
names that a directory has for itself and for the one around it. -/
structure IsEnding (ending : String) : Prop where
  noSlash : '/' ∉ ending.toList
  notSelf : ¬ ending.toList <:+ ['.']
  notParent : ¬ ending.toList <:+ ['.', '.']

/-- Whether the last of the names has an ending. -/
def EndsIn (ending : String) (names : List String) : Prop :=
  ∃ before last, names = before ++ [last] ∧ ending.toList <:+ last.toList

/-- What has no slash in it is at the end of the last field. -/
theorem exists_splitOn_append {ending : List Char} (hending : '/' ∉ ending) (front : List Char) :
    ∃ before last, (front ++ ending).splitOn '/' = before ++ [last] ∧ ending <:+ last := by
  -- On the text in front: a slash begins another field, and any other character joins one.
  induction front with
  | nil => exact ⟨[], ending, List.splitOn_eq_singleton hending, List.suffix_rfl⟩
  | cons c front ih =>
    obtain ⟨before, last, hsplit, hlast⟩ := ih
    rw [List.cons_append, List.splitOn_cons_eq_if_modifyHead, hsplit]
    split
    · exact ⟨[] :: before, last, rfl, hlast⟩
    · -- The character goes to the front of the first field, which may be the last as well.
      cases before with
      | nil => exact ⟨[], c :: last, rfl, hlast.trans (List.suffix_cons c last)⟩
      | cons first before => exact ⟨(c :: first) :: before, last, rfl, hlast⟩

/-- What ends the text of a path ends the last of its parts. -/
theorem exists_fields {ending : String} (hending : IsEnding ending) {path : Path}
    (h : ending.toList <:+ path.text.toList) :
    ∃ before last, Text.fields '/' path.text = before ++ [last]
      ∧ ending.toList <:+ last.toList := by
  obtain ⟨front, hfront⟩ := h
  obtain ⟨before, last, hsplit, hlast⟩ := exists_splitOn_append hending.noSlash front
  refine ⟨before.map .ofList, .ofList last, ?_, by rwa [String.toList_ofList]⟩
  rw [Text.fields, ← hfront, hsplit, List.map_append]
  rfl

/-- What has such an ending is a proper name. -/
theorem ne_of_ending {ending : String} (hending : IsEnding ending) {last : String}
    (h : ending.toList <:+ last.toList) : last ≠ "" ∧ last ≠ "." ∧ last ≠ ".." := by
  refine ⟨?_, ?_, ?_⟩
  · rintro rfl
    exact hending.notSelf (h.trans List.nil_suffix)
  · rintro rfl
    exact hending.notSelf h
  · rintro rfl
    exact hending.notParent h

/-- A last part that is a name is the last of the names, and of the place. -/
theorem place_of_last {path : Path} {before : List String} {last : String}
    (hfields : Text.fields '/' path.text = before ++ [last])
    (hlast : last ≠ "" ∧ last ≠ "." ∧ last ≠ "..") (start : List String) :
    path.names = before.filter (· ≠ "") ++ [last]
      ∧ path.place start = ((if path.isAbsolute then [] else start)
        ++ before.filter (· ≠ "")).foldl enter [] ++ [last] := by
  have hnames : path.names = before.filter (· ≠ "") ++ [last] := by
    rw [names, hfields, List.filter_append]
    simp [hlast.1]
  refine ⟨hnames, ?_⟩
  rw [place, hnames, ← List.append_assoc, List.foldl_append, List.foldl_cons, List.foldl_nil, enter,
    if_neg hlast.2.1, if_neg hlast.2.2]

/-- A path whose last part is a name ends in a name. -/
theorem endsInName_of_last {path : Path} {before : List String} {last : String}
    (hfields : Text.fields '/' path.text = before ++ [last])
    (hlast : last ≠ "" ∧ last ≠ "." ∧ last ≠ "..") : FileTree.endsInName path = true := by
  rw [FileTree.endsInName, (place_of_last hfields hlast []).1, List.getLast?_concat]
  simp [hlast]

/-- **The last name.** The place of a path ends in what the path ends in. -/
theorem endsIn_place {ending : String} (hending : IsEnding ending) {path : Path}
    (h : ending.toList <:+ path.text.toList) (start : List String) :
    EndsIn ending (path.place start) := by
  obtain ⟨before, last, hfields, hlast⟩ := exists_fields hending h
  have hplace := (place_of_last hfields (ne_of_ending hending hlast) start).2
  exact ⟨_, last, hplace, hlast⟩

theorem splitLast?_of_fields {path : Path} {before : List String} {last : String}
    (hfields : Text.fields '/' path.text = before ++ [last])
    (hlast : last ≠ "" ∧ last ≠ "." ∧ last ≠ "..") : path.splitLast? = some (before, last) := by
  have hidle : isIdle last = false := by simp [isIdle, hlast]
  rw [splitLast?, hfields]
  cases before with
  | nil => simp [hlast]
  | cons first before => simp [hidle]

/-- The last component of a path with an ending is the last of its parts. -/
theorem exists_splitLast? {ending : String} (hending : IsEnding ending) {path : Path}
    (h : ending.toList <:+ path.text.toList) :
    ∃ before last, path.splitLast? = some (before, last) ∧ last ≠ ".." := by
  obtain ⟨before, last, hfields, hlast⟩ := exists_fields hending h
  have hname := ne_of_ending hending hlast
  exact ⟨before, last, splitLast?_of_fields hfields hname, hname.2.2⟩

end Path

end Syllabus
