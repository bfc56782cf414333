import Syllabus.Proofs.Files.Places

/-!
# Syllabus: names inside directories

The path of a name inside a directory leads to just that name in the place of the directory. So the
paths of different names inside one directory lead to different places.

* **`Path.place_div`**: the place of a name in a directory.
* **`FileTree.contains_of_located`**: where a path into a directory can be followed, the directory
  is there.
-/

namespace Syllabus

namespace Path

/-- Whether a text is a single name that something in a directory can have. -/
structure IsName (name : String) : Prop where
  nonempty : name ≠ ""
  noSlash : '/' ∉ name.toList
  notSelf : name ≠ "."
  notParent : name ≠ ".."

instance (name : String) : Decidable (IsName name) :=
  decidable_of_iff (name ≠ "" ∧ '/' ∉ name.toList ∧ name ≠ "." ∧ name ≠ "..")
    ⟨fun ⟨h1, h2, h3, h4⟩ => ⟨h1, h2, h3, h4⟩, fun ⟨h1, h2, h3, h4⟩ => ⟨h1, h2, h3, h4⟩⟩

variable {name : String}

/-- The names on both sides of a slash. -/
theorem names_of_slash {path : Path} {front back : List Char}
    (h : path.text.toList = front ++ '/' :: back) :
    path.names = names ⟨.ofList front⟩ ++ names ⟨.ofList back⟩ := by
  rw [names, names, names, Text.fields, Text.fields, Text.fields, h, List.splitOn_append_cons_self,
    String.toList_ofList, String.toList_ofList, List.map_append, List.filter_append]

/-! ## Leading on -/

/-- What every path that leads on from a directory starts with. -/
def lead (directory : Path) : String :=
  if directory.text = "" || directory.endsWithSlash then directory.text else directory.text ++ "/"

/-- The path of what is in a directory starts with that of the directory. -/
theorem text_join (directory : Path) {path : Path} (hpath : path.isAbsolute = false) :
    (directory.join path).text = directory.lead ++ path.text := by
  rw [join, if_neg (by simp [hpath]), lead, endsWithSlash]
  split <;> rfl

/-- Nothing leads on from the empty path. -/
theorem lead_of_empty {directory : Path} (h : directory.text = "") : directory.lead = "" := by
  rw [lead, if_pos (by simp [h]), h]

/-- What leads on is the path of the directory, with a slash if it needs one. -/
theorem exists_lead (directory : Path) : ∃ behind, directory.lead = directory.text ++ behind := by
  rw [lead]
  split
  · exact ⟨"", (String.append_empty ..).symm⟩
  · exact ⟨"/", rfl⟩

/-- A slash stands between a directory and what is inside it. -/
theorem exists_slash {directory : Path} (h : directory.text ≠ "") :
    ∃ front, directory.lead.toList = front ++ ['/'] ∧ names ⟨.ofList front⟩ = directory.names := by
  have hnone : names ⟨.ofList []⟩ = [] := rfl
  rw [lead]
  -- The slash is there already, or it is put behind the path.
  split
  · next hslash =>
    have hlast : directory.text.toList.getLast? = some '/' := by
      simpa [h, endsWithSlash] using hslash
    obtain ⟨front, hfront⟩ := List.getLast?_eq_some_iff.mp hlast
    have hnames := names_of_slash hfront
    rw [hnone, List.append_nil] at hnames
    exact ⟨front, hfront, hnames.symm⟩
  · exact ⟨directory.text.toList, String.toList_append, by rw [String.ofList_toList]⟩

/-- The names of a relative path come behind those of the directory. -/
theorem names_join (directory : Path) {path : Path} (hpath : path.isAbsolute = false) :
    (directory.join path).names = directory.names ++ path.names := by
  have htext := text_join directory hpath
  -- From the empty path nothing leads on, not even a slash.
  by_cases hempty : directory.text = ""
  · have hdirectory : directory.names = [] := by
      rw [names, hempty]
      rfl
    rw [hdirectory, List.nil_append, names, htext, lead_of_empty hempty, String.empty_append, names]
  · obtain ⟨front, hfront, hnames⟩ := exists_slash hempty
    have hjoin : (directory.join path).text.toList = front ++ '/' :: path.text.toList := by
      rw [htext, String.toList_append, hfront, List.append_assoc]
      rfl
    rw [names_of_slash hjoin, hnames, String.ofList_toList]

/-- Whether the whole path is absolute is up to the directory. -/
theorem isAbsolute_join (directory : Path) {path : Path} (hpath : path.isAbsolute = false) :
    (directory.join path).isAbsolute = directory.isAbsolute := by
  rw [isAbsolute, text_join directory hpath]
  by_cases hempty : directory.text = ""
  · rw [lead_of_empty hempty, String.empty_append, isAbsolute, hempty]
    exact hpath
  · obtain ⟨behind, hlead⟩ := exists_lead directory
    rw [hlead, String.toList_append, String.toList_append, isAbsolute]
    cases hdirectory : directory.text.toList with
    | nil => exact absurd (String.toList_eq_nil_iff.mp hdirectory) hempty
    | cons first rest => rfl

/-- **Leading on from a directory.** The names of a relative path are followed from the place of the
directory. -/
theorem place_join (start : List String) (directory : Path) {path : Path}
    (hpath : path.isAbsolute = false) :
    (directory.join path).place start = path.names.foldl enter (directory.place start) := by
  rw [place, isAbsolute_join directory hpath, names_join directory hpath, ← List.append_assoc,
    List.foldl_append]
  rfl

/-! ## Single names -/

/-- A name with an ending behind it is a name. -/
theorem IsName.append (h : IsName name) {ending : String} (hending : IsEnding ending) :
    IsName (name ++ ending) := by
  have hsuffix : ending.toList <:+ (name ++ ending).toList := by
    rw [String.toList_append]
    exact List.suffix_append _ _
  obtain ⟨hempty, hself, hparent⟩ := ne_of_ending hending hsuffix
  refine ⟨hempty, ?_, hself, hparent⟩
  rw [String.toList_append, List.mem_append, not_or]
  exact ⟨h.noSlash, hending.noSlash⟩

/-- A text without a slash is one name. -/
theorem names_of_noSlash (hname : name ≠ "") (hslash : '/' ∉ name.toList) :
    names ⟨name⟩ = [name] := by
  rw [names, Text.fields, List.splitOn_eq_singleton hslash]
  simp [hname]

theorem isAbsolute_of_noSlash (hslash : '/' ∉ name.toList) : isAbsolute ⟨name⟩ = false := by
  rw [isAbsolute, beq_eq_false_iff_ne]
  intro hhead
  exact hslash (List.mem_of_mem_head? hhead)

/-- A name in a directory comes behind the names of the directory. -/
theorem names_div (directory : Path) (hname : name ≠ "") (hslash : '/' ∉ name.toList) :
    (directory / name).names = directory.names ++ [name] := by
  rw [← names_of_noSlash hname hslash]
  exact names_join directory (isAbsolute_of_noSlash hslash)

/-- The path of a name in a directory is never empty. -/
theorem text_div_ne_empty (directory : Path) (h : IsName name) : (directory / name).text ≠ "" := by
  intro hempty
  have hnames := names_div directory h.nonempty h.noSlash
  rw [names, hempty] at hnames
  exact List.append_ne_nil_of_right_ne_nil _ (List.cons_ne_nil _ _) hnames.symm

theorem isAbsolute_div (directory : Path) (hslash : '/' ∉ name.toList) :
    (directory / name).isAbsolute = directory.isAbsolute :=
  isAbsolute_join directory (isAbsolute_of_noSlash hslash)

/-- **A name in a directory.** It leads to just that name in the place of the directory. -/
theorem place_div (start : List String) (directory : Path) (h : IsName name) :
    (directory / name).place start = directory.place start ++ [name] := by
  have hjoin := place_join start directory (isAbsolute_of_noSlash h.noSlash)
  rw [names_of_noSlash h.nonempty h.noSlash, List.foldl_cons, List.foldl_nil, enter,
    if_neg h.notSelf, if_neg h.notParent] at hjoin
  exact hjoin

theorem endsInName_div (directory : Path) (h : IsName name) :
    FileTree.endsInName (directory / name) = true := by
  rw [FileTree.endsInName, names_div directory h.nonempty h.noSlash, List.getLast?_concat]
  simp [h.notSelf, h.notParent]

end Path

namespace FileTree

/-- Where a path into a directory can be followed, the directory is there. -/
theorem contains_of_located {tree : FileTree} {directory : Path} {name : String}
    (h : Path.IsName name) (hdirectory : directory.text ≠ "") {location : List String}
    (hlocate : tree.locate (directory / name) = .ok location) :
    tree.contains directory = true := by
  obtain ⟨_, hzero, hlong, hnames⟩ := locate_eq_ok_iff.mp hlocate
  rw [Path.isAbsolute_div directory h.noSlash, Path.names_div directory h.nonempty h.noSlash,
    ← List.append_assoc, List.foldlM_append] at hnames
  obtain ⟨place, hplace, hstep⟩ := exists_of_bind_eq_ok hnames
  rw [List.foldlM_cons] at hstep
  obtain ⟨_, hstep, _⟩ := exists_of_bind_eq_ok hstep
  obtain ⟨⟨entries, hentries⟩, _⟩ := step_eq_ok_iff.mp hstep
  -- The path of the directory is the start of the whole path.
  have hstart : ∃ behind, (directory / name).text = directory.text ++ behind := by
    obtain ⟨slash, hlead⟩ := Path.exists_lead directory
    refine ⟨slash ++ name, ?_⟩
    rw [← String.append_assoc, ← hlead]
    exact Path.text_join directory (Path.isAbsolute_of_noSlash h.noSlash)
  obtain ⟨behind, htext⟩ := hstart
  have hlocated : tree.locate directory = .ok place := by
    refine locate_eq_ok_iff.mpr ⟨hdirectory, ?_, ?_, hplace⟩
    · rw [htext, String.toList_append, List.contains_append, Bool.or_eq_false_iff] at hzero
      exact hzero.1
    · rw [htext, String.utf8ByteSize_append] at hlong
      omega
  rw [contains, find, hlocated]
  dsimp only [Bind.bind, Except.bind]
  rw [hentries]

end FileTree

end Syllabus
