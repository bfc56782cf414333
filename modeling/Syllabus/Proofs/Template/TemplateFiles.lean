import Syllabus.Proofs.Files.Spelling
import Syllabus.Proofs.Template.FilesBelow

/-!
# Syllabus: files of templates

The templates of a directory are the files below it with one ending. So a library that was loaded
before files with other endings were changed is loaded again after it, unless the path to them leads
to something only then, and that is not a new directory.

* **`isTemplateFile_eq_false`**: files with other endings are no templates.
* **`load_of_performs`**: the library that is loaded after changes to other files.
-/

namespace Syllabus.Template.Library

open FileTree

/-- Files with other endings are no templates. -/
theorem isTemplateFile_eq_false {ending : String} (hending : Path.IsEnding ending)
    (hother : ¬ ending.toList <:+ ".tpl".toList ∧ ¬ ".tpl".toList <:+ ending.toList) {name : String}
    (h : ending.toList <:+ name.toList) : isTemplateFile name = false := by
  have hpath : ending.toList <:+ (Path.mk name).text.toList := h
  obtain ⟨before, last, hfields, hlast⟩ := Path.exists_fields hending hpath
  have hne := Path.ne_of_ending hending hlast
  have hname : (Path.mk name).fileName? = some last := by
    rw [Path.fileName?, Path.splitLast?_of_fields hfields hne, Option.bind_some]
    exact if_neg hne.2.2
  rw [isTemplateFile, hname, beq_eq_false_iff_ne]
  intro hextension
  have htemplate : ".tpl".toList <:+ last.toList := Path.suffix_of_extensionOf hextension
  rcases List.suffix_or_suffix_of_suffix hlast htemplate with hsuffix | hsuffix
  · exact hother.1 hsuffix
  · exact hother.2 hsuffix

variable {tree later : FileTree} {directory : Path}

/-- Directories with the same templates below them have the same texts. -/
theorem readTexts_congr {place : List String} (hlocate : tree.locate directory = .ok place)
    (hlocate' : later.locate directory = .ok place) (hthere : tree.HasDirectory place)
    (hthere' : later.HasDirectory place)
    (hsame : later.filesAt isTemplateFile place = tree.filesAt isTemplateFile place) :
    readTexts later directory = readTexts tree directory := by
  obtain ⟨entries, hentries⟩ := hthere
  obtain ⟨others, hothers⟩ := hthere'
  rw [filesAt_of_directory hentries, filesAt_of_directory hothers, Node.filesPickedAmong,
    Node.filesPickedAmong] at hsame
  unfold readTexts contains readDirectory
  rw [find_of_directory hlocate hentries, find_of_directory hlocate' hothers]
  simp only [Bind.bind, Except.bind, hsame]

/-- Where nothing can be found there are no templates. -/
theorem readTexts_of_missing (h : tree.contains directory = false) :
    readTexts tree directory = .ok [] := by
  unfold readTexts
  rw [h]
  rfl

/-- Texts that are read from something that is there are read from a directory. -/
theorem exists_directory_of_readTexts {texts : List (String × String)}
    (h : readTexts tree directory = .ok texts) (hthere : tree.contains directory = true) :
    tree.locate directory = .ok (directory.place tree.workingDirectory)
      ∧ tree.HasDirectory (directory.place tree.workingDirectory) := by
  obtain ⟨location, node, hfind⟩ := exists_of_contains hthere
  obtain ⟨hlocate, hnode⟩ := of_find hfind
  obtain ⟨rfl, _⟩ := eq_place_of_locate hlocate
  cases node with
  | file content =>
    unfold readTexts contains readDirectory at h
    rw [hfind] at h
    cases h
  | directory entries => exact ⟨hlocate, entries, hnode⟩

/-- What the templates have to do with a change of the tree: where it makes the path to them lead to
something, that is a new directory. -/
def TemplatesStay (tree later : FileTree) (directory : Path) : Prop :=
  tree.contains directory = false → later.contains directory = true →
    ¬ tree.HasDirectory (directory.place tree.workingDirectory)
      ∧ later.HasDirectory (directory.place tree.workingDirectory)

variable {allowed : Operation → Prop}

theorem readTexts_of_performs {texts : List (String × String)} (h : Performs allowed tree later)
    (hdistinct : tree.Distinct)
    (hpasses : ∀ operation, allowed operation → operation.PassesOver isTemplateFile)
    (hstay : TemplatesStay tree later directory) (hread : readTexts tree directory = .ok texts) :
    readTexts later directory = .ok texts := by
  have hchanges : Changes (fun _ => True) tree later := h.changes fun _ _ _ _ => trivial
  have hworking := hchanges.workingDirectory
  have hfiles := h.filesAt_eq hdistinct hpasses (directory.place tree.workingDirectory)
  cases hthere : tree.contains directory with
  | true =>
    obtain ⟨hlocate, hdirectory⟩ := exists_directory_of_readTexts hread hthere
    exact (readTexts_congr hlocate (hchanges.locate hlocate) hdirectory
      (hchanges.directories _ hdirectory) hfiles).trans hread
  | false =>
    rw [readTexts_of_missing hthere] at hread
    cases hread
    cases hlater : later.contains directory with
    | false => exact readTexts_of_missing hlater
    | true =>
      -- What is there now is a directory that was made, and there are no templates in it.
      obtain ⟨hnew, entries, hentries⟩ := hstay hthere hlater
      obtain ⟨location, node, hfind⟩ := exists_of_contains hlater
      obtain ⟨hlocate, _⟩ := of_find hfind
      obtain ⟨rfl, _⟩ := eq_place_of_locate hlocate
      rw [hworking] at hlocate
      rw [filesAt_eq_nil hnew, filesAt_of_directory hentries, Node.filesPickedAmong] at hfiles
      unfold readTexts contains readDirectory
      rw [find_of_directory hlocate hentries]
      simp only [Bind.bind, Except.bind, hfiles]
      rfl

/-- **Templates that stay.** The library that was loaded is loaded again. -/
theorem load_of_performs {library : Library} {templates : Option Path}
    (h : Performs allowed tree later) (hdistinct : tree.Distinct)
    (hpasses : ∀ operation, allowed operation → operation.PassesOver isTemplateFile)
    (hstay : ∀ directory ∈ templates, TemplatesStay tree later directory)
    (hload : load tree templates = .ok library) : load later templates = .ok library := by
  cases templates with
  | none => exact hload
  | some directory =>
    obtain ⟨texts, hread, hlibrary⟩ := exists_of_bind_eq_ok hload
    have hread' := readTexts_of_performs h hdistinct hpasses (hstay directory rfl) hread
    unfold load
    dsimp only
    rw [hread']
    exact hlibrary

end Syllabus.Template.Library
