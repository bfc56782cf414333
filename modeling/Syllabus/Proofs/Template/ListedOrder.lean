import Syllabus.Proofs.Files.Reordering
import Syllabus.Proofs.Table
import Syllabus.Proofs.Template.Libraries
import Syllabus.Proofs.Template.SourceText
import Syllabus.Proofs.Template.TemplateFiles
import Syllabus.Proofs.Template.TreeRendering

/-!
# Syllabus: templates in the order of their files

A library takes the templates of a directory as the directory lists their files, and what comes
later replaces what came before under the same name. Several files can have one name: it is written
in small letters, without the ending and with slashes of one kind. So the order in which directories
list their entries says which of them counts, and nothing else: the names of a library are the same
in any order, and so is every template whose files agree.

* **`templates_of_ofTexts`**: the library that texts make, entry by entry.
* **`texts_of_reordered`**: libraries from directories in different orders come of the same texts.
* **`load_of_reordered`**: what the order changes, and what it does not.
-/

namespace Syllabus.Template.Library

variable {tree other : FileTree} {templates : Option Path} {library later : Library}

/-! ## The library of texts -/

/-- A template that is added has been parsed, and is sorted in. -/
theorem exists_of_add {name text : String} (h : library.add name text = .ok later) :
    ∃ template, parse name text = .ok template
      ∧ later = ⟨(library.templates.insert name template).sorted⟩ := by
  unfold add at h
  cases hparse : parse name text with
  | error e =>
    rw [hparse] at h
    cases h
  | ok template =>
    rw [hparse] at h
    cases h
    exact ⟨template, rfl, rfl⟩

/-- Whether an entry is the template of a text, under the same name. -/
def IsParsed (text : String × String) (template : String × Template) : Prop :=
  template.1 = text.1 ∧ parse text.1 text.2 = .ok template.2

/-- Texts in the order of their names are added at the end one by one. -/
theorem templates_of_foldlM {texts : Table String}
    (hnodup : (Table.names library.templates ++ Table.names texts).Nodup)
    (hascending : (Table.names library.templates ++ Table.names texts).Pairwise (· ≤ ·))
    (h : texts.foldlM (fun library text => library.add text.1 text.2) library = .ok later) :
    ∃ added, later.templates = library.templates ++ added ∧ List.Forall₂ IsParsed texts added := by
  -- On the texts: each is new and comes behind the templates so far.
  induction texts generalizing library with
  | nil =>
    cases h
    exact ⟨[], (List.append_nil _).symm, .nil⟩
  | cons text rest ih =>
    rw [List.foldlM_cons] at h
    obtain ⟨next, hadd, h⟩ := exists_of_bind_eq_ok h
    obtain ⟨template, hparse, rfl⟩ := exists_of_add hadd
    have hsplit : Table.names library.templates ++ Table.names (text :: rest)
        = Table.names (library.templates ++ [(text.1, template)]) ++ Table.names rest := by
      simp [Table.names]
    rw [hsplit] at hnodup hascending
    have hfresh : text.1 ∉ Table.names library.templates := by
      have hnew := (List.nodup_append.mp hnodup).1
      simp only [Table.names, List.map_append, List.nodup_append] at hnew
      exact fun hmem => hnew.2.2 _ hmem _ (List.mem_singleton_self _) rfl
    have hsorted : (library.templates.insert text.1 template).sorted
        = library.templates ++ [(text.1, template)] := by
      rw [Table.insert_of_fresh hfresh]
      exact Table.sorted_of_pairwise (List.pairwise_map.mp (List.pairwise_append.mp hascending).1)
    rw [hsorted] at h
    obtain ⟨added, hadded, hparsed⟩ := ih hnodup hascending h
    refine ⟨(text.1, template) :: added, ?_, .cons ⟨rfl, hparse⟩ hparsed⟩
    rw [hadded, List.append_assoc]
    rfl

/-- **A library has the templates of its texts, in the order of their names.** -/
theorem templates_of_ofTexts {texts : Table String} (hnodup : (Table.names texts).Nodup)
    (h : ofTexts texts = .ok library) :
    List.Forall₂ IsParsed texts.sorted library.templates := by
  have hnames : (Table.names ({} : Library).templates ++ Table.names texts.sorted).Nodup :=
    Table.nodup_sorted hnodup
  obtain ⟨added, hadded, hparsed⟩ := templates_of_foldlM hnames
    (List.pairwise_map.mpr (Table.pairwise_sorted texts)) h
  rw [hadded]
  exact hparsed

/-- Templates have the names of their texts. -/
theorem names_of_parsed {texts : Table String} {parsed : Table Template}
    (h : List.Forall₂ IsParsed texts parsed) : Table.names parsed = Table.names texts := by
  induction h with
  | nil => rfl
  | cons hfirst _ ih =>
    rw [Table.names, List.map_cons, hfirst.1]
    exact congrArg _ ih

/-- Under a name is the template of the text there. -/
theorem find?_of_parsed {texts : Table String} {parsed : Table Template}
    (h : List.Forall₂ IsParsed texts parsed) (name : String) :
    parsed.find? name = (texts.find? name).bind fun text => (parse name text).toOption := by
  induction h with
  | nil => rfl
  | @cons text template _ _ hfirst _ ih =>
    rw [Table.find?, Table.find?, hfirst.1]
    split
    · next hname =>
      obtain rfl := hname
      rw [Option.bind_some, hfirst.2]
      rfl
    · exact ih

/-! ## The texts of a directory -/

/-- The files of templates in a directory in the order in which they are listed, if there is a
directory. -/
def templateFiles (tree : FileTree) (templates : Option Path) : List (String × ByteArray) :=
  match templates.map tree.readDirectory with
  | some (.ok entries) => (Node.filesAmong "" entries).filter (isTemplateFile ·.1)
  | _ => []

/-- The name and the text of a template in a file. -/
def textOf (file : String × ByteArray) : String × String :=
  (templateName file.1, (String.fromUTF8? file.2).getD "")

/-- The texts that a library is made of: those that are built in, with those of files over them. -/
def textsOver (files : List (String × ByteArray)) : Table String :=
  Table.insertAll builtIn (files.map textOf)

theorem nodup_textsOver (files : List (String × ByteArray)) :
    (Table.names (textsOver files)).Nodup :=
  Table.nodup_insertAll (by decide) _

/-- Where all files are texts, the directory is read as these texts. -/
theorem readTexts_of_readable {directory : Path} {entries : List (String × Node)}
    (hthere : tree.contains directory = true) (hread : tree.readDirectory directory = .ok entries)
    (hreadable : ∀ file ∈ templateFiles tree (some directory), (String.fromUTF8? file.2).isSome) :
    readTexts tree directory = .ok ((templateFiles tree (some directory)).map textOf) := by
  have hfiles : templateFiles tree (some directory)
      = (Node.filesAmong "" entries).filter (isTemplateFile ·.1) := by
    rw [templateFiles, Option.map_some, hread]
  rw [hfiles] at hreadable ⊢
  unfold readTexts
  rw [hthere, hread]
  simp only [Bool.not_true, Bool.false_eq_true, if_false]
  -- From here on only the list of files matters.
  generalize (Node.filesAmong "" entries).filter (isTemplateFile ·.1) = files at hreadable
  induction files with
  | nil => rfl
  | cons file files ih =>
    obtain ⟨text, htext⟩ := Option.isSome_iff_exists.mp (hreadable file List.mem_cons_self)
    rw [List.mapM_cons, ih fun other hother => hreadable other (List.mem_cons_of_mem _ hother),
      List.map_cons, textOf, htext]
    rfl

/-- The texts of a directory decide which library is loaded from it. -/
theorem load_congr {directory : Path} (h : readTexts other directory = readTexts tree directory) :
    load other (some directory) = load tree (some directory) := by
  unfold load
  dsimp only
  rw [h]

/-- The library has the built-in texts, with those of the directory put over them. -/
theorem load_of_readTexts {directory : Path} {texts : List (String × String)}
    (h : readTexts tree directory = .ok texts) :
    load tree (some directory) = ofTexts (Table.insertAll builtIn texts) := by
  unfold load
  dsimp only
  rw [h]
  rfl

section Reordered

variable (h : tree.Reordered other) (hdistinct : tree.Distinct)

include h hdistinct

/-- Both trees have the same template files, in some order. -/
theorem templateFiles_perm (templates : Option Path) :
    (templateFiles tree templates).Perm (templateFiles other templates) := by
  cases templates with
  | none => exact .refl _
  | some directory =>
    unfold templateFiles
    rw [Option.map_some, Option.map_some]
    rcases h.readDirectory_cases hdistinct directory with
      ⟨fault, hread, hread'⟩ | ⟨entries, others, hread, hread', hfiles⟩
    · rw [hread, hread']
    · rw [hread, hread']
      exact (hfiles "").filter _

/-- **Libraries from directories in another order** come of texts of the same files, if they do not
come to the same for another reason. -/
theorem texts_of_reordered
    (hreadable : ∀ file ∈ templateFiles tree templates, (String.fromUTF8? file.2).isSome) :
    load other templates = load tree templates
      ∨ load tree templates = ofTexts (textsOver (templateFiles tree templates))
        ∧ load other templates = ofTexts (textsOver (templateFiles other templates)) := by
  cases templates with
  | none => exact .inl rfl
  | some directory =>
    have hcontains := h.contains_eq hdistinct directory
    cases hthere : tree.contains directory with
    | false =>
      rw [hthere] at hcontains
      refine .inl (load_congr ?_)
      rw [readTexts_of_missing hthere, readTexts_of_missing hcontains]
    | true =>
      rw [hthere] at hcontains
      -- The directory cannot be read in either tree, or it has the same files in both.
      rcases h.readDirectory_cases hdistinct directory with
        ⟨fault, hread, hread'⟩ | ⟨entries, others, hread, hread', _⟩
      · refine .inl (load_congr ?_)
        unfold readTexts
        rw [hcontains, hthere, hread, hread']
      · have hperm := templateFiles_perm h hdistinct (some directory)
        have htexts := readTexts_of_readable hthere hread hreadable
        have htexts' := readTexts_of_readable hcontains hread' fun file hfile =>
          hreadable file (hperm.mem_iff.mpr hfile)
        exact .inr ⟨load_of_readTexts htexts, load_of_readTexts htexts'⟩

end Reordered

/-! ## What the order says -/

/-- Whether all files of a template have the same content. -/
def Agreed (files : List (String × ByteArray)) (name : String) : Prop :=
  ∀ first ∈ files, ∀ second ∈ files, templateName first.1 = name → templateName second.1 = name →
    first.2 = second.2

/-- Where the files of a name agree, their order does not matter. -/
theorem find?_textsOver_of_perm {files others : List (String × ByteArray)} {name : String}
    (h : files.Perm others) (hagreed : Agreed files name) :
    (textsOver others).find? name = (textsOver files).find? name := by
  refine Table.find?_insertAll_of_perm builtIn (h.map textOf) ?_
  intro first hfirst second hsecond hname hname'
  obtain ⟨file, hfile, rfl⟩ := List.mem_map.mp hfirst
  obtain ⟨file', hfile', rfl⟩ := List.mem_map.mp hsecond
  simp only [textOf] at hname hname' ⊢
  rw [hagreed file hfile file' hfile' hname hname']

theorem names_textsOver_perm {files others : List (String × ByteArray)} (h : files.Perm others) :
    (Table.names (textsOver files)).Perm (Table.names (textsOver others)) := by
  refine (List.perm_ext_iff_of_nodup (nodup_textsOver files) (nodup_textsOver others)).mpr ?_
  intro name
  rw [textsOver, textsOver, Table.mem_names_insertAll, Table.mem_names_insertAll, Table.names,
    Table.names, Table.names, ((h.map textOf).map _).mem_iff]

/-- **What does not depend on the order in which directories list their entries.** If every file of a
template can be read, libraries from directories in different orders have the same names, and the
same template for each name whose files have the same content. If that is so for every name, one
order makes the same library as the other, or the same error. -/
theorem load_of_reordered (h : tree.Reordered other) (hdistinct : tree.Distinct)
    (hreadable : ∀ file ∈ templateFiles tree templates, (String.fromUTF8? file.2).isSome) :
    (∀ library library', load tree templates = .ok library → load other templates = .ok library' →
      Table.names library'.templates = Table.names library.templates
        ∧ ∀ name, Agreed (templateFiles tree templates) name →
          library'.templates.find? name = library.templates.find? name)
      ∧ ((∀ name, Agreed (templateFiles tree templates) name) →
        load other templates = load tree templates) := by
  have hperm := templateFiles_perm h hdistinct templates
  rcases texts_of_reordered h hdistinct hreadable with hsame | ⟨hload, hload'⟩
  · refine ⟨fun library library' hlibrary hlibrary' => ?_, fun _ => hsame⟩
    rw [hsame, hlibrary, Except.ok.injEq] at hlibrary'
    subst hlibrary'
    exact ⟨rfl, fun _ _ => rfl⟩
  · rw [hload, hload']
    have hnodup := nodup_textsOver (templateFiles tree templates)
    have hnodup' := nodup_textsOver (templateFiles other templates)
    refine ⟨fun library library' hlibrary hlibrary' => ?_, fun hagreed => ?_⟩
    · have hparsed := templates_of_ofTexts hnodup hlibrary
      have hparsed' := templates_of_ofTexts hnodup' hlibrary'
      refine ⟨?_, fun name hagreed => ?_⟩
      · rw [names_of_parsed hparsed, names_of_parsed hparsed',
          Table.names_sorted_eq_of_perm (names_textsOver_perm hperm)]
      · rw [find?_of_parsed hparsed, find?_of_parsed hparsed', Table.find?_sorted hnodup,
          Table.find?_sorted hnodup', find?_textsOver_of_perm hperm hagreed]
    · -- All texts are the same, and sorting them forgets their order.
      have hsorted := Table.sorted_eq_of_find? hnodup' hnodup fun name =>
        find?_textsOver_of_perm hperm (hagreed name)
      rw [ofTexts, ofTexts, hsorted]

namespace TwoSpellings

/-! Two files whose names differ in a capital letter only, listed in one order and in the other. -/

/-- The entries of a directory with two files for one template and a file for another. -/
def entries (first second : String) : List (String × Node) :=
  [("Course.html.tpl", .file first.toUTF8), ("course.html.tpl", .file second.toUTF8),
    ("lesson.html.tpl", .file "".toUTF8)]

/-- The directory with its entries in that order, or from the last to the first. -/
def listing (first second : String) (reversed : Bool) : FileTree where
  root :=
    .directory [("t", .directory
      (if reversed then (entries first second).reverse else entries first second))]

def directory : Path := ⟨"t"⟩

/-- The second listing is the first one reordered. -/
theorem reordered_listing (first second : String) :
    (listing first second false).Reordered (listing first second true) where
  root := @Node.Reordered.inside [] _ _ _ _ (.listed (List.reverse_perm _).symm)
  workingDirectory := rfl

/-- No two files of a listing have the same name. -/
theorem distinct_listing (first second : String) : (listing first second false).Distinct := by
  have hentries : (Node.directory (entries first second)).Distinct := by
    refine .of_entries (show ["Course.html.tpl", "course.html.tpl", "lesson.html.tpl"].Nodup by
      decide) fun entry hentry => ?_
    simp only [entries, List.mem_cons, List.not_mem_nil, or_false] at hentry
    rcases hentry with rfl | rfl | rfl <;> exact Node.distinct_file _
  refine .of_entries (show ["t"].Nodup by decide) fun entry hentry => ?_
  rw [List.mem_singleton.mp hentry]
  exact hentries

/-- The library with that text for the page of a program. -/
def madeOf (text : String) : Library :=
  pair ⟨programName, text, []⟩ ⟨pageName, "", []⟩

/-- Such a directory is loaded as a library of two templates without commands. -/
theorem load_of_texts {tree : FileTree} {text : String} {texts : List (String × String)}
    (hread : readTexts tree directory = .ok texts) (hfree : ¬ openMarker <:+: text.toList)
    (htexts : Table.insertAll builtIn texts = [(programName, text), (pageName, "")]) :
    load tree (some directory) = .ok (madeOf text) := by
  rw [load_of_readTexts hread, htexts]
  exact ofTexts_pair (parse_of_free hfree) (parse_of_free (by decide))

/-- Both files are read under the same template name, in the order of the listing. -/
theorem of_listing :
    readTexts (listing "one" "two" false) directory
        = .ok [(programName, "one"), (programName, "two"), (pageName, "")]
      ∧ readTexts (listing "one" "two" true) directory
        = .ok [(pageName, ""), (programName, "two"), (programName, "one")]
      ∧ templateFiles (listing "one" "one" false) (some directory)
        = [("Course.html.tpl", "one".toUTF8), ("course.html.tpl", "one".toUTF8),
          ("lesson.html.tpl", "".toUTF8)]
      ∧ templateFiles (listing "one" "two" false) (some directory)
        = [("Course.html.tpl", "one".toUTF8), ("course.html.tpl", "two".toUTF8),
          ("lesson.html.tpl", "".toUTF8)]
      ∧ ["Course.html.tpl", "course.html.tpl", "lesson.html.tpl"].map templateName
        = [programName, programName, pageName] := by
  decide +kernel

theorem load_listing : load (listing "one" "two" false) (some directory) = .ok (madeOf "two")
    ∧ load (listing "one" "two" true) (some directory) = .ok (madeOf "one") :=
  ⟨load_of_texts of_listing.1 (by decide) rfl, load_of_texts of_listing.2.1 (by decide) rfl⟩

/-- The files of every template agree if those of the page of a program do. -/
theorem agreed_listing {first second : ByteArray} {name : String}
    (h : first = second ∨ name ≠ programName) :
    Agreed [("Course.html.tpl", first), ("course.html.tpl", second), ("lesson.html.tpl", "".toUTF8)]
      name := by
  obtain ⟨_, _, _, _, hnames⟩ := of_listing
  simp only [List.map_cons, List.map_nil, List.cons.injEq, and_true] at hnames
  obtain ⟨hfirst, hsecond, hthird⟩ := hnames
  have hother : programName ≠ pageName := by decide
  intro file hfile file' hfile' hname hname'
  simp only [List.mem_cons, List.not_mem_nil, or_false] at hfile hfile'
  rcases hfile with rfl | rfl | rfl <;> rcases hfile' with rfl | rfl | rfl <;> grind

/-- Where the two files agree, both orders make the same library. Where they do not, the libraries
still have the same names, and the same template of which there is one file. -/
theorem load_reversed :
    load (listing "one" "one" true) (some directory)
        = load (listing "one" "one" false) (some directory)
      ∧ Table.names (madeOf "one").templates = Table.names (madeOf "two").templates
      ∧ (madeOf "one").templates.find? pageName = (madeOf "two").templates.find? pageName := by
  obtain ⟨_, _, hfiles, hfiles', _⟩ := of_listing
  have hagreed (name : String) :
      Agreed (templateFiles (listing "one" "one" false) (some directory)) name :=
    hfiles ▸ agreed_listing (.inl rfl)
  have hpage : Agreed (templateFiles (listing "one" "two" false) (some directory)) pageName :=
    hfiles' ▸ agreed_listing (.inr (by decide))
  have hreadable : ∀ file ∈ templateFiles (listing "one" "one" false) (some directory),
      (String.fromUTF8? file.2).isSome := by
    rw [hfiles]
    simp only [List.forall_mem_cons, FileTree.fromUTF8?_toUTF8, Option.isSome_some, true_and]
    exact nofun
  have hreadable' : ∀ file ∈ templateFiles (listing "one" "two" false) (some directory),
      (String.fromUTF8? file.2).isSome := by
    rw [hfiles']
    simp only [List.forall_mem_cons, FileTree.fromUTF8?_toUTF8, Option.isSome_some, true_and]
    exact nofun
  -- Where both files say the same the libraries are equal, and the other template always is.
  obtain ⟨_, hsame⟩ :=
    load_of_reordered (reordered_listing "one" "one") (distinct_listing "one" "one") hreadable
  obtain ⟨hdiffering, _⟩ :=
    load_of_reordered (reordered_listing "one" "two") (distinct_listing "one" "two") hreadable'
  obtain ⟨hnames, htemplates⟩ := hdiffering _ _ load_listing.1 load_listing.2
  exact ⟨hsame hagreed, hnames, htemplates pageName hpage⟩

/-- Which of two files that do not agree counts depends on the order: it is the last one. -/
theorem render_reversed :
    (listing "one" "two" false).Reordered (listing "one" "two" true)
      ∧ (listing "one" "two" false).Distinct
      ∧ load (listing "one" "two" false) (some directory) = .ok (madeOf "two")
      ∧ (madeOf "two").render programName {} = .ok "two"
      ∧ load (listing "one" "two" true) (some directory) = .ok (madeOf "one")
      ∧ (madeOf "one").render programName {} = .ok "one" :=
  ⟨reordered_listing _ _, distinct_listing _ _, load_listing.1,
    render_of_get rfl (renderText_of_plain _ _ _), load_listing.2,
    render_of_get rfl (renderText_of_plain _ _ _)⟩

end TwoSpellings

end Syllabus.Template.Library
