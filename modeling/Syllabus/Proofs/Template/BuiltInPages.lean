import Mathlib.Data.Prod.Basic
import Syllabus.Proofs.Program.LevelGroups
import Syllabus.Proofs.Template.CommandGrammar
import Syllabus.Proofs.Template.Libraries
import Syllabus.Proofs.Template.SourceText
import Syllabus.Proofs.Template.WrittenText

/-!
# Syllabus: the pages of the built-in templates

What the built-in templates make of a program, line by line. The templates name fields of values
that are only looked up while they are rendered, so that no program lacks one is part of the result.

* **`indexLines`**, **`lessonPageLines`**: the pages.
* **`renderSite_builtIn`**: every program has its site.
-/

namespace Syllabus.Template

/-! ## The pages -/

/-- The line for a value, if there is one. -/
def optionalLine {α : Type} (value : Option α) (line : α → String) : List String :=
  (value.map line).toList

/-- How many lessons a course has. Counts beyond the largest signed number of 64 bits are cut. -/
def lessonCount (course : Course) : Nat := min course.lessons.length (Nat.pow 2 63 - 1)

def courseLine (course : Course) : String :=
  "<li><a href=\"" ++ course.directoryName ++ "/Lesson_" ++ toString course.firstPageId.toNat
    ++ ".html\">" ++ course.name ++ "</a> (" ++ toString (lessonCount course) ++ " lessons)</li>"

/-- The courses of one level. -/
def sectionLines (level : Level) (courses : List Course) : List String :=
  ["<section>", "<h2>" ++ level.text ++ "</h2>", "<ul>"] ++ courses.map courseLine
    ++ ["</ul>", "</section>"]

/-- The page of a program. -/
def indexLines (program : Program) : List String :=
  ["<!DOCTYPE html>", "<html>", "<head>", "<meta charset=\"utf-8\">",
    "<title>" ++ program.name ++ "</title>", "</head>", "<body>", "<header>",
    "<h1>" ++ program.name ++ "</h1>"]
  ++ optionalLine program.author (fun author => "<p class=\"author\">" ++ author ++ "</p>")
  ++ ["<p class=\"level\">" ++ program.level.text ++ "</p>"]
  ++ optionalLine program.description
    (fun description => "<div class=\"description\">" ++ description ++ "</div>")
  ++ ["</header>"]
  ++ program.coursesByLevel.flatMap (fun (level, courses) => sectionLines level courses)
  ++ ["</body>", "</html>"]

/-- The link to a neighbour of a page. Number zero is no page. -/
def neighbourLine (relation label : String) (id : Id) : List String :=
  if id = 0 then []
  else ["<a class=\"" ++ relation ++ "\" href=\"Lesson_" ++ toString id.toNat ++ ".html\">" ++ label
    ++ "</a>"]

def lessonLine (lesson : Lesson) : String :=
  "<li><a href=\"Lesson_" ++ toString lesson.firstPageId.toNat ++ ".html\">" ++ lesson.name
    ++ "</a></li>"

/-- A page of a lesson. -/
def lessonPageLines (program : Program) (course : Course) (lesson : Lesson) (page : Page) :
    List String :=
  ["<!DOCTYPE html>", "<html>", "<head>", "<meta charset=\"utf-8\">",
    "<title>" ++ lesson.name ++ " - " ++ course.name ++ "</title>", "</head>", "<body>",
    "<nav class=\"crumbs\"><a href=\"../Course.html\">" ++ program.name ++ "</a> &gt; " ++ course.name
      ++ " &gt; " ++ lesson.name ++ "</nav>",
    "<h1>" ++ page.name.getD lesson.name ++ "</h1>",
    "<article>", page.rule.getD "", "</article>"]
  ++ optionalLine page.lastUpdate
    (fun date => "<p class=\"updated\">Updated " ++ date.text ++ "</p>")
  ++ ["<nav class=\"pages\">"]
  ++ neighbourLine "prev" "Previous" (course.previousPageId page.id)
  ++ neighbourLine "next" "Next" (course.nextPageId page.id)
  ++ ["</nav>", "<ol class=\"lessons\">"]
  ++ course.lessons.map lessonLine
  ++ ["</ol>", "</body>", "</html>"]

/-! ## Their trees -/

/-- The commands of a tree, each with the literal behind it. -/
def Tree.commands (tree : Tree) : List (String × String) :=
  tree.spelling.map fun (directive, literal) => (directive.canonical, literal)

/-- The text of a tree is read as the tree. -/
theorem exists_parse_of_tree (name : String) {leading : String} {tree : Tree}
    (hleading : ¬ openMarker <:+: leading.toList)
    (hcommands : ∀ pair ∈ tree.spelling,
      Directive.ofCommand? pair.1.canonical.toList = some pair.1)
    (hliterals : ∀ pair ∈ tree.spelling, ¬ openMarker <:+: pair.2.toList) :
    ∃ template, parse name (assemble leading tree.commands) = .ok template
      ∧ template.leading = leading ∧ template.spelling = tree.spelling := by
  have haccepted : ∀ pair ∈ tree.commands,
      (Directive.ofCommand? pair.1.toList).isSome = true := by
    intro written hwritten
    obtain ⟨pair, hpair, rfl⟩ := List.mem_map.mp hwritten
    exact Option.isSome_iff_exists.mpr ⟨pair.1, hcommands pair hpair⟩
  have hfree : ∀ pair ∈ tree.commands, ¬ openMarker <:+: pair.2.toList := by
    intro written hwritten
    obtain ⟨pair, hpair, rfl⟩ := List.mem_map.mp hwritten
    exact hliterals pair hpair
  obtain ⟨template, hparse, hsame, hpairs⟩ := exists_parse_assemble name hleading haccepted hfree
  refine ⟨template, hparse, hsame, ?_⟩
  -- Both are what the commands are read as, with the literals.
  obtain ⟨_, _, _, hdirectives⟩ := parse_eq_ok_iff.mp hparse
  have hread := congrArg (List.map fun pair : String × String =>
    (Directive.ofCommand? pair.1.toList, pair.2)) hpairs
  rw [Tree.commands, List.map_map, List.map_map] at hread
  -- A command is read as one directive only.
  have hinjective : Function.Injective (Prod.map some id : Directive × String → _) :=
    Function.Injective.prodMap (fun _ _ => Option.some.inj) Function.injective_id
  refine List.map_injective_iff.mpr hinjective ?_
  rw [spelling, List.map_map]
  refine Eq.trans ?_ (hread.trans ?_)
  · exact List.map_congr_left fun segment hsegment =>
      congrArg (·, segment.literal) (hdirectives segment hsegment).symm
  · exact List.map_congr_left fun pair hpair => congrArg (·, pair.2) (hcommands pair hpair)

/-- The end of a line, behind a value. -/
def lineTree (value : Reference) (ending : String) : Tree :=
  .interpolation value (ending ++ "\n") .nil

/-- The line of a course. -/
def courseTree : Tree :=
  .interpolation ⟨"course", ["dir_name"]⟩ "/Lesson_" <|
  .interpolation ⟨"course", ["first_page"]⟩ ".html\">" <|
  .interpolation ⟨"course", ["name"]⟩ "</a> (" <|
  lineTree ⟨"course", ["lesson_count"]⟩ " lessons)</li>"

def sectionTree : Tree :=
  .interpolation ⟨"group", ["level"]⟩ ("</h2>" ++ "\n" ++ textOfLines ["<ul>"]) <|
  .loop "course" ⟨"group", []⟩ "<li><a href=\"" courseTree (textOfLines ["</ul>", "</section>"]) .nil

def indexTree : Tree :=
  .interpolation ⟨"program", ["name"]⟩
    ("</title>" ++ "\n" ++ textOfLines ["</head>", "<body>", "<header>"] ++ "<h1>") <|
  .interpolation ⟨"program", ["name"]⟩ ("</h1>" ++ "\n") <|
  .conditional ⟨"program", ["has_author"]⟩ "<p class=\"author\">"
    (lineTree ⟨"program", ["author"]⟩ "</p>") "<p class=\"level\">" <|
  .interpolation ⟨"program", ["level"]⟩ ("</p>" ++ "\n") <|
  .conditional ⟨"program", ["has_description"]⟩ "<div class=\"description\">"
    (lineTree ⟨"program", ["description"]⟩ "</div>") (textOfLines ["</header>"]) <|
  .loop "group" ⟨"courses_by_level", []⟩ (textOfLines ["<section>"] ++ "<h2>") sectionTree
    (textOfLines ["</body>", "</html>"]) .nil

/-- What stands before the first directive of both templates. -/
def leadingText : String :=
  textOfLines ["<!DOCTYPE html>", "<html>", "<head>", "<meta charset=\"utf-8\">"] ++ "<title>"

/-- The line of a lesson. -/
def lessonTree : Tree :=
  .interpolation ⟨"item", ["first_page"]⟩ ".html\">" <| lineTree ⟨"item", ["name"]⟩ "</a></li>"

/-- The link to a neighbour of a page, and what follows. -/
def neighbourTree (relation label flag field closing : String) (rest : Tree) : Tree :=
  .conditional ⟨"page", [flag]⟩ ("<a class=\"" ++ relation ++ "\" href=\"Lesson_")
    (lineTree ⟨"page", [field]⟩ (".html\">" ++ label ++ "</a>")) closing rest

def lessonPageTree : Tree :=
  .interpolation ⟨"lesson", ["name"]⟩ " - " <|
  .interpolation ⟨"course", ["name"]⟩ ("</title>" ++ "\n" ++ textOfLines ["</head>", "<body>"]
    ++ "<nav class=\"crumbs\"><a href=\"../Course.html\">") <|
  .interpolation ⟨"program", ["name"]⟩ "</a> &gt; " <|
  .interpolation ⟨"course", ["name"]⟩ " &gt; " <|
  .interpolation ⟨"lesson", ["name"]⟩ ("</nav>" ++ "\n") <|
  .parted ⟨"page", ["has_name"]⟩ "<h1>" (lineTree ⟨"page", ["name"]⟩ "</h1>")
    "<h1>" (lineTree ⟨"lesson", ["name"]⟩ "</h1>") (textOfLines ["<article>"]) <|
  .interpolation ⟨"page", ["rule"]⟩ ("\n" ++ textOfLines ["</article>"]) <|
  .conditional ⟨"page", ["has_last_update"]⟩ "<p class=\"updated\">Updated "
    (lineTree ⟨"page", ["last_update"]⟩ "</p>") (textOfLines ["<nav class=\"pages\">"]) <|
  neighbourTree "prev" "Previous" "has_prev" "prev_page" "" <|
  neighbourTree "next" "Next" "has_next" "next_page"
    (textOfLines ["</nav>", "<ol class=\"lessons\">"]) <|
  .loop "item" ⟨"course", ["lessons"]⟩ "<li><a href=\"Lesson_" lessonTree
    (textOfLines ["</ol>", "</body>", "</html>"]) .nil

/-- The text in front has no open marker. -/
theorem leadingText_free : ¬ openMarker <:+: leadingText.toList := by decide +kernel

/-- The lines of the page of a program are its tree, written down. -/
theorem text_programLines :
    textOfLines programLines = assemble leadingText indexTree.commands := by
  decide +kernel

theorem text_pageLines : textOfLines pageLines = assemble leadingText lessonPageTree.commands := by
  decide +kernel

/-- The first page is read as its tree. -/
theorem exists_parse_programLines :
    ∃ template, parse programName (textOfLines programLines) = .ok template
      ∧ template.leading = leadingText ∧ template.spelling = indexTree.spelling := by
  rw [text_programLines]
  exact exists_parse_of_tree _ leadingText_free (by decide +kernel) (by decide +kernel)

theorem exists_parse_pageLines :
    ∃ template, parse pageName (textOfLines pageLines) = .ok template
      ∧ template.leading = leadingText ∧ template.spelling = lessonPageTree.spelling := by
  rw [text_pageLines]
  exact exists_parse_of_tree _ leadingText_free (by decide +kernel) (by decide +kernel)

/-! ## What they write -/

section Lines

variable {α : Type}

theorem textOfLines_nil : textOfLines [] = "" := rfl

/-- A line is written in front of the others. -/
theorem textOfLines_cons (line : String) (lines : List String) :
    textOfLines (line :: lines) = line ++ ("\n" ++ textOfLines lines) := by
  rw [textOfLines, List.map_cons, String.join_cons, String.append_assoc]
  rfl

/-- The lines behind others are written behind them. -/
theorem textOfLines_append (lines others : List String) :
    textOfLines (lines ++ others) = textOfLines lines ++ textOfLines others := by
  rw [textOfLines, List.map_append, String.join_append]
  rfl

/-- Lines for each thing are written one thing after the other. -/
theorem textOfLines_flatMap (things : List α) (lines : α → List String) :
    textOfLines (things.flatMap lines)
      = String.join (things.map fun thing => textOfLines (lines thing)) := by
  -- On the things, one after the other.
  induction things with
  | nil => rfl
  | cons thing things ih =>
    rw [List.flatMap_cons, textOfLines_append, ih, List.map_cons, String.join_cons]

theorem textOfLines_map (things : List α) (line : α → String) :
    textOfLines (things.map line) = String.join (things.map fun thing => line thing ++ "\n") := by
  rw [textOfLines, List.map_map]
  rfl

/-- A line that may be missing is written if it is there. -/
theorem textOfLines_optionalLine (value : Option α) (line : α → String) :
    textOfLines (optionalLine value line) = value.elim "" fun found => line found ++ "\n" := by
  cases value with
  | none => rfl
  | some found =>
    show textOfLines [line found] = _
    rw [textOfLines_cons, textOfLines_nil, String.append_empty]
    rfl

end Lines

/-- A text that is missing is shown as nothing. -/
theorem display_ofOptionalText (s : Option String) :
    (Value.ofOptionalText s).display = s.getD "" := by
  cases s <;> rfl

/-- A line with a reference in it is completed with what is shown for it. -/
theorem lineTree_completes {known : Bindings} {reference : Reference} {shown : String}
    (before ending : String) (hshown : ∀ template index,
      (evaluate template known index reference).map Value.display = .ok shown) :
    (lineTree reference ending).Completes known before (before ++ shown ++ ending ++ "\n") :=
  .interpolation shown hshown (.nil String.append_assoc.symm)

/-- The line of a course in the page of its program. -/
theorem courseTree_completes (program : Program) (level : Level) (courses : List Course)
    (course : Course) :
    courseTree.Completes (((Bindings.forProgram program).bind "group"
      (.view (.levelGroup program level courses))).bind "course" (.view (.course program course)))
      "<li><a href=\"" (courseLine course ++ "\n") := by
  refine .interpolation course.directoryName (fun _ _ => rfl) ?_
  refine .interpolation (toString course.firstPageId.toNat) (fun _ _ => rfl) ?_
  refine .interpolation course.name (fun _ _ => rfl) ?_
  refine .interpolation (toString (lessonCount course)) (fun _ _ => rfl) ?_
  refine .nil ?_
  unfold courseLine
  simp only [String.append_assoc]

/-- The section of a level is completed with its courses. -/
theorem sectionTree_completes (program : Program) (level : Level) (courses : List Course) :
    sectionTree.Completes ((Bindings.forProgram program).bind "group"
      (.view (.levelGroup program level courses)))
      (textOfLines ["<section>"] ++ "<h2>") (textOfLines (sectionLines level courses)) := by
  refine .interpolation level.text (fun _ _ => rfl) ?_
  -- Each turn is the line of one course.
  refine .loop (fun course => courseLine course ++ "\n") (fun _ _ => rfl) rfl
    (courseTree_completes program level courses) ?_
  refine .nil ?_
  unfold sectionLines
  simp only [textOfLines_append, textOfLines_map, textOfLines_cons, textOfLines_nil,
    String.append_assoc, String.append_empty]

/-- The page of a program is completed with all of its sections. -/
theorem indexTree_completes (program : Program) :
    indexTree.Completes (.forProgram program) leadingText (textOfLines (indexLines program)) := by
  refine .interpolation program.name (fun _ _ => rfl) ?_
  refine .interpolation program.name (fun _ _ => rfl) ?_
  -- From the first directive on, one step for each.
  refine .optional (fun author => "<p class=\"author\">" ++ author ++ "</p>" ++ "\n")
    (fun _ _ => rfl) (fun author hauthor => ?_) ?_
  · refine lineTree_completes _ _ fun _ _ => congrArg Except.ok ?_
    rw [display_ofOptionalText, hauthor, Option.getD_some]
  refine .interpolation program.level.text (fun _ _ => rfl) ?_
  refine .optional
    (fun description => "<div class=\"description\">" ++ description ++ "</div>" ++ "\n")
    (fun _ _ => rfl) (fun description hdescription => ?_) ?_
  · refine lineTree_completes _ _ fun _ _ => congrArg Except.ok ?_
    rw [display_ofOptionalText, hdescription, Option.getD_some]
  -- Each turn is the section of one level.
  refine .loop (fun group => textOfLines (sectionLines group.1 group.2)) (fun _ _ => rfl) rfl
    ?_ ?_
  · rintro ⟨level, courses⟩
    exact sectionTree_completes program level courses
  refine .nil ?_
  unfold indexLines leadingText
  simp only [textOfLines_append, textOfLines_optionalLine, textOfLines_flatMap, textOfLines_cons,
    textOfLines_nil, String.append_assoc, String.append_empty]

/-- The link to a neighbour is there if the neighbour is. -/
theorem neighbourTree_completes {known : Bindings} {before whole flag field closing : String}
    {rest : Tree} (relation label : String) (id : Id)
    (hflag : ∀ template index, Template.flag template known index ⟨"page", [flag]⟩ = .ok (id != 0))
    (hfield : ∀ template index,
      (evaluate template known index ⟨"page", [field]⟩).map Value.display = .ok (toString id.toNat))
    (hrest : rest.Completes known
      (before ++ textOfLines (neighbourLine relation label id) ++ closing) whole) :
    (neighbourTree relation label flag field closing rest).Completes known before whole := by
  refine .conditional hflag (fun _ => lineTree_completes _ _ hfield) ?_
  convert hrest using 3
  unfold neighbourLine
  by_cases hzero : id = 0
  · rw [if_pos hzero, if_neg (by simp [hzero]), textOfLines_nil]
  · rw [if_neg hzero, if_pos (by simp [hzero]), textOfLines_cons, textOfLines_nil]
    simp only [String.append_assoc, String.append_empty]

/-- The line of a lesson in a page of its course. -/
theorem lessonTree_completes (program : Program) (course : Course) (lesson other : Lesson)
    (page : Page) :
    lessonTree.Completes ((Bindings.forPage program course lesson page).bind "item"
      (.view (.lesson program course other)))
      "<li><a href=\"Lesson_" (lessonLine other ++ "\n") := by
  refine .interpolation (toString other.firstPageId.toNat) (fun _ _ => rfl) ?_
  exact lineTree_completes _ _ fun _ _ => rfl

/-- The page of a lesson is completed with its heading, its rule and its links. -/
theorem lessonPageTree_completes (program : Program) (course : Course) (lesson : Lesson)
    (page : Page) :
    lessonPageTree.Completes (.forPage program course lesson page) leadingText
      (textOfLines (lessonPageLines program course lesson page)) := by
  refine .interpolation lesson.name (fun _ _ => rfl) ?_
  refine .interpolation course.name (fun _ _ => rfl) ?_
  refine .interpolation program.name (fun _ _ => rfl) ?_
  refine .interpolation course.name (fun _ _ => rfl) ?_
  refine .interpolation lesson.name (fun _ _ => rfl) ?_
  -- The heading has the name of the page, or that of the lesson where it has none.
  have hnamed (hname : page.name.isSome = true) :
      (lineTree ⟨"page", ["name"]⟩ "</h1>").Completes (.forPage program course lesson page) "<h1>"
        ("<h1>" ++ page.name.getD lesson.name ++ "</h1>" ++ "\n") := by
    obtain ⟨name, hname⟩ := Option.isSome_iff_exists.mp hname
    refine lineTree_completes _ _ fun _ _ => congrArg Except.ok ?_
    rw [display_ofOptionalText, hname, Option.getD_some, Option.getD_some]
  have hunnamed (hname : page.name.isSome = false) :
      (lineTree ⟨"lesson", ["name"]⟩ "</h1>").Completes (.forPage program course lesson page) "<h1>"
        ("<h1>" ++ page.name.getD lesson.name ++ "</h1>" ++ "\n") := by
    rw [Option.isSome_eq_false_iff, Option.isNone_iff_eq_none] at hname
    rw [hname, Option.getD_none]
    exact lineTree_completes _ _ fun _ _ => rfl
  refine .parted (fun _ _ => rfl) hnamed hunnamed ?_
  rw [ite_self]
  refine .interpolation (page.rule.getD "")
    (fun _ _ => congrArg Except.ok (display_ofOptionalText _)) ?_
  refine .optional (fun date => "<p class=\"updated\">Updated " ++ date.text ++ "</p>" ++ "\n")
    (fun _ _ => rfl) (fun date hdate => ?_) ?_
  · refine lineTree_completes _ _ fun _ _ => congrArg Except.ok ?_
    show (page.lastUpdate.elim .null Value.date).display = _
    rw [hdate]
    rfl
  -- The links, each with its own neighbour, and then the pages of the lesson.
  refine neighbourTree_completes "prev" "Previous" (course.previousPageId page.id) (fun _ _ => rfl)
    (fun _ _ => rfl) ?_
  refine neighbourTree_completes "next" "Next" (course.nextPageId page.id) (fun _ _ => rfl)
    (fun _ _ => rfl) ?_
  refine .loop (fun other => lessonLine other ++ "\n") (fun _ _ => rfl) rfl
    (fun other => lessonTree_completes program course lesson other page) ?_
  refine .nil ?_
  unfold lessonPageLines leadingText
  simp only [textOfLines_append, textOfLines_optionalLine, textOfLines_map, textOfLines_cons,
    textOfLines_nil, String.append_assoc, String.append_empty]

/-! ## The site -/

/-- **Every program has its site.** The built-in templates always make a library, and it makes the
page of a program and a page for every page of every lesson, whatever the program is. The page of
the program lists its courses level by level, each course once. -/
theorem renderSite_builtIn (tree : FileTree) (program : Program) (root : Path) :
    ∃ library, Library.load tree none = .ok library
      ∧ library.renderSite program root
        = .ok ((root / "Course.html", textOfLines (indexLines program))
          :: Library.lessonPages program root fun course lesson page =>
            textOfLines (lessonPageLines program course lesson page))
      ∧ (program.coursesByLevel.flatMap (·.2)).Perm program.courses := by
  obtain ⟨ofProgram, hprogram, hprogramLeading, hprogramTree⟩ := exists_parse_programLines
  obtain ⟨ofPage, hpage, hpageLeading, hpageTree⟩ := exists_parse_pageLines
  have hindex := renderText_of_completes hprogramTree (by decide)
    (hprogramLeading ▸ indexTree_completes program)
  have hpages (course : Course) (lesson : Lesson) (page : Page) :=
    renderText_of_completes hpageTree (by decide)
      (hpageLeading ▸ lessonPageTree_completes program course lesson page)
  exact ⟨Library.pair ofProgram ofPage, Library.ofTexts_pair hprogram hpage,
    Library.renderSite_of_render (Library.render_of_get rfl hindex)
      fun course lesson page => Library.render_of_get rfl (hpages course lesson page),
    program.coursesByLevel_perm⟩

/-- The pages that the built-in templates make of a program. -/
def builtInPages (program : Program) (root : Path) : List (Path × String) :=
  (root / "Course.html", textOfLines (indexLines program))
    :: Library.lessonPages program root fun course lesson page =>
      textOfLines (lessonPageLines program course lesson page)

/-- One library renders the pages of all programs. -/
theorem exists_builtIn :
    ∃ library, (∀ tree, Library.load tree none = .ok library)
      ∧ ∀ program root, library.renderSite program root = .ok (builtInPages program root) := by
  obtain ⟨ofProgram, hprogram, hprogramLeading, hprogramTree⟩ := exists_parse_programLines
  obtain ⟨ofPage, hpage, hpageLeading, hpageTree⟩ := exists_parse_pageLines
  refine ⟨.pair ofProgram ofPage, fun _ => Library.ofTexts_pair hprogram hpage, fun program root => ?_⟩
  apply Library.renderSite_of_render
  · refine Library.render_of_get rfl (renderText_of_completes hprogramTree (by decide) ?_)
    rw [hprogramLeading]
    exact indexTree_completes program
  · intro course lesson page
    refine Library.render_of_get rfl (renderText_of_completes hpageTree (by decide) ?_)
    rw [hpageLeading]
    exact lessonPageTree_completes program course lesson page

end Syllabus.Template
