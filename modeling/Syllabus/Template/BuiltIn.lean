/-!
# Syllabus: the built-in templates

The templates of a site that brings none of its own: the page of the program, which lists its
courses by level, and the page that is made for every page of every lesson.
-/

namespace Syllabus.Template

/-- The name of the template of a program's own page. -/
def programName : String := "course.html"

/-- The name of the template of a lesson's pages. -/
def pageName : String := "lesson.html"

def programLines : List String := [
  "<!DOCTYPE html>",
  "<html>",
  "<head>",
  "<meta charset=\"utf-8\">",
  "<title><%#program.name%></title>",
  "</head>",
  "<body>",
  "<header>",
  "<h1><%#program.name%></h1>",
  "<%if (program.has_author) \x7b%><p class=\"author\"><%#program.author%></p>",
  "<%\x7d%><p class=\"level\"><%#program.level%></p>",
  "<%if (program.has_description) \x7b%><div class=\"description\"><%#program.description%></div>",
  "<%\x7d%></header>",
  "<%foreach (var group in courses_by_level) \x7b%><section>",
  "<h2><%#group.level%></h2>",
  "<ul>",
  "<%foreach (var course in group) \x7b%><li><a href=\"<%#course.dir_name%>/Lesson_<%#course.first_page%>.html\"><%#course.name%></a> (<%#course.lesson_count%> lessons)</li>",
  "<%\x7d%></ul>",
  "</section>",
  "<%\x7d%></body>",
  "</html>"]

def pageLines : List String := [
  "<!DOCTYPE html>",
  "<html>",
  "<head>",
  "<meta charset=\"utf-8\">",
  "<title><%#lesson.name%> - <%#course.name%></title>",
  "</head>",
  "<body>",
  "<nav class=\"crumbs\"><a href=\"../Course.html\"><%#program.name%></a> &gt; <%#course.name%> &gt; <%#lesson.name%></nav>",
  "<%if (page.has_name) \x7b%><h1><%#page.name%></h1>",
  "<%\x7d else \x7b%><h1><%#lesson.name%></h1>",
  "<%\x7d%><article>",
  "<%#page.rule%>",
  "</article>",
  "<%if (page.has_last_update) \x7b%><p class=\"updated\">Updated <%#page.last_update%></p>",
  "<%\x7d%><nav class=\"pages\">",
  "<%if (page.has_prev) \x7b%><a class=\"prev\" href=\"Lesson_<%#page.prev_page%>.html\">Previous</a>",
  "<%\x7d%><%if (page.has_next) \x7b%><a class=\"next\" href=\"Lesson_<%#page.next_page%>.html\">Next</a>",
  "<%\x7d%></nav>",
  "<ol class=\"lessons\">",
  "<%foreach (var item in course.lessons) \x7b%><li><a href=\"Lesson_<%#item.first_page%>.html\"><%#item.name%></a></li>",
  "<%\x7d%></ol>",
  "</body>",
  "</html>"]

/-- A text of whole lines. -/
def textOfLines (lines : List String) : String := String.join (lines.map (· ++ "\n"))

def builtIn : List (String × String) :=
  [(programName, textOfLines programLines), (pageName, textOfLines pageLines)]

end Syllabus.Template
