import Syllabus.Text.Split

/-!
# Syllabus: links to images

Exported texts link to images wherever they were when the text was written. On import each
`src="…"` is made to point to the file of the same name in the directory `images`, and the places
it pointed to are listed.
-/

namespace Syllabus.Export

/-- What stands in front of the place of an image. -/
def sourceMarker : List Char := "src=\"".toList

/-- Whether a place is kept: an empty one, and one that leads nowhere. -/
def isKept (source : List Char) : Bool := source.isEmpty || source == ['#']

/-- The part of a place behind its last slash or backslash. -/
def fileOf (source : List Char) : List Char :=
  (source.reverse.takeWhile fun c => c != '/' && c != '\\').reverse

/-- The place of an image after import. -/
def localSource (source : List Char) : List Char :=
  if isKept source then source else "images/".toList ++ fileOf source

/-- A text whose links point to local files, and the places that they pointed to before, in order. A
link whose closing quote is missing is left as it is. -/
def localizeLinks (text : List Char) : List Char × List (List Char) :=
  match _marker : Text.cutAt sourceMarker text with
  | none => (text, [])
  | some (before, behind) =>
    match _quote : Text.cutAt ['"'] behind with
    -- From here on nothing can be a link, as the text has no further quote.
    | none => (text, [])
    | some (source, rest) =>
      let (localized, sources) := localizeLinks rest
      (before ++ sourceMarker ++ localSource source ++ '"' :: localized,
        if isKept source then sources else source :: sources)
termination_by text.length
decreasing_by
  have := Text.length_lt_of_cutAt _marker (by decide)
  have := Text.length_lt_of_cutAt _quote (by decide)
  omega

def localizeText (text : String) : String × List String :=
  let (localized, sources) := localizeLinks text.toList
  (.ofList localized, sources.map .ofList)

end Syllabus.Export
