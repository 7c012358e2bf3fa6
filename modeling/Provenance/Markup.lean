import Provenance.Text.Lines

/-!
# Markup

Code is shown as markup in which its special characters are written as entities. The plain
renderer puts each line into a span and names the language; where a renderer fails the whole
code is shown as it is.
-/

namespace Provenance

open Provenance.Text

/-- Why code cannot be rendered. -/
inductive RenderError
  | unsupportedLanguage (language : String)
  | unavailable (reason : String)
  deriving DecidableEq, Repr

/-- What is shown to the user. -/
def RenderError.message : RenderError → String
  | .unsupportedLanguage language => "Unsupported language '" ++ language ++ "'"
  | .unavailable reason => "Renderer unavailable: " ++ reason

/-- A renderer turns code in a language into markup. -/
abbrev Renderer := (code language : String) → Except RenderError String

namespace Markup

/-- A character as it stands in markup. -/
def entity (c : Char) : List Char :=
  if c = '&' then ['&', 'a', 'm', 'p', ';']
  else if c = '<' then ['&', 'l', 't', ';']
  else if c = '>' then ['&', 'g', 't', ';']
  else if c = '"' then ['&', 'q', 'u', 'o', 't', ';']
  else if c = '\x27' then ['&', '#', '3', '9', ';']
  else [c]

/-- A text with its special characters written as entities. -/
def escape (cs : List Char) : List Char := cs.flatMap entity

/-- The text names a language: letters, digits, minus, plus and underscore, at least one. -/
def isLanguage (language : String) : Bool :=
  language ≠ "" ∧ language.toList.all fun c => c.isAlphanum || c = '-' || c = '_' || c = '+'

/-- A line in its span. -/
def lineSpan (line : List Char) : List Char :=
  "<span class=\"line\">".toList ++ escape line ++ "</span>".toList

/-- Lines in their spans, separated by newlines. -/
def lineSpans : List (List Char) → List Char
  | [] => []
  | [line] => lineSpan line
  | line :: next :: rest => lineSpan line ++ '\n' :: lineSpans (next :: rest)

/-- The renderer that escapes code and marks its lines. -/
def plain : Renderer := fun code language =>
  if isLanguage language then
    .ok ("<pre class=\"code language-" ++ language ++ "\"><code>" ++
      String.ofList (lineSpans (lines code.toList)) ++ "</code></pre>")
  else
    .error (.unsupportedLanguage language)

/-- The renderer that always fails. -/
def unavailable (reason : String) : Renderer := fun _ _ => .error (.unavailable reason)

/-- Code without any structure. -/
def fallback (code : String) : String :=
  "<pre class=\"plain\">" ++ String.ofList (escape code.toList) ++ "</pre>"

/-- The markup of a renderer, or the code as it is where the renderer fails. -/
def render (renderer : Renderer) (code language : String) : String :=
  match renderer code language with
  | .ok markup => markup
  | .error _ => fallback code

end Markup

end Provenance
