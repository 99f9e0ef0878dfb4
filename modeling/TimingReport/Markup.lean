/-!
# Markup

A page is a list of tokens. Text and attribute values are escaped when they are
written, so no text can be taken for markup. Layout, style sheets and figures are
written as they are.
-/

namespace TimingReport.Markup

/-- What a character becomes inside text and attribute values. -/
def escapedChar : Char → List Char
  | '&' => "&amp;".toList
  | '<' => "&lt;".toList
  | '>' => "&gt;".toList
  | '"' => "&quot;".toList
  | '\'' => "&#39;".toList
  | c => [c]

/-- The text with the characters of markup replaced by entities. -/
def escape (text : String) : String := String.ofList (text.toList.flatMap escapedChar)

/-- A piece of a page. -/
inductive Token where
  /-- The document type. -/
  | doctype
  /-- Opens an element that a closing tag ends. -/
  | opening (tag : String) (attributes : List (String × String))
  | closing (tag : String)
  /-- An element without content and without a closing tag. -/
  | void (tag : String) (attributes : List (String × String))
  /-- Text to be read. -/
  | text (content : String)
  /-- Layout, style sheets and figures, which are written as they are. -/
  | verbatim (content : String)
deriving DecidableEq

namespace Token

/-- Attributes as they stand in a tag. -/
def attributesText (attributes : List (String × String)) : String :=
  String.join (attributes.map fun (name, value) => " " ++ name ++ "=\"" ++ escape value ++ "\"")

/-- The token as text. -/
def render : Token → String
  | doctype => "<!DOCTYPE html>"
  | opening tag attributes => "<" ++ tag ++ attributesText attributes ++ ">"
  | closing tag => "</" ++ tag ++ ">"
  | void tag attributes => "<" ++ tag ++ attributesText attributes ++ ">"
  | text content => escape content
  | verbatim content => content

end Token

/-- Tokens as text. -/
def render (tokens : List Token) : String := String.join (tokens.map Token.render)

/-- The tokens on a line of their own, indented by levels of four spaces. -/
def line (level : Nat) (tokens : List Token) : List Token :=
  .verbatim (String.ofList (List.replicate (4 * level) ' ')) :: tokens ++ [.verbatim "\n"]

/-- An element around tokens. -/
def element (tag : String) (attributes : List (String × String)) (content : List Token) :
    List Token :=
  .opening tag attributes :: content ++ [.closing tag]

/-- An element whose tags stand on lines of their own around its content. -/
def block (level : Nat) (tag : String) (attributes : List (String × String))
    (content : List Token) : List Token :=
  line level [.opening tag attributes] ++ content ++ line level [.closing tag]

/-- An attribute list with a class alone. -/
def ofClass (name : String) : List (String × String) := [("class", name)]

end TimingReport.Markup
