/-! # Markup

The page as a tree of elements, and its text as HTML.  In texts and attribute values the five
characters that mean something in HTML are written as numeric references; nothing is added between
elements.
-/

namespace LibraryPlayer

/-- An attribute of an element. -/
inductive Attribute where
  /-- An attribute with a text for a value. -/
  | text (name value : String)
  /-- An attribute that is there or not. -/
  | flag (name : String) (on : Bool)
  deriving DecidableEq

/-- A piece of markup. -/
inductive Markup where
  | text (content : String)
  | element (tag : String) (attributes : List Attribute) (children : List Markup)

namespace Markup

/-- How a character is written in a text or an attribute value. -/
def escapeChar (c : Char) : List Char :=
  if c = '&' then "&#38;".toList
  else if c = '<' then "&#60;".toList
  else if c = '>' then "&#62;".toList
  else if c = '\x22' then "&#34;".toList
  else if c = '\x27' then "&#39;".toList
  else [c]

/-- How a text is written. -/
def escape (s : String) : String := .ofList (s.toList.flatMap escapeChar)

/-- How an attribute is written, with the blank in front of it. -/
def renderAttribute : Attribute → String
  | .text name value => " " ++ name ++ "=\"" ++ escape value ++ "\""
  | .flag name on => if on then " " ++ name ++ "=true" else ""

/-- How attributes are written, in their order. -/
def renderAttributes (as : List Attribute) : String := String.join (as.map renderAttribute)

/-- Whether an element of this kind has no content and no closing tag. -/
def isVoid (tag : String) : Bool := tag == "input"

mutual

/-- The HTML of a piece of markup. -/
def render : Markup → String
  | text content => escape content
  | element tag attributes children =>
    if isVoid tag then "<" ++ tag ++ renderAttributes attributes ++ "/>"
    else
      "<" ++ tag ++ renderAttributes attributes ++ ">" ++ renderAll children
        ++ "</" ++ tag ++ ">"

/-- The HTML of pieces of markup, one after the other. -/
def renderAll : List Markup → String
  | [] => ""
  | m :: ms => render m ++ renderAll ms

end

end Markup

end LibraryPlayer
