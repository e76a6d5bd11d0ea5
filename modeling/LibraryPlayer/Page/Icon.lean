import LibraryPlayer.Page.Markup

/-! # Icons

The drawings of the search box, the result rows and the transport.
-/

namespace LibraryPlayer

/-- The drawings. -/
inductive Icon where
  | search | play | pause | speaker
  /-- Shown while no media is loaded or its duration is unknown. -/
  | disabled
  /-- Stands in for a name without a drawing. -/
  | blank
  deriving DecidableEq

namespace Icon

/-- The drawing with a name. -/
def ofName (name : String) : Icon :=
  if name = "search" then search
  else if name = "play" then play
  else if name = "pause" then pause
  else if name = "speaker" then speaker
  else if name = "disabled" then disabled
  else blank

/-- A shape without content. -/
def shape (tag : String) (attributes : List (String × String)) : Markup :=
  .element tag (attributes.map fun a => .text a.1 a.2) []

/-- A path along the given commands. -/
def path (commands : String) : Markup := shape "path" [("d", commands)]

/-- The shapes of a drawing. -/
def shapes : Icon → List Markup
  | search =>
    [shape "circle" [("cx", "11"), ("cy", "11"), ("r", "8")], path "M21 21l-4.35-4.35"]
  | play => [shape "polygon" [("points", "5 3 19 12 5 21 5 3")]]
  | pause =>
    [shape "rect" [("x", "6"), ("y", "4"), ("width", "4"), ("height", "16")],
     shape "rect" [("x", "14"), ("y", "4"), ("width", "4"), ("height", "16")]]
  | speaker =>
    [shape "polygon" [("points", "11 5 6 9 2 9 2 15 6 15 11 19 11 5")],
     path "M15.54 8.46a5 5 0 0 1 0 7.07", path "M19.07 4.93a10 10 0 0 1 0 14.14"]
  | disabled =>
    [shape "circle" [("cx", "12"), ("cy", "12"), ("r", "10"), ("opacity", "0.25")],
     shape "path" [("d", "M12 2a10 10 0 0 1 10 10"), ("opacity", "0.75")]]
  | blank => [shape "circle" [("cx", "12"), ("cy", "12"), ("r", "10")]]

/-- Whether a drawing is filled; the others are drawn with lines. -/
def isFilled : Icon → Bool
  | play | pause => true
  | search | speaker | disabled | blank => false

/-- The markup of a drawing, of the given class. -/
def markup (icon : Icon) (className : String) : Markup :=
  let paint : List Attribute :=
    if icon.isFilled then [.text "fill" "currentColor"]
    else [.text "fill" "none", .text "stroke" "currentColor", .text "stroke-width" "2"]
  .element "svg" (.text "class" className :: .text "viewBox" "0 0 24 24" :: paint) icon.shapes

end Icon

end LibraryPlayer
