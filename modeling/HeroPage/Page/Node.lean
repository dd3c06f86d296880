set_option autoImplicit false

namespace HeroPage

inductive Node where
  | text (s : String)
  | element (tag : String) (attributes : List (String × String)) (children : List Node)

namespace Node

/-- The node of a text, unless there is nothing to show. -/
def ofText (s : String) : List Node := if s.isEmpty then [] else [.text s]

mutual

def hrefs : Node → List String
  | .text _ => []
  | .element tag attributes children =>
    (if tag = "a" then (attributes.lookup "href").toList else []) ++ hrefsOf children

def hrefsOf : List Node → List String
  | [] => []
  | n :: ns => n.hrefs ++ hrefsOf ns

end

end Node

end HeroPage
