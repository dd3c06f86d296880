import HeroPage.Page.Node
import HeroPage.Stage.Basic
set_option autoImplicit false

namespace HeroPage

def siteName : String := "Innovation Cell"

/-- What a page draws, and the title it gives to the window. -/
structure Drawing where
  title : Option String
  nodes : List Node

def Link.node (l : Link) : Node :=
  .element "a" [("href", l.href), ("class", l.emphasis.cssClass)] (Node.ofText l.label)

/-- A link to the home page, marked at the root. -/
def homeLink (path : Path) (cssClass : String) (children : List Node) : Node :=
  let mark := if path.isAtRoot then [("aria-current", "page")] else []
  .element "a" ([("href", Route.home.path), ("class", cssClass)] ++ mark) children

/-- The site bar repeats the links of the hero section. -/
def siteBar (path : Path) : Node :=
  .element "header" []
    [.element "div" [("class", "header-left")]
      [homeLink path "logo"
        (.element "img" [("src", logoPath), ("alt", ""), ("class", "logo-mark")] [] ::
          Node.ofText siteName)],
     .element "nav" [("class", "header-right")] (Content.ofSite.links.map Link.node)]

def Content.textBlock (c : Content) (style : String) : Node :=
  .element "div" [("class", "hero-text"), ("style", style)]
    [.element "span" [("class", "hero-eyebrow")] (Node.ofText c.eyebrow),
     .element "h1" [] (Node.ofText c.title),
     .element "p" [("class", "subtitle")] (Node.ofText c.tagline),
     .element "div" [("class", "hero-actions")] (c.links.map Link.node)]

def Content.logoCard (c : Content) (style : String) : Node :=
  .element "div" [("class", "hero-visual")]
    [.element "div" [("class", "hero-card"), ("style", style)]
      [.element "img" [("class", "hero-logo"), ("src", c.logoPath), ("alt", c.logoAlt)] []]]

def Content.hero (c : Content) (textStyle cardStyle : String) : Node :=
  .element "section" [("class", "hero")] [c.textBlock textStyle, c.logoCard cardStyle]

namespace Target

def subtitle : Target → String
  | .events => "Workshops, hackathons and talks run by the cell."
  | .register => "Join the cell to take part in upcoming programmes."

def page (t : Target) (path : Path) : Drawing where
  title := some (t.name ++ " • " ++ siteName)
  nodes :=
    [.element "section" [("class", "page")]
      [.element "h1" [] (Node.ofText t.name),
       .element "p" [("class", "subtitle")] (Node.ofText t.subtitle),
       homeLink path Emphasis.secondary.cssClass (Node.ofText "Back to home")]]

end Target

inductive View where
  | site
  | bar
  | hero (c : Content)
  | link (l : Link)
  /-- One page, whatever the URL. -/
  | page (r : Route)

namespace View

def hero? (path : Path) : View → Option Content
  | .site =>
    match Route.ofPath? path with
    | some .home => some Content.ofSite
    | _ => none
  | .hero c => some c
  | .page .home => some Content.ofSite
  | _ => none

def entrances (path : Path) (v : View) : List Transition :=
  match v.hero? path with
  | none => []
  | some _ => [.textBlock, .logoCard]

def drawRoute (path : Path) (textStyle cardStyle : String) : Route → Drawing
  | .home => ⟨some siteName, [Content.ofSite.hero textStyle cardStyle]⟩
  | .landing target => target.page path

def draw (path : Path) (textStyle cardStyle : String) : View → Drawing
  | .site =>
    let shown : Drawing :=
      match Route.ofPath? path with
      | none => ⟨none, []⟩
      | some r => drawRoute path textStyle cardStyle r
    ⟨shown.title, [siteBar path, .element "main" [("class", "container")] shown.nodes]⟩
  | .bar => ⟨none, [siteBar path]⟩
  | .hero c => ⟨none, [c.hero textStyle cardStyle]⟩
  | .link l => ⟨none, [l.node]⟩
  | .page r => drawRoute path textStyle cardStyle r

structure Mounted where
  drawing : Drawing
  stage : Stage
  trace : List Entry

/-- The inline style that entrance `i` has drawn. -/
def styleOf (s : Stage) (i : Nat) : String :=
  match s.entrances[i]? with
  | none => ""
  | some e => e.style.css

def mount (b : Browser) (clock : Float) (url : String) (v : View) : Mounted :=
  let path := Path.ofUrl url
  let (s, trace) := (Stage.empty clock).mountAll b (v.entrances path)
  ⟨v.draw path (styleOf s 0) (styleOf s 1), s, trace⟩

def Mounted.unmount (m : Mounted) : Stage × List Entry :=
  m.stage.unmountAll (List.range m.stage.entrances.length)

end View

end HeroPage
