import HeroPage.Proofs.Page.Tree
import HeroPage.Proofs.Stage.Opening
set_option autoImplicit false

namespace HeroPage

open Node

theorem valid_page : ∀ t ∈ [Transition.textBlock, .logoCard], t.validate = .ok () := by
  intro t ht
  rw [Transition.validate_eq_ok_iff]
  rcases List.mem_cons.mp ht with rfl | ht
  · decide +kernel
  · rw [List.mem_singleton.mp ht]
    decide +kernel

namespace View

theorem styleOf_eq (s : Stage) (i : Nat) :
    styleOf s i = (((s.entrances.map Entrance.style)[i]?).map VisualState.css).getD "" := by
  unfold styleOf
  rw [List.getElem?_map]
  cases s.entrances[i]? <;> rfl

variable (b : Browser) (clock : Float) (url : String)

/-- The text block is mounted first, so its request is the first, and that of the card the second. -/
theorem styleOf_opening :
    styleOf ((Stage.empty clock).mountAll b [.textBlock, .logoCard]).1 0 = (b.opens .textBlock 1).css ∧
      styleOf ((Stage.empty clock).mountAll b [.textBlock, .logoCard]).1 1 = (b.opens .logoCard 2).css := by
  rw [styleOf_eq, styleOf_eq, Stage.mountAll_styles [.textBlock, .logoCard] valid_page (Stage.empty clock)]
  exact ⟨rfl, rfl⟩

theorem mount_hero (c : Content) :
    ((View.hero c).mount b clock url).drawing =
      ⟨none, [c.hero (b.opens .textBlock 1).css (b.opens .logoCard 2).css]⟩ := by
  obtain ⟨htext, hcard⟩ := styleOf_opening b clock
  simp only [mount, entrances, hero?, draw, htext, hcard]

end View

namespace Content

variable (c : Content) (x y x' y' : String)

theorem map_node_links :
    c.links.map Link.node =
      [.element "a" [("href", "/events"), ("class", "btn btn-primary")] (ofText c.primaryLabel),
        .element "a" [("href", "/register"), ("class", "btn btn-secondary")] (ofText c.secondaryLabel)] :=
  rfl

theorem without_style_hero : (c.hero x y).without "style" = (c.hero x' y').without "style" := rfl

theorem elementsOf_hero :
    elementsOf [c.hero x y] =
      [c.hero x y, c.textBlock x, .element "span" [("class", "hero-eyebrow")] (ofText c.eyebrow),
        .element "h1" [] (ofText c.title), .element "p" [("class", "subtitle")] (ofText c.tagline),
        .element "div" [("class", "hero-actions")] (c.links.map Link.node)] ++ c.links.map Link.node ++
      [c.logoCard y,
        .element "div" [("class", "hero-card"), ("style", y)]
          [.element "img" [("class", "hero-logo"), ("src", c.logoPath), ("alt", c.logoAlt)] []],
        .element "img" [("class", "hero-logo"), ("src", c.logoPath), ("alt", c.logoAlt)] []] := by
  simp only [hero, textBlock, logoCard, links, Link.node, List.map_cons, List.map_nil, elementsOf,
    elements, elementsOf_ofText, List.append_nil, List.cons_append, List.nil_append]

theorem styles_hero : Node.styles [c.hero x y] = [(some "hero-text", x), (some "hero-card", y)] := by
  rw [Node.styles, elementsOf_hero]
  rfl

/-- Every word of `c` stands in its place among `ns` and an empty one leaves no text; the links come in
their order. -/
structure ShownIn (c : Content) (ns : List Node) : Prop where
  texts : placedOf [] ns =
    [(["section.hero", "div.hero-text", "span.hero-eyebrow"], c.eyebrow),
      (["section.hero", "div.hero-text", "h1"], c.title),
      (["section.hero", "div.hero-text", "p.subtitle"], c.tagline),
      (["section.hero", "div.hero-text", "div.hero-actions", "a.btn btn-primary"], c.primaryLabel),
      (["section.hero", "div.hero-text", "div.hero-actions", "a.btn btn-secondary"],
        c.secondaryLabel)].filter fun p => p.2 ≠ ""
  images : tagged "img" ns =
    [.element "img" [("class", "hero-logo"), ("src", c.logoPath), ("alt", c.logoAlt)] []]
  anchors : tagged "a" ns =
    [.element "a" [("href", "/events"), ("class", "btn btn-primary")] (ofText c.primaryLabel),
      .element "a" [("href", "/register"), ("class", "btn btn-secondary")] (ofText c.secondaryLabel)]

theorem shownIn_hero : c.ShownIn [c.hero x y] where
  texts := by
    simp only [hero, textBlock, logoCard, links, Link.node, List.map_cons, List.map_nil, placedOf, placed,
      placedOf_ofText, List.append_nil, List.cons_append, List.nil_append, ← List.filter_append]
    rfl
  images := by
    rw [tagged, elementsOf_hero]
    rfl
  anchors := by
    rw [tagged, elementsOf_hero]
    rfl

end Content

/-- The hero section on two browsers: what the second can change are the two styles, and each of them
shows whether its own entrance plays. -/
theorem hero_told_by_words (c : Content) (b b' : Browser) (clock clock' : Float) (url url' : String) :
    let d := ((View.hero c).mount b clock url).drawing
    let d' := ((View.hero c).mount b' clock' url').drawing
    (d.title = d'.title ∧ withoutOf "style" d.nodes = withoutOf "style" d'.nodes) ∧
    Node.styles d.nodes =
      [(some "hero-text",
          (if b.declines 1 then Transition.textBlock.target else Transition.textBlock.source).css),
        (some "hero-card",
          (if b.declines 2 then Transition.logoCard.target else Transition.logoCard.source).css)] ∧
    (b.declines 1 = true ↔ Stage.Degrades b (.empty clock) .textBlock) ∧
    (b.declines 2 = true ↔ Stage.Degrades b ((Stage.empty clock).mount b .textBlock).1 .logoCard) ∧
    (∀ x y : Bool, ∃ b : Browser, b.declines 1 = x ∧ b.declines 2 = y) ∧
    c.ShownIn d.nodes := by
  intro d d'
  have hd : d = _ := View.mount_hero b clock url c
  have hd' : d' = _ := View.mount_hero b' clock' url' c
  rw [hd, hd']
  have hsame := congrArg (fun n => [n]) (c.without_style_hero (b.opens .textBlock 1).css
    (b.opens .logoCard 2).css (b'.opens .textBlock 1).css (b'.opens .logoCard 2).css)
  have htext : Transition.textBlock.validate = .ok () := valid_page _ List.mem_cons_self
  have hcard : Transition.logoCard.validate = .ok () :=
    valid_page _ (List.mem_cons_of_mem _ List.mem_cons_self)
  have hfirst := Stage.degrades_iff (b := b) (s := .empty clock) htext
  have hsecond := Stage.degrades_iff (b := b) (s := ((Stage.empty clock).mount b .textBlock).1) hcard
  -- the text block may or may not have made its request; the card's is declined alike
  rw [Stage.declines_mount htext] at hsecond
  exact ⟨⟨rfl, hsame⟩, c.styles_hero _ _, hfirst.symm, hsecond.symm, Browser.exists_declines (by decide),
    c.shownIn_hero _ _⟩

end HeroPage
