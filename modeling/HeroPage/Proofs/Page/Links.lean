import HeroPage.Proofs.Page.Hero
import HeroPage.Proofs.Path.Text
set_option autoImplicit false

namespace HeroPage

open Node

def Router.activateAll (r : Router) (ts : List Target) : Router :=
  ts.foldl (fun r t => (r.activate t).1) r

theorem Router.requests_activateAll (r : Router) (ls : List Link) :
    (r.activateAll (ls.map Link.target)).requests = r.requests ++ ls.map Link.href := by
  induction ls generalizing r with
  | nil => exact (List.append_nil _).symm
  | cons l ls ih =>
    calc (r.activateAll ((l :: ls).map Link.target)).requests
        = ((r.follow l.target).activateAll (ls.map Link.target)).requests := rfl
      _ = (r.follow l.target).requests ++ ls.map Link.href := ih (r.follow l.target)
      _ = r.requests ++ (l :: ls).map Link.href := by
        rw [requests_follow, List.append_assoc]
        rfl

/-- What stands in the main part of a page. -/
def Drawing.inMain (d : Drawing) : List Node := (tagged "main" d.nodes).flatMap children

namespace View

def shown (b : Browser) (path : Path) : Drawing :=
  match Route.ofPath? path with
  | none => ⟨none, []⟩
  | some r => drawRoute path (b.opens .textBlock 1).css (b.opens .logoCard 2).css r

def siteNodes (b : Browser) (path : Path) : List Node :=
  [siteBar path, .element "main" [("class", "container")] (shown b path).nodes]

theorem mount_site (b : Browser) (clock : Float) (url : String) :
    (View.site.mount b clock url).drawing =
      ⟨(shown b (.ofUrl url)).title, siteNodes b (.ofUrl url)⟩ := by
  obtain ⟨htext, hcard⟩ := styleOf_opening b clock
  unfold siteNodes shown
  simp only [mount, entrances, hero?, draw]
  cases h : Route.ofPath? (.ofUrl url) with
  | none => rfl
  | some r =>
    cases r with
    | landing t => rfl
    | home => simp only [htext, hcard]

end View

def barLogo (path : Path) : Node :=
  homeLink path "logo"
    (.element "img" [("src", logoPath), ("alt", ""), ("class", "logo-mark")] [] :: ofText siteName)

/-- The site bar with any words: those of the site are read off a text, and no proof should read it. -/
def barOf (c : Content) (path : Path) : Node :=
  .element "header" []
    [.element "div" [("class", "header-left")] [barLogo path],
     .element "nav" [("class", "header-right")] (c.links.map Link.node)]

theorem tagged_barOf (c : Content) (path : Path) :
    tagged "header" [barOf c path] = [barOf c path] ∧ tagged "main" [barOf c path] = [] ∧
      tagged "a" [barOf c path] = barLogo path :: c.links.map Link.node := by
  refine ⟨?_, ?_, ?_⟩ <;> simp [barOf, barLogo, homeLink, Content.links, Link.node, tagged_cons]

theorem tagged_siteBar (path : Path) :
    tagged "header" [siteBar path] = [siteBar path] ∧ tagged "main" [siteBar path] = [] ∧
      tagged "a" [siteBar path] = barLogo path :: Content.ofSite.links.map Link.node :=
  tagged_barOf Content.ofSite path

theorem tagged_hero (c : Content) (x y : String) :
    tagged "header" [c.hero x y] = [] ∧ tagged "main" [c.hero x y] = [] ∧
      tagged "a" [c.hero x y] = c.links.map Link.node := by
  refine ⟨?_, ?_, ?_⟩ <;>
  · rw [tagged, Content.elementsOf_hero]
    rfl

theorem tagged_page (path : Path) (t : Target) :
    tagged "header" (t.page path).nodes = [] ∧ tagged "main" (t.page path).nodes = [] ∧
      tagged "a" (t.page path).nodes =
        [homeLink path Emphasis.secondary.cssClass (ofText "Back to home")] := by
  refine ⟨?_, ?_, ?_⟩ <;> simp [Target.page, homeLink, tagged_cons]

def Node.LeadsToRoute (n : Node) : Prop := ∃ r : Route, n.attribute? "href" = some r.path

theorem leadsToRoute_homeLink (path : Path) (cssClass : String) (ns : List Node) :
    (homeLink path cssClass ns).LeadsToRoute :=
  ⟨.home, rfl⟩

theorem leadsToRoute_of_mem_links {c : Content} {n : Node} (h : n ∈ c.links.map Link.node) :
    n.LeadsToRoute := by
  obtain ⟨l, -, rfl⟩ := List.mem_map.mp h
  exact ⟨.landing l.target, rfl⟩

namespace View

variable (b : Browser) (path : Path)

theorem tagged_shown :
    tagged "header" (shown b path).nodes = [] ∧ tagged "main" (shown b path).nodes = [] ∧
      ∀ a ∈ tagged "a" (shown b path).nodes, a.LeadsToRoute := by
  unfold shown
  split
  · exact ⟨rfl, rfl, fun a ha => absurd ha List.not_mem_nil⟩
  · next r _ =>
    cases r with
    | home =>
      obtain ⟨hheader, hmain, hanchors⟩ := tagged_hero Content.ofSite (b.opens .textBlock 1).css
        (b.opens .logoCard 2).css
      refine ⟨hheader, hmain, fun a ha => ?_⟩
      rw [drawRoute, hanchors] at ha
      exact leadsToRoute_of_mem_links ha
    | landing t =>
      obtain ⟨hheader, hmain, hanchors⟩ := tagged_page path t
      refine ⟨hheader, hmain, fun a ha => ?_⟩
      rw [drawRoute, hanchors, List.mem_singleton] at ha
      exact ha ▸ leadsToRoute_homeLink path _ _

theorem tagged_site :
    tagged "header" (siteNodes b path) = [siteBar path] ∧
      tagged "main" (siteNodes b path) =
        [.element "main" [("class", "container")] (shown b path).nodes] ∧
      ∀ a ∈ tagged "a" (siteNodes b path), a.LeadsToRoute := by
  obtain ⟨hheader, hmain, hanchors⟩ := tagged_siteBar path
  obtain ⟨hheader', hmain', hanchors'⟩ := tagged_shown b path
  have hsplit (tag : String) : tagged tag (siteNodes b path) = tagged tag [siteBar path] ++
      tagged tag [.element "main" [("class", "container")] (shown b path).nodes] := by
    rw [← tagged_append]
    rfl
  refine ⟨?_, ?_, fun a ha => ?_⟩
  · rw [hsplit, hheader, tagged_cons, hheader']
    rfl
  · rw [hsplit, hmain, tagged_cons, hmain']
    rfl
  · rw [hsplit, hanchors, tagged_cons, if_neg (by decide), tagged_nil, List.append_nil] at ha
    rcases List.mem_append.mp ha with hbar | hshown
    · rcases List.mem_cons.mp hbar with rfl | hlink
      · exact leadsToRoute_homeLink path _ _
      · exact leadsToRoute_of_mem_links hlink
    · exact hanchors' a hshown

theorem shown_iff :
    ((shown b path).nodes ≠ [] ↔ (Route.ofPath? path).isSome = true) ∧
      ((shown b path).title.isSome = true ↔ (Route.ofPath? path).isSome = true) := by
  unfold shown
  cases Route.ofPath? path with
  | none => simp
  | some r => cases r <;> simp [drawRoute, Target.page]

theorem inMain_mount_site (b : Browser) (clock : Float) (url : String) :
    (View.site.mount b clock url).drawing.inMain = (shown b (.ofUrl url)).nodes := by
  rw [mount_site, Drawing.inMain, (tagged_site b (.ofUrl url)).2.1, List.flatMap_singleton]
  rfl

end View

/-- At any URL the site bar offers its two actions, the main part is told by the path and is filled where
the path is that of a route, of a landing page also with slashes in front, and no link leads elsewhere.
A link that is followed asks for its route. -/
theorem no_dead_link (b : Browser) (clock : Float) (url : String) :
    let path := Path.ofUrl url
    let d := (View.site.mount b clock url).drawing
    let routed := path.text = Route.home.path ∨
      ∃ (t : Target) (k : Nat), path.text = Path.slashes k ++ t.path
    (∃ logo, tagged "a" (tagged "header" d.nodes) =
      [logo,
        .element "a" [("href", "/events"), ("class", "btn btn-primary")]
          (ofText Content.ofSite.primaryLabel),
        .element "a" [("href", "/register"), ("class", "btn btn-secondary")]
          (ofText Content.ofSite.secondaryLabel)]) ∧
    (∀ (clock' : Float) (url' : String), (Path.ofUrl url').text = path.text →
      let d' := (View.site.mount b clock' url').drawing
      tagged "main" d'.nodes = tagged "main" d.nodes ∧ d'.title = d.title) ∧
    (∀ tail : String, (∀ c ∈ tail.toList.head?, c = '?' ∨ c = '#') →
      (∀ c ∈ url.toList.getLast?, ¬c ≤ ' ') → Path.ofUrl (url ++ tail) = path) ∧
    ((∃ part, tagged "main" d.nodes = [part]) ∧ (d.inMain ≠ [] ↔ routed) ∧
      (d.title.isSome = true ↔ routed)) ∧
    ((∀ a ∈ tagged "a" d.nodes, (a.attribute? "href").isSome = true) ∧
      ∀ href ∈ hrefsOf d.nodes, ∃ r : Route, href = r.path) ∧
    ∀ (router : Router) (followed : List Link),
      (router.activateAll (followed.map Link.target)).requests =
        router.requests ++ followed.map Link.href := by
  intro path d routed
  have hd : d = _ := View.mount_site b clock url
  have hproper : path.Proper := Path.proper_ofUrl url
  have hrouted : (Route.ofPath? path).isSome = true ↔ routed := Route.ofPath?_isSome_iff hproper
  obtain ⟨hheader, hmain, hanchors⟩ : tagged "header" d.nodes = [siteBar path] ∧
      tagged "main" d.nodes = [.element "main" [("class", "container")] (View.shown b path).nodes] ∧
        ∀ a ∈ tagged "a" d.nodes, a.LeadsToRoute := by
    rw [hd]
    exact View.tagged_site b path
  obtain ⟨hnodes, htitle⟩ := View.shown_iff b path
  refine ⟨⟨barLogo path, ?_⟩, fun clock' url' hurl => ?_, fun tail => Path.ofUrl_append,
    ⟨⟨_, hmain⟩, ?_, ?_⟩, ⟨fun a ha => ?_, fun href hhref => ?_⟩, Router.requests_activateAll⟩
  · rw [hheader, (tagged_siteBar path).2.2, Content.map_node_links]
  · have hpath : Path.ofUrl url' = path := (Path.proper_ofUrl url').text_injective hproper hurl
    have hd' := View.mount_site b clock' url'
    rw [hpath] at hd'
    rw [hd, hd']
    exact ⟨rfl, rfl⟩
  · have hinside : d.inMain = (View.shown b path).nodes := View.inMain_mount_site b clock url
    rw [hinside, hnodes, hrouted]
  · rw [hd]
    exact htitle.trans hrouted
  · obtain ⟨r, hr⟩ := hanchors a ha
    rw [hr]
    rfl
  · rw [hrefsOf_eq] at hhref
    obtain ⟨a, ha, hlink⟩ := List.mem_filterMap.mp hhref
    obtain ⟨r, hr⟩ := hanchors a ha
    exact ⟨r, Option.some.inj (hlink.symm.trans hr)⟩

theorem no_dead_link_register :
    let d := (View.site.mount {} 0 "/register").drawing
    let d' := (View.site.mount {} 5 "/events/../register").drawing
    (tagged "main" d'.nodes = tagged "main" d.nodes ∧ d'.title = d.title) ∧
      Path.ofUrl ("/register" ++ "?x=1#top") = Path.ofUrl "/register" ∧ d.title.isSome = true := by
  obtain ⟨-, hpath, htail, ⟨-, -, htitle⟩, -⟩ := no_dead_link {} 0 "/register"
  have hup : (Path.ofUrl "/events/../register").text = (Path.ofUrl "/register").text := by decide +kernel
  have hregister : (Path.ofUrl "/register").text = Path.slashes 0 ++ Target.register.path := by
    decide +kernel
  exact ⟨hpath 5 "/events/../register" hup, htail "?x=1#top" (by simp) (by simp),
    htitle.mpr (.inr ⟨.register, 0, hregister⟩)⟩

/-- Behind two slashes a page is shown, but no route is written so. -/
theorem shown_behind_slashes :
    let d := (View.site.mount {} 0 "//register?x=1").drawing
    ¬(d.inMain ≠ [] ∧ d.title.isSome = true ↔
      ∃ r : Route, (Path.ofUrl "//register?x=1").text = r.path) := by
  intro d hroute
  have hd : d = _ := View.mount_site {} 0 "//register?x=1"
  have hfound : Route.ofPath? (Path.ofUrl "//register?x=1") = some (.landing .register) := by
    decide +kernel
  obtain ⟨hnodes, htitle⟩ := View.shown_iff {} (Path.ofUrl "//register?x=1")
  have hshown : d.inMain ≠ [] ∧ d.title.isSome = true := by
    have hinside : d.inMain = _ := View.inMain_mount_site {} 0 "//register?x=1"
    rw [hinside, hd, hnodes, htitle, hfound]
    exact ⟨rfl, rfl⟩
  obtain ⟨r, hr⟩ := hroute.mp hshown
  rcases r with _ | _ | _ <;> revert hr <;> decide +kernel

end HeroPage
