import HeroPage.Page.View
set_option autoImplicit false

namespace HeroPage.Node

def tag? : Node → Option String
  | .text _ => none
  | .element tag _ _ => some tag

def attribute? (name : String) : Node → Option String
  | .text _ => none
  | .element _ attributes _ => attributes.lookup name

def children : Node → List Node
  | .text _ => []
  | .element _ _ children => children

/-- The tag of an element with its class, as a style sheet names it. -/
def selector (tag : String) (attributes : List (String × String)) : String :=
  match attributes.lookup "class" with
  | none => tag
  | some cssClass => tag ++ "." ++ cssClass

mutual

/-- The elements of a tree, each in front of the ones inside it. -/
def elements : Node → List Node
  | .text _ => []
  | .element tag attributes children => .element tag attributes children :: elementsOf children

def elementsOf : List Node → List Node
  | [] => []
  | n :: ns => n.elements ++ elementsOf ns

end

mutual

/-- The texts of a tree, each with the elements around it, outermost first. -/
def placed (around : List String) : Node → List (List String × String)
  | .text s => [(around, s)]
  | .element tag attributes children => placedOf (around ++ [selector tag attributes]) children

def placedOf (around : List String) : List Node → List (List String × String)
  | [] => []
  | n :: ns => n.placed around ++ placedOf around ns

end

mutual

/-- The tree without the attributes called `name`. -/
def without (name : String) : Node → Node
  | .text s => .text s
  | .element tag attributes children =>
    .element tag (attributes.filter fun a => a.1 ≠ name) (withoutOf name children)

def withoutOf (name : String) : List Node → List Node
  | [] => []
  | n :: ns => n.without name :: withoutOf name ns

end

def tagged (tag : String) (ns : List Node) : List Node :=
  (elementsOf ns).filter fun n => n.tag? = some tag

/-- The inline styles of a tree, with the classes of their elements. -/
def styles (ns : List Node) : List (Option String × String) :=
  (elementsOf ns).filterMap fun n => (n.attribute? "style").map fun style => (n.attribute? "class", style)

theorem elementsOf_append (ms ns : List Node) :
    elementsOf (ms ++ ns) = elementsOf ms ++ elementsOf ns := by
  induction ms with
  | nil => rfl
  | cons m ms ih => rw [List.cons_append, elementsOf, elementsOf, ih, List.append_assoc]

@[simp] theorem elementsOf_ofText (s : String) : elementsOf (ofText s) = [] := by
  unfold ofText
  split <;> rfl

@[simp] theorem placedOf_ofText (around : List String) (s : String) :
    placedOf around (ofText s) = [(around, s)].filter fun p => p.2 ≠ "" := by
  unfold ofText
  by_cases h : s = ""
  · subst h
    rfl
  · have hfull : s.isEmpty = false := by simpa using h
    rw [hfull]
    simp [placedOf, placed, h]

theorem tagged_cons (tag tag' : String) (attributes : List (String × String)) (children ns : List Node) :
    tagged tag (.element tag' attributes children :: ns) =
      (if tag' = tag then [.element tag' attributes children] else []) ++
        (tagged tag children ++ tagged tag ns) := by
  simp only [tagged, elementsOf, elements, List.cons_append, List.filter_cons, List.filter_append, tag?,
    Option.some.injEq, decide_eq_true_eq]
  split <;> rfl

@[simp] theorem tagged_nil (tag : String) : tagged tag [] = [] := rfl

theorem tagged_append (tag : String) (ms ns : List Node) :
    tagged tag (ms ++ ns) = tagged tag ms ++ tagged tag ns := by
  rw [tagged, elementsOf_append, List.filter_append]
  rfl

@[simp] theorem tagged_ofText (tag s : String) : tagged tag (ofText s) = [] := by
  rw [tagged, elementsOf_ofText]
  rfl

mutual

theorem hrefs_eq : (n : Node) →
    n.hrefs = (n.elements.filter fun n => n.tag? = some "a").filterMap (attribute? "href")
  | .text _ => rfl
  | .element tag attributes children => by
    have hchildren := hrefsOf_eq children
    rw [tagged] at hchildren
    rw [hrefs, elements, hchildren, List.filter_cons]
    by_cases h : tag = "a"
    · cases hl : attributes.lookup "href" <;> simp [h, tag?, attribute?, hl]
    · simp [h, tag?]

theorem hrefsOf_eq : (ns : List Node) → hrefsOf ns = (tagged "a" ns).filterMap (attribute? "href")
  | [] => rfl
  | n :: ns => by
    have hrest := hrefsOf_eq ns
    rw [tagged] at hrest
    rw [hrefsOf, hrefs_eq n, hrest, tagged, elementsOf, List.filter_append, List.filterMap_append]

end

end HeroPage.Node
