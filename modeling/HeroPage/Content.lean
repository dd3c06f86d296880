import HeroPage.Json.Document
import HeroPage.Json.Record
set_option autoImplicit false

namespace HeroPage

structure Content where
  /-- The small line above the title. -/
  eyebrow : String
  title : String
  /-- The paragraph under the title. -/
  tagline : String
  logoPath : String
  /-- What is read out in place of the logo. -/
  logoAlt : String
  primaryLabel : String
  secondaryLabel : String
  deriving DecidableEq

def logoPath : String := "/assets/logo.svg"

namespace Content

def builtIn : Content where
  eyebrow := "University Innovation Cell"
  title := "Where ideas become ventures"
  tagline := "Workshops, hackathons and mentoring for student founders and builders."
  logoPath := HeroPage.logoPath
  logoAlt := "Innovation Cell logo"
  primaryLabel := "Explore Events"
  secondaryLabel := "Register Now"

def members (c : Content) : List (String × String) :=
  [("eyebrow", c.eyebrow), ("title", c.title), ("tagline", c.tagline), ("logoPath", c.logoPath),
   ("logoAlt", c.logoAlt), ("primaryLabel", c.primaryLabel), ("secondaryLabel", c.secondaryLabel)]

def ofTexts (get : String → Option String) : Content where
  eyebrow := (get "eyebrow").getD builtIn.eyebrow
  title := (get "title").getD builtIn.title
  tagline := (get "tagline").getD builtIn.tagline
  logoPath := (get "logoPath").getD builtIn.logoPath
  logoAlt := (get "logoAlt").getD builtIn.logoAlt
  primaryLabel := (get "primaryLabel").getD builtIn.primaryLabel
  secondaryLabel := (get "secondaryLabel").getD builtIn.secondaryLabel

theorem ofTexts_members (c : Content) : ofTexts (fun k => c.members.lookup k) = c := rfl

def keys : List String := builtIn.members.map Prod.fst

theorem keys_eq (c : Content) : c.members.map Prod.fst = keys := rfl

def record : Json.Record String Content where
  name := "struct HeroContent"
  keys := keys
  field := Json.textReader
  make := fun get => .ok (ofTexts get)

def read? (text : String) : Except Json.Error Content := Json.readDocument record.read text

/-- The words of the site, as they are written. -/
def siteText : String :=
  "\x7b
  \"eyebrow\": \"University Innovation Cell\",
  \"title\": \"Where ideas become ventures\",
  \"tagline\": \"Workshops, hackathons and mentoring for student founders, makers and researchers. Bring an idea, leave with a team.\",
  \"logoPath\": \"/assets/logo.svg\",
  \"logoAlt\": \"Innovation Cell logo\",
  \"primaryLabel\": \"Explore Events\",
  \"secondaryLabel\": \"Register Now\"
\x7d
"

/-- The words of a text, or the built-in ones if it has none. -/
def loaded (text : String) : Content :=
  match read? text with
  | .ok c => c
  | .error _ => builtIn

@[irreducible] def ofSite : Content := loaded siteText

def written (c : Content) : String :=
  String.ofList (Json.writeObject (c.members.map fun (k, v) => (k, Json.writeString v.toList)))

end Content

end HeroPage
