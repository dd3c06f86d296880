import HeroPage.Json.Skip
set_option autoImplicit false

/-! What well-formed texts are, apart from any reader. What stands between two brackets is described from any
place in it up to the closing bracket, so that a reader which keeps its open brackets in a list can be
compared with it. -/

namespace HeroPage.Json

def Blanks (s : List Char) : Prop := ∀ c ∈ s, isBlank c = true

def Digits (s : List Char) : Prop := s ≠ [] ∧ ∀ c ∈ s, c.isDigit = true

/-- The digits before the point: no zero stands in front of others. -/
inductive Leading : List Char → Prop where
  | zero : Leading ['0']
  | digits {c : Char} {s : List Char} (hc : c.isDigit = true) (hzero : c ≠ '0')
      (hs : ∀ d ∈ s, d.isDigit = true) : Leading (c :: s)

inductive Fraction : List Char → Prop where
  | none : Fraction []
  | point {s : List Char} (hs : Digits s) : Fraction ('.' :: s)

inductive Exponent : List Char → Prop where
  | none : Exponent []
  | power {c : Char} {sign s : List Char} (hc : c = 'e' ∨ c = 'E')
      (hsign : sign = [] ∨ sign = ['+'] ∨ sign = ['-']) (hs : Digits s) :
      Exponent (c :: (sign ++ s))

inductive Unsigned : List Char → Prop where
  | intro {s f e : List Char} (hs : Leading s) (hf : Fraction f) (he : Exponent e) :
      Unsigned (s ++ (f ++ e))

def IsHexDigit (c : Char) (n : Nat) : Prop :=
  "0123456789abcdef".toList[n]? = some c ∨ "0123456789ABCDEF".toList[n]? = some c

inductive Hex : List Char → Nat → Prop where
  | digits {a b c d : Char} {i j k l : Nat} (ha : IsHexDigit a i) (hb : IsHexDigit b j)
      (hc : IsHexDigit c k) (hd : IsHexDigit d l) :
      Hex [a, b, c, d] (((i * 16 + j) * 16 + k) * 16 + l)

/-- The letters of escapes with the characters they stand for. -/
def letters : List (Char × Char) :=
  [('"', '"'), ('\\', '\\'), ('/', '/'), ('b', '\x08'), ('f', '\x0c'), ('n', '\n'), ('r', '\r'),
   ('t', '\t')]

def highUnit (c : Char) : Nat := 0xD800 + (c.toNat - 0x10000) / 0x400

def lowUnit (c : Char) : Nat := 0xDC00 + (c.toNat - 0x10000) % 0x400

/-- What follows a backslash, with the character that it escapes. -/
inductive Escape : List Char → Char → Prop where
  | letter {e c : Char} (h : (e, c) ∈ letters) : Escape [e] c
  | unit {d : List Char} {c : Char} (h : Hex d c.toNat) : Escape ('u' :: d) c
  | pair {d d' : List Char} {c : Char} (hc : 0x10000 ≤ c.toNat) (h : Hex d (highUnit c))
      (h' : Hex d' (lowUnit c)) : Escape ('u' :: (d ++ '\\' :: 'u' :: d')) c

def Plain (c : Char) : Prop := ' ' ≤ c ∧ c ≠ '"' ∧ c ≠ '\\'

/-- What stands between two quotes, with the characters that it spells. -/
inductive Spells : List Char → List Char → Prop where
  | nil : Spells [] []
  | plain {c : Char} {s x : List Char} (hc : Plain c) (hs : Spells s x) : Spells (c :: s) (c :: x)
  | escape {e s x : List Char} {c : Char} (he : Escape e c) (hs : Spells s x) :
      Spells ('\\' :: (e ++ s)) (c :: x)

inductive Quoted : List Char → String → Prop where
  | intro {s x : List Char} (h : Spells s x) : Quoted ('"' :: (s ++ ['"'])) (String.ofList x)

/-- What follows a backslash in a string that nobody wants. -/
inductive LooseEscape : List Char → Prop where
  | letter {e c : Char} (h : (e, c) ∈ letters) : LooseEscape [e]
  | unit {d : List Char} {n : Nat} (h : Hex d n) : LooseEscape ('u' :: d)

/-- What stands between two quotes if nobody wants it. -/
inductive Loose : List Char → Prop where
  | nil : Loose []
  | plain {c : Char} {s : List Char} (hc : Plain c) (hs : Loose s) : Loose (c :: s)
  | escape {e s : List Char} (he : LooseEscape e) (hs : Loose s) : Loose ('\\' :: (e ++ s))

inductive Scalar : List Char → Prop where
  | null : Scalar "null".toList
  | yes : Scalar "true".toList
  | no : Scalar "false".toList
  | number {s : List Char} (h : Unsigned s) : Scalar s
  | negative {s : List Char} (h : Unsigned s) : Scalar ('-' :: s)
  | string {s : List Char} (h : Loose s) : Scalar ('"' :: (s ++ ['"']))

def Bracket.opening : Bracket → Char
  | .list => '['
  | .object => '{'

/-- What stands before a value in a bracket. -/
inductive Label : Bracket → List Char → Prop where
  | list : Label .list []
  | object {w k w' : List Char} (hw : Blanks w) (hk : Loose k) (hw' : Blanks w') :
      Label .object (w ++ '"' :: (k ++ '"' :: (w' ++ [':'])))

/-- What stands before an item in a bracket: nothing before the first, a comma before any other. -/
inductive Lead : Bool → List Char → Prop where
  | first : Lead true []
  | next {w : List Char} (hw : Blanks w) : Lead false (w ++ [','])

/-- A value, or what stands in a bracket from some place on: the closing bracket is part of it, and
`first` says that no value stands before. -/
inductive Part where
  | value
  | rest (b : Bracket) (first : Bool)

inductive Spelt : Part → List Char → Prop where
  | scalar {s : List Char} (h : Scalar s) : Spelt .value s
  | bracket {b : Bracket} {s : List Char} (h : Spelt (.rest b true) s) :
      Spelt .value (b.opening :: s)
  | close {b : Bracket} {first : Bool} {w : List Char} (hw : Blanks w) :
      Spelt (.rest b first) (w ++ [b.closing])
  | item {b : Bracket} {first : Bool} {p l w v s : List Char} (hp : Lead first p) (hl : Label b l)
      (hw : Blanks w) (hv : Spelt .value v) (hs : Spelt (.rest b false) s) :
      Spelt (.rest b first) (p ++ (l ++ (w ++ (v ++ s))))

/-- Items with commas between them, up to the closing bracket, with what they stand for. -/
inductive Listed {β : Type} (Item : List Char → β → Prop) (closing : Char) :
    Bool → List Char → List β → Prop where
  | close {first : Bool} {w : List Char} (hw : Blanks w) :
      Listed Item closing first (w ++ [closing]) []
  | item {first : Bool} {p v s : List Char} {b : β} {bs : List β} (hp : Lead first p)
      (hv : Item v b) (hs : Listed Item closing false s bs) :
      Listed Item closing first (p ++ (v ++ s)) (b :: bs)

section

variable {α : Type}

inductive Element (Field : List Char → α → Prop) : List Char → α → Prop where
  | intro {w v : List Char} {a : α} (hw : Blanks w) (hv : Field v a) : Element Field (w ++ v) a

inductive Key : List Char → String → Prop where
  | intro {w k w' : List Char} {key : String} (hw : Blanks w) (hk : Quoted k key)
      (hw' : Blanks w') : Key (w ++ (k ++ (w' ++ [':']))) key

/-- A member of an object. Under one of the `keys` stands a `Field`, and under any other key any value
at all, which stands for nothing. -/
inductive Member (keys : List String) (Field : List Char → α → Prop) :
    List Char → String × Option α → Prop where
  | known {k w v : List Char} {key : String} {a : α} (hk : Key k key) (hkey : key ∈ keys)
      (hw : Blanks w) (hv : Field v a) : Member keys Field (k ++ (w ++ v)) (key, some a)
  | other {k w v : List Char} {key : String} (hk : Key k key) (hkey : key ∉ keys)
      (hw : Blanks w) (hv : Spelt .value v) : Member keys Field (k ++ (w ++ v)) (key, none)

/-- The members that stand for something. -/
def given (entries : List (String × Option α)) : List (String × α) :=
  entries.filterMap fun e => e.2.map (e.1, ·)

/-- A record, with what it gives to keys: an object that gives to no key twice, or a list that gives
to the keys in their order as far as it goes. -/
inductive Recorded (keys : List String) (Field : List Char → α → Prop) :
    List Char → List (String × α) → Prop where
  | object {s : List Char} {entries : List (String × Option α)}
      (hs : Listed (Member keys Field) '}' true s entries)
      (hnodup : ((given entries).map Prod.fst).Nodup) :
      Recorded keys Field ('{' :: s) (given entries)
  | list {s : List Char} {elements : List α} (hs : Listed (Element Field) ']' true s elements)
      (hlength : elements.length ≤ keys.length) :
      Recorded keys Field ('[' :: s) (keys.zip elements)

end

end HeroPage.Json
