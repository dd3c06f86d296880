set_option autoImplicit false

/-! A URL is read behind the name of the host. Its path ends at the first question mark or hash and is cut at
the slashes, of either kind; dot pieces, also as `%2e`, are resolved. A router goes by the names of a path:
it does not see doubled slashes, but it does see one behind the last name. -/

namespace HeroPage

structure Path where
  pieces : List String
  deriving DecidableEq

namespace Path

def isSlash (c : Char) : Bool := c == '/' || c == '\\'

def isBreak (c : Char) : Bool := c == '\t' || c == '\n' || c == '\r'

/-- A URL without the blanks and controls at its end and without the breaks inside it. -/
def clean (url : List Char) : List Char :=
  (url.reverse.dropWhile fun c => decide (c ≤ ' ')).reverse.filter fun c => !isBreak c

/-- The part of a URL that is its path, first slash included. What stands in front of that slash
belongs to the name of the host. -/
def region (url : List Char) : List Char :=
  ((clean url).takeWhile fun c => c != '?' && c != '#').dropWhile fun c => !isSlash c

def cut : List Char → List (List Char)
  | [] => [[]]
  | c :: cs =>
    if isSlash c then [] :: cut cs
    else match cut cs with
      | [] => [[c]]
      | piece :: pieces => (c :: piece) :: pieces

theorem cut_ne_nil (cs : List Char) : cut cs ≠ [] := by
  fun_cases cut <;> simp

def spellDots : List Char → List Char
  | '%' :: '2' :: 'e' :: cs => '.' :: spellDots cs
  | '%' :: '2' :: 'E' :: cs => '.' :: spellDots cs
  | c :: cs => c :: spellDots cs
  | [] => []

def isHere (piece : List Char) : Bool := spellDots piece == ['.']

def isUp (piece : List Char) : Bool := spellDots piece == ['.', '.']

def isDrive : List Char → Bool
  | [letter, mark] => letter.isAlpha && (mark == ':' || mark == '|')
  | _ => false

/-- The pieces up to and including the next one, last to first. A drive is never taken back. -/
def walk (walked : List (List Char)) (piece : List Char) : List (List Char) :=
  if isHere piece then walked
  else if isUp piece then
    match walked with
    | [] => []
    | last :: rest => if isDrive last then last :: rest else rest
  else piece :: walked

/-- A path that ends with dots ends with a slash. -/
def ofPieces (pieces : List (List Char)) : Path :=
  let walked := pieces.foldl walk []
  let closed := if (pieces.getLast?.any fun p => isHere p || isUp p) then [] :: walked else walked
  ⟨closed.reverse.map String.ofList⟩

def ofUrl (url : String) : Path := ofPieces (cut (region url.toList).tail)

/-- The names that a router goes by. A slash behind the last of them counts as an empty name; the
slash of the root does not. -/
def names (p : Path) : List String :=
  let full := p.pieces.filter (· ≠ "")
  if p.pieces ≠ [""] ∧ p.pieces.getLast? = some "" then full ++ [""] else full

/-- Whether a link to the root counts as the current page: at the root, and at every path that
begins with two slashes. -/
def isAtRoot (p : Path) : Bool := p.pieces.head? == some ""

end Path

end HeroPage
