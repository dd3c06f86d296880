import HeroPage.Text.Quoted
import HeroPage.Decimal.Layout
set_option autoImplicit false

/-! When a reader stops, it says why, and how many bytes of the text lie behind the place to report. Most
places lie just past the byte at which reading got stuck, so that the end of the text is its own place. -/

namespace HeroPage.Json

/-- A number as it is written: whole numbers that fit 64 bits are kept apart from all others. -/
inductive Number where
  | whole (n : Int)
  | real (x : Float)

inductive Found where
  | null
  | boolean (b : Bool)
  | number (n : Number)
  | string (s : String)
  | sequence
  | map

inductive Cause where
  | unfinishedValue
  | unfinishedList
  | unfinishedObject
  | unfinishedString
  | expectedValue
  | expectedWord
  | expectedColon
  | expectedListEnd
  | expectedObjectEnd
  | expectedKey
  | trailingComma
  | trailingCharacters
  | invalidNumber
  | numberOutOfRange
  | invalidEscape
  | controlCharacter
  | loneSurrogate
  | unpairedSurrogate
  | wrongType (found : Found) (wanted : String)
  | missingField (key : String)
  | duplicateField (key : String)
  | tooShort (count : Nat) (wanted : String)
  | unknownVariant (name : String) (known : List String)

def Found.message : Found → String
  | .null => "null"
  | .boolean b => "boolean `" ++ (if b then "true" else "false") ++ "`"
  | .number (.whole n) => "integer `" ++ toString n ++ "`"
  | .number (.real x) => "floating point `" ++ Decimal.json.text x ++ "`"
  | .string s => "string " ++ Text.quoted s
  | .sequence => "sequence"
  | .map => "map"

def Cause.message : Cause → String
  | .unfinishedValue => "EOF while parsing a value"
  | .unfinishedList => "EOF while parsing a list"
  | .unfinishedObject => "EOF while parsing an object"
  | .unfinishedString => "EOF while parsing a string"
  | .expectedValue => "expected value"
  | .expectedWord => "expected ident"
  | .expectedColon => "expected `:`"
  | .expectedListEnd => "expected `,` or `]`"
  | .expectedObjectEnd => "expected `,` or `\x7d`"
  | .expectedKey => "key must be a string"
  | .trailingComma => "trailing comma"
  | .trailingCharacters => "trailing characters"
  | .invalidNumber => "invalid number"
  | .numberOutOfRange => "number out of range"
  | .invalidEscape => "invalid escape"
  | .controlCharacter => "control character (\\u0000-\\u001F) found while parsing a string"
  | .loneSurrogate => "lone leading surrogate in hex escape"
  | .unpairedSurrogate => "unexpected end of hex escape"
  | .wrongType found wanted => "invalid type: " ++ found.message ++ ", expected " ++ wanted
  | .missingField key => "missing field `" ++ key ++ "`"
  | .duplicateField key => "duplicate field `" ++ key ++ "`"
  | .tooShort count wanted => "invalid length " ++ toString count ++ ", expected " ++ wanted
  | .unknownVariant name known =>
    "unknown variant `" ++ name ++ "`, expected " ++
      String.intercalate " or " (known.map fun k => "`" ++ k ++ "`")

def bytes (s : List Char) : Nat := s.foldr (fun c n => c.utf8Size + n) 0

structure Stop where
  cause : Cause
  /-- The number of bytes behind the place. -/
  left : Nat

namespace Stop

def here (cause : Cause) (s : List Char) : Stop := ⟨cause, bytes s⟩

/-- Stop behind the first byte of `s`, or at its end if it is empty. -/
def past (cause : Cause) (s : List Char) : Stop := ⟨cause, bytes s - 1⟩

end Stop

structure Error where
  cause : Cause
  line : Nat
  column : Nat

def Error.message (e : Error) : String :=
  e.cause.message ++ " at line " ++ toString e.line ++ " column " ++ toString e.column

/-- The line and column `n` bytes into a text that continues the given line and column. -/
def place (line column n : Nat) : List Char → Nat × Nat
  | [] => (line, column)
  | c :: s =>
    if n = 0 then (line, column)
    else if c = '\n' then place (line + 1) 0 (n - 1) s
    else place line (column + min n c.utf8Size) (n - c.utf8Size) s

def Stop.locate (e : Stop) (text : List Char) : Error :=
  let (line, column) := place 1 0 (bytes text - e.left) text
  ⟨e.cause, line, column⟩

end HeroPage.Json
