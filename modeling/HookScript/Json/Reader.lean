import HookScript.Json.Basic
import HookScript.Text.Hex

/-!
# Reading documents

The reader takes JSON and a little more: `NaN`, `Infinity` and `-Infinity`
count as numbers, and a string may hold any code point from the space on,
lone surrogates included.  A number is the longest piece of text that can be
one, so `01` is a number followed by something else.

A text that is not a document has a `Flaw` at one place.  While reading, the
place is known by what is left of the text from there on; `Fault.position`
turns that into a line and a column.
-/

namespace HookScript.Json

/-! ## Faults -/

/-- What is wrong with a text. -/
inductive Flaw where
  /-- The text starts with a byte order mark. -/
  | byteOrderMark
  /-- A value should start here. -/
  | noValue
  /-- The name of a member should start here. -/
  | noName
  /-- A colon should follow the name of a member. -/
  | noColon
  /-- A comma or the end should follow an item or a member. -/
  | noComma
  /-- The string that starts here does not end. -/
  | unterminated
  /-- A control character stands in a string. -/
  | controlCharacter
  /-- A backslash in a string is followed by nothing that it can escape. -/
  | badEscape
  /-- The escape of a code unit lacks its four digits. -/
  | badUnitEscape
  /-- Something follows the document. -/
  | extraData
deriving DecidableEq

def Flaw.message : Flaw → Text
  | .byteOrderMark => "Unexpected UTF-8 BOM (decode using utf-8-sig)"
  | .noValue => "Expecting value"
  | .noName => "Expecting property name enclosed in double quotes"
  | .noColon => "Expecting ':' delimiter"
  | .noComma => "Expecting ',' delimiter"
  | .unterminated => "Unterminated string starting at"
  | .controlCharacter => "Invalid control character at"
  | .badEscape => "Invalid \\escape"
  | .badUnitEscape => "Invalid \\uXXXX escape"
  | .extraData => "Extra data"

/-- A flaw and its place, given by the number of code points from there to the
end of the text. -/
structure Fault where
  flaw : Flaw
  left : Nat
deriving DecidableEq

/-- A place in a text.  Lines and columns are counted from one. -/
structure Position where
  line : Nat
  column : Nat
deriving DecidableEq

/-- The place that is reached after reading a text. -/
def Position.after (read : Text) : Position where
  line := read.count (.ofChar '\n') + 1
  column := (read.reverse.takeWhile fun c => c ≠ .ofChar '\n').length + 1

/-- The place of a fault in the text it was found in. -/
def Fault.position (fault : Fault) (source : Text) : Position :=
  Position.after (source.take (source.length - fault.left))

/-- A flaw where the given rest of the text starts. -/
def fail {α : Type} (flaw : Flaw) (rest : Text) : Except Fault α := .error ⟨flaw, rest.length⟩

/-- The space that may stand between the parts of a document. -/
def isSpace (c : CodePoint) : Bool := c = ' ' || c = '\t' || c = '\n' || c = '\r'

def skipSpace (text : Text) : Text := text.dropWhile isSpace

/-! ## Strings -/

/-- The code point that a short escape stands for. -/
def escaped? (letter : CodePoint) : Option CodePoint :=
  if letter = '\x22' then some '\x22'
  else if letter = '\\' then some '\\'
  else if letter = '/' then some '/'
  else if letter = 'b' then some '\x08'
  else if letter = 'f' then some '\x0c'
  else if letter = 'n' then some '\n'
  else if letter = 'r' then some '\r'
  else if letter = 't' then some '\t'
  else none

/-- One element of a string: a code point, or the escape of a code unit. -/
inductive Piece where
  | plain (c : CodePoint)
  | unit (u : Nat)

/-- The elements of a string up to its closing quote.  `opening` is the text
from the opening quote on. -/
def pieces (opening : Text) : Text → Except Fault (List Piece × Text)
  | [] => fail .unterminated opening
  | c :: rest =>
    if c = '\x22' then .ok ([], rest)
    else if c = '\\' then
      match rest with
      | [] => fail .unterminated opening
      | letter :: after =>
        if letter = 'u' then
          match after with
          | d₃ :: d₂ :: d₁ :: d₀ :: next :: tail =>
            match Hex.unit? d₃ d₂ d₁ d₀ with
            | none => fail .badUnitEscape rest
            | some u => do
              let (more, left) ← pieces opening (next :: tail)
              return (.unit u :: more, left)
          | _ => fail .badUnitEscape rest
        else match escaped? letter with
          | none => fail .badEscape (c :: rest)
          | some meaning => do
            let (more, left) ← pieces opening after
            return (.plain meaning :: more, left)
    else if c.val < 0x20 then fail .controlCharacter (c :: rest)
    else do
      let (more, left) ← pieces opening rest
      return (.plain c :: more, left)

/-- The text that the elements of a string spell.  The escapes of the two halves
of a surrogate pair spell one code point. -/
def joinPieces : List Piece → Text
  | [] => []
  | .plain c :: rest => c :: joinPieces rest
  | [.unit u] => [.ofNat u]
  | .unit u :: .plain c :: rest => .ofNat u :: c :: joinPieces rest
  | .unit u :: .unit v :: rest =>
    if CodePoint.isHighSurrogate u && CodePoint.isLowSurrogate v then
      .ofPair u v :: joinPieces rest
    else .ofNat u :: joinPieces (.unit v :: rest)

/-- A string, from its opening quote on. -/
def string : Text → Except Fault (Text × Text)
  | [] => fail .unterminated []
  | quote :: rest => do
    let (elements, left) ← pieces (quote :: rest) rest
    return (joinPieces elements, left)

/-! ## Numbers -/

/-- The ten decimal digits of ASCII. -/
def isDecimal (c : CodePoint) : Bool := 0x30 ≤ c.val && c.val ≤ 0x39

/-- The value of a sequence of decimal digits. -/
def decimalValue (digits : Text) : Nat :=
  digits.foldl (fun value c => 10 * value + (c.val - 0x30)) 0

/-- The digits in front of a text, and what follows them. -/
def decimals (text : Text) : Text × Text := (text.takeWhile isDecimal, text.dropWhile isDecimal)

/-- The integral part of a number.  It is a zero, or starts with another
digit. -/
def integral? : Text → Option (Text × Text)
  | [] => none
  | c :: rest =>
    if c = '0' then some ([c], rest)
    else if isDecimal c then some (c :: (decimals rest).1, (decimals rest).2)
    else none

/-- The digits of a fraction, which follow a point; none if there is no
fraction. -/
def fraction : Text → Text × Text
  | point :: digit :: rest =>
    if point = '.' && isDecimal digit then (digit :: (decimals rest).1, (decimals rest).2)
    else ([], point :: digit :: rest)
  | text => ([], text)

/-- The exponent of a number, which follows a letter and perhaps a sign; nothing
if it has no digit. -/
def exponent? : Text → Option Int × Text
  | letter :: sign :: rest =>
    if letter = 'e' || letter = 'E' then
      let signed := sign = '+' || sign = '-'
      match decimals (if signed then rest else sign :: rest) with
      | ([], _) => (none, letter :: sign :: rest)
      | (digits, left) =>
        let value : Int := decimalValue digits
        (some (if sign = '-' then -value else value), left)
    else (none, letter :: sign :: rest)
  | text => (none, text)

/-- The number with a sign and digits, as long as it can be. -/
def number? (negative : Bool) (text : Text) : Option (Json × Text) := do
  let (whole, rest) ← integral? text
  let (decimalPlaces, rest) := fraction rest
  let (power?, rest) := exponent? rest
  if decimalPlaces.isEmpty && power?.isNone then
    let value : Int := decimalValue whole
    return (.int (if negative then -value else value), rest)
  else
    let coefficient := decimalValue (whole ++ decimalPlaces)
    return (.real (.finite negative coefficient (power?.getD 0 - decimalPlaces.length)), rest)

/-! ## Values -/

/-- The words that are values. -/
def words : List (Text × Json) :=
  [("null", .null), ("true", .bool true), ("false", .bool false), ("NaN", .real .notANumber),
    ("Infinity", .real (.infinite false)), ("-Infinity", .real (.infinite true))]

def word? (text : Text) : Option (Json × Text) :=
  words.findSome? fun (spelling, value) => (Text.dropPrefix? spelling text).map fun rest => (value, rest)

/-- A word or a number. -/
def scalar (text : Text) : Except Fault (Json × Text) :=
  match word? text with
  | some reading => .ok reading
  | none =>
    let reading := match text with
      | sign :: rest => if sign = '-' then number? true rest else number? false text
      | [] => none
    match reading with
    | some reading => .ok reading
    | none => fail .noValue text

mutual

/-- A value that starts with the text.  Every value, item and member takes one
unit of fuel along the nesting and the order of the document, and each but the
innermost uses up some of the text, so fuel beyond twice the length of the text
is never exhausted. -/
def value : Nat → Text → Except Fault (Json × Text)
  | 0, text => fail .noValue text
  | fuel + 1, text =>
    match text with
    | [] => fail .noValue []
    | c :: rest =>
      if c = '\x22' then do
        let (content, left) ← string text
        return (.str content, left)
      else if c = '[' then
        match skipSpace rest with
        | [] => fail .noValue []
        | next :: after =>
          if next = ']' then .ok (.arr [], after)
          else do
            let (content, left) ← items fuel (next :: after)
            return (.arr content, left)
      else if c = '\x7b' then
        match skipSpace rest with
        | [] => fail .noName []
        | next :: after =>
          if next = '\x7d' then .ok (.obj [], after)
          else do
            let (content, left) ← members fuel (next :: after)
            return (.obj content, left)
      else scalar text

/-- The items of an array up to its end; at least one. -/
def items : Nat → Text → Except Fault (List Json × Text)
  | 0, text => fail .noValue text
  | fuel + 1, text => do
    let (item, left) ← value fuel text
    match skipSpace left with
    | [] => fail .noComma []
    | next :: after =>
      if next = ']' then return ([item], after)
      else if next = ',' then
        let (more, left) ← items fuel (skipSpace after)
        return (item :: more, left)
      else fail .noComma (next :: after)

/-- The members of an object up to its end; at least one. -/
def members : Nat → Text → Except Fault (List (Text × Json) × Text)
  | 0, text => fail .noName text
  | fuel + 1, text => do
    if text.head? ≠ some (.ofChar '\x22') then fail .noName text
    let (name, left) ← string text
    match skipSpace left with
    | [] => fail .noColon []
    | colon :: left =>
      if colon ≠ ':' then fail .noColon (colon :: left)
      let (content, left) ← value fuel (skipSpace left)
      match skipSpace left with
      | [] => fail .noComma []
      | next :: after =>
        if next = '\x7d' then return ([(name, content)], after)
        else if next = ',' then
          let (more, left) ← members fuel (skipSpace after)
          return ((name, content) :: more, left)
        else fail .noComma (next :: after)

end

def byteOrderMark : CodePoint := .ofNat 0xFEFF

/-- Reads a text that is one document. -/
def parse (text : Text) : Except Fault Json := do
  if text.head? = some byteOrderMark then fail .byteOrderMark text
  let (document, left) ← value (2 * text.length + 2) (skipSpace text)
  match skipSpace left with
  | [] => return document
  | extra => fail .extraData extra

end HookScript.Json
