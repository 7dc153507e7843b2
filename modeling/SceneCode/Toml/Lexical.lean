import SceneCode.Text.Reader
import SceneCode.Toml.Value

/-!
# Keys and simple values

The parts of a configuration file that hold no other values: white space and comments, keys,
strings, numbers, dates and times.

A reader fails on what is not well formed, and stops before what does not belong to it. A number
with something wrong at its end is thus cut short, and what is left over is an error where the
value has to end.
-/

namespace SceneCode.Toml

open Reader

/-! ## Characters -/

def doubleQuote : Char := Char.ofNat 0x22
def singleQuote : Char := Char.ofNat 0x27
def backslash : Char := Char.ofNat 0x5C

def isBlank (c : Char) : Bool := c == ' ' || c == '\t'

/-- What comments and strings may hold: no control character but the tab. -/
def isText (c : Char) : Bool := c == '\t' || (' ' ≤ c && c != Char.ofNat 0x7F)

def isBareKey (c : Char) : Bool := c.isAlphanum || c == '_' || c == '-'

def isHexDigit (c : Char) : Bool := c.isDigit || ('a' ≤ c && c ≤ 'f') || ('A' ≤ c && c ≤ 'F')

/-- The value of a digit in any base up to sixteen. -/
def digitValue (c : Char) : Nat :=
  if c.isDigit then c.toNat - '0'.toNat
  else if 'a' ≤ c then c.toNat - 'a'.toNat + 10
  else c.toNat - 'A'.toNat + 10

/-- The value of digits, most significant first. -/
def digitsValue (base : Nat) (digits : List Char) : Nat :=
  digits.foldl (fun value c => base * value + digitValue c) 0

/-! ## Space -/

def blanks : Reader (List Char) := charsWhile isBlank

/-- The end of a line, which becomes a line feed. -/
def newline : Reader Char := char '\n' <|> (char '\r' *> char '\n')

def comment : Reader Unit := do
  let _ ← char '#'
  let _ ← charsWhile isText

/-- Space and comments over any number of lines. -/
def spaceAndLines : Reader Unit := do
  let _ ← many (do
    let _ ← blanks
    let _ ← optional comment
    newline)
  let _ ← blanks

/-- What may follow a value or a header on its line, and the end of the line. -/
def lineEnd : Reader Unit := do
  let _ ← blanks
  let _ ← optional comment
  (newline *> pure ()) <|> atEnd

/-! ## Strings -/

/-- A character by its code point in hexadecimal. -/
def codePoint (digits : Nat) : Reader Char := do
  let code := digitsValue 16 (← exactly digits (charWhere isHexDigit))
  if code.isValidChar then return Char.ofNat code else failure

/-- An escape sequence. -/
def escape : Reader Char := do
  let _ ← char backslash
  match ← charWhere (fun _ => true) with
  | 'b' => return Char.ofNat 0x08
  | 't' => return '\t'
  | 'n' => return '\n'
  | 'f' => return Char.ofNat 0x0C
  | 'r' => return '\r'
  | 'u' => codePoint 4
  | 'U' => codePoint 8
  | c => if c == doubleQuote || c == backslash then return c else failure

/-- A character of a string in double quotes. -/
def basicChar : Reader Char :=
  charWhere (fun c => isText c && c != doubleQuote && c != backslash) <|> escape

/-- A character of a string in single quotes. -/
def literalChar : Reader Char := charWhere fun c => isText c && c != singleQuote

/-- A string on one line. -/
def quoted (quote : Char) (character : Reader Char) : Reader String := do
  let _ ← char quote
  let text ← many character
  let _ ← char quote
  return String.ofList text

/-- The end of a line that is joined with the next by a backslash, and the space up to the next
    character. -/
def joinedLines : Reader (List Char) := do
  let _ ← char backslash
  let _ ← blanks
  let _ ← newline
  let _ ← many (charWhere isBlank <|> newline)
  return []

/-- The rest of a string over several lines, in at most `count` pieces. It ends at three quotes;
    up to two quotes before these belong to the string. -/
def linesEnd (quote : Char) (piece : Reader (List Char)) : Nat → Reader (List Char)
  | 0 => failure
  | count + 1 => do
    let quotes ← charsWhile (· == quote)
    if quotes.length < 3 then
      let text ← piece
      return quotes ++ text ++ (← linesEnd quote piece count)
    else
      let inside := min (quotes.length - 3) 2
      modify (quotes.drop (inside + 3) ++ ·)
      return quotes.take inside

/-- A string over several lines. A line feed right after its opening quotes is left out. -/
def quotedLines (quote : Char) (piece : Reader (List Char)) : Reader String := do
  chars [quote, quote, quote]
  let _ ← optional newline
  return String.ofList (← linesEnd quote piece ((← get).length + 1))

def stringText : Reader String :=
  quotedLines doubleQuote (joinedLines <|> (List.singleton <$> (basicChar <|> newline))) <|>
  quoted doubleQuote basicChar <|>
  quotedLines singleQuote (List.singleton <$> (literalChar <|> newline)) <|>
  quoted singleQuote literalChar

/-! ## Keys -/

/-- The greatest number of parts of a key. -/
def maxKeyParts : Nat := 79

def simpleKey : Reader String :=
  quoted doubleQuote basicChar <|> quoted singleQuote literalChar <|> do
    let text ← charsWhile isBareKey
    if text.isEmpty then failure else return String.ofList text

/-- A key: one or more parts with points between them. -/
def key : Reader (List String) := do
  let parts ← separated (char '.') (blanks *> simpleKey <* blanks)
  if parts.length ≤ maxKeyParts then return parts else failure

/-! ## Numbers -/

/-- Digits; between two of them there may be an underscore. -/
def digitRun (isDigit : Char → Bool) : Reader (List Char) := do
  let first ← charWhere isDigit
  let rest ← many (charWhere isDigit <|> (char '_' *> charWhere isDigit))
  return first :: rest

/-- A sign, if there is one: whether it is a minus sign. -/
def sign : Reader Bool := do
  return (← optional (char '-' <|> char '+')) == some '-'

/-- The digits of a decimal number, without leading zeros, and whether it is negative. -/
def wholeDigits : Reader (Bool × List Char) := do
  let negative ← sign
  let digits ←
    (do
      if (← get).head? == some '0' then failure
      digitRun Char.isDigit) <|>
    (List.singleton <$> char '0')
  return (negative, digits)

/-- An integer of 64 bits. -/
def integer : Reader Int := do
  let based (letter : Char) (base : Nat) (isDigit : Char → Bool) : Reader Int := do
    chars ['0', letter]
    return digitsValue base (← digitRun isDigit)
  let value ←
    based 'x' 16 isHexDigit <|>
    based 'o' 8 (fun c => '0' ≤ c && c ≤ '7') <|>
    based 'b' 2 (fun c => c == '0' || c == '1') <|>
    (do
      let (negative, digits) ← wholeDigits
      return if negative then -(digitsValue 10 digits : Int) else digitsValue 10 digits)
  if -Int.pow 2 63 ≤ value && value < Int.pow 2 63 then return value else failure

/-- The exponent of a decimal. -/
def exponent : Reader Int := do
  let _ ← char 'e' <|> char 'E'
  let negative ← sign
  let value := digitsValue 10 (← digitRun Char.isDigit)
  return if negative then -(value : Int) else value

/-- A number with a fraction or an exponent, one of them at least. One that is too large is
    refused, but one that is too small becomes negative infinity. -/
def decimal : Reader Double := do
  let (negative, whole) ← wholeDigits
  let fraction ← optional (char '.' *> digitRun Char.isDigit)
  let power ← optional exponent
  if fraction.isNone && power.isNone then failure
  let places := fraction.getD []
  let value : Double :=
    .ofDecimal negative (digitsValue 10 (whole ++ places)) (power.getD 0 - places.length)
  if value = .infinity false then failure else return value

/-- Infinity or NaN, by name. -/
def namedFloat : Reader Double := do
  let negative ← sign
  (chars ['i', 'n', 'f'] *> pure (.infinity negative)) <|>
    (chars ['n', 'a', 'n'] *> pure .nan)

def boolean : Reader Bool :=
  (chars ['t', 'r', 'u', 'e'] *> pure true) <|> (chars ['f', 'a', 'l', 's', 'e'] *> pure false)

/-! ## Dates and times -/

/-- A number of exactly so many digits, within bounds. -/
def fixedNumber (digits least greatest : Nat) : Reader Nat := do
  let value := digitsValue 10 (← exactly digits (charWhere Char.isDigit))
  if least ≤ value && value ≤ greatest then return value else failure

def daysIn (year month : Nat) : Nat :=
  if month == 2 then
    if year % 4 == 0 && (year % 100 != 0 || year % 400 == 0) then 29 else 28
  else if month == 4 || month == 6 || month == 9 || month == 11 then 30
  else 31

def date : Reader Date := do
  let year ← fixedNumber 4 0 9999
  let _ ← char '-'
  let month ← fixedNumber 2 1 12
  let _ ← char '-'
  let day ← fixedNumber 2 1 31
  if day ≤ daysIn year month then return ⟨year, month, day⟩ else failure

/-- A time of day. A fraction of a second is cut off after nine digits. -/
def time : Reader Time := do
  let hour ← fixedNumber 2 0 23
  let _ ← char ':'
  let minute ← fixedNumber 2 0 59
  let _ ← char ':'
  let second ← fixedNumber 2 0 60
  let fraction ← optional (char '.' *> do
    let digits ← charsWhile Char.isDigit
    if digits.isEmpty then failure else return digits.take 9)
  let digits := fraction.getD []
  return ⟨hour, minute, second, digitsValue 10 digits * Nat.pow 10 (9 - digits.length)⟩

/-- An offset from universal time, in minutes. -/
def timeOffset : Reader Int :=
  ((char 'Z' <|> char 'z') *> pure 0) <|> do
    let negative := (← char '+' <|> char '-') == '-'
    let hour ← fixedNumber 2 0 23
    let _ ← char ':'
    let minute ← fixedNumber 2 0 59
    return if negative then -(60 * hour + minute : Int) else (60 * hour + minute : Int)

def moment : Reader Moment :=
  (do
    let day ← date
    let rest ← optional (do
      let _ ← char 'T' <|> char 't' <|> char ' '
      let hour ← time
      return (hour, ← optional timeOffset))
    return match rest with
      | some (hour, offset) => .dateTime day hour offset
      | none => .date day) <|>
  (Moment.time <$> time)

end SceneCode.Toml
