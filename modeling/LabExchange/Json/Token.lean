import LabExchange.Json.Tree
import LabExchange.Text.Hexadecimal

/-!
# Tokens of JSON

A text is cut into tokens by one pass over its characters. Between tokens stands blank space;
a word or a number ends at the first character that cannot belong to it.
-/
namespace LabExchange

/-- A token. A string or number whose text is well-formed but has no value is `none`. -/
inductive Token where
  | openArray
  | closeArray
  | openObject
  | closeObject
  | comma
  | colon
  | null
  | bool (value : Bool)
  | number (value : Option Number)
  | string (value : Option String)
  deriving DecidableEq

/-- A piece of a string: a character as it stands, or a 16-bit unit written with `\u`. -/
inductive Piece where
  | char (value : Char)
  | unit (value : Nat)
  deriving DecidableEq

namespace Piece

def isHigh (unit : Nat) : Bool := 0xD800 ≤ unit && unit < 0xDC00

def isLow (unit : Nat) : Bool := 0xDC00 ≤ unit && unit < 0xE000

/-- The character of a surrogate pair. -/
def pair (high low : Nat) : Char :=
  Char.ofNat (0x10000 + (high - 0xD800) * 0x400 + (low - 0xDC00))

/-- The characters of a string. A high surrogate must be followed by a low one, and a low one
stands nowhere else. -/
def join : List Piece → Option (List Char)
  | [] => some []
  | .char c :: rest => (join rest).map (c :: ·)
  | .unit high :: .unit low :: rest =>
    if isHigh high then
      if isLow low then (join rest).map (pair high low :: ·) else none
    else if isLow high then none
    else (join (.unit low :: rest)).map (Char.ofNat high :: ·)
  | .unit u :: rest =>
    if isHigh u || isLow u then none else (join rest).map (Char.ofNat u :: ·)

end Piece

/-- Where a scan stands: between tokens, or inside a word, a number or a string, with what it
has read of it, last first. -/
inductive Place where
  | between
  | word (read : List Char)
  | number (read : List Char)
  | string (read : List Piece)
  | escape (read : List Piece)
  | hex (read : List Piece) (missing : Nat) (unit : Nat)
  deriving DecidableEq

/-- The state of a scan: its place and the tokens so far, last first. -/
structure Scan where
  place : Place
  tokens : List Token
  deriving DecidableEq

namespace Scan

def isBlank (c : Char) : Bool := c == ' ' || c == '\t' || c == '\n' || c == '\r'

def isNumberChar (c : Char) : Bool :=
  c.isDigit || c == '-' || c == '+' || c == '.' || c == 'e' || c == 'E'

def wordToken? (word : List Char) : Option Token :=
  if word = ['n', 'u', 'l', 'l'] then some .null
  else if word = ['t', 'r', 'u', 'e'] then some (.bool true)
  else if word = ['f', 'a', 'l', 's', 'e'] then some (.bool false)
  else none

def numberToken? (text : List Char) : Option Token :=
  (Literal.read? text).map fun l => .number (Number.ofLiteral? l)

def stringToken (pieces : List Piece) : Token := .string ((Piece.join pieces).map String.ofList)

/-- Ends a word or number, which only the next character or the end of the text can do. -/
def settle (s : Scan) : Option Scan :=
  match s.place with
  | .word read => (wordToken? read.reverse).map fun t => ⟨.between, t :: s.tokens⟩
  | .number read => (numberToken? read.reverse).map fun t => ⟨.between, t :: s.tokens⟩
  | _ => some s

/-- Reads a character between two tokens. -/
def start (tokens : List Token) (c : Char) : Option Scan :=
  let emit (t : Token) : Option Scan := some ⟨.between, t :: tokens⟩
  if isBlank c then some ⟨.between, tokens⟩
  else if c = '[' then emit .openArray
  else if c = ']' then emit .closeArray
  else if c = '{' then emit .openObject
  else if c = '}' then emit .closeObject
  else if c = ',' then emit .comma
  else if c = ':' then emit .colon
  else if c = '"' then some ⟨.string [], tokens⟩
  else if c.isDigit ∨ c = '-' then some ⟨.number [c], tokens⟩
  else if c.isLower then some ⟨.word [c], tokens⟩
  else none

/-- Reads the character after a backslash. -/
def escaped (read : List Piece) (c : Char) : Option Place :=
  let emit (c : Char) : Option Place := some (.string (.char c :: read))
  if c = '"' ∨ c = '\\' ∨ c = '/' then emit c
  else if c = 'b' then emit '\x08'
  else if c = 'f' then emit '\x0c'
  else if c = 'n' then emit '\n'
  else if c = 'r' then emit '\r'
  else if c = 't' then emit '\t'
  else if c = 'u' then some (.hex read 4 0)
  else none

/-- Reads one character. -/
def step (s : Scan) (c : Char) : Option Scan :=
  match s.place with
  | .between => start s.tokens c
  | .word read =>
    if c.isLower then some ⟨.word (c :: read), s.tokens⟩
    else s.settle.bind fun s => start s.tokens c
  | .number read =>
    if isNumberChar c then some ⟨.number (c :: read), s.tokens⟩
    else s.settle.bind fun s => start s.tokens c
  | .string read =>
    if c = '"' then some ⟨.between, stringToken read.reverse :: s.tokens⟩
    else if c = '\\' then some ⟨.escape read, s.tokens⟩
    else if c.toNat < 0x20 then none
    else some ⟨.string (.char c :: read), s.tokens⟩
  | .escape read => (escaped read c).map fun place => ⟨place, s.tokens⟩
  | .hex read missing unit =>
    (Text.hexDigit? c).map fun d =>
      if missing ≤ 1 then ⟨.string (.unit (unit * 16 + d) :: read), s.tokens⟩
      else ⟨.hex read (missing - 1) (unit * 16 + d), s.tokens⟩

/-- Reads a text from a given state. -/
def run (s : Scan) (text : List Char) : Option Scan := text.foldlM step s

/-- The tokens of a scan that may end where it is. -/
def finish (s : Scan) : Option (List Token) :=
  s.settle.bind fun s => match s.place with
    | .between => some s.tokens.reverse
    | _ => none

end Scan

/-- The tokens of a text. -/
def Token.ofText? (text : List Char) : Option (List Token) :=
  (Scan.run ⟨.between, []⟩ text).bind Scan.finish

end LabExchange
