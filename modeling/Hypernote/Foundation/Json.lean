import Mathlib.Data.List.Sort
/-!
# JSON values and their text

The values that `json.dumps` writes, and the text it writes for them with its
default separators and ASCII escapes.  `dumpsSorted` is the `sort_keys=True`
form, which does not depend on the order of an object's members.
-/

namespace Hypernote.Foundation

/-! ## Numbers -/

/-- The digits of a natural number, without a leading zero. -/
def isNatText (cs : List Char) : Bool :=
  cs = ['0'] || (cs.all Char.isDigit && cs.head?.any (· ≠ '0'))

/-- The value of an integer's text. -/
def readInt (cs : List Char) : Option Int :=
  match cs with
  | '-' :: digits =>
      if isNatText digits then some (-(Nat.ofDigitChars 10 digits 0 : Int)) else none
  | digits => if isNatText digits then some (Nat.ofDigitChars 10 digits 0 : Int) else none

/-- The exponent of a number's text, from its letter on. -/
def isExponent (cs : List Char) : Bool :=
  match cs with
  | e :: sign :: digits =>
      (e = 'e' || e = 'E') &&
        if sign = '+' || sign = '-' then digits ≠ [] && digits.all Char.isDigit
        else (sign :: digits).all Char.isDigit
  | _ => false

/-- An unsigned number that has a fraction or an exponent. -/
def isFloatBody (cs : List Char) : Bool :=
  isNatText (cs.takeWhile Char.isDigit) &&
    match cs.dropWhile Char.isDigit with
    | '.' :: rest =>
        rest.takeWhile Char.isDigit ≠ [] &&
          (rest.dropWhile Char.isDigit = [] || isExponent (rest.dropWhile Char.isDigit))
    | rest => isExponent rest

/-- The characters of numbers, those of `NaN` and `Infinity` included. -/
def isNumberChar (c : Char) : Bool :=
  c.isDigit || c ∈ ['+', '-', '.', 'e', 'E', 'N', 'a', 'I', 'n', 'f', 'i', 't', 'y']

/-- A number that is no integer begins like no other value. -/
def isFloatStart (c : Char) : Bool := c.isDigit || c ∈ ['-', 'N', 'I']

def isFloatText (cs : List Char) : Bool :=
  cs.all isNumberChar && cs.head?.any isFloatStart && (readInt cs).isNone &&
    (cs = "NaN".toList || cs = "Infinity".toList || cs = "-Infinity".toList ||
      isFloatBody (if cs.head? = some '-' then cs.tail else cs))

/-- A number that is no integer, as its text: `0.5`, `1e+16`, `NaN`, `-Infinity`. -/
structure FloatText where
  chars : List Char
  isFloat : isFloatText chars = true

example : isFloatText "1e+16".toList = true ∧ isFloatText "1.2.3".toList = false := by decide

inductive Json
  | null
  | bool (b : Bool)
  | int (n : Int)
  | float (x : FloatText)
  | str (s : String)
  | arr (items : List Json)
  | obj (members : List (String × Json))

namespace Json

/-- `value.get(key)`, `none` also where the value is no object. -/
def get? (x : Json) (key : String) : Option Json :=
  match x with
  | .obj members => members.lookup key
  | _ => none

def hexDigit (n : Nat) : Char :=
  if n < 10 then Char.ofNat (48 + n) else Char.ofNat (87 + n)

def hex4 (n : Nat) : List Char :=
  [hexDigit (n / 4096 % 16), hexDigit (n / 256 % 16), hexDigit (n / 16 % 16), hexDigit (n % 16)]

/-- One character of a JSON string: the short escapes, `\u` escapes for the other
control and non-ASCII characters, a surrogate pair above the basic plane. -/
def escapeChar (c : Char) : List Char :=
  let n := c.toNat
  if c = '"' then ['\\', '"']
  else if c = '\\' then ['\\', '\\']
  else if c = '\n' then ['\\', 'n']
  else if c = '\r' then ['\\', 'r']
  else if c = '\t' then ['\\', 't']
  else if n = 8 then ['\\', 'b']
  else if n = 12 then ['\\', 'f']
  else if n < 32 ∨ (127 ≤ n ∧ n < 65536) then ['\\', 'u'] ++ hex4 n
  else if n < 127 then [c]
  else
    ['\\', 'u'] ++ hex4 (55296 + (n - 65536) / 1024) ++
      ['\\', 'u'] ++ hex4 (56320 + (n - 65536) % 1024)

def dumpsString (s : String) : List Char :=
  '"' :: s.toList.flatMap escapeChar ++ ['"']

/-- The `separators` of `json.dumps`. -/
inductive Separators
  /-- `(", ", ": ")`. -/
  | default
  /-- `(",", ":")`. -/
  | compact

def Separators.item : Separators → List Char
  | .default => [',', ' ']
  | .compact => [',']

def Separators.key : Separators → List Char
  | .default => [':', ' ']
  | .compact => [':']

section

variable (sep : Separators)

mutual

def writeChars : Json → List Char
  | .null => ['n', 'u', 'l', 'l']
  | .bool true => ['t', 'r', 'u', 'e']
  | .bool false => ['f', 'a', 'l', 's', 'e']
  | .int n => n.repr.toList
  | .float x => x.chars
  | .str s => dumpsString s
  | .arr items => '[' :: writeItems items ++ [']']
  | .obj members => '{' :: writeMembers members ++ ['}']

def writeItems : List Json → List Char
  | [] => []
  | [x] => writeChars x
  | x :: xs => writeChars x ++ sep.item ++ writeItems xs

def writeMembers : List (String × Json) → List Char
  | [] => []
  | [(k, x)] => dumpsString k ++ sep.key ++ writeChars x
  | (k, x) :: xs => dumpsString k ++ sep.key ++ writeChars x ++ sep.item ++ writeMembers xs

end

theorem writeItems_cons (x y : Json) (ys : List Json) :
    writeItems sep (x :: y :: ys) = writeChars sep x ++ sep.item ++ writeItems sep (y :: ys) := by
  rw [writeItems]
  exact List.cons_ne_nil y ys

theorem writeMembers_cons (member y : String × Json) (ys : List (String × Json)) :
    writeMembers sep (member :: y :: ys) =
      dumpsString member.1 ++ sep.key ++ writeChars sep member.2 ++ sep.item ++
        writeMembers sep (y :: ys) := by
  rw [writeMembers]
  exact List.cons_ne_nil y ys

end

def dumpsChars (x : Json) : List Char := writeChars .default x

def dumps (x : Json) : String := String.ofList x.dumpsChars

mutual

/-- Sort the members of every object by key. -/
def sortKeys : Json → Json
  | .null => .null
  | .bool b => .bool b
  | .int n => .int n
  | .float x => .float x
  | .str s => .str s
  | .arr items => .arr (sortItems items)
  | .obj members => .obj ((sortMembers members).insertionSort fun a b => a.1 ≤ b.1)

def sortItems : List Json → List Json
  | [] => []
  | x :: xs => sortKeys x :: sortItems xs

def sortMembers : List (String × Json) → List (String × Json)
  | [] => []
  | (k, x) :: xs => (k, sortKeys x) :: sortMembers xs

end

def dumpsSorted (x : Json) : String := dumps (sortKeys x)

example : dumpsSorted (.obj [("prompt", .str "Name? "), ("password", .bool false)]) =
    "\x7b\"password\": false, \"prompt\": \"Name? \"\x7d" := by
  decide

end Json

end Hypernote.Foundation
