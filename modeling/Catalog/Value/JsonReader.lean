import Catalog.Number.Numeral
import Catalog.Text.Encoding
import Catalog.Text.Percent
import Catalog.Value.Basic

/-!
# Reading JSON text

A JSON text is cut into tokens and the tokens are put together on a stack of the arrays and objects
under way. Blanks are those of JSON. Besides the numbers of JSON, the names `NaN`, `Infinity` and
`-Infinity` are read, a whole number may not have too many digits, and arrays and objects may not be
nested too deep. Of several members with one key the last counts, in the place of the first.
-/

namespace Catalog.Json

open Text

/-- A token of a JSON text. -/
inductive Token where
  /-- `[` -/
  | openArray
  /-- `]` -/
  | closeArray
  /-- `{` -/
  | openObject
  /-- `}` -/
  | closeObject
  /-- `,` -/
  | comma
  /-- `:` -/
  | colon
  /-- A text. -/
  | text (s : String)
  /-- A number, a boolean or null. -/
  | atom (v : Value)

/-! ## Texts -/

/-- How far the characters of a text have been understood. -/
inductive TextState where
  /-- Between characters. -/
  | plain
  /-- After a backslash. -/
  | escape
  /-- After `\u` and some of its four digits, of which `left` are still to come. -/
  | code (left value : Nat)

/-- The character that a letter after a backslash stands for. -/
def escaped? : Char → Option Char
  | '"' => some '"'
  | '\\' => some '\\'
  | '/' => some '/'
  | 'b' => some '\x08'
  | 'f' => some '\x0c'
  | 'n' => some '\n'
  | 'r' => some '\r'
  | 't' => some '\t'
  | _ => none

/-- Reads a text up to its closing quote: its code units (whole characters unless written by
    escapes), in reverse after those in `units`, and the number of characters up to and with the
    quote, counted on from `count`. -/
def textFrom (state : TextState) (units : List Nat) (count : Nat) :
    List Char → Option (List Nat × Nat)
  | [] => none
  | c :: cs =>
    match state with
    | .plain =>
      if c = '"' then some (units, count + 1)
      else if c = '\\' then textFrom .escape units (count + 1) cs
      else if c.toNat < 32 then none
      else textFrom .plain (c.toNat :: units) (count + 1) cs
    | .escape =>
      if c = 'u' then textFrom (.code 4 0) units (count + 1) cs
      else
        match escaped? c with
        | some e => textFrom .plain (e.toNat :: units) (count + 1) cs
        | none => none
    | .code left value =>
      match Percent.hexValue? c with
      | none => none
      | some d =>
        if left ≤ 1 then textFrom .plain ((value * 16 + d) :: units) (count + 1) cs
        else textFrom (.code (left - 1) (value * 16 + d)) units (count + 1) cs

/-! ## Numbers -/

/-- The parts of a JSON number. -/
structure Numeral where
  /-- Whether it begins with a minus sign. -/
  negative : Bool
  /-- The digits before the point. -/
  whole : List Char
  /-- The digits after the point, with the point. -/
  fraction : List Char
  /-- The exponent, with its letter and sign. -/
  exponent : List Char

/-- The point and the digits at the beginning of what follows the whole part of a number. -/
def fractionOf : List Char → List Char
  | '.' :: rest =>
    match rest.takeWhile Char.isDigit with
    | [] => []
    | digits => '.' :: digits
  | _ => []

/-- The exponent at the beginning of what follows the digits of a number. -/
def exponentOf : List Char → List Char
  | c :: rest =>
    if c = 'e' ∨ c = 'E' then
      let (sign, digits) := match rest with
        | '-' :: ds => (['-'], ds.takeWhile Char.isDigit)
        | '+' :: ds => (['+'], ds.takeWhile Char.isDigit)
        | ds => ([], ds.takeWhile Char.isDigit)
      if digits.isEmpty then [] else c :: sign ++ digits
    else []
  | [] => []

/-- The longest number at the beginning of a text. -/
def numeral? (cs : List Char) : Option Numeral :=
  let (negative, cs) := match cs with
    | '-' :: rest => (true, rest)
    | cs => (false, cs)
  let whole := match cs with
    | '0' :: _ => ['0']
    | cs => cs.takeWhile Char.isDigit
  if whole.isEmpty then none
  else
    let rest := cs.drop whole.length
    let fraction := fractionOf rest
    some { negative, whole, fraction, exponent := exponentOf (rest.drop fraction.length) }

namespace Numeral

/-- The number of characters of a number. -/
def length (n : Numeral) : Nat :=
  (if n.negative then 1 else 0) + n.whole.length + n.fraction.length + n.exponent.length

/-- The value of a number: whole if it has neither point nor exponent, else a double. -/
def value? (n : Numeral) : Option Value :=
  if n.fraction.isEmpty && n.exponent.isEmpty then
    (Catalog.Numeral.boundedValue? n.whole).map fun v =>
      .int (if n.negative then -(v : Int) else v)
  else do
    let exponent ← Catalog.Numeral.exponent? n.exponent
    let digits ← digitsValue? (n.whole ++ n.fraction.drop 1)
    return .number (.double
      (.ofDecimal n.negative digits (exponent - (n.fraction.length - 1 : Nat))))

end Numeral

/-! ## Tokens -/

/-- The words that stand for values. -/
def words : List (List Char × Value) :=
  [("null".toList, .null), ("true".toList, .bool true), ("false".toList, .bool false),
   ("NaN".toList, .number (.double .nan)),
   ("Infinity".toList, .number (.double (.infinite false))),
   ("-Infinity".toList, .number (.double (.infinite true)))]

/-- Why a text cannot be read. -/
inductive Error where
  /-- It is no JSON. -/
  | malformed
  /-- A whole number has too many digits. -/
  | tooManyDigits
  /-- Arrays and objects are nested too deep. -/
  | tooDeep
deriving DecidableEq, Repr

/-- The value there is, or else an error. -/
def orError {α : Type} (e : Error) : Option α → Except Error α
  | some a => .ok a
  | none => .error e

/-- The token at the beginning of a text that begins with no blank, and its length. -/
def token (cs : List Char) : Except Error (Token × Nat) :=
  match cs with
  | '[' :: _ => .ok (.openArray, 1)
  | ']' :: _ => .ok (.closeArray, 1)
  | '\x7b' :: _ => .ok (.openObject, 1)
  | '\x7d' :: _ => .ok (.closeObject, 1)
  | ',' :: _ => .ok (.comma, 1)
  | ':' :: _ => .ok (.colon, 1)
  | '"' :: rest =>
    orError .malformed <| (textFrom .plain [] 1 rest).map fun (units, count) =>
      (.text (String.ofList (pairUp units.reverse)), count)
  | cs =>
    match words.find? fun w => w.1.isPrefixOf cs with
    | some (word, v) => .ok (.atom v, word.length)
    | none => do
      let n ← orError .malformed (numeral? cs)
      return (.atom (← orError .tooManyDigits n.value?), n.length)

/-- The blanks of JSON. -/
def isBlank (c : Char) : Bool := c == ' ' || c == '\t' || c == '\n' || c == '\r'

/-! ## Values -/

/-- An array or object under way. -/
inductive Frame where
  /-- An array with the items so far, in reverse. -/
  | array (items : List Value)
  /-- An object with the members so far, and the key whose value comes next. -/
  | object (members : Document) (key : Option String)

/-- What may come next. -/
inductive Expected where
  /-- A value. -/
  | value
  /-- A value, or the end of the array just begun. -/
  | valueOrEnd
  /-- A key. -/
  | key
  /-- A key, or the end of the object just begun. -/
  | keyOrEnd
  /-- A colon. -/
  | colon
  /-- A comma or the end of the array or object under way. -/
  | commaOrEnd
  /-- Nothing: the value is complete. -/
  | nothing (v : Value)

/-- The arrays and objects under way, the innermost first, and what may come next. -/
structure Reading where
  /-- The arrays and objects under way. -/
  frames : List Frame
  /-- What may come next. -/
  expected : Expected

/-- Where a reading stands after a complete value. -/
def Reading.complete (v : Value) : List Frame → Reading
  | [] => ⟨[], .nothing v⟩
  | .array items :: frames => ⟨.array (v :: items) :: frames, .commaOrEnd⟩
  | .object members (some key) :: frames =>
    ⟨.object (members.put key v) none :: frames, .commaOrEnd⟩
  | .object members none :: frames => ⟨.object members none :: frames, .commaOrEnd⟩

/-- Where a reading stands after one more token. -/
def Reading.step? (r : Reading) (t : Token) : Option Reading :=
  match r.expected, t, r.frames with
  | .value, .atom v, frames | .valueOrEnd, .atom v, frames => some (complete v frames)
  | .value, .text s, frames | .valueOrEnd, .text s, frames => some (complete (.text s) frames)
  | .value, .openArray, frames | .valueOrEnd, .openArray, frames =>
    some ⟨.array [] :: frames, .valueOrEnd⟩
  | .value, .openObject, frames | .valueOrEnd, .openObject, frames =>
    some ⟨.object [] none :: frames, .keyOrEnd⟩
  | .key, .text s, .object members _ :: frames | .keyOrEnd, .text s, .object members _ :: frames =>
    some ⟨.object members (some s) :: frames, .colon⟩
  | .colon, .colon, frames => some ⟨frames, .value⟩
  | .commaOrEnd, .comma, .array items :: frames => some ⟨.array items :: frames, .value⟩
  | .commaOrEnd, .comma, .object members key :: frames =>
    some ⟨.object members key :: frames, .key⟩
  | .commaOrEnd, .closeArray, .array items :: frames
  | .valueOrEnd, .closeArray, .array items :: frames =>
    some (complete (.array items.reverse) frames)
  | .commaOrEnd, .closeObject, .object members _ :: frames
  | .keyOrEnd, .closeObject, .object members _ :: frames =>
    some (complete (.object members) frames)
  | _, _, _ => none

/-- Where a reading stands after one more token, with arrays and objects nested no deeper than
    `depth`. -/
def Reading.next (depth : Nat) (r : Reading) (t : Token) : Except Error Reading := do
  let r ← orError .malformed (r.step? t)
  if depth < r.frames.length then throw .tooDeep
  return r

/-- Where a reading stands after a text. The first `skip` characters belong to the last token
    read. -/
def Reading.after (depth : Nat) (r : Reading) : Nat → List Char → Except Error Reading
  | _, [] => .ok r
  | skip + 1, _ :: cs => r.after depth skip cs
  | 0, c :: cs =>
    if isBlank c then r.after depth 0 cs
    else do
      let (t, length) ← token (c :: cs)
      (← r.next depth t).after depth (length - 1) cs

/-- The value that a reading has given, if it is complete. -/
def Reading.value? (r : Reading) : Option Value :=
  match r.expected with
  | .nothing v => some v
  | _ => none

/-- How deep arrays and objects may be nested. -/
def maxDepth : Nat := 985

/-- Reads a JSON text whose arrays and objects are nested no deeper than `depth`. Of several errors
    the first one counts. -/
def read (s : String) (depth : Nat := maxDepth) : Except Error Value := do
  let r ← Reading.after depth ⟨[], .value⟩ 0 s.toList
  orError .malformed r.value?

end Catalog.Json
