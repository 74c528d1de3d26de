import Catalog.Value.JsonReader

/-!
# Reading JSON as YAML

A JSON text is YAML too, but YAML 1.1 reads some of it otherwise than JSON does:

* control characters and a few others may not be there at all, and no tabs between tokens;
* a number with an exponent is a number only if it has a point and its exponent a sign; otherwise
  it is the text that is written;
* a key, from its first quote to the colon, stands on one line and takes no more than
  `maxKeyLength` characters;
* a line break within a text is *folded*: the blanks around it do not count, one break is a blank,
  and of several the first does not count. Breaks that are no line feeds are kept.

`Yaml.read?` reads a text in this way. It gives nothing for a text that YAML does not accept.
-/

namespace Catalog.Yaml

open Json

/-! ## Characters -/

/-- Whether a character may be in a text at all. -/
def isAllowed (c : Char) : Bool :=
  let n := c.toNat
  n == 9 || n == 10 || n == 13 || (0x20 ≤ n && n ≤ 0x7E) || n == 0x85 ||
    (0xA0 ≤ n && n ≤ 0xFFFD) || 0x10000 ≤ n

/-- Whether a character that JSON allows in a text ends a line. -/
def isBreak (c : Char) : Bool := c.toNat == 0x85 || c.toNat == 0x2028 || c.toNat == 0x2029

/-- The text with a line feed at the end of every line that ends in a carriage return. -/
def withLineFeeds : List Char → List Char
  | [] => []
  | '\r' :: '\n' :: cs => '\n' :: withLineFeeds cs
  | '\r' :: cs => '\n' :: withLineFeeds cs
  | c :: cs => c :: withLineFeeds cs

/-! ## Texts -/

/-- A character within a text, as it is written. -/
inductive Written where
  /-- As it is. -/
  | plain (c : Char)
  /-- By an escape, as a code unit. -/
  | escaped (unit : Nat)

/-- The code unit of a character. -/
def Written.unit : Written → Nat
  | .plain c => c.toNat
  | .escaped n => n

/-- Whether a character is written as it is and is of a class. -/
def Written.isPlain (p : Char → Bool) : Written → Bool
  | .plain c => p c
  | .escaped _ => false

/-- What is written up to the closing quote of a text, in reverse after `found`, and the number of
    characters up to and with the quote, counted on from `count`. -/
def writtenFrom (state : TextState) (found : List Written) (count : Nat) :
    List Char → Option (List Written × Nat)
  | [] => none
  | c :: cs =>
    match state with
    | .plain =>
      if c = '"' then some (found, count + 1)
      else if c = '\\' then writtenFrom .escape found (count + 1) cs
      else if c.toNat < 32 then none
      else writtenFrom .plain (.plain c :: found) (count + 1) cs
    | .escape =>
      if c = 'u' then writtenFrom (.code 4 0) found (count + 1) cs
      else
        match escaped? c with
        | some e => writtenFrom .plain (.escaped e.toNat :: found) (count + 1) cs
        | none => none
    | .code left value =>
      match Text.Percent.hexValue? c with
      | none => none
      | some d =>
        if left ≤ 1 then writtenFrom .plain (.escaped (value * 16 + d) :: found) (count + 1) cs
        else writtenFrom (.code (left - 1) (value * 16 + d)) found (count + 1) cs

/-- Where folding stands. -/
inductive Folding where
  /-- In a line, after a number of blanks. -/
  | line (blanks : Nat)
  /-- After a line break, and the code units of those that followed it, in reverse. -/
  | broken (first : Nat) (others : List Nat)

/-- What line breaks come to. -/
def folded (first : Nat) (others : List Nat) : List Nat :=
  if first ≠ 10 then first :: others.reverse
  else if others.isEmpty then [32]
  else others.reverse

/-- Whether a line begins with the mark between documents. -/
def beginsWithMark : List Written → Bool
  | a :: b :: c :: d :: _ =>
    let all (mark : Char) : Bool := [a, b, c].all (Written.isPlain (· == mark))
    (all '-' || all '.') && d.isPlain fun x => x == ' ' || isBreak x
  | _ => false

/-- The code units of a text, its lines folded. No line may begin with the mark between
    documents. -/
def fold : Folding → List Written → Option (List Nat)
  | .line blanks, [] => some (List.replicate blanks 32)
  | .broken first others, [] => some (folded first others)
  | state, w :: ws =>
    if w.isPlain (· == ' ') then
      fold (match state with
        | .line blanks => .line (blanks + 1)
        | state => state) ws
    else if w.isPlain isBreak then
      let unit := if w.unit = 0x85 then 10 else w.unit
      if beginsWithMark ws then none
      else
        fold (match state with
          | .line _ => .broken unit []
          | .broken first others => .broken first (unit :: others)) ws
    else
      let before := match state with
        | .line blanks => List.replicate blanks 32
        | .broken first others => folded first others
      (fold (.line 0) ws).map fun units => before ++ w.unit :: units

/-! ## Tokens -/

/-- The words that stand for values. -/
def words : List (List Char × Value) :=
  [("null".toList, .null), ("true".toList, .bool true), ("false".toList, .bool false),
   ("NaN".toList, .text "NaN"), ("Infinity".toList, .text "Infinity"),
   ("-Infinity".toList, .text "-Infinity")]

/-- Whether what is written as a number is one. -/
def isNumber (n : Json.Numeral) : Bool :=
  n.exponent.isEmpty ||
    (!n.fraction.isEmpty && (n.exponent.contains '-' || n.exponent.contains '+'))

/-- A token, its length, and the line breaks in it. -/
structure Lexeme where
  /-- The token. -/
  token : Token
  /-- How many characters it takes. -/
  length : Nat
  /-- How many lines end in it. -/
  breaks : Nat := 0

/-- The token at the beginning of a text that begins with no blank. -/
def lexeme? (cs : List Char) : Option Lexeme :=
  match cs with
  | '"' :: rest => do
    let (found, length) ← writtenFrom .plain [] 1 rest
    let units ← fold (.line 0) found.reverse
    return { token := .text (String.ofList (Text.pairUp units)), length,
             breaks := (found.filter (Written.isPlain isBreak)).length }
  | cs =>
    match words.find? fun w => w.1.isPrefixOf cs, numeral? cs with
    | some (word, v), _ => some { token := .atom v, length := word.length }
    | none, some n =>
      if isNumber n then n.value?.map fun v => { token := .atom v, length := n.length }
      else some { token := .text (String.ofList (cs.take n.length)), length := n.length }
    | none, none =>
      match Json.token cs with
      | .ok (t, length) => some { token := t, length }
      | .error _ => none

/-! ## Values -/

/-- The greatest number of characters from the first quote of a key to the colon after it. -/
def maxKeyLength : Nat := 1024

/-- How deep arrays and objects may be nested. -/
def maxDepth : Nat := 485

/-- A place in a text. -/
structure Mark where
  /-- The number of characters before it. -/
  index : Nat := 0
  /-- The number of lines before it. -/
  line : Nat := 0

/-- Whether a colon is near enough to the beginning of its key. -/
def Mark.keyFits (key colon : Mark) : Bool :=
  key.line == colon.line && decide (colon.index ≤ key.index + maxKeyLength)

/-- Where a reading stands after a text that goes on from a place; `key` is the place of the token
    before it. The first `skip` characters belong to the last token read. -/
def readFrom? (r : Reading) (key here : Mark) : Nat → List Char → Option Reading
  | _, [] => some r
  | skip + 1, _ :: cs => readFrom? r key here skip cs
  | 0, c :: cs =>
    if c = ' ' then readFrom? r key { here with index := here.index + 1 } 0 cs
    else if c = '\n' then readFrom? r key ⟨here.index + 1, here.line + 1⟩ 0 cs
    else if c = '\t' then none
    else
      match lexeme? (c :: cs) with
      | none => none
      | some l =>
        if c = ':' && !key.keyFits here then none
        else
          match (r.next maxDepth l.token).toOption with
          | none => none
          | some r =>
            readFrom? r here ⟨here.index + l.length, here.line + l.breaks⟩ (l.length - 1) cs

/-- Whether a text holds nothing but blanks and line ends. -/
def isVoid (cs : List Char) : Bool := cs.all fun c => c == ' ' || c == '\n' || isBreak c

/-- Reads a JSON text as YAML. A text without anything in it is null. -/
def read? (s : String) : Option Value :=
  let cs := withLineFeeds s.toList
  if !cs.all isAllowed then none
  else if isVoid cs then some .null
  else (readFrom? ⟨[], .value⟩ {} {} 0 cs).bind Reading.value?

example : (read? "\x7b\"a\": [1.5e+3, 2]\x7d").isSome = true := by decide
example : (read? "\x7b\"a\"\n: 1\x7d").isSome = false := by decide

end Catalog.Yaml
