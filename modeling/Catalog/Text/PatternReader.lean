import Catalog.Text.Identifier
import Catalog.Text.Pattern
import Catalog.Text.Percent

/-!
# Reading patterns

A regular expression is read from its text in two steps. The text is cut into *marks*, a character
or a character after a backslash; then the marks are read piece by piece onto a stack of the groups
under way. A piece is an item, a quantifier, the opening or closing of a group, a bar, or flags.

* items: a character, `.`, `^`, `$`, a class in brackets, and after a backslash a kind of character
  (`d s w` and their opposites), an anchor (`A Z b B`), a control character, or a code in octal or
  hexadecimal digits;
* quantifiers: `?`, `*`, `+` and `{m,n}` with either number left out, each followed by `?` to prefer
  fewer rounds, or by `+` to take all rounds there are;
* groups: `(…)`, `(?:…)`, `(?P<name>…)`, `(?>…)` for one that matches in the first way it can,
  groups with flags of their own and comments; flags for the whole pattern stand at its very
  beginning.

`Pattern.read` reads a pattern on its own or in the form `/pattern/flags`.
-/

namespace Catalog.Text

/-- Why a text is no pattern that can be used. -/
inductive PatternError where
  /-- It is not well formed. -/
  | malformed
  /-- A quantifier has a number that is too large. -/
  | tooManyTimes
deriving DecidableEq, Repr

/-- How characters and anchors are meant. -/
structure PatternFlags where
  /-- Characters that differ in case only match. -/
  ignoreCase : Bool := false
  /-- The anchors `^` and `$` hold at every line. -/
  lines : Bool := false
  /-- The point matches line feeds too. -/
  dotAll : Bool := false
deriving DecidableEq, Repr

namespace PatternReader

/-! ## Marks -/

/-- A character of a pattern, alone or after a backslash. -/
inductive Mark where
  /-- A character. -/
  | plain (c : Char)
  /-- A character after a backslash. -/
  | escaped (c : Char)
  /-- A backslash at the end, which makes a pattern malformed. -/
  | dangling
deriving DecidableEq, Repr

/-- The marks of a text. -/
def marks : List Char → List Mark
  | [] => []
  | ['\\'] => [.dangling]
  | '\\' :: c :: cs => .escaped c :: marks cs
  | c :: cs => .plain c :: marks cs

/-- The leading marks that are characters of a class, at most `most`, and what follows. -/
def takePlain (p : Char → Bool) (most : Nat) (ms : List Mark) : List Char × List Mark :=
  match most, ms with
  | most + 1, .plain c :: rest =>
    if p c then
      let (cs, rest) := takePlain p most rest
      (c :: cs, rest)
    else ([], ms)
  | _, _ => ([], ms)

/-- The leading marks that are characters of a class, and what follows. -/
def takeAllPlain (p : Char → Bool) (ms : List Mark) : List Char × List Mark :=
  takePlain p ms.length ms

/-! ## Characters after a backslash -/

/-- The value of a list of digits in a base. -/
def codeValue (base : Nat) (cs : List Char) : Nat :=
  cs.foldl (fun n c => base * n + (Percent.hexValue? c).getD 0) 0

/-- A digit in base eight. -/
def isOctal (c : Char) : Bool := '0' ≤ c && c ≤ '7'

/-- A digit in base sixteen. -/
def isHex (c : Char) : Bool := (Percent.hexValue? c).isSome

/-- The control character that a letter after a backslash stands for. -/
def control? : Char → Option Char
  | 'a' => some '\x07'
  | 'f' => some '\x0c'
  | 'n' => some '\n'
  | 'r' => some '\r'
  | 't' => some '\t'
  | 'v' => some '\x0b'
  | _ => none

/-- The kind of character, or its opposite, that a letter after a backslash stands for. -/
def category? : Char → Option ClassItem
  | 'd' => some (.category false .digit)
  | 'D' => some (.category true .digit)
  | 's' => some (.category false .blank)
  | 'S' => some (.category true .blank)
  | 'w' => some (.category false .word)
  | 'W' => some (.category true .word)
  | _ => none

/-- The anchor that a letter after a backslash stands for. -/
def anchor? : Char → Option Anchor
  | 'A' => some (.start false)
  | 'Z' => some .textEnd
  | 'b' => some (.wordBoundary false)
  | 'B' => some (.wordBoundary true)
  | _ => none

/-- The code that an `x`, `u` or `U` after a backslash and exactly `digits` digits write. -/
def hexCode? (digits : Nat) (rest : List Mark) : Option (Nat × List Mark) :=
  let (cs, rest) := takePlain isHex digits rest
  let n := codeValue 16 cs
  if cs.length = digits ∧ n < 0x110000 then some (n, rest) else none

/-- The code that a character after a backslash stands for, wherever it is. -/
def commonCode? (c : Char) (rest : List Mark) : Option (Nat × List Mark) :=
  match control? c with
  | some e => some (e.toNat, rest)
  | none =>
    if c = 'x' then hexCode? 2 rest
    else if c = 'u' then hexCode? 4 rest
    else if c = 'U' then hexCode? 8 rest
    else if c.isAlphanum then none
    else some (c.toNat, rest)

/-- The code that octal digits after a backslash write, if it is an octet. -/
def octet? (cs : List Char) (rest : List Mark) : Option (Nat × List Mark) :=
  let n := codeValue 8 cs
  if n ≤ 0o377 then some (n, rest) else none

/-- The code that a character after a backslash stands for in a class. -/
def classCode? (c : Char) (rest : List Mark) : Option (Nat × List Mark) :=
  if isOctal c then
    let (cs, rest) := takePlain isOctal 2 rest
    octet? (c :: cs) rest
  else if c = 'b' then some (8, rest)
  else commonCode? c rest

/-- The code that a character after a backslash stands for outside classes. Three octal digits are
    a code, and so is a zero with at most two more; other digits would refer to a group. -/
def outerCode? (c : Char) (rest : List Mark) : Option (Nat × List Mark) :=
  let (cs, rest') := takePlain isOctal 2 rest
  if c = '0' then octet? (c :: cs) rest'
  else if isOctal c ∧ cs.length = 2 then octet? (c :: cs) rest'
  else commonCode? c rest

/-! ## Classes -/

/-- One part of a class: a code, or a kind of character. -/
def classPart? : List Mark → Option ((Nat ⊕ ClassItem) × List Mark)
  | [] | .dangling :: _ => none
  | .plain c :: rest => some (.inl c.toNat, rest)
  | .escaped c :: rest =>
    match category? c with
    | some item => some (.inr item, rest)
    | none => (classCode? c rest).map fun (n, rest) => (.inl n, rest)

/-- A part of a class as an item. -/
def toItem : Nat ⊕ ClassItem → ClassItem
  | .inl n => .single n
  | .inr item => item

/-- The items of a class up to its closing bracket, after those in `found`. A bracket at once is a
    character; so is a hyphen before the closing bracket. `fuel` is more than the number of marks
    left. -/
def classItems? (found : List ClassItem) : Nat → List Mark → Option (List ClassItem × List Mark)
  | 0, _ => none
  | fuel + 1, ms =>
    match ms, found with
    | .plain ']' :: rest, _ :: _ => some (found.reverse, rest)
    | _, _ => do
      let (first, rest) ← classPart? ms
      match rest with
      | .plain '-' :: .plain ']' :: rest =>
        some ((.single 45 :: toItem first :: found).reverse, rest)
      | .plain '-' :: rest =>
        let (last, rest) ← classPart? rest
        match first, last with
        | .inl a, .inl b =>
          if a ≤ b then classItems? (.range a b :: found) fuel rest else none
        | _, _ => none
      | rest => classItems? (toItem first :: found) fuel rest

/-- A class after its opening bracket. -/
def class? (ignoreCase : Bool) (ms : List Mark) : Option (CharClass × List Mark) :=
  let (negated, ms) := match ms with
    | .plain '^' :: rest => (true, rest)
    | ms => (false, ms)
  (classItems? [] (ms.length + 1) ms).map fun (items, rest) =>
    (⟨negated, ignoreCase, items.eraseDups⟩, rest)

/-! ## Quantifiers -/

/-- A number of rounds must be below this. -/
def tooMany : Nat := 4294967295

/-- The number that digits of a quantifier write; without digits there is none. -/
def count? (cs : List Char) : Except PatternError (Option Nat) :=
  let n := codeValue 10 cs
  if cs.isEmpty then .ok none
  else if tooMany ≤ n then .error .tooManyTimes
  else .ok (some n)

/-- A quantifier in braces, after the opening one: its bounds and what follows. If the marks do not
    make one, the brace is a character. -/
def braces? (ms : List Mark) : Except PatternError (Option (Nat × Option Nat × List Mark)) :=
  let (low, rest) := takeAllPlain Char.isDigit ms
  let (high, rest) := match rest with
    | .plain ',' :: rest => takeAllPlain Char.isDigit rest
    | rest => (low, rest)
  match ms, rest with
  | .plain '}' :: _, _ => .ok none
  | _, .plain '}' :: .dangling :: _ => .error .malformed
  | _, .plain '}' :: rest => do
    let least := (← count? low).getD 0
    let most ← count? high
    if (most.map (decide <| · < least)).getD false then .error .malformed
    else .ok (some (least, most, rest))
  | _, _ => .ok none

/-! ## Flags -/

/-- Sets or clears the flag of a letter. -/
def setFlag? (on : Bool) (flags : PatternFlags) : Char → Option PatternFlags
  | 'i' => some { flags with ignoreCase := on }
  | 'm' => some { flags with lines := on }
  | 's' => some { flags with dotAll := on }
  | 'u' => if on then some flags else none
  | _ => none

/-- Whether a letter stands for a flag. -/
def isFlag (c : Char) : Bool := c == 'i' || c == 'm' || c == 's' || c == 'u'

/-! ## Pieces -/

/-- What a group does besides keeping its parts together. -/
inductive GroupSort where
  /-- Nothing. -/
  | plain
  /-- It stands apart from what is around it, because it is numbered or has flags of its own. -/
  | apart
  /-- Only the first way to match it counts. -/
  | firstOnly
deriving DecidableEq, Repr

/-- What the next marks of a pattern are. -/
inductive Piece where
  /-- An item that a quantifier may follow. -/
  | item (p : Pattern)
  /-- An anchor, which no quantifier may follow. -/
  | anchor (a : Anchor)
  /-- A quantifier. -/
  | quantifier (preference : Preference) (least : Nat) (most : Option Nat)
  /-- The opening of a group, its name if it has one, its sort, and the flags inside it. -/
  | opening (name : Option (List Char)) (sort : GroupSort) (flags : PatternFlags)
  /-- The closing of a group. -/
  | closing
  /-- A bar between alternatives. -/
  | bar
  /-- Flags for the whole pattern. -/
  | flags (flags : PatternFlags)
  /-- A comment. -/
  | comment

/-- The marks after a comment's closing parenthesis. -/
def afterComment? : List Mark → Option (List Mark)
  | [] => none
  | .plain ')' :: rest => some rest
  | _ :: rest => afterComment? rest

/-- Flags in a group's head, and what follows them: a closing parenthesis if they are for the whole
    pattern, or a colon if they are for a group. -/
def flagsHead? (flags : PatternFlags) (ms : List Mark) : Option (Piece × List Mark) := do
  let (on, rest) := takeAllPlain isFlag ms
  let flags ← on.foldlM (setFlag? true) flags
  match rest with
  | .plain ')' :: rest => if on.isEmpty then none else some (.flags flags, rest)
  | .plain ':' :: rest =>
    some (.opening none (if on.isEmpty then .plain else .apart) flags, rest)
  | .plain '-' :: rest =>
    let (off, rest) := takeAllPlain isFlag rest
    guard (!off.isEmpty && off.all (!on.contains ·))
    let flags ← off.foldlM (setFlag? false) flags
    match rest with
    | .plain ':' :: rest => some (.opening none .apart flags, rest)
    | _ => none
  | _ => none

/-- The head of a group, after its opening parenthesis. -/
def groupHead? (flags : PatternFlags) : List Mark → Option (Piece × List Mark)
  | .plain '?' :: .plain 'P' :: .plain '<' :: rest =>
    let (name, rest) := takeAllPlain (· ≠ '>') rest
    match rest with
    | .plain '>' :: rest =>
      if isIdentifier name then some (.opening (some name) .apart flags, rest) else none
    | _ => none
  | .plain '?' :: .plain '#' :: rest => (afterComment? rest).map fun rest => (.comment, rest)
  | .plain '?' :: .plain '>' :: rest => some (.opening none .firstOnly flags, rest)
  | .plain '?' :: rest => flagsHead? flags rest
  | rest => some (.opening none .apart flags, rest)

/-- A quantifier with what may follow it. -/
def quantifier (least : Nat) (most : Option Nat) : List Mark → Piece × List Mark
  | .plain '?' :: rest => (.quantifier .fewer least most, rest)
  | .plain '+' :: rest => (.quantifier .all least most, rest)
  | rest => (.quantifier .more least most, rest)

/-- The value there is, or else a malformed pattern. -/
def orMalformed {α : Type} : Option α → Except PatternError α
  | some a => .ok a
  | none => .error .malformed

/-- One character as an item. -/
def charItem (flags : PatternFlags) (n : Nat) : Piece :=
  .item (.one ⟨false, flags.ignoreCase, [.single n]⟩)

/-- The piece that a mark begins, and what follows it. -/
def piece (flags : PatternFlags) (m : Mark) (rest : List Mark) :
    Except PatternError (Piece × List Mark) :=
  match m with
  | .dangling => .error .malformed
  | .escaped c =>
    match category? c, anchor? c with
    | some item, _ => .ok (.item (.one ⟨false, false, [item]⟩), rest)
    | none, some a => .ok (.anchor a, rest)
    | none, none => do
      let (n, rest) ← orMalformed (outerCode? c rest)
      return (charItem flags n, rest)
  | .plain '.' =>
    .ok (.item (.one (if flags.dotAll then .all else .allButLineFeed)), rest)
  | .plain '^' => .ok (.anchor (.start flags.lines), rest)
  | .plain '$' => .ok (.anchor (.finish flags.lines), rest)
  | .plain '[' => do
    let (k, rest) ← orMalformed (class? flags.ignoreCase rest)
    return (.item (.one k), rest)
  | .plain '(' => orMalformed (groupHead? flags rest)
  | .plain ')' => .ok (.closing, rest)
  | .plain '|' => .ok (.bar, rest)
  | .plain '?' => .ok (quantifier 0 (some 1) rest)
  | .plain '*' => .ok (quantifier 0 none rest)
  | .plain '+' => .ok (quantifier 1 none rest)
  | .plain '{' => do
    match ← braces? rest with
    | some (least, most, rest) => return quantifier least most rest
    | none => return (charItem flags 123, rest)
  | .plain c => .ok (charItem flags c.toNat, rest)

/-! ## Groups -/

/-- A part of a group under way, by what a quantifier after it may do. -/
inductive Part where
  /-- It can be repeated. -/
  | item (p : Pattern)
  /-- A group that stands apart; it can be repeated too. -/
  | group (p : Pattern)
  /-- An anchor cannot be repeated. -/
  | anchor (a : Anchor)
  /-- It is repeated already. -/
  | repeated (p : Pattern)
deriving DecidableEq, Repr

/-- The pattern of a part. -/
def Part.pattern : Part → Pattern
  | .item p => p
  | .group p => p
  | .anchor a => .anchor a
  | .repeated p => p

/-- Whether a part is one character or an anchor. -/
def Part.isUnit : Part → Bool
  | .item (.one _) => true
  | .anchor _ => true
  | _ => false

/-- The pattern of parts one after the other. -/
def inSequence : List Part → Pattern
  | [] => .empty
  | [p] => p.pattern
  | p :: ps => .seq p.pattern (inSequence ps)

/-- How many leading units the first alternative has in common with all others. -/
def sharedUnits : List Part → List (List Part) → Nat
  | [], _ => 0
  | p :: ps, others =>
    if p.isUnit && others.all (fun o => o.head? == some p) then
      sharedUnits ps (others.map List.tail) + 1
    else 0

/-- The class of the characters of alternatives that are one character each. -/
def classOf? (ignoreCase : Bool) (alternatives : List (List Part)) : Option CharClass := do
  let items ← alternatives.mapM fun parts =>
    match parts with
    | [.item (.one k)] => if k.negated then none else some k.items
    | _ => none
  return ⟨false, ignoreCase, items.flatten.eraseDups⟩

/-- The pattern of alternatives: what they begin with in common, and then one of the rests. Rests of
    one character each are a class. -/
def oneOf (flags : PatternFlags) : List (List Part) → Pattern
  | [] => .empty
  | [parts] => inSequence parts
  | first :: others =>
    let shared := sharedUnits first others
    let rests := (first :: others).map (List.drop shared)
    let choice := match classOf? flags.ignoreCase rests, rests.reverse with
      | some k, _ => Pattern.one k
      | none, [] => .empty
      | none, last :: before => before.foldl (fun q p => .alt (inSequence p) q) (inSequence last)
    inSequence (first.take shared ++ [.group choice])

/-- A group under way. -/
structure Group where
  /-- The flags in it. -/
  flags : PatternFlags
  /-- What it does besides keeping its parts together. -/
  sort : GroupSort := .plain
  /-- The alternatives before the last bar, in reverse. -/
  alternatives : List (List Part) := []
  /-- The parts since the last bar, in reverse. -/
  parts : List Part := []

/-- The pattern of what is in a group. -/
def Group.pattern (g : Group) : Pattern := oneOf g.flags (g.parts.reverse :: g.alternatives).reverse

/-- A group as a part of the one around it. -/
def Group.toPart (g : Group) : Part :=
  match g.sort with
  | .plain => .item g.pattern
  | .apart => .group g.pattern
  | .firstOnly => .group (.repeated g.pattern .all 1 (some 1))

/-- The group with one more part. -/
def Group.add (g : Group) (p : Part) : Group := { g with parts := p :: g.parts }

/-- The groups under way: the innermost, those around it, and the names in use. -/
structure Stack where
  /-- The innermost group. -/
  inner : Group
  /-- The groups around it, from the inside. -/
  outer : List Group := []
  /-- The names of groups so far. -/
  names : List (List Char) := []

/-- The groups under way after one more piece. -/
def Stack.step? (s : Stack) : Piece → Option Stack
  | .item p => some { s with inner := s.inner.add (.item p) }
  | .anchor a => some { s with inner := s.inner.add (.anchor a) }
  | .quantifier preference least most =>
    let repeatable? := match s.inner.parts with
      | .item p :: ps => some (p, ps)
      | .group p :: ps => some (p, ps)
      | _ => none
    repeatable?.map fun (p, ps) =>
      let part := Part.repeated (.repeated p preference least most)
      { s with inner := { s.inner with parts := part :: ps } }
  | .opening name sort flags =>
    if (name.map s.names.contains).getD false then none
    else
      some { inner := { flags, sort }, outer := s.inner :: s.outer,
             names := name.toList ++ s.names }
  | .closing =>
    match s.outer with
    | g :: gs => some { s with inner := g.add s.inner.toPart, outer := gs }
    | [] => none
  | .bar =>
    some { s with
      inner := { s.inner with alternatives := s.inner.parts.reverse :: s.inner.alternatives,
                              parts := [] } }
  | .flags flags =>
    if s.outer.isEmpty && s.inner.alternatives.isEmpty && s.inner.parts.isEmpty then
      some { s with inner := { s.inner with flags } }
    else none
  | .comment => some s

/-- The groups under way after all marks; the first `skip` marks have been read already. -/
def readFrom (s : Stack) : Nat → List Mark → Except PatternError Stack
  | _, [] => .ok s
  | skip + 1, _ :: ms => readFrom s skip ms
  | 0, m :: ms => do
    let (p, rest) ← piece s.inner.flags m ms
    let s ← orMalformed (s.step? p)
    readFrom s (ms.length - rest.length) ms

end PatternReader

namespace Pattern

open PatternReader

/-- Reads a pattern on its own. -/
def readPlain (flags : PatternFlags) (cs : List Char) : Except PatternError Pattern := do
  let s ← readFrom { inner := { flags } } 0 (marks cs)
  if s.outer.isEmpty then return s.inner.pattern else .error .malformed

/-- The pattern and the letters of a text `/pattern/flags`; a line feed may follow. -/
def delimited? (cs : List Char) : Option (List Char × List Char) :=
  match cs with
  | '/' :: rest =>
    let backwards := match rest.reverse with
      | '\n' :: r => r
      | r => r
    let letters := backwards.takeWhile fun c => "gimsuy".toList.contains c
    match backwards.drop letters.length with
    | '/' :: body => some (body.reverse, letters)
    | _ => none
  | _ => none

/-- Reads a pattern on its own or between slashes with letters for flags. -/
def read (s : String) : Except PatternError Pattern :=
  match delimited? s.toList with
  | some (body, letters) =>
    readPlain { ignoreCase := letters.contains 'i', lines := letters.contains 'm',
                dotAll := letters.contains 's' } body
  | none => readPlain {} s.toList

/-- Whether a text reads as a pattern that is found in another text. -/
def foundIn (pattern s : String) : Bool :=
  match read pattern with
  | .ok p => p.found s
  | .error _ => false

example : foundIn "^\\d\x7b4\x7d-\\d\\d" "2024-05" = true ∧
    foundIn "/A.B/is" "xa\nb" = true := by decide +kernel
example : (read "a**").isOk = false ∧ (read "x\x7b2,1\x7d").isOk = false := by decide

end Pattern

end Catalog.Text
