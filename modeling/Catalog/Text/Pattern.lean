import Catalog.Text.Blank
import Catalog.Text.Digit
import Catalog.Text.LetterCase
import Catalog.Text.Word

/-!
# Patterns

Regular expressions as trees, and what they match. A *place* in a text lies between two of its
characters or at an end of it. `Pattern.run` tries the ways in which a pattern can match from a
place, in order of preference, until one of them leads to a place from which the rest succeeds.
`Pattern.found` says whether there is a match anywhere in a text.

A repetition prefers more rounds or fewer, or it takes all rounds it can without ever going back on
one of them. It goes on for a bounded number of rounds only: more rounds than there are characters
left cannot reach any further place, because those that consume nothing stay where they are.
-/

namespace Catalog.Text

/-! ## Characters -/

/-- A kind of character that has a sign of its own. -/
inductive Category where
  /-- A decimal digit. -/
  | digit
  /-- A blank. -/
  | blank
  /-- A letter, a digit or numeral, or the low line. -/
  | word
deriving DecidableEq, Repr

/-- Whether a character is of a kind. -/
def Category.holds : Category → Char → Bool
  | .digit, c => isDecimalDigit c
  | .blank, c => isBlank c
  | .word, c => isWordChar c

/-- A part of a class of characters. -/
inductive ClassItem where
  /-- The character with a code point. -/
  | single (code : Nat)
  /-- The characters with code points from `first` to `last`. -/
  | range (first last : Nat)
  /-- The characters of a kind, or all others. -/
  | category (negated : Bool) (k : Category)
deriving DecidableEq, Repr

/-- A class of characters. -/
structure CharClass where
  /-- Whether the class holds what the items leave out. -/
  negated : Bool
  /-- Whether a range also holds what differs in case only. -/
  ignoreCase : Bool
  /-- The parts of the class. -/
  items : List ClassItem
deriving DecidableEq, Repr

namespace CharClass

/-- The last code point that takes no more than 16 bits. -/
def lastOfBasicPlane : Nat := 0xFFFF

/-- Whether a part of a class holds a character whatever its case. A range that leaves the basic
    plane also holds a character if it holds the first one of its upper case form; a single code
    point beyond the basic plane holds the character with this lower case form only, unless it
    stands `alone`. -/
def holdsAnyCase (alone : Bool) (c : Char) : ClassItem → Bool
  | .single n =>
    if alone || n ≤ lastOfBasicPlane then (caseVariants c).contains n
    else (lowerChar c).toNat == n
  | .range first last =>
    let within (n : Nat) : Bool := decide (first ≤ n) && decide (n ≤ last)
    (caseVariants c).any within ||
      (decide (lastOfBasicPlane < last) && ((upperHead? c).map within).getD false)
  | .category negated k => k.holds c != negated

/-- Whether a part of a class holds a character. -/
def holdsItem (c : Char) : ClassItem → Bool
  | .single n => c.toNat == n
  | .range first last => decide (first ≤ c.toNat) && decide (c.toNat ≤ last)
  | .category negated k => k.holds c != negated

/-- Whether a class holds a character. -/
def holds (k : CharClass) (c : Char) : Bool :=
  let test := if k.ignoreCase then holdsAnyCase (k.items.length == 1) c else holdsItem c
  k.items.any test != k.negated

/-- The class of one character, or of it and those that differ in case only. -/
def one (ignoreCase : Bool) (c : Char) : CharClass := ⟨false, ignoreCase, [.single c.toNat]⟩

/-- The class of all characters. -/
def all : CharClass := ⟨true, false, []⟩

/-- The class of all characters but the line feed. -/
def allButLineFeed : CharClass := ⟨true, false, [.single 10]⟩

end CharClass

/-! ## Places -/

/-- A place in a text. -/
structure Place where
  /-- How many characters lie before. -/
  offset : Nat
  /-- The character just before, if any. -/
  before : Option Char
  /-- The characters after. -/
  after : List Char

namespace Place

/-- The places of the rest of a text, in order. -/
def allFrom (offset : Nat) (before : Option Char) : List Char → List Place
  | [] => [⟨offset, before, []⟩]
  | c :: cs => ⟨offset, before, c :: cs⟩ :: allFrom (offset + 1) (some c) cs

/-- The places of a text, in order. -/
def all (cs : List Char) : List Place := allFrom 0 none cs

/-- Whether the character just before is part of a word. -/
def afterWord (p : Place) : Bool := (p.before.map isWordChar).getD false

/-- Whether the character just after is part of a word. -/
def beforeWord (p : Place) : Bool := (p.after.head?.map isWordChar).getD false

/-- Whether the place is the only one of its text. -/
def alone (p : Place) : Bool := p.before.isNone && p.after.isEmpty

end Place

/-- A condition on a place. -/
inductive Anchor where
  /-- At the beginning of the text, or of a line. -/
  | start (lines : Bool)
  /-- At the end of the text or before a line feed that ends it, or at the end of a line. -/
  | finish (lines : Bool)
  /-- At the end of the text. -/
  | textEnd
  /-- Between a word character and another, or between two of one sort. -/
  | wordBoundary (negated : Bool)
deriving DecidableEq, Repr

/-- Whether a place meets a condition. An empty text has no word boundary and no place that is
    none. -/
def Anchor.holds (a : Anchor) (p : Place) : Bool :=
  match a with
  | .start lines => p.before.isNone || (lines && p.before == some '\n')
  | .finish lines => p.after.isEmpty || p.after == ['\n'] || (lines && p.after.head? == some '\n')
  | .textEnd => p.after.isEmpty
  | .wordBoundary negated => !p.alone && ((p.afterWord != p.beforeWord) != negated)

/-! ## Patterns -/

/-- Which numbers of rounds a repetition prefers. -/
inductive Preference where
  /-- More rounds before fewer. -/
  | more
  /-- Fewer rounds before more. -/
  | fewer
  /-- As many rounds as there are, each the first way it can be done, and no others. -/
  | all
deriving DecidableEq, Repr

/-- A regular expression. -/
inductive Pattern where
  /-- Nothing. -/
  | empty
  /-- One character of a class. -/
  | one (k : CharClass)
  /-- Nothing, at a place that meets a condition. -/
  | anchor (a : Anchor)
  /-- One pattern after the other. -/
  | seq (p q : Pattern)
  /-- One pattern or, with less preference, the other. -/
  | alt (p q : Pattern)
  /-- A pattern at least `least` times, and at most `most` times if there is a bound. -/
  | repeated (p : Pattern) (preference : Preference) (least : Nat) (most : Option Nat)
deriving DecidableEq, Repr

/-- What is still to be matched: from a place where it begins to one where it ends, if it can. -/
abbrev Rest := Place → Option Place

/-- A way to match: from a place where it begins, with what is still to be matched after it, to
    where all ends, if it can. -/
abbrev Matcher := Place → Rest → Option Place

namespace Matcher

/-- Exactly `n` rounds. -/
def times (round : Matcher) : Nat → Matcher
  | 0, p, rest => rest p
  | n + 1, p, rest => round p fun q => times round n q rest

/-- At most `n` rounds, more before fewer. After a round that consumes nothing there is no other. -/
def upTo (round : Matcher) : Nat → Matcher
  | 0, p, rest => rest p
  | n + 1, p, rest =>
    match round p fun q => if q.offset = p.offset then rest q else upTo round n q rest with
    | some e => some e
    | none => rest p

/-- At most `n` rounds, fewer before more. A round that consumes nothing does not count. -/
def fromNone (round : Matcher) : Nat → Matcher
  | 0, p, rest => rest p
  | n + 1, p, rest =>
    match rest p with
    | some e => some e
    | none => round p fun q => if q.offset = p.offset then none else fromNone round n q rest

/-- The place after `n` rounds, each done the first way it can be. -/
def firstTimes (round : Matcher) : Nat → Place → Option Place
  | 0, p => some p
  | n + 1, p => (round p some).bind (firstTimes round n)

/-- The place after at most `n` rounds, as many as there are, each done the first way it can be. -/
def firstUpTo (round : Matcher) : Nat → Place → Place
  | 0, p => p
  | n + 1, p =>
    match round p some with
    | some q => if q.offset = p.offset then q else firstUpTo round n q
    | none => p

/-- At least `least` rounds and at most `optional` more. -/
def repeated (round : Matcher) (preference : Preference) (least optional : Nat) : Matcher :=
  fun p rest =>
    match preference with
    | .more => round.times least p fun q => round.upTo optional q rest
    | .fewer => round.times least p fun q => round.fromNone optional q rest
    | .all => (round.firstTimes least p).bind fun q => rest (round.firstUpTo optional q)

end Matcher

namespace Pattern

/-- The way in which a pattern matches. -/
def run : Pattern → Matcher
  | .empty => fun p rest => rest p
  | .one k => fun p rest =>
    match p.after with
    | [] => none
    | c :: cs => if k.holds c then rest ⟨p.offset + 1, some c, cs⟩ else none
  | .anchor a => fun p rest => if a.holds p then rest p else none
  | .seq x y => fun p rest => run x p fun q => run y q rest
  | .alt x y => fun p rest =>
    match run x p rest with
    | some e => some e
    | none => run y p rest
  | .repeated x preference least most => fun p rest =>
    let bound := p.after.length + 1
    let optional := match most with
      | some most => min (most - least) bound
      | none => bound
    Matcher.repeated (run x) preference (min least bound) optional p rest

/-- Whether there is a match anywhere in a text. -/
def found (x : Pattern) (s : String) : Bool :=
  (Place.all s.toList).any fun p => (x.run p some).isSome

example : (seq (one (.one false 'a')) (repeated (one .all) .more 0 none)).found "xay" = true := by
  decide
example : (repeated (one (.one true 'k')) .more 2 (some 2)).found "aK\u212a" = true := by
  decide
example : (seq (repeated (one .all) .all 0 none) (one .all)).found "xay" = false := by
  decide

end Pattern

end Catalog.Text
