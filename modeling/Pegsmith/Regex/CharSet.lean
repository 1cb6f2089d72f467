import Pegsmith.Text.Blank
import Pegsmith.Text.Category
import Pegsmith.Text.Folding
import Pegsmith.Text.Identifier
import Pegsmith.Text.Property
import Pegsmith.Text.Script

set_option autoImplicit false

namespace Pegsmith

inductive CharSet where
  | range (first last : Nat)
  | table (t : Text.CodeTable)
  | union (a b : CharSet)
  | inter (a b : CharSet)
  | diff (a b : CharSet)
  | compl (a : CharSet)
  | fold (unicode : Bool) (a : CharSet)
  deriving Inhabited

namespace CharSet

def asciiOrbit (n : Nat) : List Nat :=
  if 65 ≤ n && n ≤ 90 then [n, n + 32] else if 97 ≤ n && n ≤ 122 then [n, n - 32] else [n]

def contains : CharSet → Nat → Bool
  | .range first last, n => first ≤ n && n ≤ last
  | .table t, n => t.contains n
  | .union a b, n => a.contains n || b.contains n
  | .inter a b, n => a.contains n && b.contains n
  | .diff a b, n => a.contains n && !b.contains n
  | .compl a, n => !a.contains n
  | .fold true a, n => a.contains n || (Text.foldOrbit n).any a.contains
  | .fold false a, n => (asciiOrbit n).any a.contains

def room : CharSet → Nat
  | .range first last => if last < first then 0 else 8
  | .table t => 12 * t.ranges.size
  | .union a b => a.room + b.room
  | .inter a b => min a.room b.room
  | .diff a _ => a.room
  | .compl a => a.room + 400
  | .fold _ a => 2 * a.room

def empty : CharSet :=
  .range 1 0

def point (n : Nat) : CharSet :=
  .range n n

def ofChar (c : Char) : CharSet :=
  .point c.toNat

def unions (sets : List CharSet) : CharSet :=
  sets.foldl .union .empty

def categories (cs : List Text.Category) : CharSet :=
  unions ((Text.Category.assigned.filter fun entry => cs.contains entry.1).map fun entry =>
    .table entry.2)

def letters : CharSet :=
  categories [.upper, .lower, .title, .modifierLetter, .otherLetter]

def marks : CharSet :=
  categories [.nonspacingMark, .spacingMark, .enclosingMark]

def digits : CharSet :=
  categories [.digit]

def alphabetic : CharSet :=
  unions [letters, categories [.letterNumber], .table Text.Property.otherAlphabetic.table]

def numeric : CharSet :=
  categories [.digit, .letterNumber, .otherNumber]

def blank : CharSet :=
  unions [.range 9 13, .point 0x20, .point 0x85, .point 0xA0, .point 0x1680, .range 0x2000 0x200A,
    .range 0x2028 0x2029, .point 0x202F, .point 0x205F, .point 0x3000]

def wordChars : CharSet :=
  unions [alphabetic, marks, digits, categories [.connector], .range 0x200C 0x200D]

def asciiDigits : CharSet :=
  .range 48 57

def asciiBlank : CharSet :=
  unions [.range 9 13, .point 32]

def asciiWordChars : CharSet :=
  unions [asciiDigits, .range 65 90, .point 95, .range 97 122]

def any : CharSet :=
  .range 0 0x10FFFF

def asciiClass? : String → Option CharSet
  | "alnum" => some (unions [asciiDigits, .range 65 90, .range 97 122])
  | "alpha" => some (unions [.range 65 90, .range 97 122])
  | "ascii" => some (.range 0 127)
  | "blank" => some (unions [.point 9, .point 32])
  | "cntrl" => some (unions [.range 0 31, .point 127])
  | "digit" => some asciiDigits
  | "graph" => some (.range 33 126)
  | "lower" => some (.range 97 122)
  | "print" => some (.range 32 126)
  | "punct" => some (unions [.range 33 47, .range 58 64, .range 91 96, .range 123 126])
  | "space" => some asciiBlank
  | "upper" => some (.range 65 90)
  | "word" => some asciiWordChars
  | "xdigit" => some (unions [asciiDigits, .range 65 70, .range 97 102])
  | _ => none

def categoryNames : List (List String × List Text.Category) :=
  [(["l", "letter"], [.upper, .lower, .title, .modifierLetter, .otherLetter]),
    (["lc", "casedletter"], [.upper, .lower, .title]),
    (["lu", "uppercaseletter"], [.upper]), (["ll", "lowercaseletter"], [.lower]),
    (["lt", "titlecaseletter"], [.title]), (["lm", "modifierletter"], [.modifierLetter]),
    (["lo", "otherletter"], [.otherLetter]),
    (["m", "mark", "combiningmark"], [.nonspacingMark, .spacingMark, .enclosingMark]),
    (["mn", "nonspacingmark"], [.nonspacingMark]), (["mc", "spacingmark"], [.spacingMark]),
    (["me", "enclosingmark"], [.enclosingMark]),
    (["n", "number"], [.digit, .letterNumber, .otherNumber]),
    (["nd", "decimalnumber", "digit"], [.digit]), (["nl", "letternumber"], [.letterNumber]),
    (["no", "othernumber"], [.otherNumber]),
    (["p", "punctuation", "punct"],
      [.connector, .dash, .openMark, .closeMark, .initialQuote, .finalQuote, .otherMark]),
    (["pc", "connectorpunctuation"], [.connector]), (["pd", "dashpunctuation"], [.dash]),
    (["ps", "openpunctuation"], [.openMark]), (["pe", "closepunctuation"], [.closeMark]),
    (["pi", "initialpunctuation"], [.initialQuote]), (["pf", "finalpunctuation"], [.finalQuote]),
    (["po", "otherpunctuation"], [.otherMark]),
    (["s", "symbol"], [.mathSymbol, .currency, .modifierSymbol, .otherSymbol]),
    (["sm", "mathsymbol"], [.mathSymbol]), (["sc", "currencysymbol"], [.currency]),
    (["sk", "modifiersymbol"], [.modifierSymbol]), (["so", "othersymbol"], [.otherSymbol]),
    (["z", "separator"], [.space, .lineSeparator, .paragraphSeparator]),
    (["zs", "spaceseparator"], [.space]), (["zl", "lineseparator"], [.lineSeparator]),
    (["zp", "paragraphseparator"], [.paragraphSeparator]),
    (["cc", "control", "cntrl"], [.control]), (["cf", "format"], [.format]),
    (["co", "privateuse"], [.privateUse])]

def assigned : CharSet :=
  unions (Text.Category.assigned.map fun entry => .table entry.2)

def ofCategory? (name : String) : Option CharSet :=
  match name with
  | "any" => some any
  | "ascii" => some (.range 0 127)
  | "assigned" => some assigned
  | "cn" | "unassigned" => some (.compl assigned)
  | "c" | "other" =>
      some (.union (.compl assigned) (categories [.control, .format, .surrogate, .privateUse]))
  | name => (categoryNames.find? (·.1.contains name)).map (categories ·.2)

def ofScript? (name : String) : Option CharSet :=
  match name with
  | "zzzz" | "unknown" =>
      some (.compl (unions (Text.Script.all.map fun s => .table s.table)))
  | name => (Text.Script.named? name).map fun s => .table s.table

def ofBinary? (name : String) : Option CharSet :=
  match name with
  | "alphabetic" | "alpha" => some alphabetic
  | "uppercase" | "upper" => some (.union (.range 65 90) (.table Text.upperTable))
  | "lowercase" | "lower" => some (.union (.range 97 122) (.table Text.lowerTable))
  | "whitespace" | "wspace" | "space" => some blank
  | "xidstart" | "xids" =>
      some (unions [.range 65 90, .range 97 122, .table Text.startTable])
  | "xidcontinue" | "xidc" => some (.union asciiWordChars (.table Text.continueTable))
  | name => (Text.Property.named? name).map fun p => .table p.table

def looseName (name : String) : String :=
  let plain := (name.toList.filter fun c => !([' ', '_', '-'].contains c) && c.toNat < 128).map
    Char.toLower
  match name.toList.take 2 |>.map Char.toLower, plain with
  | ['i', 's'], ['i', 's', 'c'] => "isc"
  | ['i', 's'], 'i' :: 's' :: rest => String.ofList rest
  | _, plain => String.ofList plain

def ofName? (name : String) : Option CharSet :=
  let name := looseName name
  let binary := if ["cf", "sc", "lc"].contains name then none else ofBinary? name
  binary <|> ofCategory? name <|> ofScript? name

def ofValue? (property value : String) : Option CharSet :=
  match looseName property with
  | "gc" | "generalcategory" => ofCategory? (looseName value)
  | "sc" | "script" => ofScript? (looseName value)
  | _ => none

end CharSet

end Pegsmith
