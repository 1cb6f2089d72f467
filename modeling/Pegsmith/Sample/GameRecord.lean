import Pegsmith.Sample.Basic

set_option autoImplicit false

namespace Pegsmith.Sample

open Parsing

inductive Colour where
  | red
  | green
  | blue
  deriving DecidableEq, Repr

def Colour.all : List Colour := [.red, .green, .blue]

abbrev Counts := Colour → Option UInt32

namespace Counts

def add (counts : Counts) (entry : Colour × UInt32) : Except Fault Counts := do
  let sum ← Sample.add ((counts entry.1).getD 0) entry.2
  return fun c => if c = entry.1 then some sum else counts c

def ofList (entries : List (Colour × UInt32)) : Except Fault Counts :=
  entries.foldlM add fun _ => none

end Counts

structure Game where
  id : UInt32
  rounds : List Counts

namespace Game

def most (g : Game) (colour : Colour) : UInt32 :=
  (g.rounds.filterMap (· colour)).foldl max 0

def isPossible (g : Game) (red green blue : UInt32) : Bool :=
  g.most .red ≤ red && g.most .green ≤ green && g.most .blue ≤ blue

def power (g : Game) : Except Fault UInt32 := do
  multiply (← multiply (g.most .red) (g.most .green)) (g.most .blue)

end Game

namespace GameRecord

inductive Part where
  | games (gs : List Game)
  | game (g : Game)
  | round (counts : Counts)
  | count (colour : Colour) (n : UInt32)
  | colour (c : Colour)
  | number (n : UInt32)

namespace Part

def games? : Part → Option (List Game)
  | .games gs => some gs
  | _ => none

def game? : Part → Option Game
  | .game g => some g
  | _ => none

def round? : Part → Option Counts
  | .round counts => some counts
  | _ => none

def count? : Part → Option (Colour × UInt32)
  | .count c n => some (c, n)
  | _ => none

end Part

def lexer : Lexer :=
  [symbol "Game" "Game", symbol "Red" "red", symbol "Green" "green", symbol "Blue" "blue", digits,
    symbol "Colon" ":", symbol "Semicolon" ";", symbol "Comma" ",", newLine, spaces "Space"]

def colour (kind : String) : Colour :=
  if kind = "Red" then .red else if kind = "Green" then .green else .blue

def round : Build Unit Part
  | [.list entries], s =>
      (members? Part.count? entries).map fun entries => ((Counts.ofList entries).map .round, s)
  | _, _ => none

def alternatives : String → List (Parsing.Alternative Unit Part)
  | "games" =>
      [⟨.concat [.single (read "game"), .loop (.sequence [skip "NewLine", read "game"]) false true,
          .optional (skip "NewLine") .nothing], value fun
          | [.list games] => (members? Part.game? games).map .games
          | _ => none⟩]
  | "game" =>
      [⟨.sequence [.sequence [skip "Game", read "number"],
          .sequence [skip "Colon", separated (read "round") "Semicolon"]], value fun
          | [.own (.number id), .list rounds] =>
              (members? Part.round? rounds).map fun rounds => .game ⟨id, rounds⟩
          | _ => none⟩]
  | "round" => [⟨separated (read "colourCount") "Comma", round⟩]
  | "colourCount" =>
      [⟨.sequence [.sequence [read "number"], .sequence [read "colour"]], value fun
          | [.own (.number n), .own (.colour c)] => some (.count c n)
          | _ => none⟩]
  | "colour" =>
      [⟨.choice [.token "Red" .kind, .token "Green" .kind, .token "Blue" .kind], value fun
          | [.kind kind] => some (.colour (colour kind))
          | _ => none⟩]
  | "number" =>
      [⟨.token "Number" .token, value fun
          | [.token t] => some (.number (word t.text))
          | _ => none⟩]
  | _ => []

def rules : Rules Unit Part :=
  { lexer, names := ["games", "game", "round", "colourCount", "colour", "number"], alternatives }

def parse (text : List Char) : Except Stop (Value Part) :=
  (rules.parseAll "games" text ()).1

end GameRecord

end Pegsmith.Sample
