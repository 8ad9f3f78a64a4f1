import SenderRatchet.Text.Decimal
import SenderRatchet.Text.Hex
import SenderRatchet.Text.Printable

/-!
# Written forms of small values

Log lines show what a report carries besides its message. Texts stand in single quotes, or in
double quotes when they hold single quotes only; records and lists keep their order.
-/

namespace SenderRatchet

inductive Literal
  | absent
  | flag (b : Bool)
  | int (n : Int)
  | float (x : Float)
  | text (s : String)
  | list (items : List Literal)
  | fields (entries : List (String × Literal))
  deriving Inhabited

namespace Literal

def escaped (quote c : Char) : List Char :=
  if c = quote ∨ c = '\\' then ['\\', c]
  else if c = '\n' then ['\\', 'n']
  else if c = '\r' then ['\\', 'r']
  else if c = '\t' then ['\\', 't']
  else if Printable.isPrintable c then [c]
  else Hex.escape c

def single : Char := Char.ofNat 39

def double : Char := Char.ofNat 34

def quoted (s : String) : String :=
  let cs := s.toList
  let quote := if cs.contains single && !cs.contains double then double else single
  String.ofList (quote :: cs.flatMap (escaped quote) ++ [quote])

mutual

def render : Literal → String
  | .absent => "None"
  | .flag b => if b then "True" else "False"
  | .int n => toString n
  | .float x => Decimal.render x
  | .text s => quoted s
  | .list items => "[" ++ ", ".intercalate (renderItems items) ++ "]"
  | .fields entries => "\x7b" ++ ", ".intercalate (renderEntries entries) ++ "\x7d"

def renderItems : List Literal → List String
  | [] => []
  | x :: rest => render x :: renderItems rest

def renderEntries : List (String × Literal) → List String
  | [] => []
  | (key, x) :: rest => (quoted key ++ ": " ++ render x) :: renderEntries rest

end

end Literal

end SenderRatchet
