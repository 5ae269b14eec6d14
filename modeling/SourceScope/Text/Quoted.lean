import SourceScope.Order.PartitionPoint
import SourceScope.Text.Hex
import SourceScope.Text.Hidden

set_option autoImplicit false

namespace SourceScope.Quoted

def isHidden (c : Char) : Bool :=
  let n := c.toNat
  let before := partitionPoint (·.1 ≤ n) Hidden.intervals
  n < 0x20 || (0 < before && (Hidden.intervals[before - 1]?).any (n ≤ ·.2))

def escape (c : Char) : List Char :=
  match c with
  | '"' => ['\\', '"']
  | '\\' => ['\\', '\\']
  | '\n' => ['\\', 'n']
  | '\r' => ['\\', 'r']
  | '\t' => ['\\', 't']
  | '\x00' => ['\\', '0']
  | c => if isHidden c then ['\\', 'u', '\x7b'] ++ Hex.digits c.toNat ++ ['\x7d'] else [c]

def text (s : String) : String := String.ofList ('"' :: s.toList.flatMap escape ++ ['"'])

end SourceScope.Quoted
