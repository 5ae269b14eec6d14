import SourceScope.Toml.Value

set_option autoImplicit false

namespace SourceScope.Toml

abbrev Parser (α : Type) := List Char → Option (α × List Char)

def isBlank (c : Char) : Bool := c == ' ' || c == '\t'

def skipBlanks (input : List Char) : List Char := input.dropWhile isBlank

def isPlain (c : Char) : Bool := c == '\t' || (0x20 ≤ c.toNat && c.toNat != 0x7f)

def newline? : Parser Unit
  | '\n' :: rest => some ((), rest)
  | '\r' :: '\n' :: rest => some ((), rest)
  | _ => none

def skipComment (input : List Char) : List Char :=
  match input with
  | '#' :: rest => rest.dropWhile isPlain
  | _ => input

def endOfLine : Parser Unit := fun input =>
  match skipComment (skipBlanks input) with
  | [] => some ((), [])
  | rest => newline? rest

def skipLines (input : List Char) : List Char :=
  let rest := skipComment (skipBlanks input)
  match newline? rest with
  | some (_, next) => if _ : next.length < input.length then skipLines next else next
  | none => rest
termination_by input.length

def hexValue? (c : Char) : Option Nat :=
  if '0' ≤ c ∧ c ≤ '9' then some (c.toNat - 48)
  else if 'a' ≤ c ∧ c ≤ 'f' then some (c.toNat - 87)
  else if 'A' ≤ c ∧ c ≤ 'F' then some (c.toNat - 55)
  else none

def digitBelow (base : Nat) (c : Char) : Bool :=
  match hexValue? c with
  | some n => n < base
  | none => false

def underscored (base : Nat) : Parser (List Char)
  | c :: '_' :: d :: rest =>
    if digitBelow base c then
      if digitBelow base d then (underscored base (d :: rest)).map fun (ds, left) => (c :: ds, left)
      else some ([c], '_' :: d :: rest)
    else none
  | c :: rest =>
    if digitBelow base c then
      match underscored base rest with
      | some (ds, left) => some (c :: ds, left)
      | none => some ([c], rest)
    else none
  | [] => none

def numberOf (base : Nat) (ds : List Char) : Nat :=
  ds.foldl (fun n c => base * n + (hexValue? c).getD 0) 0

def sign : List Char → Bool × List Char
  | '-' :: rest => (true, rest)
  | '+' :: rest => (false, rest)
  | rest => (false, rest)

def decimalDigits : Parser (List Char)
  | '0' :: rest => some (['0'], rest)
  | input => underscored 10 input

def checkedInteger (n : Int) : Option Value :=
  if Int64.minValue.toInt ≤ n ∧ n ≤ Int64.maxValue.toInt then some (.integer n) else none

def integer : Parser Value := fun input =>
  let based (base : Nat) (rest : List Char) : Option (Value × List Char) := do
    let (ds, rest) ← underscored base rest
    return (← checkedInteger (numberOf base ds), rest)
  match input with
  | '0' :: 'x' :: rest => based 16 rest
  | '0' :: 'o' :: rest => based 8 rest
  | '0' :: 'b' :: rest => based 2 rest
  | _ => do
    let (negative, rest) := sign input
    let (ds, rest) ← decimalDigits rest
    let n : Int := numberOf 10 ds
    return (← checkedInteger (if negative then -n else n), rest)

def exponent : Parser Int := fun input =>
  match input with
  | c :: rest =>
    if c == 'e' || c == 'E' then do
      let (negative, rest) := sign rest
      let (ds, rest) ← underscored 10 rest
      let n : Int := numberOf 10 ds
      return (if negative then -n else n, rest)
    else none
  | [] => none

def fraction : Parser (List Char)
  | '.' :: rest => underscored 10 rest
  | _ => none

def overflows (n : Nat) (scale : Int) : Bool :=
  let limit := (1 <<< 1024) - (1 <<< 970)
  -- the limit has 309 digits before the point
  let magnitude : Int := (Nat.toDigits 10 n).length + scale
  n != 0 && (310 < magnitude || (300 < magnitude &&
    limit * Nat.pow 10 (-scale).toNat ≤ n * Nat.pow 10 scale.toNat))

def float : Parser Value := fun input => do
  let (negative, rest) := sign input
  match rest with
  | 'i' :: 'n' :: 'f' :: rest => return (.float, rest)
  | 'n' :: 'a' :: 'n' :: rest => return (.float, rest)
  | _ =>
    let (whole, rest) ← decimalDigits rest
    let checked (digits : List Char) (places : Nat) (scale : Int) (rest : List Char) :=
      if !negative && overflows (numberOf 10 digits) (scale - places) then none
      else some (Value.float, rest)
    match exponent rest with
    | some (scale, rest) => checked whole 0 scale rest
    | none =>
      let (part, rest) ← fraction rest
      match exponent rest with
      | some (scale, rest) => checked (whole ++ part) part.length scale rest
      | none => checked (whole ++ part) part.length 0 rest

def fixedDigits (count : Nat) : Parser Nat := fun input =>
  let ds := input.take count
  if ds.length == count && ds.all (digitBelow 10) then some (numberOf 10 ds, input.drop count)
  else none

inductive Attempt where
  | found (rest : List Char)
  -- Something else stands here.
  | absent
  -- A time begins here, and it is malformed.
  | broken

def twoDigits (low high : Nat) : Parser Unit := fun input => do
  let (n, rest) ← fixedDigits 2 input
  if low ≤ n ∧ n ≤ high then return ((), rest) else none

def clock (input : List Char) : Attempt :=
  match twoDigits 0 23 input with
  | some (_, ':' :: rest) =>
    let seconds := do
      let (_, rest) ← twoDigits 0 59 rest
      let ':' :: rest := rest | none
      let (_, rest) ← twoDigits 0 60 rest
      match rest with
      | '.' :: c :: more =>
        if digitBelow 10 c then some (more.dropWhile (digitBelow 10)) else some rest
      | _ => some rest
    match seconds with
    | some rest => .found rest
    | none => .broken
  | _ => .absent

def zone (input : List Char) : Attempt :=
  match input with
  | c :: rest =>
    if c == 'Z' || c == 'z' then .found rest
    else if c == '+' || c == '-' then
      let shift := do
        let (_, rest) ← twoDigits 0 23 rest
        let ':' :: rest := rest | none
        let (_, rest) ← twoDigits 0 59 rest
        some rest
      match shift with
      | some rest => .found rest
      | none => .broken
    else .absent
  | [] => .absent

def isLeap (year : Nat) : Bool := (year % 4 == 0 && year % 100 != 0) || year % 400 == 0

def daysIn (year month : Nat) : Nat :=
  if month == 2 then (if isLeap year then 29 else 28)
  else if month == 4 || month == 6 || month == 9 || month == 11 then 30
  else 31

def date (input : List Char) : Attempt :=
  match fixedDigits 4 input with
  | some (year, '-' :: rest) =>
    let day := do
      let (month, rest) ← fixedDigits 2 rest
      if month < 1 ∨ 12 < month then none
      let '-' :: rest := rest | none
      let (day, rest) ← fixedDigits 2 rest
      if day < 1 ∨ daysIn year month < day then none
      some rest
    match day with
    | some rest => .found rest
    | none => .broken
  | _ => .absent

def time (input : List Char) : Attempt :=
  match date input with
  | .broken => .broken
  | .absent => clock input
  | .found rest =>
    match rest with
    | c :: after =>
      if c == 'T' || c == 't' || c == ' ' then
        match clock after with
        | .broken => .broken
        | .absent => .found rest
        | .found left =>
          match zone left with
          | .absent => .found left
          | other => other
      else .found rest
    | [] => .found rest

def numberOrTime : Parser Value := fun input =>
  match time input with
  | .found rest => some (.time, rest)
  | .broken => none
  | .absent =>
    match float input with
    | some found => some found
    | none => integer input

def scalarValue? (n : Nat) : Option Char :=
  if n < 0xd800 ∨ (0xdfff < n ∧ n < 0x110000) then some (Char.ofNat n) else none

def codePoint (count : Nat) : Parser Char := fun input => do
  let ds := input.take count
  if ds.length == count && ds.all (digitBelow 16) then
    return (← scalarValue? (numberOf 16 ds), input.drop count)
  else none

def escaped : Parser Char
  | 'b' :: rest => some ('\x08', rest)
  | 'f' :: rest => some ('\x0c', rest)
  | 'n' :: rest => some ('\n', rest)
  | 'r' :: rest => some ('\r', rest)
  | 't' :: rest => some ('\t', rest)
  | '"' :: rest => some ('"', rest)
  | '\\' :: rest => some ('\\', rest)
  | 'u' :: rest => codePoint 4 rest
  | 'U' :: rest => codePoint 8 rest
  | _ => none

def basicText (input : List Char) : Option (List Char × List Char) :=
  match input with
  | '"' :: rest => some ([], rest)
  | '\\' :: rest =>
    match escaped rest with
    | some (c, left) =>
      if _ : left.length ≤ rest.length then (basicText left).map fun (cs, e) => (c :: cs, e)
      else none
    | none => none
  | c :: rest => if isPlain c then (basicText rest).map fun (cs, e) => (c :: cs, e) else none
  | [] => none
termination_by input.length

def literalText : Parser (List Char)
  | '\'' :: rest => some ([], rest)
  | c :: rest => if isPlain c then (literalText rest).map fun (cs, e) => (c :: cs, e) else none
  | [] => none

def tripleEnd (quote : Char) (input : List Char) : Option (List Char × List Char) :=
  let quotes := input.takeWhile (· == quote)
  if quotes.length < 3 then none
  else
    let kept := min (quotes.length - 3) 2
    some (List.replicate kept quote, input.drop (kept + 3))

def isGap (c : Char) : Bool := isBlank c || c == '\n' || c == '\r'

def lineGap (input : List Char) : Option (List Char) :=
  match newline? (skipBlanks input) with
  | none => none
  | some (_, rest) =>
    let left := rest.dropWhile isGap
    -- a carriage return stands only before a line feed
    let gap := rest.take (rest.length - left.length)
    let loose := (gap.zip (gap.drop 1 ++ left.take 1)).any fun (a, b) => a == '\r' && b != '\n'
    if loose || gap.getLast? == some '\r' then none else some left

def multilineText (quote : Char) (input : List Char) : Option (List Char × List Char) :=
  match input with
  | [] => none
  | c :: rest =>
    let continue_ (cs left : List Char) : Option (List Char × List Char) :=
      if _ : left.length ≤ rest.length then
        (multilineText quote left).map fun (more, e) => (cs ++ more, e)
      else none
    if c == quote then
      match tripleEnd quote input with
      | some found => some found
      | none => continue_ [c] rest
    else if c == '\\' && quote == '"' then
      match lineGap rest with
      | some left => continue_ [] left
      | none =>
        match escaped rest with
        | some (e, left) => continue_ [e] left
        | none => none
    else
      match newline? input with
      | some (_, left) => continue_ ['\n'] left
      | none => if isPlain c then continue_ [c] rest else none
termination_by input.length

def afterNewline (input : List Char) : List Char :=
  match newline? input with
  | some (_, rest) => rest
  | none => input

def quotedText : Parser (List Char)
  | '"' :: rest => basicText rest
  | '\'' :: rest => literalText rest
  | _ => none

def string : Parser (List Char)
  | '"' :: '"' :: '"' :: rest => multilineText '"' (afterNewline rest)
  | '\'' :: '\'' :: '\'' :: rest => multilineText '\'' (afterNewline rest)
  | input => quotedText input

end SourceScope.Toml
