import LedgerWatch.Bytes
import LedgerWatch.Text.Decimal

/-!
# JSON text

Reads a JSON document. Settings need only some of what a document may hold, so the values keep no
more: a number is known if it is written as a plain natural number, and a text if its escapes stand
for characters. Both may be ill-suited and still stand where nobody looks.

## Main definitions

- `Json`: a document
- `Json.parse?`: reads one
- `Json.fields?`: the values of a record's fields, from an object or from a list in field order
-/

namespace LedgerWatch

inductive Json where
  | null
  | bool (b : Bool)
  /-- A number, and its value if it is written without sign, fraction and exponent. -/
  | number (natural : Option Nat)
  /-- A text, unless it has an escape that stands for half a character. -/
  | text (s : Option String)
  | list (items : List Json)
  | object (entries : List (Option String × Json))

namespace Json

/-- A part of a text: a character, or a unit of UTF-16 given by an escape. -/
inductive Piece where
  | char (c : Char)
  | unit (n : Nat)

/-- Joins the pieces of a text. Two escaped units may make one character; half of one makes none. -/
def join : List Piece → Option (List Char)
  | [] => some []
  | .char c :: rest => (join rest).map (c :: ·)
  | [.unit n] => if 0xD800 ≤ n ∧ n < 0xE000 then none else some [Char.ofNat n]
  | .unit n :: .char c :: rest =>
    if 0xD800 ≤ n ∧ n < 0xE000 then none else (join rest).map (Char.ofNat n :: c :: ·)
  | .unit n :: .unit m :: rest =>
    if 0xD800 ≤ n ∧ n < 0xDC00 then
      if 0xDC00 ≤ m ∧ m < 0xE000 then
        (join rest).map (Char.ofNat (0x10000 + (n - 0xD800) * 0x400 + (m - 0xDC00)) :: ·)
      else none
    else if 0xDC00 ≤ n ∧ n < 0xE000 then none
    else (join (.unit m :: rest)).map (Char.ofNat n :: ·)

def escape? : Char → Option Char
  | '"' => some '"'
  | '\\' => some '\\'
  | '/' => some '/'
  | 'b' => some '\x08'
  | 'f' => some '\x0c'
  | 'n' => some '\n'
  | 'r' => some '\r'
  | 't' => some '\t'
  | _ => none

def unit? (a b c d : Char) : Option Nat := do
  let a ← hexDigitValue? a
  let b ← hexDigitValue? b
  let c ← hexDigitValue? c
  let d ← hexDigitValue? d
  some (((a * 16 + b) * 16 + c) * 16 + d)

/-- The pieces of a text up to its closing quote, and what follows it. -/
def pieces : List Char → Option (List Piece × List Char)
  | '"' :: rest => some ([], rest)
  | '\\' :: 'u' :: a :: b :: c :: d :: rest => do
    let n ← unit? a b c d
    let (ps, rest) ← pieces rest
    some (.unit n :: ps, rest)
  | '\\' :: e :: rest => do
    let c ← escape? e
    let (ps, rest) ← pieces rest
    some (.char c :: ps, rest)
  | c :: rest =>
    if c < ' ' then none
    else do
      let (ps, rest) ← pieces rest
      some (.char c :: ps, rest)
  | [] => none

def skipBlanks : List Char → List Char
  | c :: rest => if c = ' ' ∨ c = '\n' ∨ c = '\t' ∨ c = '\r' then skipBlanks rest else c :: rest
  | [] => []

/-- The digits at the front, and what follows them. -/
def digits (cs : List Char) : List Char × List Char :=
  cs.span fun c => (Decimal.digit? c).isSome

/-- Skips a fraction, if there is one, which needs a digit. The answer tells whether there was. -/
def skipFraction : List Char → Option (Bool × List Char)
  | '.' :: rest =>
    match digits rest with
    | ([], _) => none
    | (_ :: _, rest) => some (true, rest)
  | rest => some (false, rest)

/-- Skips an exponent, if there is one, which needs a digit. The answer tells whether there was. -/
def skipExponent : List Char → Option (Bool × List Char)
  | c :: rest =>
    if c = 'e' ∨ c = 'E' then
      let unsigned := match rest with
        | '+' :: rest => rest
        | '-' :: rest => rest
        | rest => rest
      match digits unsigned with
      | ([], _) => none
      | (_ :: _, rest) => some (true, rest)
    else some (false, c :: rest)
  | [] => some (false, [])

/-- A number without its sign. No digit may follow a leading zero. -/
def unsigned? (cs : List Char) : Option (Json × List Char) := do
  let (ds, rest) := digits cs
  match ds with
  | [] => none
  | '0' :: _ :: _ => none
  | _ :: _ =>
    let (fraction, rest) ← skipFraction rest
    let (exponent, rest) ← skipExponent rest
    some (.number (if fraction || exponent then none else Decimal.value? ds), rest)

/-- Takes a word away from the front. -/
def word? : List Char → List Char → Option (List Char)
  | [], cs => some cs
  | w :: ws, c :: cs => if w = c then word? ws cs else none
  | _ :: _, [] => none

mutual

/-- A value at the front, with `fuel` for each nested value or item. -/
def value? : Nat → List Char → Option (Json × List Char)
  | 0, _ => none
  | fuel + 1, cs =>
    match skipBlanks cs with
    | 'n' :: rest => (word? ['u', 'l', 'l'] rest).map (.null, ·)
    | 't' :: rest => (word? ['r', 'u', 'e'] rest).map (.bool true, ·)
    | 'f' :: rest => (word? ['a', 'l', 's', 'e'] rest).map (.bool false, ·)
    | '-' :: rest => (unsigned? rest).map fun (_, rest) => (.number none, rest)
    | '"' :: rest => (pieces rest).map fun (ps, rest) =>
      (.text ((join ps).map String.ofList), rest)
    | '[' :: rest =>
      match skipBlanks rest with
      | ']' :: rest => some (.list [], rest)
      | rest => (items? fuel rest).map fun (items, rest) => (.list items, rest)
    | '{' :: rest =>
      match skipBlanks rest with
      | '}' :: rest => some (.object [], rest)
      | rest => (entries? fuel rest).map fun (entries, rest) => (.object entries, rest)
    | rest => unsigned? rest

/-- The items of a list up to its end. -/
def items? : Nat → List Char → Option (List Json × List Char)
  | 0, _ => none
  | fuel + 1, cs => do
    let (item, rest) ← value? fuel cs
    match skipBlanks rest with
    | ']' :: rest => some ([item], rest)
    | ',' :: rest =>
      let (items, rest) ← items? fuel rest
      some (item :: items, rest)
    | _ => none

/-- The entries of an object up to its end. -/
def entries? : Nat → List Char → Option (List (Option String × Json) × List Char)
  | 0, _ => none
  | fuel + 1, cs => do
    match skipBlanks cs with
    | '"' :: rest =>
      let (ps, rest) ← pieces rest
      match skipBlanks rest with
      | ':' :: rest =>
        let (value, rest) ← value? fuel rest
        let entry := ((join ps).map String.ofList, value)
        match skipBlanks rest with
        | '}' :: rest => some ([entry], rest)
        | ',' :: rest =>
          let (entries, rest) ← entries? fuel rest
          some (entry :: entries, rest)
        | _ => none
      | _ => none
    | _ => none

end

/-- Reads a whole document. Every nested value and every item takes at least one character, and
each is entered at most twice, so the fuel does not run out. -/
def parse? (document : String) : Option Json := do
  let cs := document.toList
  let (json, rest) ← value? (2 * cs.length + 2) cs
  if (skipBlanks rest).isEmpty then some json else none

/-- The value under a name in an object. A name that occurs twice is refused. -/
def field? (entries : List (Option String × Json)) (name : String) : Option (Option Json) :=
  match entries.filter fun entry => entry.1 == some name with
  | [] => some none
  | [(_, value)] => some (some value)
  | _ :: _ :: _ => none

/-- The values of the named fields of a record. An object names them, and what it has under other
names is not looked at; a list gives them in order and may end early. -/
def fields? (names : List String) : Json → Option (List (Option Json))
  | object entries =>
    if entries.all fun entry => entry.1.isSome then names.mapM (field? entries) else none
  | list items =>
    if items.length ≤ names.length then
      some ((List.range names.length).map fun i => items[i]?)
    else none
  | _ => none

def natBelow? (bound : Nat) : Json → Option Nat
  | number (some n) => if n < bound then some n else none
  | _ => none

def bool? : Json → Option Bool
  | bool b => some b
  | _ => none

def text? : Json → Option String
  | text s => s
  | _ => none

/-- A value, or nothing where there is none. -/
def optional? {α : Type} (read : Json → Option α) : Json → Option (Option α)
  | null => some none
  | json => (read json).map some

/-- The value of a field, which stays at its default where it is left out. -/
def fieldOr {α : Type} (default : α) (read : Json → Option α) : Option Json → Option α
  | none => some default
  | some json => read json

end Json

end LedgerWatch
