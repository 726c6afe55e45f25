/-!
# JSON input

A JSON text is read into a document, from which a program takes what it knows.

* numbers are kept as far as anybody asks: unsigned whole numbers, and all others;
* a text may contain escapes that are half of a surrogate pair; such a text, or name of a member, is
  well-formed, but stands for nothing.
-/

namespace CodeVault

/-- A JSON text that was read; `none` is a text, or a name, that stands for nothing. -/
inductive Document where
  | null
  | bool (value : Bool)
  | unsigned (value : Nat)
  | otherNumber
  | text (value : Option String)
  | array (items : List Document)
  | object (members : List (Option String × Document))

namespace Document

/-! ## 1. Texts -/

/-- What is left of the input without the white space that it starts with. -/
def skip (input : List Char) : List Char :=
  input.dropWhile fun c => c == ' ' || c == '\n' || c == '\t' || c == '\r'

/-- The value of a digit to base sixteen. -/
def hexDigit? (c : Char) : Option Nat :=
  if c.isDigit then some (c.toNat - '0'.toNat)
  else if 'a' ≤ c ∧ c ≤ 'f' then some (c.toNat - 'a'.toNat + 10)
  else if 'A' ≤ c ∧ c ≤ 'F' then some (c.toNat - 'A'.toNat + 10)
  else none

/-- The number of four digits to base sixteen. -/
def hex4? (a b c d : Char) : Option Nat := do
  return (((← hexDigit? a) * 16 + (← hexDigit? b)) * 16 + (← hexDigit? c)) * 16 + (← hexDigit? d)

/-- A unit of a text: a character, or a 16-bit unit that was escaped. -/
inductive TextUnit where
  | char (c : Char)
  | code (unit : Nat)
  deriving DecidableEq, Repr

/-- The character of an escape of one letter. -/
def escape? : Char → Option Char
  | '"' => some '"'
  | '\\' => some '\\'
  | '/' => some '/'
  | 'b' => some '\x08'
  | 'f' => some '\x0c'
  | 'n' => some '\n'
  | 'r' => some '\r'
  | 't' => some '\t'
  | _ => none

/-- The units of a text up to the quote that ends it, and the input behind. -/
def units? : List Char → Option (List TextUnit × List Char)
  | [] => none
  | '"' :: rest => some ([], rest)
  | '\\' :: 'u' :: a :: b :: c :: d :: rest => do
    let unit ← hex4? a b c d
    let (units, rest) ← units? rest
    return (.code unit :: units, rest)
  | '\\' :: c :: rest => do
    let c ← escape? c
    let (units, rest) ← units? rest
    return (.char c :: units, rest)
  | c :: rest => do
    if c.toNat < 0x20 then none
    let (units, rest) ← units? rest
    return (.char c :: units, rest)

/-- The characters that units stand for: two escaped halves of a pair are one character, and a half
    alone is none. -/
def characters? : List TextUnit → Option (List Char)
  | [] => some []
  | .char c :: rest => do return c :: (← characters? rest)
  | .code high :: .code low :: rest =>
    if 0xD800 ≤ high ∧ high < 0xDC00 then
      if 0xDC00 ≤ low ∧ low < 0xE000 then do
        let rest ← characters? rest
        return Char.ofNat (0x10000 + (high - 0xD800) * 0x400 + (low - 0xDC00)) :: rest
      else none
    else if 0xDC00 ≤ high ∧ high < 0xE000 then none
    else do return Char.ofNat high :: (← characters? (.code low :: rest))
  | .code unit :: rest =>
    if 0xD800 ≤ unit ∧ unit < 0xE000 then none
    else do return Char.ofNat unit :: (← characters? rest)

/-! ## 2. Numbers -/

/-- The digits that the input starts with, and the input behind. -/
def digits (input : List Char) : List Char × List Char :=
  (input.takeWhile Char.isDigit, input.dropWhile Char.isDigit)

/-- The number of decimal digits. -/
def digitsValue (ds : List Char) : Nat := ds.foldl (fun n d => 10 * n + (d.toNat - '0'.toNat)) 0

/-- The whole part of a number: no digits before a leading zero, and none after it. -/
def whole? (input : List Char) : Option (Nat × List Char) :=
  match digits input with
  | ([], _) => none
  | ('0' :: _ :: _, _) => none
  | (ds, rest) => some (digitsValue ds, rest)

/-- The input behind a fraction, if there is one; the point must be followed by a digit. -/
def fraction? : List Char → Option (Bool × List Char)
  | '.' :: rest =>
    match digits rest with
    | ([], _) => none
    | (_, rest) => some (true, rest)
  | rest => some (false, rest)

/-- The input behind an exponent, if there is one; its mark must be followed by digits. -/
def exponent? : List Char → Option (Bool × List Char)
  | c :: rest =>
    if c = 'e' ∨ c = 'E' then
      let rest := match rest with
        | s :: after => if s = '+' ∨ s = '-' then after else rest
        | [] => rest
      match digits rest with
      | ([], _) => none
      | (_, rest) => some (true, rest)
    else some (false, c :: rest)
  | [] => some (false, [])

/-- A number, and the input behind. -/
def number? (input : List Char) : Option (Document × List Char) := do
  let (negative, input) := match input with
    | '-' :: rest => (true, rest)
    | _ => (false, input)
  let (value, rest) ← whole? input
  let (fraction, rest) ← fraction? rest
  let (exponent, rest) ← exponent? rest
  return (if negative || fraction || exponent then otherNumber else unsigned value, rest)

/-! ## 3. Values -/

/-- What a text stands for, and the input behind it; the quote that starts it was read. -/
def text? (input : List Char) : Option (Option String × List Char) := do
  let (units, rest) ← units? input
  return ((characters? units).map String.ofList, rest)

mutual

/-- A value, and the input behind. The first argument bounds the depth and the length. -/
def value? : Nat → List Char → Option (Document × List Char)
  | 0, _ => none
  | fuel + 1, input =>
    match skip input with
    | 'n' :: 'u' :: 'l' :: 'l' :: rest => some (null, rest)
    | 't' :: 'r' :: 'u' :: 'e' :: rest => some (bool true, rest)
    | 'f' :: 'a' :: 'l' :: 's' :: 'e' :: rest => some (bool false, rest)
    | '"' :: rest => (text? rest).map fun (value, rest) => (text value, rest)
    | '[' :: rest =>
      match skip rest with
      | ']' :: rest => some (array [], rest)
      | _ => do
        let (items, rest) ← items? fuel rest
        return (array items, rest)
    | '\x7b' :: rest =>
      match skip rest with
      | '\x7d' :: rest => some (object [], rest)
      | _ => do
        let (members, rest) ← members? fuel rest
        return (object members, rest)
    | input => number? input

/-- One or more items of an array up to its end, and the input behind. -/
def items? : Nat → List Char → Option (List Document × List Char)
  | 0, _ => none
  | fuel + 1, input => do
    let (item, rest) ← value? fuel input
    match skip rest with
    | ']' :: rest => return ([item], rest)
    | ',' :: rest =>
      let (items, rest) ← items? fuel rest
      return (item :: items, rest)
    | _ => none

/-- One or more members of an object up to its end, and the input behind. -/
def members? : Nat → List Char → Option (List (Option String × Document) × List Char)
  | 0, _ => none
  | fuel + 1, input =>
    match skip input with
    | '"' :: rest => do
      let (name, rest) ← text? rest
      match skip rest with
      | ':' :: rest =>
        let (value, rest) ← value? fuel rest
        match skip rest with
        | '\x7d' :: rest => return ([(name, value)], rest)
        | ',' :: rest =>
          let (members, rest) ← members? fuel rest
          return ((name, value) :: members, rest)
        | _ => none
      | _ => none
    | _ => none

end

/-- The document of a whole JSON text. Every step takes at least one character off the input, so its
    length bounds the steps. -/
def parse? (input : String) : Option Document := do
  let chars := input.toList
  let (document, rest) ← value? (2 * chars.length + 2) chars
  if skip rest = [] then return document else none

end Document

end CodeVault
