import CodeVault.Bytes

/-!
# Reading UTF-8

Bytes either are the UTF-8 form of a text or break off at a first fault.

* `Utf8.decode` answers the text, or where the first fault is and of which kind it is;
* a fault is the longest start of a sequence that no text contains (`invalid`, with its length), or
  a sequence that the end of the bytes cuts short (`incomplete`).
-/

namespace CodeVault.Utf8

/-- Why bytes are not the UTF-8 form of a text; `index` counts the bytes before the fault. -/
inductive Fault where
  | invalid (length index : Nat)
  | incomplete (index : Nat)
  deriving DecidableEq, Repr

/-- The wording of a fault. -/
def Fault.message : Fault → String
  | .invalid length index => s!"invalid utf-8 sequence of {length} bytes from index {index}"
  | .incomplete index => s!"incomplete utf-8 byte sequence from index {index}"

/-- A byte that can only stand inside a sequence. -/
def isContinuation (b : UInt8) : Bool := 0x80 ≤ b && b ≤ 0xBF

/-- Whether `b` may follow the first byte `a` of a longer sequence: some first bytes leave out a
    part of the continuation range, so that no character has two forms and none is a surrogate. -/
def mayFollow (a b : UInt8) : Bool :=
  if a == 0xE0 then 0xA0 ≤ b && b ≤ 0xBF
  else if a == 0xED then 0x80 ≤ b && b ≤ 0x9F
  else if a == 0xF0 then 0x90 ≤ b && b ≤ 0xBF
  else if a == 0xF4 then 0x80 ≤ b && b ≤ 0x8F
  else isContinuation b

/-- The first fault of the bytes, which start at `index`. -/
def firstFault (index : Nat) : List UInt8 → Option Fault
  | [] => none
  | a :: rest =>
    if a < 0x80 then firstFault (index + 1) rest
    else if a < 0xC2 || 0xF4 < a then some (.invalid 1 index)
    else match rest with
      | [] => some (.incomplete index)
      | b :: rest =>
        if !mayFollow a b then some (.invalid 1 index)
        else if a < 0xE0 then firstFault (index + 2) rest
        else match rest with
          | [] => some (.incomplete index)
          | c :: rest =>
            if !isContinuation c then some (.invalid 2 index)
            else if a < 0xF0 then firstFault (index + 3) rest
            else match rest with
              | [] => some (.incomplete index)
              | d :: rest =>
                if !isContinuation d then some (.invalid 3 index)
                else firstFault (index + 4) rest

/-- The text whose UTF-8 form is `data`, or its first fault. -/
def decode (data : Bytes) : Except Fault String :=
  match String.fromUTF8? ⟨data⟩ with
  | some text => .ok text
  | none => .error ((firstFault 0 data.toList).getD (.incomplete data.size))

end CodeVault.Utf8
