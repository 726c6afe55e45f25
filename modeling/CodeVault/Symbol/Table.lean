import CodeVault.Fault
import CodeVault.Symbol.AddressTable
import CodeVault.Symbol.StringTable

/-!
# Symbols

A symbol stands for an address in code that outlives its process: the id of a registered address or
of an interned string, or a distance from the anchor of the process image.

* `Symbol.toRaw?` and `Symbol.ofRaw` are the 32-bit form: distances lie above all ids;
* `SymbolTable.symbolOf` encodes an address: interned strings come first, then the buckets, then the
  anchor region;
* `SymbolTable.addressOf` decodes a symbol; a distance is added to the anchor unchecked, and the sum
  may leave the 64-bit range.
-/

namespace CodeVault

/-! ## 1. Symbols and their 32-bit form -/

/-- What stands for an address. -/
inductive Symbol where
  | id (id : Nat)
  | anchorDistance (distance : Nat)
  deriving DecidableEq, Repr

namespace Symbol

/-- The number of a symbol: distances lie above every bucket and string. -/
def toNat : Symbol → Nat
  | id n => n
  | anchorDistance distance => anchorBase + distance

/-- The word of a symbol, if its number fits one. -/
def toRaw? (symbol : Symbol) : Option UInt32 :=
  if symbol.toNat < wordSpace then some (UInt32.ofNat symbol.toNat) else none

/-- The symbol of a word. -/
def ofRaw (raw : UInt32) : Symbol :=
  if anchorBase ≤ raw.toNat then .anchorDistance (raw.toNat - anchorBase) else .id raw.toNat

/-- The number of a word's symbol is the word's number. -/
theorem toNat_ofRaw (raw : UInt32) : (ofRaw raw).toNat = raw.toNat := by
  unfold ofRaw
  split
  · simp only [toNat]
    omega
  · rfl

/-- **A word is the word of its symbol.** -/
theorem toRaw?_ofRaw (raw : UInt32) : (ofRaw raw).toRaw? = some raw := by
  have hlt : raw.toNat < wordSpace := raw.toNat_lt
  rw [toRaw?, toNat_ofRaw, if_pos hlt, UInt32.ofNat_toNat]

end Symbol

/-- The part of the process image that addresses may be encoded relative to. -/
structure Anchor where
  start : Address
  size : Nat
  deriving DecidableEq, Repr

namespace Anchor

/-- No region at all. -/
def none : Anchor := ⟨0, 0⟩

/-- How far an address is inside the region. -/
def distance? (anchor : Anchor) (addr : Address) : Option Nat :=
  addr.within? anchor.start anchor.size

/-- Whether an address is inside the region. -/
def contains (anchor : Anchor) (addr : Address) : Bool := (anchor.distance? addr).isSome

end Anchor

/-! ## 2. The symbol table of a process -/

/-- The registered addresses, the interned strings and the anchor of one process. -/
structure SymbolTable where
  addresses : AddressTable
  strings : StringTable
  anchor : Anchor

namespace SymbolTable

/-- The table of a process that has registered and interned nothing. -/
def empty (anchor : Anchor) (placement : Nat → Address) : SymbolTable :=
  ⟨.empty, .empty placement, anchor⟩

/-- The phase of the process. -/
def phase (table : SymbolTable) : Phase := table.addresses.phase

/-- The symbol of an address. -/
def symbolOf (table : SymbolTable) (addr : Address) : Except SymbolError Symbol :=
  match table.strings.indexOfAddress? addr with
  | some index => .ok (.id (stringBase + index))
  | none =>
    match table.addresses.lookup? addr with
    | some id => .ok (.id id)
    | none =>
      match table.anchor.distance? addr with
      | some distance =>
        if maxAnchorDistance < distance then .error (.anchorOutOfRange distance)
        else .ok (.anchorDistance distance)
      | none =>
        if table.phase = .complete then .error (.unknownAddress addr)
        else .error (.incomplete addr table.phase)

/-- The address of a symbol. -/
def addressOf (table : SymbolTable) : Symbol → Except (Fault SymbolError) Address
  | .anchorDistance distance => orOverflow (table.anchor.start.after? distance)
  | .id id =>
    if stringBase ≤ id then
      if anchorBase ≤ id then .error (.error (.unknownId id))
      else match table.strings.addressOf? (id - stringBase) with
        | some addr => .ok addr
        | none => .error (.error (.unknownId id))
    else liftError (fun e => e) (table.addresses.address id)

/-- Interns a string and answers its id among all ids. -/
def intern (table : SymbolTable) (pointer : Address) (text : CText) :
    Except SymbolError (Nat × SymbolTable) :=
  match table.strings.intern pointer text with
  | .ok (index, strings) => .ok (stringBase + index, { table with strings })
  | .error e => .error e

/-- Gives the strings of an earlier run their ids. -/
def loadStrings (table : SymbolTable) (strings : List CText) : Except SymbolError SymbolTable :=
  match table.strings.load strings with
  | .ok strings => .ok { table with strings }
  | .error e => .error e

/-- Makes a registration. -/
def install (installation : Installation) : EStateM SymbolError SymbolTable Unit :=
  fun table =>
    match AddressTable.install installation table.addresses with
    | .ok () addresses => .ok () { table with addresses }
    | .error e addresses => .error e { table with addresses }

end SymbolTable

end CodeVault
