import CodeVault.Value

/-!
# Relocations

A relocation names a place in a code section and what the running process has to put there.

* the kind decides which values may stand there (`RelocationKind.operand`);
* addresses and embedded values belong to one process; positions and table indices are the same in
  all.
-/

namespace CodeVault

/-- What a place in the code refers to. -/
inductive RelocationKind where
  | none
  | oop
  | metadata
  | virtualCall
  | optVirtualCall
  | staticCall
  | runtimeCall
  | externalWord
  | internalWord
  | poll
  | pollReturn
  | postCallNop
  | trampolineStub
  deriving DecidableEq, Repr

/-- The sorts of values a relocation may carry: none, an address of the process, a constant, or a
    position in the artifact's own code. -/
inductive Operand where
  | nothing
  | target
  | constant
  | internal
  deriving DecidableEq, Repr

namespace RelocationKind

/-- Every kind, by its code. -/
def all : List RelocationKind :=
  [.none, .oop, .metadata, .virtualCall, .optVirtualCall, .staticCall, .runtimeCall, .externalWord,
   .internalWord, .poll, .pollReturn, .postCallNop, .trampolineStub]

/-- The code of a kind in a container. -/
def code : RelocationKind → Nat
  | none => 0
  | oop => 1
  | metadata => 2
  | virtualCall => 3
  | optVirtualCall => 4
  | staticCall => 5
  | runtimeCall => 6
  | externalWord => 7
  | internalWord => 8
  | poll => 9
  | pollReturn => 10
  | postCallNop => 11
  | trampolineStub => 12

/-- The kind of a code. -/
def ofCode? (n : Nat) : Option RelocationKind := all.find? (·.code == n)

/-- Whether the place is the target of a call. -/
def isCall : RelocationKind → Bool
  | virtualCall | optVirtualCall | staticCall | runtimeCall => true
  | _ => false

/-- The sort of value that a kind carries. -/
def operand : RelocationKind → Operand
  | virtualCall | optVirtualCall | staticCall | runtimeCall | externalWord => .target
  | oop | metadata => .constant
  | internalWord | trampolineStub => .internal
  | none | poll | pollReturn | postCallNop => .nothing

/-- The name of a kind in messages. -/
def name : RelocationKind → String
  | none => "None"
  | oop => "Oop"
  | metadata => "Metadata"
  | virtualCall => "VirtualCall"
  | optVirtualCall => "OptVirtualCall"
  | staticCall => "StaticCall"
  | runtimeCall => "RuntimeCall"
  | externalWord => "ExternalWord"
  | internalWord => "InternalWord"
  | poll => "Poll"
  | pollReturn => "PollReturn"
  | postCallNop => "PostCallNop"
  | trampolineStub => "TrampolineStub"

theorem ofCode?_code (kind : RelocationKind) : ofCode? kind.code = some kind := by
  cases kind <;> rfl

theorem code_of_ofCode? {n : Nat} {kind : RelocationKind} (h : ofCode? n = some kind) :
    kind.code = n := by
  simpa using List.find?_some h

end RelocationKind

/-- What a place in the code gets: nothing, an address, its own address (a call that is left as it
    is), a constant, a constant of the artifact's table, or a position in the artifact's code. -/
inductive RelocationValue where
  | none
  | address (target : Address)
  | selfReference
  | immediate (value : EmbeddedValue)
  | recorded (index : UInt32)
  | internal (offset : UInt32)
  deriving DecidableEq, Repr

/-- A relocation value as messages show it. -/
def RelocationValue.text : RelocationValue → String
  | none => "None"
  | address target => s!"Address({target.toNat})"
  | selfReference => "SelfReference"
  | immediate value => s!"Immediate({value.text})"
  | recorded index => s!"Recorded({index.toNat})"
  | internal offset => s!"Internal({offset.toNat})"

/-- A place in a section, by its offset there, and what it gets; `format` is the variant of the
    instruction, carried along untouched. -/
structure Relocation where
  kind : RelocationKind
  offset : UInt32
  format : UInt8
  value : RelocationValue
  deriving DecidableEq, Repr

end CodeVault
