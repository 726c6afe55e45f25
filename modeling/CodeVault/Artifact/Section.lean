import CodeVault.Bytes
import CodeVault.Relocation.Basic

/-!
# Code sections

The code of an artifact comes in three sections, always laid out in the same order: constants,
instructions, stubs.
-/

namespace CodeVault

/-- The sections of an artifact's code. -/
inductive SectionKind where
  | consts
  | insts
  | stubs
  deriving DecidableEq, Repr

namespace SectionKind

/-- The sections in the order of their layout. -/
def all : List SectionKind := [.consts, .insts, .stubs]

/-- The code of a section kind in a container. -/
def code : SectionKind → Nat
  | consts => 0
  | insts => 1
  | stubs => 2

/-- The section kind of a code. -/
def ofCode? (n : Nat) : Option SectionKind := all.find? (·.code == n)

/-- The name of a section kind in messages. -/
def name : SectionKind → String
  | consts => "Consts"
  | insts => "Insts"
  | stubs => "Stubs"

theorem ofCode?_code (kind : SectionKind) : ofCode? kind.code = some kind := by
  cases kind <;> rfl

end SectionKind

/-- Code bytes, the address they were generated at, the end of the range that relocations cover, and
    the relocations. -/
structure CodeSection where
  kind : SectionKind
  origin : Address
  bytes : Bytes
  locsPoint : UInt32
  relocations : List Relocation
  deriving DecidableEq, Repr

/-- One thing for each of the three sections. -/
structure Sections (α : Type) where
  consts : α
  insts : α
  stubs : α
  deriving DecidableEq, Repr

namespace Sections

/-- The three things in the order of the layout. -/
def toList {α : Type} (s : Sections α) : List α := [s.consts, s.insts, s.stubs]

/-- The same function applied to the three. -/
def map {α β : Type} (f : α → β) (s : Sections α) : Sections β := ⟨f s.consts, f s.insts, f s.stubs⟩

/-- The kinds of the three. -/
def kinds : Sections SectionKind := ⟨.consts, .insts, .stubs⟩

/-- An action on each of the three, in the order of the layout. -/
def mapM {m : Type → Type} [Monad m] {α β : Type} (f : α → m β) (s : Sections α) :
    m (Sections β) := do
  let consts ← f s.consts
  let insts ← f s.insts
  let stubs ← f s.stubs
  return ⟨consts, insts, stubs⟩

/-- The three pairs of two triples. -/
def zip {α β : Type} (s : Sections α) (t : Sections β) : Sections (α × β) :=
  ⟨(s.consts, t.consts), (s.insts, t.insts), (s.stubs, t.stubs)⟩

end Sections

end CodeVault
