import CodeVault.Bytes

/-!
# The SHA-1 digest

Compiled methods are known by a word made from their full name: the first four bytes of the digest
of the name, read as a little-endian word (`contentId`).

The digest goes over blocks of 64 bytes. The message is filled up with one bit, zeros, and its
length in bits; each block is expanded to eighty words, which are mixed into five.
-/

namespace CodeVault.Digest

/-- The five words that a digest is made of. -/
structure Chain where
  a : UInt32
  b : UInt32
  c : UInt32
  d : UInt32
  e : UInt32
  deriving DecidableEq, Repr

/-- The chain before the first block. -/
def Chain.start : Chain := ⟨0x67452301, 0xEFCDAB89, 0x98BADCFE, 0x10325476, 0xC3D2E1F0⟩

/-- The word with its bits turned to the left. -/
def rotateLeft (word : UInt32) (n : UInt32) : UInt32 := (word <<< n) ||| (word >>> (32 - n))

/-- The message filled up to whole blocks: a set bit, zeros, and the length in bits, highest byte
    first. -/
def filled (message : Bytes) : Bytes :=
  let zeros := (119 - message.size % 64) % 64
  message.push 0x80 ++ Bytes.zeros zeros ++ (wordBytes 8 (8 * message.size)).reverse.toArray

/-- The word of four bytes, highest first. -/
def bigEndian (data : Bytes) (pos : Nat) : UInt32 :=
  UInt32.ofNat (wordValue (data.extract pos (pos + 4)).toList.reverse)

/-- The eighty words of the block that starts at `pos`. -/
def schedule (data : Bytes) (pos : Nat) : Array UInt32 :=
  let first := (Array.range 16).map fun i => bigEndian data (pos + 4 * i)
  (List.range 64).foldl (fun words i =>
    let word (k : Nat) : UInt32 := words.getD (i + k) 0
    words.push (rotateLeft (word 13 ^^^ word 8 ^^^ word 2 ^^^ word 0) 1)) first

/-- The function and the constant of a round. -/
def round (i : Nat) (chain : Chain) : UInt32 × UInt32 :=
  if i < 20 then ((chain.b &&& chain.c) ||| (~~~chain.b &&& chain.d), 0x5A827999)
  else if i < 40 then (chain.b ^^^ chain.c ^^^ chain.d, 0x6ED9EBA1)
  else if i < 60 then
    ((chain.b &&& chain.c) ||| (chain.b &&& chain.d) ||| (chain.c &&& chain.d), 0x8F1BBCDC)
  else (chain.b ^^^ chain.c ^^^ chain.d, 0xCA62C1D6)

/-- The chain after one more word. -/
def mix (chain : Chain) (word : UInt32) (i : Nat) : Chain :=
  let (f, k) := round i chain
  ⟨rotateLeft chain.a 5 + f + chain.e + k + word, chain.a, rotateLeft chain.b 30, chain.c, chain.d⟩

/-- The chain after one more block. -/
def block (data : Bytes) (chain : Chain) (index : Nat) : Chain :=
  let mixed :=
    (schedule data (64 * index)).toList.zipIdx.foldl (fun c (word, i) => mix c word i) chain
  ⟨chain.a + mixed.a, chain.b + mixed.b, chain.c + mixed.c, chain.d + mixed.d, chain.e + mixed.e⟩

/-- The digest of a message. -/
def sha1 (message : Bytes) : Bytes :=
  let data := filled message
  let chain := (List.range (data.size / 64)).foldl (block data) .start
  ([chain.a, chain.b, chain.c, chain.d, chain.e].flatMap fun word =>
    (wordBytes 4 word.toNat).reverse).toArray

end CodeVault.Digest

namespace CodeVault

/-- The word that a method is known by. -/
def contentId (name : String) : UInt32 :=
  UInt32.ofNat (Bytes.toNat ((Digest.sha1 (Bytes.ofString name)).extract 0 4))

end CodeVault
