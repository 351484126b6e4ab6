/-!
# Allocated memory

The blocks that the system's allocator has given out.  An address is given out once; which requests
it grants is the system's choice.

## Main definitions

* `Memory.Allocator` : what the system grants.
* `Memory.occupy`, `Memory.release`, `Memory.relocate` : what can happen to blocks.
* `Memory.reserve`, `Memory.resize` : the allocator, which chooses new addresses.
* `Memory.fill`, `Memory.contents`, `Memory.cString` : writing and reading a block.
-/

namespace ScriptHost

/-- The address of a block.  No block is at zero. -/
abbrev Address := Nat

/-- A pointer to a block, or the null pointer. -/
abbrev Pointer := Option Address

/-- A block: its size, and the bytes at its front that were written. -/
structure Block where
  size : Nat
  written : List UInt8
deriving DecidableEq

/-- The blocks that are allocated, and the next address to give out. -/
structure Memory where
  next : Address
  blocks : List (Address × Block)

namespace Memory

/-- No blocks. -/
def empty : Memory := ⟨1, []⟩

/-- Which requests the system grants. -/
structure Allocator where
  /-- Whether there is a block for so many bytes. -/
  gives : Nat → Bool
  /-- Whether a block for so many bytes may become one for so many others. -/
  resizes : Nat → Nat → Bool

/-- A system that grants every request. -/
def Allocator.unlimited : Allocator := ⟨fun _ ↦ true, fun _ _ ↦ true⟩

/-- The block at an address. -/
def block? (m : Memory) (a : Address) : Option Block := m.blocks.lookup a

/-- Puts a block for `n` bytes at an address, with these bytes written at its front.  Every block
has room for one byte at least. -/
def occupy (m : Memory) (a : Address) (n : Nat) (written : List UInt8) : Memory :=
  ⟨max m.next (a + 1), (a, ⟨max n 1, written⟩) :: m.blocks⟩

/-- Gives a block back. -/
def release (m : Memory) (a : Address) : Memory :=
  { m with blocks := m.blocks.filter fun b ↦ b.1 != a }

/-- Gives the block at `a` back and puts one for `n` bytes at `b`, with the same contents as far as
they fit. -/
def relocate (m : Memory) (a b : Address) (n : Nat) : Memory :=
  (m.release a).occupy b n (((m.block? a).map (·.written.take n)).getD [])

/-- How many bytes the block at an address is for. -/
def sizeAt (m : Memory) (a : Address) : Nat := ((m.block? a).map (·.size)).getD 0

/-- A block for `n` bytes at an address that was never in use. -/
def reserve (m : Memory) (allocator : Allocator) (n : Nat) : Option (Address × Memory) :=
  if allocator.gives n then some (m.next, m.occupy m.next n []) else none

/-- The block at `a` resized to `n` bytes, at an address that was never in use. -/
def resize (m : Memory) (allocator : Allocator) (a : Address) (n : Nat) :
    Option (Address × Memory) :=
  if allocator.resizes (m.sizeAt a) n then some (m.next, m.relocate a m.next n) else none

/-- Writes bytes at the front of a block. -/
def fill (m : Memory) (a : Address) (bytes : List UInt8) : Memory :=
  { m with blocks := m.blocks.map fun (b, block) ↦
      if b = a then (b, { block with written := bytes ++ block.written.drop bytes.length })
      else (b, block) }

/-- The bytes at the front of a block that were written. -/
def contents (m : Memory) (a : Address) : List UInt8 :=
  ((m.block? a).map (·.written)).getD []

/-- The bytes of a block up to the first zero byte. -/
def cString (m : Memory) (a : Address) : List UInt8 := (m.contents a).takeWhile (· != 0)

end Memory

end ScriptHost
