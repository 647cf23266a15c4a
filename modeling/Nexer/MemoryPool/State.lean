import Nexer.MemoryPool.Links
import Nexer.Transition.Machine

/-!
# The memory pool

`FixedSizeMemoryPool` keeps the blocks that it has obtained from `malloc` in two lists.  A block
is known by its address; what follows its header is handed out.
-/

namespace Nexer.MemoryPool

open Nexer.Intrusive Nexer.Transition

abbrev Addr := Nat

/-- `sizeof(Block)` -/
def headerSize : Nat := 16

structure Pool where
  maxSize : UInt64 := 65536
  free : Option Addr := none
  allocated : Option Addr := none
  heap : Heap Addr

namespace Pool

/-- `Allocate(Block*, size_t&)`: the pointer, the size, and the pool after it. -/
def take (pool : Pool) (block : Addr) : Addr × UInt64 × Pool :=
  let (heap, free) := pool.heap.popHead pool.free block
  let heap := heap.setPrevAt pool.allocated (some block)
  let heap := heap.setNext block pool.allocated
  (block + headerSize, pool.maxSize - UInt64.ofNat headerSize,
    { pool with heap, free, allocated := some block })

/-- `malloc`: the new block has any links. -/
def malloc (pool : Pool) (block : Addr) (content : Links Addr) : Pool :=
  { pool with heap := { pool.heap with links := Function.update pool.heap.links block content } }

/-- `Allocate(size_t&)`, where `malloc` would return `fresh`. -/
def allocate (pool : Pool) (fresh : Addr) (content : Links Addr) : Addr × UInt64 × Pool :=
  match pool.free with
  | some block => pool.take block
  | none => (pool.malloc fresh content).take fresh

/-- `Free(Block*)` -/
def release (pool : Pool) (block : Addr) : Pool :=
  let (heap, allocated) := pool.heap.popHead pool.allocated block
  let heap := heap.unlink block
  let heap := heap.setPrev block none
  let heap := heap.setNext block pool.free
  let heap := heap.setPrevAt pool.free (some block)
  { pool with heap, allocated, free := some block }

end Pool

/-- The pool together with what its client and `malloc` have seen: the blocks that `malloc` has
returned, those that are allocated and those that have been freed, the latest first. -/
structure World where
  pool : Pool
  obtained : List Addr := []
  live : List Addr := []
  freed : List Addr := []

inductive Label where
  | allocate (fresh : Addr) (content : Links Addr)
  | free (ptr : Option Addr)

inductive Event where
  | malloc (block : Addr)
  | allocated (ptr : Addr) (size : UInt64)
  | freed (ptr : Option Addr)
  deriving DecidableEq

/-- `malloc` returns a block that it has not returned before, and only what is allocated is
freed. -/
def step : Machine World Label Event
  | world, .allocate fresh content =>
      let (ptr, size, pool) := world.pool.allocate fresh content
      let live := (ptr - headerSize) :: world.live
      let freed := world.freed.erase (ptr - headerSize)
      match world.pool.free with
      | some _ => some ({ world with pool, live, freed }, [.allocated ptr size])
      | none =>
          if fresh ∈ world.obtained then none
          else
            some ({ pool, live, freed, obtained := fresh :: world.obtained },
              [.malloc fresh, .allocated ptr size])
  | world, .free none => some (world, [.freed none])
  | world, .free (some ptr) =>
      let block := ptr - headerSize
      if ptr ∈ world.live.map (· + headerSize) then
        some ({ world with
          pool := world.pool.release block
          live := world.live.erase block
          freed := block :: world.freed }, [.freed (some ptr)])
      else none

def World.initial (maxSize : UInt64) (memory : Addr → Links Addr) : World where
  pool := { maxSize, heap := { links := memory } }

end Nexer.MemoryPool
