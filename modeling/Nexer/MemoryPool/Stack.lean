import Nexer.MemoryPool.State

/-!
# The pool as a stack

The free blocks are a stack, and the two lists of the pool hold all blocks.  The pool never sets
the link of a new block to the one before it, so that this rests on what `malloc` leaves there.
-/

namespace Nexer.MemoryPool

open Nexer.Intrusive Nexer.Transition

namespace Pool

variable {pool : Pool} {block other : Addr}

theorem malloc_links {content : Links Addr} :
    (pool.malloc block content).heap.links block = content :=
  Function.update_self ..

theorem take_prev : ((pool.take block).2.2.heap.links other).prev =
    if pool.allocated = some other then some block
    else if pool.free = some block ∧ (pool.heap.links block).next = some other then none
    else (pool.heap.links other).prev := by
  simp only [take, Heap.setNext_prev, Heap.setPrevAt_prev, Heap.popHead_prev]

theorem take_next : ((pool.take block).2.2.heap.links other).next =
    if block = other then pool.allocated else (pool.heap.links other).next := by
  simp only [take, Heap.setNext_next, Heap.setPrevAt_next, Heap.popHead_next]

theorem take_free : (pool.take block).2.2.free =
    if pool.free = some block then (pool.heap.links block).next else pool.free :=
  Heap.popHead_head

/-- There is no block before the first one of the list. -/
def Headed (pool : Pool) (block : Addr) : Prop :=
  pool.allocated = some block → (pool.heap.links block).prev = none

theorem release_prev (headed : pool.Headed block) (different : other ≠ block) :
    ((pool.release block).heap.links other).prev =
      if pool.free = some other then some block
      else if (pool.heap.links block).next = some other then (pool.heap.links block).prev
      else (pool.heap.links other).prev := by
  simp only [release, Heap.setPrevAt_prev, Heap.setNext_prev, Heap.setPrev_prev, Heap.unlink_prev,
    Heap.popHead_prev, Heap.popHead_next, if_neg (Ne.symm different)]
  by_cases head : pool.allocated = some block
  · have first := headed head
    by_cases next : (pool.heap.links block).next = some other <;> simp [head, next, first]
  · simp [head]

theorem release_next (headed : pool.Headed block) (different : other ≠ block) :
    ((pool.release block).heap.links other).next =
      if (pool.heap.links block).prev = some other then (pool.heap.links block).next
      else (pool.heap.links other).next := by
  simp only [release, Heap.setPrevAt_next, Heap.setNext_next, Heap.setPrev_next, Heap.unlink_next,
    Heap.popHead_prev, Heap.popHead_next, if_neg (Ne.symm different)]
  by_cases head : pool.allocated = some block
  · simp [head, headed head]
  · simp [head]

theorem release_allocated : (pool.release block).allocated =
    if pool.allocated = some block then (pool.heap.links block).next else pool.allocated :=
  Heap.popHead_head

/-- The released block is the first one of the free blocks. -/
theorem release_links (elsewhere : pool.free ≠ some block) :
    (pool.release block).heap.links block = { prev := none, next := pool.free } := by
  ext1
  · simp [release, Heap.setPrevAt_prev, Heap.setNext_prev, Heap.setPrev_prev, elsewhere]
  · simp [release, Heap.setPrevAt_next, Heap.setNext_next]

theorem mem_take_written : other ∈ (pool.take block).2.2.heap.written ↔
    other = block ∨ pool.allocated = some other ∨
      (pool.free = some block ∧ (pool.heap.links block).next = some other) ∨
        other ∈ pool.heap.written := by
  simp only [take, Heap.setNext, Heap.setPrevAt_written, Heap.popHead_written, List.mem_cons,
    List.mem_append, Option.mem_toList]
  by_cases head : pool.free = some block <;> simp [head]

theorem mem_release_written (headed : pool.Headed block)
    (found : other ∈ (pool.release block).heap.written) :
    other = block ∨ pool.free = some other ∨ (pool.heap.links block).next = some other ∨
      (pool.heap.links block).prev = some other ∨ other ∈ pool.heap.written := by
  simp only [release, Heap.setPrev, Heap.setNext, Heap.setPrevAt_written, Heap.unlink_written,
    Heap.popHead_written, Heap.popHead_prev, Heap.popHead_next, List.mem_cons, List.mem_append,
    Option.mem_toList] at found
  by_cases head : pool.allocated = some block
  · simp only [head, headed head, true_and, ite_self, if_true] at found
    grind
  · simp only [head, false_and, if_false] at found
    grind

end Pool

/-- The lists of the pool hold these blocks, and no block twice. -/
structure Lists (pool : Pool) (freed live : List Addr) : Prop where
  free : Linked pool.heap none pool.free freed
  allocated : Linked pool.heap none pool.allocated live
  distinct : (freed ++ live).Nodup

namespace Lists

variable {pool : Pool} {freed live : List Addr} {block : Addr}

theorem apart (lists : Lists pool freed live) {other : Addr} (here : other ∈ freed) :
    other ∉ live := by
  have disjoint := (List.nodup_append.1 lists.distinct).2.2
  exact fun there => disjoint other here other there rfl

/-- A block that is in neither list is allocated. -/
theorem take_allocated (allocated : Linked pool.heap none pool.allocated live)
    (distinct : (block :: live).Nodup) (first : (pool.heap.links block).prev = none)
    (behind : ∀ other ∈ live, pool.free = some block → (pool.heap.links block).next ≠ some other) :
    Linked (pool.take block).2.2.heap none (some block) (block :: live) := by
  have absent := (List.nodup_cons.1 distinct).1
  have notHead : pool.allocated ≠ some block := fun same => absent (same ▸ allocated).head_mem
  refine allocated.push distinct ?_ ?_ ?_ ?_
  · rw [Pool.take_prev, if_neg notHead, first, ite_self]
  · rw [Pool.take_next, if_pos rfl]
  · intro other head
    have member : other ∈ live := by
      rw [head] at allocated
      exact allocated.head_mem
    have different : block ≠ other := fun same => absent (same ▸ member)
    ext1
    · rw [Pool.take_prev, if_pos head]
    · rw [Pool.take_next, if_neg different]
  · intro other member notFirst
    have different : block ≠ other := fun same => absent (same ▸ member)
    ext1
    · rw [Pool.take_prev, if_neg notFirst, if_neg fun both => behind other member both.1 both.2]
    · rw [Pool.take_next, if_neg different]

/-- The first free block is allocated. -/
theorem take_first (lists : Lists pool (block :: freed) live) :
    Lists (pool.take block).2.2 freed (block :: live) where
  free := by
    obtain ⟨head, first, -⟩ := lists.free
    have distinct := (List.nodup_append.1 lists.distinct).1
    have unlinked := @Linked.unlink _ _ _ (pool.take block).2.2.heap block _ _ _ lists.free distinct
      (by simp) (.head _)
      (by
        intro other member different
        have notHead : pool.allocated ≠ some other := fun same =>
          lists.apart member (same ▸ lists.allocated).head_mem
        rw [Pool.take_prev, if_neg notHead, first]
        simp only [head, true_and])
      (by
        intro other member different
        rw [Pool.take_next, if_neg (Ne.symm different), first, if_neg (by simp)])
    rw [if_pos head, List.erase_cons_head] at unlinked
    rw [Pool.take_free, if_pos head]
    exact unlinked
  allocated := by
    obtain ⟨head, first, -⟩ := lists.free
    have distinct : (block :: live).Nodup :=
      List.nodup_cons.2 ⟨lists.apart (.head _), (List.nodup_append.1 lists.distinct).2.1⟩
    refine take_allocated lists.allocated distinct first fun other member _ next => ?_
    exact lists.apart (lists.free.next_mem (.head _) next) member
  distinct := List.perm_middle.symm.nodup_iff.1 lists.distinct

/-- A new block is allocated, unless `malloc` has left a link in it. -/
theorem take_new (lists : Lists pool [] live) (fresh : block ∉ live)
    (first : (pool.heap.links block).prev = none) :
    Lists (pool.take block).2.2 [] (block :: live) where
  free := by
    have none : pool.free = none := lists.free
    rw [Pool.take_free, none, if_neg (by simp)]
    rfl
  allocated := by
    have none : pool.free = none := lists.free
    have distinct : (block :: live).Nodup := List.nodup_cons.2 ⟨fresh, lists.distinct⟩
    refine take_allocated lists.allocated distinct first fun other _ head => ?_
    rw [none] at head
    cases head
  distinct := List.nodup_cons.2 ⟨fresh, lists.distinct⟩

theorem headed (lists : Lists pool freed live) (member : block ∈ live) : pool.Headed block :=
  (lists.allocated.prev_eq_iff (by simp) member).2

/-- An allocated block becomes the first free one. -/
theorem release (lists : Lists pool freed live) (member : block ∈ live) :
    Lists (pool.release block) (block :: freed) (live.erase block) where
  free := by
    have headed := lists.headed member
    have absent : block ∉ freed := fun found => lists.apart found member
    have notFree : pool.free ≠ some block := fun same => absent (same ▸ lists.free).head_mem
    have before : ∀ other ∈ freed, (pool.heap.links block).prev ≠ some other := by
      intro other found same
      rcases lists.allocated.prev_mem member with start | ⟨other', found', here⟩
      · rw [start] at same
        cases same
      · obtain rfl := Option.some.inj (here.symm.trans same)
        exact lists.apart found found'
    have after : ∀ other ∈ freed, (pool.heap.links block).next ≠ some other := fun other found same =>
      lists.apart found (lists.allocated.next_mem member same)
    have distinct : (block :: freed).Nodup :=
      List.nodup_cons.2 ⟨absent, (List.nodup_append.1 lists.distinct).1⟩
    have links := Pool.release_links notFree
    refine lists.free.push distinct (by rw [links]) (by rw [links]) ?_ ?_
    · intro other head
      have found : other ∈ freed := by
        have free := lists.free
        rw [head] at free
        exact free.head_mem
      have different : other ≠ block := fun same => absent (same ▸ found)
      ext1
      · rw [Pool.release_prev headed different, if_pos head]
      · rw [Pool.release_next headed different, if_neg (before other found)]
    · intro other found notFirst
      have different : other ≠ block := fun same => absent (same ▸ found)
      ext1
      · rw [Pool.release_prev headed different, if_neg notFirst, if_neg (after other found)]
      · rw [Pool.release_next headed different, if_neg (before other found)]
  allocated := by
    have headed := lists.headed member
    rw [Pool.release_allocated]
    refine lists.allocated.unlink (List.nodup_append.1 lists.distinct).2.1 (by simp) member ?_ ?_
    · intro other found different
      have notFree : pool.free ≠ some other := fun same =>
        lists.apart (same ▸ lists.free).head_mem found
      rw [Pool.release_prev headed different, if_neg notFree]
    · intro other found different
      exact Pool.release_next headed different
  distinct := by
    have perm : (block :: freed ++ live.erase block).Perm (freed ++ live) :=
      List.perm_middle.symm.trans ((List.perm_cons_erase member).symm.append_left freed)
    exact perm.nodup_iff.2 lists.distinct

end Lists

/-- The two lists hold every block that was obtained, each once, and only blocks have been
written to. -/
structure Shape (world : World) : Prop where
  lists : Lists world.pool world.freed world.live
  every : (world.freed ++ world.live).Perm world.obtained
  writes : ∀ block ∈ world.pool.heap.written, block ∈ world.obtained

/-- `malloc` leaves no link to a block before the new one. -/
def Clean : World → Label → Prop
  | world, .allocate _ content => world.pool.free = none → content.prev = none
  | _, .free _ => True

/-- A call of `Allocate` returns the block that was freed last; only where there is none,
`malloc` is called. -/
def Answered (world : World) : Label → List Event → Prop
  | .allocate fresh _, out =>
      match world.freed with
      | block :: _ => block ∉ world.live ∧ out = [.allocated (block + headerSize)
          (world.pool.maxSize - UInt64.ofNat headerSize)]
      | [] => fresh ∉ world.live ∧ out = [.malloc fresh, .allocated (fresh + headerSize)
          (world.pool.maxSize - UInt64.ofNat headerSize)]
  | .free ptr, out => out = [.freed ptr]

namespace Shape

variable {world following : World} {label : Label} {out : List Event}

theorem initial (maxSize : UInt64) (memory : Addr → Links Addr) :
    Shape (World.initial maxSize memory) where
  lists := ⟨rfl, rfl, .nil⟩
  every := .refl _
  writes := by simp [World.initial]

theorem obtained_of_freed (shape : Shape world) {block : Addr} (found : block ∈ world.freed) :
    block ∈ world.obtained :=
  shape.every.mem_iff.1 (List.mem_append_left _ found)

theorem obtained_of_live (shape : Shape world) {block : Addr} (found : block ∈ world.live) :
    block ∈ world.obtained :=
  shape.every.mem_iff.1 (List.mem_append_right _ found)

/-- `Allocate` with a free block. -/
theorem allocate_first (shape : Shape world) {block : Addr} (head : world.pool.free = some block)
    {content : Links Addr} {fresh : Addr}
    (moved : step world (.allocate fresh content) = some (following, out)) :
    Shape following ∧ Answered world (.allocate fresh content) out := by
  obtain ⟨pool, obtained, live, freed⟩ := world
  obtain ⟨lists, every, writes⟩ := id shape
  cases freed with
  | nil => cases head.symm.trans lists.free
  | cons first freed =>
      obtain rfl : first = block := by
        obtain ⟨same, -⟩ := lists.free
        exact Option.some.inj (same.symm.trans head)
      dsimp only at head
      simp only [step, Pool.allocate, head, Option.some.injEq, Prod.mk.injEq] at moved
      obtain ⟨rfl, rfl⟩ := moved
      have returned : (pool.take first).1 - headerSize = first := Nat.add_sub_cancel ..
      rw [returned, List.erase_cons_head]
      refine ⟨⟨lists.take_first, List.perm_middle.trans every, fun other found => ?_⟩, ?_⟩
      · rcases Pool.mem_take_written.1 found with rfl | allocated | ⟨-, next⟩ | before
        · exact shape.obtained_of_freed (.head _)
        · exact shape.obtained_of_live (allocated ▸ lists.allocated).head_mem
        · exact shape.obtained_of_freed (lists.free.next_mem (.head _) next)
        · exact writes other before
      · exact ⟨lists.apart (.head _), rfl⟩

/-- `Allocate` with a new block. -/
theorem allocate_new (shape : Shape world) (empty : world.pool.free = none) {fresh : Addr}
    {content : Links Addr} (moved : step world (.allocate fresh content) = some (following, out)) :
    (content.prev = none → Shape following) ∧ Answered world (.allocate fresh content) out := by
  obtain ⟨pool, obtained, live, freed⟩ := world
  obtain ⟨lists, every, writes⟩ := id shape
  dsimp only at empty lists every writes
  obtain rfl : freed = [] := by
    cases freed with
    | nil => rfl
    | cons first rest =>
        obtain ⟨head, -⟩ := lists.free
        cases empty.symm.trans head
  simp only [step, Pool.allocate, empty] at moved
  split at moved
  · cases moved
  rename_i unseen
  simp only [Option.some.injEq, Prod.mk.injEq] at moved
  obtain ⟨rfl, rfl⟩ := moved
  have absent : fresh ∉ live := fun found => unseen (shape.obtained_of_live found)
  have returned : ((pool.malloc fresh content).take fresh).1 - headerSize = fresh :=
    Nat.add_sub_cancel ..
  refine ⟨fun clean => ?_, absent, rfl⟩
  have others : Lists (pool.malloc fresh content) [] live :=
    { free := lists.free
      allocated := by
        refine lists.allocated.frame fun other found => ?_
        have different : other ≠ fresh := fun same => absent (same ▸ found)
        exact Function.update_of_ne different _ _
      distinct := lists.distinct }
  have first : ((pool.malloc fresh content).heap.links fresh).prev = none := by
    rw [Pool.malloc_links]
    exact clean
  rw [returned]
  refine ⟨others.take_new absent first, every.cons fresh, fun other found => ?_⟩
  rcases Pool.mem_take_written.1 found with rfl | allocated | ⟨head, -⟩ | before
  · exact .head _
  · have member : other ∈ live := (allocated ▸ others.allocated).head_mem
    exact .tail _ (shape.obtained_of_live member)
  · cases empty.symm.trans head
  · exact .tail _ (writes other before)

/-- `Free` of a pointer. -/
theorem free (shape : Shape world) {ptr : Addr}
    (moved : step world (.free (some ptr)) = some (following, out)) :
    Shape following ∧ out = [.freed (some ptr)] := by
  obtain ⟨pool, obtained, live, freed⟩ := world
  obtain ⟨lists, every, writes⟩ := id shape
  dsimp only at lists every writes
  simp only [step] at moved
  split at moved
  · rename_i given
    simp only [Option.some.injEq, Prod.mk.injEq] at moved
    obtain ⟨rfl, rfl⟩ := moved
    obtain ⟨block, member, rfl⟩ := List.mem_map.1 given
    rw [Nat.add_sub_cancel]
    have headed := lists.headed member
    refine ⟨⟨lists.release member, ?_, fun other found => ?_⟩, rfl⟩
    · have perm : (block :: freed ++ live.erase block).Perm (freed ++ live) :=
        List.perm_middle.symm.trans ((List.perm_cons_erase member).symm.append_left freed)
      exact perm.trans every
    · rcases Pool.mem_release_written headed found with rfl | head | next | prev | before
      · exact shape.obtained_of_live member
      · exact shape.obtained_of_freed (head ▸ lists.free).head_mem
      · exact shape.obtained_of_live (lists.allocated.next_mem member next)
      · rcases lists.allocated.prev_mem member with start | ⟨other', found', here⟩
        · cases prev.symm.trans start
        · obtain rfl := Option.some.inj (here.symm.trans prev)
          exact shape.obtained_of_live found'
      · exact writes other before
  · cases moved

/-- One step, whatever it is. -/
theorem step (shape : Shape world)
    (moved : MemoryPool.step world label = some (following, out)) :
    (Clean world label → Shape following) ∧ Answered world label out := by
  cases label with
  | allocate fresh content =>
      cases head : world.pool.free with
      | some block =>
          obtain ⟨kept, answered⟩ := shape.allocate_first head moved
          exact ⟨fun _ => kept, answered⟩
      | none =>
          obtain ⟨kept, answered⟩ := shape.allocate_new head moved
          exact ⟨fun clean => kept (clean head), answered⟩
  | free ptr =>
      cases ptr with
      | none =>
          simp only [MemoryPool.step, Option.some.injEq, Prod.mk.injEq] at moved
          obtain ⟨rfl, rfl⟩ := moved
          exact ⟨fun _ => shape, rfl⟩
      | some ptr =>
          obtain ⟨kept, reported⟩ := shape.free moved
          exact ⟨fun _ => kept, reported⟩

/-- A link in a new block is kept, at the head of the list. -/
theorem not_of_unclean (shape : Shape world) (unclean : ¬Clean world label)
    (moved : MemoryPool.step world label = some (following, out)) : ¬Shape following := by
  cases label with
  | free ptr => exact absurd trivial unclean
  | allocate fresh content =>
      obtain ⟨empty, linked⟩ := Classical.not_imp.1 unclean
      obtain ⟨pool, obtained, live, freed⟩ := world
      have lists := shape.lists
      dsimp only at empty lists
      simp only [MemoryPool.step, Pool.allocate, empty] at moved
      split at moved
      · cases moved
      rename_i unseen
      simp only [Option.some.injEq, Prod.mk.injEq] at moved
      obtain ⟨rfl, rfl⟩ := moved
      rintro ⟨lists', -, -⟩
      have returned : ((pool.malloc fresh content).take fresh).1 - headerSize = fresh :=
        Nat.add_sub_cancel ..
      rw [returned] at lists'
      obtain ⟨-, first, -⟩ := lists'.allocated
      have notHead : (pool.malloc fresh content).allocated ≠ some fresh := by
        intro same
        have allocated := lists.allocated
        rw [show pool.allocated = some fresh from same] at allocated
        exact unseen (shape.obtained_of_live allocated.head_mem)
      rw [Pool.take_prev, if_neg notHead, if_neg, Pool.malloc_links] at first
      · exact linked first
      · rintro ⟨head, -⟩
        cases empty.symm.trans head

end Shape

/-- In every run in which `malloc` leaves no such link, the pool keeps its shape and is a stack of
free blocks; the first such link ends that. -/
theorem pool_stack (maxSize : UInt64) (memory : Addr → Links Addr) :
    (∀ world past, step.Reaches Clean (World.initial maxSize memory) world past →
      Shape world ∧ ∀ label following out, step world label = some (following, out) →
        Answered world label out) ∧
    ∀ world label following out, Shape world → ¬Clean world label →
      step world label = some (following, out) → ¬Shape following := by
  constructor
  · intro world past reached
    have shape := reached.invariant (fun world _ => Shape world) (.initial maxSize memory)
      fun _ shape clean moved => (shape.step moved).1 clean
    exact ⟨shape, fun label following out moved => (shape.step moved).2⟩
  · exact fun world label following out shape unclean moved => shape.not_of_unclean unclean moved

section Runs

def zeroed : Addr → Links Addr := fun _ => { prev := none, next := none }

/-- Two blocks, of which the first is freed and allocated again. -/
theorem pool_stack_run : ∃ world past,
    step.Reaches Clean (World.initial 512 zeroed) world past ∧ Shape world ∧
      world.live = [100, 200] ∧ past.getLast? = some (.allocated 116 496) := by
  have one : step.Reaches Clean (World.initial 512 zeroed) _ _ := Machine.Reaches.start.next
    (by exact fun _ => rfl) (show step _ (.allocate 100 (zeroed 100)) = some (_, _) from rfl)
  have two := one.next (by exact fun _ => rfl)
    (show step _ (.allocate 200 (zeroed 200)) = some (_, _) from rfl)
  have three := two.next (by trivial) (show step _ (.free (some 116)) = some (_, _) from rfl)
  have reached := three.next (by exact fun _ => rfl)
    (show step _ (.allocate 300 (zeroed 300)) = some (_, _) from rfl)
  exact ⟨_, _, reached, ((pool_stack 512 zeroed).1 _ _ reached).1, rfl, rfl⟩

/-- A block in which `malloc` leaves a link to address 7 is allocated and freed: the pool writes
there. -/
theorem pool_stray_write : ∃ world past,
    step.Reaches Machine.always (World.initial 512 zeroed) world past ∧
      7 ∈ world.pool.heap.written ∧ 7 ∉ world.obtained ∧ ¬Shape world := by
  have one : step.Reaches Machine.always (World.initial 512 zeroed) _ _ :=
    Machine.Reaches.start.next trivial
      (show step _ (.allocate 100 { prev := some 7, next := none }) = some (_, _) from rfl)
  have reached := one.next (by trivial) (show step _ (.free (some 116)) = some (_, _) from rfl)
  have stray : 7 ∉ [100] := by decide
  have written : 7 ∈ (((World.initial 512 zeroed).pool.allocate 100
    { prev := some 7, next := none }).2.2.release 100).heap.written := by decide
  exact ⟨_, _, reached, written, stray, fun shape => stray (shape.writes 7 written)⟩

end Runs

end Nexer.MemoryPool
