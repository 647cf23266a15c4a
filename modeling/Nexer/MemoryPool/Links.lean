import Mathlib.Data.List.Nodup
import Mathlib.Logic.Function.Basic

/-!
# Doubly linked lists in a heap

Nodes carry their own links.  A list is a segment of nodes that are linked in both directions;
pushing a node at its head and unlinking a node anywhere keep that, and other nodes do not matter.
The heap remembers which nodes have been written to.
-/

namespace Nexer.Intrusive

@[ext] structure Links (α : Type) where
  prev : Option α
  next : Option α

structure Heap (α : Type) where
  links : α → Links α
  written : List α := []

variable {α : Type} [DecidableEq α]

namespace Heap

def setPrev (heap : Heap α) (node : α) (prev : Option α) : Heap α where
  links := Function.update heap.links node { heap.links node with prev }
  written := node :: heap.written

def setNext (heap : Heap α) (node : α) (next : Option α) : Heap α where
  links := Function.update heap.links node { heap.links node with next }
  written := node :: heap.written

/-- `if (link) link->prev = prev;` -/
def setPrevAt (heap : Heap α) (link prev : Option α) : Heap α :=
  match link with
  | none => heap
  | some node => heap.setPrev node prev

/-- `if (link) link->next = next;` -/
def setNextAt (heap : Heap α) (link next : Option α) : Heap α :=
  match link with
  | none => heap
  | some node => heap.setNext node next

/-- Take a node out of the list that it stands in. -/
def unlink (heap : Heap α) (node : α) : Heap α :=
  let heap := heap.setPrevAt (heap.links node).next (heap.links node).prev
  heap.setNextAt (heap.links node).prev (heap.links node).next

/-- `if (node == head) { if (head->next) head->next->prev = nullptr; head = head->next; }` -/
def popHead (heap : Heap α) (head : Option α) (node : α) : Heap α × Option α :=
  if head = some node then
    let heap := heap.setPrevAt (heap.links node).next none
    (heap, (heap.links node).next)
  else (heap, head)

variable {heap : Heap α} {node other : α} {link value head : Option α}

theorem setPrevAt_prev : ((heap.setPrevAt link value).links other).prev =
    if link = some other then value else (heap.links other).prev := by
  cases link with
  | none => simp [setPrevAt]
  | some node =>
      by_cases same : node = other
      · subst same
        simp [setPrevAt, setPrev]
      · simp [setPrevAt, setPrev, Function.update_of_ne (Ne.symm same), same]

theorem setPrevAt_next : ((heap.setPrevAt link value).links other).next =
    (heap.links other).next := by
  cases link with
  | none => rfl
  | some node =>
      by_cases same : node = other
      · subst same
        simp [setPrevAt, setPrev]
      · simp [setPrevAt, setPrev, Function.update_of_ne (Ne.symm same)]

theorem setNextAt_next : ((heap.setNextAt link value).links other).next =
    if link = some other then value else (heap.links other).next := by
  cases link with
  | none => simp [setNextAt]
  | some node =>
      by_cases same : node = other
      · subst same
        simp [setNextAt, setNext]
      · simp [setNextAt, setNext, Function.update_of_ne (Ne.symm same), same]

theorem setNextAt_prev : ((heap.setNextAt link value).links other).prev =
    (heap.links other).prev := by
  cases link with
  | none => rfl
  | some node =>
      by_cases same : node = other
      · subst same
        simp [setNextAt, setNext]
      · simp [setNextAt, setNext, Function.update_of_ne (Ne.symm same)]

theorem setPrev_prev : ((heap.setPrev node value).links other).prev =
    if node = other then value else (heap.links other).prev := by
  simpa [setPrevAt] using @setPrevAt_prev _ _ heap other (some node) value

theorem setPrev_next : ((heap.setPrev node value).links other).next = (heap.links other).next :=
  @setPrevAt_next _ _ heap other (some node) value

theorem setNext_next : ((heap.setNext node value).links other).next =
    if node = other then value else (heap.links other).next := by
  simpa [setNextAt] using @setNextAt_next _ _ heap other (some node) value

theorem setNext_prev : ((heap.setNext node value).links other).prev = (heap.links other).prev :=
  @setNextAt_prev _ _ heap other (some node) value

theorem unlink_prev : ((heap.unlink node).links other).prev =
    if (heap.links node).next = some other then (heap.links node).prev
    else (heap.links other).prev := by
  unfold unlink
  rw [setNextAt_prev, setPrevAt_prev]

theorem unlink_next : ((heap.unlink node).links other).next =
    if (heap.links node).prev = some other then (heap.links node).next
    else (heap.links other).next := by
  unfold unlink
  simp only [setNextAt_next, setPrevAt_next, setPrevAt_prev, ite_self]

@[simp] theorem setPrevAt_written :
    (heap.setPrevAt link value).written = link.toList ++ heap.written := by
  cases link <;> rfl

@[simp] theorem setNextAt_written :
    (heap.setNextAt link value).written = link.toList ++ heap.written := by
  cases link <;> rfl

theorem popHead_prev : ((heap.popHead head node).1.links other).prev =
    if head = some node ∧ (heap.links node).next = some other then none
    else (heap.links other).prev := by
  unfold popHead
  by_cases first : head = some node
  · simp [first, setPrevAt_prev]
  · simp [first]

theorem popHead_next : ((heap.popHead head node).1.links other).next =
    (heap.links other).next := by
  unfold popHead
  split
  · exact setPrevAt_next
  · rfl

theorem popHead_head : (heap.popHead head node).2 =
    if head = some node then (heap.links node).next else head := by
  unfold popHead
  split
  · exact setPrevAt_next
  · rfl

theorem popHead_written : (heap.popHead head node).1.written =
    (if head = some node then (heap.links node).next.toList else []) ++ heap.written := by
  unfold popHead
  split
  · exact setPrevAt_written
  · rfl

/-- A node is unlinked through its own links. -/
theorem unlink_written : (heap.unlink node).written =
    (heap.links node).prev.toList ++ ((heap.links node).next.toList ++ heap.written) := by
  unfold unlink
  simp only [setNextAt_written, setPrevAt_written, setPrevAt_prev, ite_self]

end Heap

variable {heap heap' : Heap α} {node : α} {before head : Option α} {nodes : List α}

/-- From `head` on these nodes are linked, the first one to `before`. -/
def Linked (heap : Heap α) : Option α → Option α → List α → Prop
  | _, head, [] => head = none
  | before, head, node :: rest =>
      head = some node ∧ (heap.links node).prev = before ∧
        Linked heap (some node) (heap.links node).next rest

omit [DecidableEq α] in
/-- Only the links of its nodes matter to a list. -/
theorem Linked.frame (linked : Linked heap before head nodes)
    (same : ∀ node ∈ nodes, heap'.links node = heap.links node) :
    Linked heap' before head nodes := by
  induction nodes generalizing before head with
  | nil => exact linked
  | cons node rest ih =>
      obtain ⟨rfl, prev, linked⟩ := linked
      have here := same node (.head _)
      refine ⟨rfl, here ▸ prev, ?_⟩
      rw [here]
      exact ih linked fun other member => same other (.tail _ member)

omit [DecidableEq α] in
theorem Linked.head_mem (linked : Linked heap before (some node) nodes) : node ∈ nodes := by
  cases nodes with
  | nil => cases linked
  | cons first rest =>
      obtain ⟨same, -⟩ := linked
      exact Option.some.inj same ▸ .head _

omit [DecidableEq α] in
/-- What stands after a node of the list stands in the list. -/
theorem Linked.next_mem (linked : Linked heap before head nodes) (member : node ∈ nodes)
    {other : α} (next : (heap.links node).next = some other) : other ∈ nodes := by
  induction nodes generalizing before head with
  | nil => cases member
  | cons first rest ih =>
      obtain ⟨-, -, linked⟩ := linked
      rcases List.mem_cons.1 member with rfl | later
      · exact .tail _ (next ▸ linked).head_mem
      · exact .tail _ (ih linked later)

omit [DecidableEq α] in
/-- What stands before a node of the list stands in the list or before it. -/
theorem Linked.prev_mem (linked : Linked heap before head nodes) (member : node ∈ nodes) :
    (heap.links node).prev = before ∨ ∃ other ∈ nodes, (heap.links node).prev = some other := by
  induction nodes generalizing before head with
  | nil => cases member
  | cons first rest ih =>
      obtain ⟨-, prev, linked⟩ := linked
      rcases List.mem_cons.1 member with rfl | later
      · exact .inl prev
      · rcases ih linked later with start | ⟨other, found, same⟩
        · exact .inr ⟨first, .head _, start⟩
        · exact .inr ⟨other, .tail _ found, same⟩

omit [DecidableEq α] in
/-- Nothing but the head is linked to what stands before the list. -/
theorem Linked.prev_eq_iff (linked : Linked heap before head nodes)
    (outside : ∀ other ∈ before, other ∉ nodes) (member : node ∈ nodes) :
    (heap.links node).prev = before ↔ head = some node := by
  cases nodes with
  | nil => cases member
  | cons first rest =>
      obtain ⟨rfl, prev, linked⟩ := linked
      rcases List.mem_cons.1 member with rfl | later
      · exact iff_of_true prev rfl
      · constructor
        · intro same
          exfalso
          rcases linked.prev_mem later with start | ⟨other, found, here⟩
          · exact outside first (same.symm.trans start) (.head _)
          · exact outside other (same.symm.trans here) (.tail _ found)
        · intro same
          obtain rfl := Option.some.inj same
          exact prev

omit [DecidableEq α] in
/-- A node that is not linked yet becomes the head. -/
theorem Linked.push (linked : Linked heap none head nodes) (distinct : (node :: nodes).Nodup)
    (prev : (heap'.links node).prev = none) (next : (heap'.links node).next = head)
    (first : ∀ other, head = some other →
      heap'.links other = { heap.links other with prev := some node })
    (others : ∀ other ∈ nodes, head ≠ some other → heap'.links other = heap.links other) :
    Linked heap' none (some node) (node :: nodes) := by
  refine ⟨rfl, prev, ?_⟩
  rw [next]
  cases nodes with
  | nil => exact linked
  | cons start rest =>
      obtain ⟨rfl, -, linked⟩ := linked
      have here := first start rfl
      refine ⟨rfl, by rw [here], ?_⟩
      rw [here]
      refine linked.frame fun other member => others other (.tail _ member) ?_
      rintro ⟨⟩
      exact (List.nodup_cons.1 (List.nodup_cons.1 distinct).2).1 member

/-- A node of the list is taken out. -/
theorem Linked.unlink (linked : Linked heap before head nodes) (distinct : nodes.Nodup)
    (outside : ∀ other ∈ before, other ∉ nodes) (member : node ∈ nodes)
    (prev : ∀ other ∈ nodes, other ≠ node → (heap'.links other).prev =
      if (heap.links node).next = some other then (heap.links node).prev
      else (heap.links other).prev)
    (next : ∀ other ∈ nodes, other ≠ node → (heap'.links other).next =
      if (heap.links node).prev = some other then (heap.links node).next
      else (heap.links other).next) :
    Linked heap' before (if head = some node then (heap.links node).next else head)
      (nodes.erase node) := by
  induction nodes generalizing before head with
  | nil => cases member
  | cons first rest ih =>
      obtain ⟨rfl, start, linked⟩ := linked
      obtain ⟨absent, distinct⟩ := List.nodup_cons.1 distinct
      by_cases here : first = node
      · subst here
        rw [if_pos rfl, List.erase_cons_head]
        cases rest with
        | nil => exact linked
        | cons second rest =>
            obtain ⟨following, -, linked⟩ := linked
            have apart : second ≠ first := fun same => absent (same ▸ .head _)
            have unchanged : ∀ other ∈ second :: rest, before ≠ some other := fun other found same =>
              outside other same (.tail _ found)
            refine ⟨following, ?_, ?_⟩
            · rw [prev second (by simp) apart, if_pos following, start]
            · rw [next second (by simp) apart, start, if_neg (unchanged second (.head _))]
              refine linked.frame fun other found => ?_
              have different : other ≠ first := fun same => absent (same ▸ .tail _ found)
              have later : second ≠ other := fun same =>
                (List.nodup_cons.1 distinct).1 (same ▸ found)
              ext1
              · rw [prev other (by simp [found]) different, following, if_neg (by simpa using later)]
              · rw [next other (by simp [found]) different, start,
                  if_neg (unchanged other (.tail _ found))]
      · have later : node ∈ rest := (List.mem_cons.1 member).resolve_left (Ne.symm here)
        have behind : ∀ other ∈ some first, other ∉ rest := by
          rintro other ⟨⟩
          exact absent
        have rest_linked := ih linked distinct behind later
          (fun other found => prev other (.tail _ found))
          (fun other found => next other (.tail _ found))
        rw [if_neg (by simpa using here), List.erase_cons_tail (by simpa using here)]
        refine ⟨rfl, ?_, ?_⟩
        · rw [prev first (.head _) here, if_neg fun same => absent (linked.next_mem later same), start]
        · rw [next first (.head _) here]
          simp only [linked.prev_eq_iff behind later]
          exact rest_linked

end Nexer.Intrusive
