import Nexer.Transition.History
import Nexer.Transition.Machine

/-!
# Lists of handlers

A `FunctionList` calls its handlers one after another while these may change it.  `Invoke`
keeps an iterator to the node of the handler that it is calling, and increments it when the
handler returns.
-/

namespace Nexer.FunctionList

open Nexer.Transition

variable {F A : Type}

/-- `Invoke` is not running, is calling the handler of a node, or has gone on from a node that
is not in the list any more, after which nothing is defined. -/
inductive Turn (A : Type) where
  | idle
  | calling (node : Nat) (args : A)
  | lost

/-- `fn_list_`, with the number of each node; `Add` numbers its nodes in order. -/
structure State (F A : Type) where
  fns : List (Nat × F) := []
  next : Nat := 0
  turn : Turn A := .idle

def State.initial : State F A := {}

def State.nodes (state : State F A) : List Nat :=
  state.fns.map Prod.fst

inductive Event (F A : Type) where
  | added (node : Nat) (fn : F)
  | removed (node : Nat)
  | invoked (args : A)
  | called (node : Nat) (fn : F) (args : A)
  | returned (node : Nat)
  /-- `Invoke` returns. -/
  | ended
  /-- The iterator is incremented on a node that has been erased. -/
  | dangling (node : Nat)
  deriving DecidableEq

abbrev Effect (F A : Type) := Reaction (State F A) (Event F A)

/-- The nodes behind a node that is in the list. -/
def rest (node : Nat) : List (Nat × F) → List (Nat × F)
  | [] => []
  | (other, _) :: fns => if other = node then fns else rest node fns

/-- Go on with the loop of `Invoke`, the iterator being at the head of the list. -/
def visit (args : A) (state : State F A) : List (Nat × F) → Effect F A
  | [] => ({ state with turn := .idle }, [.ended])
  | (node, fn) :: _ => ({ state with turn := .calling node args }, [.called node fn args])

/-- `Add` -/
def add (fn : F) (state : State F A) : Effect F A :=
  ({ state with fns := state.fns ++ [(state.next, fn)], next := state.next + 1 },
    [.added state.next fn])

/-- The function that `Add` has returned for a node. -/
def remove (node : Nat) (state : State F A) : Effect F A :=
  ({ state with fns := state.fns.filter fun entry => entry.1 ≠ node }, [.removed node])

/-- `Invoke` up to the first call. -/
def invoke (args : A) (state : State F A) : Effect F A :=
  Reaction.andThen (state, [.invoked args]) fun state => visit args state state.fns

/-- The handler of a node returns to `Invoke`. -/
def resume (node : Nat) (args : A) (state : State F A) : Effect F A :=
  Reaction.andThen (state, [.returned node]) fun state =>
    if node ∈ state.nodes then visit args state (rest node state.fns)
    else ({ state with turn := .lost }, [.dangling node])

inductive Label (F A : Type) where
  | add (fn : F)
  | remove (node : Nat)
  | invoke (args : A)
  | returns

/-- Handlers are added and removed at any time, and a handler is removed at most once.  No
handler calls `Invoke` of its own list. -/
def step : Machine (State F A) (Label F A) (Event F A) := fun state label =>
  match state.turn, label with
  | .lost, _ => none
  | _, .add fn => some (add fn state)
  | _, .remove node => if node ∈ state.nodes then some (remove node state) else none
  | .idle, .invoke args => some (invoke args state)
  | .calling node args, .returns => some (resume node args state)
  | _, _ => none

section Specification

def noteHandler (fns : List (Nat × F)) : Event F A → List (Nat × F)
  | .added node fn => fns ++ [(node, fn)]
  | .removed node => fns.filter fun entry => entry.1 ≠ node
  | _ => fns

/-- The handlers that have been added and not removed, in the order of their `Add`. -/
def handlers (past : List (Event F A)) : List (Nat × F) :=
  past.foldl noteHandler []

def noteTurn (nodes : List Nat) : Event F A → List Nat
  | .invoked _ => []
  | .called node _ _ => nodes ++ [node]
  | _ => nodes

/-- The handlers whose turn the last `Invoke` has taken. -/
def taken (past : List (Event F A)) : List Nat :=
  past.foldl noteTurn []

def noteArguments (args : Option A) : Event F A → Option A
  | .invoked args => some args
  | _ => args

/-- The arguments of the last `Invoke`. -/
def arguments (past : List (Event F A)) : Option A :=
  past.foldl noteArguments none

/-- What may happen next: `Add` numbers the handlers in order; `Invoke` calls a handler that is
in the list, in order and only once, when no handler before it in the list is left; it ends
when no handler in the list is left; and it never goes on from a removed one. -/
def Proper (before : List (Event F A)) : Event F A → Prop
  | .added node _ => ∀ other fn, .added other fn ∈ before → other < node
  | .called node fn args =>
      (node, fn) ∈ handlers before ∧ arguments before = some args ∧
        (∀ other ∈ taken before, other < node) ∧
        ∀ entry ∈ handlers before, entry.1 < node → entry.1 ∈ taken before
  | .ended => ∀ entry ∈ handlers before, entry.1 ∈ taken before
  | .dangling _ => False
  | _ => True

/-- No handler returns to `Invoke` after it has been removed. -/
def Stays (before : List (Event F A)) : Event F A → Prop
  | .returned node => .removed node ∉ before
  | _ => True

/-- The handler that returns is still in the list. -/
def stays (state : State F A) : Label F A → Prop
  | .returns => ∀ node args, state.turn = .calling node args → node ∈ state.nodes
  | _ => True

def Label.additions : Label F A → Nat
  | .add _ => 1
  | _ => 0

/-- `Invoke` ends after finitely many steps if at most so many handlers are added, whatever the
handlers do, as long as none returns that has been removed. -/
inductive Ends : Nat → State F A → Prop where
  | ended {adds : Nat} {state : State F A} (idle : state.turn = .idle) : Ends adds state
  | goesOn {adds : Nat} {state : State F A} (returns : (step state .returns).isSome)
      (later : ∀ {label following out left}, stays state label →
        adds = left + label.additions → step state label = some (following, out) →
        Ends left following) :
      Ends adds state

end Specification

variable {state following : State F A} {past out : List (Event F A)} {label : Label F A}
variable {node : Nat} {args : A}

@[simp] theorem handlers_snoc (event : Event F A) :
    handlers (past ++ [event]) = noteHandler (handlers past) event := by
  simp [handlers]

@[simp] theorem taken_snoc (event : Event F A) :
    taken (past ++ [event]) = noteTurn (taken past) event := by
  simp [taken]

@[simp] theorem arguments_snoc (event : Event F A) :
    arguments (past ++ [event]) = noteArguments (arguments past) event := by
  simp [arguments]

/-- In a list that is in order, the nodes behind a node are those with a greater number. -/
theorem rest_eq {fns : List (Nat × F)} (sorted : fns.Pairwise fun left right => left.1 < right.1)
    (listed : node ∈ fns.map Prod.fst) :
    rest node fns = fns.filter fun entry => node < entry.1 := by
  induction fns with
  | nil => cases listed
  | cons entry fns ih =>
      obtain ⟨first, later⟩ := List.pairwise_cons.mp sorted
      simp only [rest]
      split
      · next same =>
          subst same
          rw [List.filter_cons_of_neg (by simp)]
          exact (List.filter_eq_self.mpr fun other member => by simpa using first other member).symm
      · next different =>
          have behind : node ∈ fns.map Prod.fst :=
            (List.mem_cons.mp listed).resolve_left (Ne.symm different)
          obtain ⟨other, member, rfl⟩ := List.mem_map.mp behind
          have before := first other member
          rw [List.filter_cons_of_neg (by simpa using Nat.le_of_lt before)]
          exact ih later behind

theorem resume_of_mem (present : node ∈ state.nodes) :
    resume node args state = Reaction.andThen (state, [.returned node]) fun state =>
      visit args state (rest node state.fns) := by
  simp only [resume, Reaction.andThen, present, if_true]

/-- What a step can do. -/
theorem step_cases (moved : step state label = some (following, out)) :
    (state.turn ≠ .lost ∧ ∃ fn, label = .add fn ∧ (following, out) = add fn state) ∨
    (state.turn ≠ .lost ∧ ∃ node, label = .remove node ∧ node ∈ state.nodes ∧
      (following, out) = remove node state) ∨
    (state.turn = .idle ∧ ∃ args, label = .invoke args ∧ (following, out) = invoke args state) ∨
    (∃ node args, state.turn = .calling node args ∧ label = .returns ∧
      (following, out) = resume node args state) := by
  cases turn : state.turn with
  | lost => simp [step, turn] at moved
  | idle =>
      cases label with
      | add fn => simp_all [step]
      | remove node => simp_all [step]
      | invoke args => simp_all [step]
      | returns => simp [step, turn] at moved
  | calling node args =>
      cases label with
      | add fn => simp_all [step]
      | remove node => simp_all [step]
      | invoke args => simp [step, turn] at moved
      | returns => simp_all [step]

/-- The list is in the order of the numbers, and the history knows what has happened to it. -/
structure Listed (state : State F A) (past : List (Event F A)) : Prop where
  handlers_eq : handlers past = state.fns
  sorted : state.fns.Pairwise fun left right => left.1 < right.1
  fresh : ∀ entry ∈ state.fns, entry.1 < state.next
  added : ∀ node fn, .added node fn ∈ past → node < state.next
  removed : ∀ node, .removed node ∈ past → node < state.next ∧ node ∉ state.nodes

/-- The handlers up to the one that is being called have had their turn. -/
structure Calling (state : State F A) (past : List (Event F A)) (node : Nat) (args : A) :
    Prop where
  arguments_eq : arguments past = some args
  issued : node < state.next
  present : node ∉ state.nodes → .removed node ∈ past
  before : ∀ other ∈ taken past, other ≤ node
  upto : ∀ entry ∈ state.fns, entry.1 ≤ node → entry.1 ∈ taken past

/-- What holds in every run.  Once the iterator is lost, both histories are broken. -/
structure Sound (state : State F A) (past : List (Event F A)) : Prop
    extends Listed state past where
  calling : ∀ node args, state.turn = .calling node args → Calling state past node args
  fine : state.turn ≠ .lost → Historically Proper past ∧ Historically Stays past
  lost : state.turn = .lost → ¬ Historically Proper past ∧ ¬ Historically Stays past

theorem sound_initial : Sound (.initial : State F A) [] where
  handlers_eq := rfl
  sorted := List.Pairwise.nil
  fresh := by simp [State.initial]
  added := by simp
  removed := by simp
  calling := by simp [State.initial]
  fine := fun _ => ⟨historically_nil, historically_nil⟩
  lost := by simp [State.initial]

namespace Listed

variable (listed : Listed state past)
include listed

/-- The list does not change between calls. -/
theorem turn (event : Event F A) (turn : Turn A) (silent : ∀ fns, noteHandler fns event = fns)
    (notAdded : ∀ node fn, event ≠ .added node fn) (notRemoved : ∀ node, event ≠ .removed node) :
    Listed { state with turn := turn } (past ++ [event]) where
  handlers_eq := by rw [handlers_snoc, silent]; exact listed.handlers_eq
  sorted := listed.sorted
  fresh := listed.fresh
  added := by
    intro node fn member
    refine listed.added node fn ((List.mem_append.mp member).resolve_right ?_)
    simpa using (notAdded node fn).symm
  removed := by
    intro node member
    refine listed.removed node ((List.mem_append.mp member).resolve_right ?_)
    simpa using (notRemoved node).symm

theorem add (fn : F) :
    Listed (FunctionList.add fn state).1 (past ++ [.added state.next fn]) where
  handlers_eq := by simp [noteHandler, FunctionList.add, listed.handlers_eq]
  sorted := by
    simpa [FunctionList.add, List.pairwise_append, listed.sorted] using listed.fresh
  fresh := by
    intro entry member
    simp only [FunctionList.add, List.mem_append, List.mem_singleton] at member ⊢
    rcases member with member | rfl
    · exact Nat.lt_succ_of_lt (listed.fresh entry member)
    · exact Nat.lt_succ_self _
  added := by
    intro node other member
    simp only [List.mem_append, List.mem_singleton, Event.added.injEq] at member
    rcases member with member | ⟨rfl, -⟩
    · exact Nat.lt_succ_of_lt (listed.added node other member)
    · exact Nat.lt_succ_self _
  removed := by
    intro node member
    obtain ⟨issued, absent⟩ := listed.removed node (by simpa using member)
    refine ⟨Nat.lt_succ_of_lt issued, ?_⟩
    simpa [FunctionList.add, State.nodes, Nat.ne_of_lt issued] using absent

theorem remove {gone : Nat} (present : gone ∈ state.nodes) :
    Listed (FunctionList.remove gone state).1 (past ++ [.removed gone]) where
  handlers_eq := by simp [noteHandler, FunctionList.remove, listed.handlers_eq]
  sorted := listed.sorted.filter _
  fresh := fun entry member => listed.fresh entry (List.mem_filter.mp member).1
  added := fun node fn member => listed.added node fn (by simpa using member)
  removed := by
    intro node member
    simp only [List.mem_append, List.mem_singleton, Event.removed.injEq] at member
    rcases member with member | rfl
    · obtain ⟨issued, absent⟩ := listed.removed node member
      refine ⟨issued, fun kept => absent ?_⟩
      exact List.map_subset _ List.filter_sublist.subset kept
    · obtain ⟨entry, member, rfl⟩ := List.mem_map.mp present
      exact ⟨listed.fresh entry member, by simp [FunctionList.remove, State.nodes]⟩

/-- Every handler in the list has had its turn. -/
theorem ended (proper : Historically Proper past) (stays : Historically Stays past)
    (done : ∀ entry ∈ state.fns, entry.1 ∈ taken past) :
    Sound { state with turn := .idle } (past ++ [.ended]) where
  toListed := listed.turn .ended .idle (fun _ => rfl) (by simp) (by simp)
  calling := by simp
  fine := by
    intro _
    refine ⟨historically_snoc.mpr ⟨proper, ?_⟩, historically_snoc.mpr ⟨stays, trivial⟩⟩
    rw [Proper, listed.handlers_eq]
    exact done
  lost := by simp

/-- It is the turn of a handler. -/
theorem called {fn : F} (proper : Historically Proper past) (stays : Historically Stays past)
    (known : arguments past = some args) (member : (node, fn) ∈ state.fns)
    (later : ∀ other ∈ taken past, other < node)
    (smaller : ∀ entry ∈ state.fns, entry.1 < node → entry.1 ∈ taken past) :
    Sound { state with turn := .calling node args } (past ++ [.called node fn args]) where
  toListed := listed.turn (.called node fn args) _ (fun _ => rfl) (by simp) (by simp)
  calling := by
    intro other passed turn
    obtain ⟨rfl, rfl⟩ := Turn.calling.inj turn
    exact {
      arguments_eq := by simp [noteArguments, known]
      issued := listed.fresh _ member
      present := fun absent => (absent (List.mem_map_of_mem member)).elim
      before := by
        intro other seen
        simp only [taken_snoc, noteTurn, List.mem_append, List.mem_singleton] at seen
        rcases seen with seen | rfl
        · exact Nat.le_of_lt (later other seen)
        · exact Nat.le_refl _
      upto := by
        intro entry member upto
        simp only [taken_snoc, noteTurn, List.mem_append, List.mem_singleton]
        exact (Nat.lt_or_eq_of_le upto).imp (smaller entry member) id }
  fine := by
    intro _
    refine ⟨historically_snoc.mpr ⟨proper, ?_⟩, historically_snoc.mpr ⟨stays, trivial⟩⟩
    rw [Proper, listed.handlers_eq]
    exact ⟨member, known, later, smaller⟩
  lost := by simp

/-- The loop goes on at a list of handlers before which no turn is left. -/
theorem visit {behind : List (Nat × F)} (proper : Historically Proper past)
    (stays : Historically Stays past) (known : arguments past = some args)
    (sorted : behind.Pairwise fun left right => left.1 < right.1)
    (within : ∀ entry ∈ behind, entry ∈ state.fns)
    (later : ∀ entry ∈ behind, ∀ other ∈ taken past, other < entry.1)
    (done : ∀ entry ∈ state.fns, entry ∉ behind → entry.1 ∈ taken past) :
    Sound (FunctionList.visit args state behind).1
      (past ++ (FunctionList.visit args state behind).2) := by
  cases behind with
  | nil => exact listed.ended proper stays fun entry member => done entry member List.not_mem_nil
  | cons entry tail =>
      obtain ⟨node, fn⟩ := entry
      obtain ⟨first, -⟩ := List.pairwise_cons.mp sorted
      refine listed.called proper stays known (within _ List.mem_cons_self)
        (later _ List.mem_cons_self) ?_
      intro entry member smaller
      refine done entry member fun left => ?_
      rcases List.mem_cons.mp left with rfl | left
      · exact Nat.lt_irrefl _ smaller
      · exact Nat.lt_asymm smaller (first entry left)

end Listed

namespace Sound

variable (sound : Sound state past)
include sound

theorem add (live : state.turn ≠ .lost) (fn : F) :
    Sound (FunctionList.add fn state).1 (past ++ (FunctionList.add fn state).2) where
  toListed := sound.toListed.add fn
  calling := by
    intro node args turn
    have calling := sound.calling node args turn
    exact {
      arguments_eq := by simp [FunctionList.add, noteArguments, calling.arguments_eq]
      issued := Nat.lt_succ_of_lt calling.issued
      present := by
        intro absent
        refine List.mem_append_left _ (calling.present fun present => absent ?_)
        exact List.map_subset _ (List.subset_append_left ..) present
      before := by simpa [FunctionList.add, noteTurn] using calling.before
      upto := by
        intro entry member upto
        simp only [FunctionList.add, List.mem_append, List.mem_singleton] at member
        simp only [FunctionList.add, taken_snoc, noteTurn]
        rcases member with member | rfl
        · exact calling.upto entry member upto
        · exact absurd calling.issued (Nat.not_lt.mpr upto) }
  fine := by
    intro _
    obtain ⟨proper, stays⟩ := sound.fine live
    refine ⟨historically_snoc.mpr ⟨proper, ?_⟩, historically_snoc.mpr ⟨stays, trivial⟩⟩
    exact fun other found member => sound.added other found member
  lost := fun lost => (live lost).elim

theorem remove (live : state.turn ≠ .lost) {gone : Nat} (present : gone ∈ state.nodes) :
    Sound (FunctionList.remove gone state).1 (past ++ (FunctionList.remove gone state).2) where
  toListed := sound.toListed.remove present
  calling := by
    intro node args turn
    have calling := sound.calling node args turn
    exact {
      arguments_eq := by simp [FunctionList.remove, noteArguments, calling.arguments_eq]
      issued := calling.issued
      present := by
        intro absent
        by_cases same : node = gone
        · subst same
          simp [FunctionList.remove]
        · refine List.mem_append_left _ (calling.present fun listed => absent ?_)
          obtain ⟨entry, member, rfl⟩ := List.mem_map.mp listed
          exact List.mem_map_of_mem (List.mem_filter.mpr ⟨member, by simpa using same⟩)
      before := by simpa [FunctionList.remove, noteTurn] using calling.before
      upto := by
        intro entry member upto
        simp only [FunctionList.remove, taken_snoc, noteTurn]
        exact calling.upto entry (List.mem_filter.mp member).1 upto }
  fine := by
    intro _
    obtain ⟨proper, stays⟩ := sound.fine live
    exact ⟨historically_snoc.mpr ⟨proper, trivial⟩, historically_snoc.mpr ⟨stays, trivial⟩⟩
  lost := fun lost => (live lost).elim

theorem invoke (idle : state.turn = .idle) (args : A) :
    Sound (FunctionList.invoke args state).1 (past ++ (FunctionList.invoke args state).2) := by
  obtain ⟨proper, stays⟩ := sound.fine (by simp [idle])
  have listed : Listed state (past ++ [.invoked args]) :=
    sound.toListed.turn (.invoked args) state.turn (fun _ => rfl) (by simp) (by simp)
  have known : arguments (past ++ [.invoked args]) = some args := by simp [noteArguments]
  have visited := listed.visit (historically_snoc.mpr ⟨proper, trivial⟩)
    (historically_snoc.mpr ⟨stays, trivial⟩) known sound.sorted (fun _ member => member)
    (by simp [noteTurn]) (fun entry member absent => (absent member).elim)
  simpa [FunctionList.invoke, Reaction.andThen] using visited

/-- The iterator is incremented on a removed node. -/
theorem lose {node : Nat} {args : A} (turn : state.turn = .calling node args)
    (absent : node ∉ state.nodes) :
    Sound { state with turn := .lost } (past ++ [.returned node] ++ [.dangling node]) := by
  have removed := (sound.calling node args turn).present absent
  have listed : Listed { state with turn := .lost } (past ++ [.returned node]) :=
    sound.toListed.turn (.returned node) .lost (fun _ => rfl) (by simp) (by simp)
  exact {
    toListed := listed.turn (.dangling node) .lost (fun _ => rfl) (by simp) (by simp)
    calling := by simp
    fine := fun live => (live rfl).elim
    lost := by
      intro _
      refine ⟨fun proper => (historically_snoc.mp proper).2, fun stays => ?_⟩
      exact (historically_snoc.mp (historically_snoc.mp stays).1).2 removed }

theorem resume {node : Nat} {args : A} (turn : state.turn = .calling node args) :
    Sound (FunctionList.resume node args state).1
      (past ++ (FunctionList.resume node args state).2) := by
  by_cases present : node ∈ state.nodes
  · obtain ⟨proper, stays⟩ := sound.fine (by simp [turn])
    have calling := sound.calling node args turn
    have listed : Listed state (past ++ [.returned node]) :=
      sound.toListed.turn (.returned node) state.turn (fun _ => rfl) (by simp) (by simp)
    have kept : .removed node ∉ past := fun removed => (sound.removed node removed).2 present
    have known : arguments (past ++ [.returned node]) = some args := by
      simpa [noteArguments] using calling.arguments_eq
    have later : ∀ entry ∈ state.fns.filter fun entry => node < entry.1,
        ∀ other ∈ taken (past ++ [.returned node]), other < entry.1 := by
      intro entry member other seen
      have behind : node < entry.1 := by simpa using (List.mem_filter.mp member).2
      exact Nat.lt_of_le_of_lt (calling.before other (by simpa [noteTurn] using seen)) behind
    have done : ∀ entry ∈ state.fns, entry ∉ (state.fns.filter fun entry => node < entry.1) →
        entry.1 ∈ taken (past ++ [.returned node]) := by
      intro entry member absent
      have upto : entry.1 ≤ node := by simpa [member] using absent
      simpa [noteTurn] using calling.upto entry member upto
    have visited := listed.visit (historically_snoc.mpr ⟨proper, trivial⟩)
      (historically_snoc.mpr ⟨stays, kept⟩) known (sound.sorted.filter _)
      (fun entry member => (List.mem_filter.mp member).1) later done
    simpa [resume_of_mem present, Reaction.andThen, rest_eq listed.sorted present] using visited
  · have lost := sound.lose turn present
    simpa [FunctionList.resume, Reaction.andThen, present] using lost

theorem step (moved : FunctionList.step state label = some (following, out)) :
    Sound following (past ++ out) := by
  rcases step_cases moved with ⟨live, fn, rfl, same⟩ | ⟨live, node, rfl, present, same⟩ |
    ⟨idle, args, rfl, same⟩ | ⟨node, args, turn, rfl, same⟩
  · obtain ⟨rfl, rfl⟩ := Prod.mk.inj same
    exact sound.add live fn
  · obtain ⟨rfl, rfl⟩ := Prod.mk.inj same
    exact sound.remove live present
  · obtain ⟨rfl, rfl⟩ := Prod.mk.inj same
    exact sound.invoke idle args
  · obtain ⟨rfl, rfl⟩ := Prod.mk.inj same
    exact sound.resume turn

end Sound

theorem sound_of_reaches
    (reached : Machine.Reaches step Machine.always .initial state past) : Sound state past :=
  reached.invariant Sound sound_initial fun _ sound _ moved => sound.step moved

section Termination

/-- The turns that are left and the handlers that can be removed, while `Invoke` is running. -/
def work (state : State F A) : Nat :=
  match state.turn with
  | .calling node _ =>
      (state.fns.filter fun entry => node < entry.1).length + state.fns.length + 1
  | _ => 0

theorem work_add (turn : state.turn = .calling node args) (fn : F) :
    work (add fn state).1 ≤ work state + 2 := by
  have one := List.length_filter_le (fun entry : Nat × F => decide (node < entry.1))
    [(state.next, fn)]
  simp only [work, add, turn, List.filter_append, List.length_append, List.length_singleton] at *
  omega

theorem work_remove (turn : state.turn = .calling node args) {gone : Nat}
    (present : gone ∈ state.nodes) : work (remove gone state).1 < work state := by
  obtain ⟨entry, member, rfl⟩ := List.mem_map.mp present
  have fewer : (state.fns.filter fun other => other.1 ≠ entry.1).length < state.fns.length :=
    List.length_filter_lt_length_iff_exists.mpr ⟨entry, member, by simp⟩
  have turns := ((List.filter_sublist (p := fun other : Nat × F => decide (other.1 ≠ entry.1))
    (l := state.fns)).filter fun other => decide (node < other.1)).length_le
  simp only [work, remove, turn]
  omega

/-- A handler behind another one has fewer turns behind it. -/
theorem turns_lt {fns : List (Nat × F)} {entry : Nat × F} (member : entry ∈ fns)
    (behind : node < entry.1) :
    (fns.filter fun other => entry.1 < other.1).length <
      (fns.filter fun other => node < other.1).length := by
  have same : (fns.filter fun other => entry.1 < other.1) =
      (fns.filter fun other => node < other.1).filter fun other => entry.1 < other.1 := by
    rw [List.filter_filter]
    refine List.filter_congr fun other _ => ?_
    rw [← Bool.decide_and, decide_eq_decide]
    omega
  rw [same]
  refine List.length_filter_lt_length_iff_exists.mpr ⟨entry, ?_, by simp⟩
  exact List.mem_filter.mpr ⟨member, by simpa using behind⟩

theorem work_resume (sorted : state.fns.Pairwise fun left right => left.1 < right.1)
    (turn : state.turn = .calling node args) (present : node ∈ state.nodes) :
    work (resume node args state).1 < work state := by
  have before : work state = (rest node state.fns).length + state.fns.length + 1 := by
    simp only [work, turn, rest_eq sorted present]
  simp only [resume_of_mem present, Reaction.andThen]
  cases behind : rest node state.fns with
  | nil => simp [visit, work, turn]
  | cons entry tail =>
      have member : entry ∈ state.fns.filter fun other => node < other.1 := by
        rw [← rest_eq sorted present, behind]
        exact List.mem_cons_self
      obtain ⟨member, later⟩ := List.mem_filter.mp member
      have fewer := turns_lt member (by simpa using later)
      simp only [visit, work, turn]
      omega

/-- A step of a running `Invoke` leaves less to do, or uses up an addition. -/
theorem work_step {left : Nat}
    (sorted : state.fns.Pairwise fun left right => left.1 < right.1)
    (turn : state.turn = .calling node args) (allowed : stays state label)
    (moved : step state label = some (following, out)) :
    3 * left + work following < 3 * (left + label.additions) + work state := by
  rcases step_cases moved with ⟨-, fn, rfl, same⟩ | ⟨-, gone, rfl, present, same⟩ |
    ⟨idle, -⟩ | ⟨other, passed, calling, rfl, same⟩
  · have bounded := work_add turn fn
    rw [← same] at bounded
    simp only [Label.additions] at bounded ⊢
    omega
  · have fewer := work_remove turn present
    rw [← same] at fewer
    simpa only [Label.additions, Nat.add_zero, Nat.add_lt_add_iff_left] using fewer
  · simp [turn] at idle
  · have fewer := work_resume sorted calling (allowed other passed calling)
    rw [← same] at fewer
    simpa only [Label.additions, Nat.add_zero, Nat.add_lt_add_iff_left] using fewer

theorem visit_turn (behind : List (Nat × F)) : (visit args state behind).1.turn ≠ .lost := by
  cases behind <;> simp [visit]

theorem live_step (allowed : stays state label)
    (moved : step state label = some (following, out)) : following.turn ≠ .lost := by
  rcases step_cases moved with ⟨live, fn, rfl, same⟩ | ⟨live, gone, rfl, present, same⟩ |
    ⟨idle, args, rfl, same⟩ | ⟨node, args, calling, rfl, same⟩
  all_goals rw [show following = _ from congrArg Prod.fst same]
  · exact live
  · exact live
  · exact visit_turn state.fns
  · rw [resume_of_mem (allowed node args calling)]
    exact visit_turn (rest node state.fns)

/-- The induction is on what is left to do, the additions included. -/
theorem ends (sound : Sound state past) (live : state.turn ≠ .lost) (adds : Nat) :
    Ends adds state := by
  induction bound : 3 * adds + work state using Nat.strongRecOn
    generalizing adds state past with
  | _ bound ih =>
      cases turn : state.turn with
      | lost => exact (live turn).elim
      | idle => exact .ended turn
      | calling node args =>
          refine .goesOn (by simp [step, turn]) ?_
          intro label following out left allowed spent moved
          have fewer : 3 * left + work following < 3 * (left + label.additions) + work state :=
            work_step sound.sorted turn allowed moved
          exact ih _ (by omega) (sound.step moved) (live_step allowed moved) left rfl

end Termination

/-- `Invoke` tolerates every change of the list exactly when no handler returns to it after it
has been removed. -/
theorem invoke_tolerates_iff
    (reached : Machine.Reaches (step (F := F) (A := A)) Machine.always .initial state past) :
    (Historically Proper past ∧ ∀ adds, Ends adds state) ↔ Historically Stays past := by
  have sound := sound_of_reaches reached
  have fine_or_lost : state.turn ≠ .lost ∨ state.turn = .lost := by
    cases state.turn <;> simp
  rcases fine_or_lost with live | lost
  · obtain ⟨proper, stays⟩ := sound.fine live
    exact ⟨fun _ => stays, fun _ => ⟨proper, ends sound live⟩⟩
  · obtain ⟨improper, leaves⟩ := sound.lost lost
    exact ⟨fun tolerated => (improper tolerated.1).elim, fun stays => (leaves stays).elim⟩

/-- The first of three handlers removes the second one and adds a fourth. -/
theorem invoke_tolerates_run : ∃ state past,
    Machine.Reaches (step (F := Nat) (A := Nat)) Machine.always .initial state past ∧
      .called 3 13 7 ∈ past ∧ Historically Proper past ∧ ∀ adds, Ends adds state := by
  obtain ⟨state, reached, -⟩ := Machine.exists_reaches (step (F := Nat) (A := Nat))
    Machine.always .initial
    [.add 10, .add 11, .add 12, .invoke 7, .remove 1, .add 13, .returns, .returns, .returns]
    [.added 0 10, .added 1 11, .added 2 12, .invoked 7, .called 0 10 7, .removed 1, .added 3 13,
      .returned 0, .called 2 12 7, .returned 2, .called 3 13 7, .returned 3, .ended]
    (fun _ => true) (by decide)
  refine ⟨state, _, reached, by simp, (invoke_tolerates_iff reached).mpr ?_⟩
  intro before entry after split
  cases entry with
  | returned node =>
      intro removed
      have gone : Event.removed node ∈ before ++ Event.returned node :: after :=
        List.mem_append_left _ removed
      have back : Event.returned node ∈ before ++ Event.returned node :: after := by simp
      rw [← split] at gone back
      simp only [List.mem_cons, List.not_mem_nil, reduceCtorEq, Event.removed.injEq,
        Event.returned.injEq, false_or, or_false] at gone back
      omega
  | added | removed | invoked | called | ended | dangling => trivial

/-- The only handler removes itself. -/
theorem invoke_tolerates_fails : ¬ ∀ (state : State Nat Nat) past,
    Machine.Reaches step Machine.always .initial state past →
      Historically Proper past ∧ ∀ adds, Ends adds state := by
  intro always
  obtain ⟨state, reached, -⟩ := Machine.exists_reaches (step (F := Nat) (A := Nat))
    Machine.always .initial [.add 10, .invoke 7, .remove 0, .returns]
    [.added 0 10, .invoked 7, .called 0 10 7, .removed 0, .returned 0, .dangling 0]
    (fun _ => true) (by decide)
  have proper := (always state _ reached).1
  exact proper [.added 0 10, .invoked 7, .called 0 10 7, .removed 0, .returned 0] (.dangling 0) []
    rfl

end Nexer.FunctionList
