import Nexer.Manager.Waiting
import Mathlib.Logic.Relation

/-!
# What may run inside a traversal of callbacks

`ClearCallbacks` calls the closures of `CheckPreamble`, and these may start a main
process, whose failure to start clears the callbacks of its own app.  Each such
nesting goes to an app that the outer one is a preamble of.  `Require`, `Check`
and `Start` are never called inside, with one exception: a process whose pipes
cannot be created runs its exit callback at once, and that calls `Start` when the
app is to be restarted.
-/

namespace Nexer.Manager

open Nexer.Transition

variable {α : Type} {config : α → AppConfig α}
variable {state following : State α} {label : Label α} {past out : List (Event α)}

/-- A preamble of the app, or of a preamble of it, and so on. -/
def Lower (config : α → AppConfig α) : α → α → Prop :=
  Relation.TransGen fun lower upper => lower ∈ (config upper).preamble

/-- The preamble relation has no cycle. -/
def Acyclic (config : α → AppConfig α) : Prop :=
  ∀ app, ¬ Lower config app app

/-- The calls that may be made inside a traversal of the callbacks of `lower`. -/
def Over (config : α → AppConfig α) (state : State α) (lower : α) : Call α → Prop
  | .require .. | .check .. | .checked .. | .start .. => False
  | .processStart _ (.main app _) | .onError _ (.main app _) _ => Lower config lower app
  | .onExit _ (.main app _) _ => Lower config lower app ∧ (state.apps app).restart = false
  | .processStart _ (.checker ..) | .onError _ (.checker ..) _ | .onExit _ (.checker ..) _ =>
      False
  | .prepared app _ _ | .clearCallbacks app _ | .answer app _ _ => Lower config lower app
  | .onProcessStart .. | .endCheck .. | .onProcessExit .. | .kill .. | .setChecking .. => True

/-- Every call above a traversal may be made inside it. -/
def Layered (config : α → AppConfig α) (state : State α) : Prop :=
  state.todo.Pairwise fun call below =>
    ∀ lower left error, below = .answer lower left error → Over config state lower call

/-- No traversal of callbacks is active. -/
def Call.isAnswer : Call α → Bool
  | .answer .. => true
  | _ => false

/-- When the pipes of a main process cannot be created while the app is to be
restarted, no traversal of callbacks is active. -/
def restartsOutside (state : State α) : Label α → Prop
  | .spawn result => result.pipe ≠ 0 →
      match state.todo with
      | .processStart _ (.main app _) :: rest =>
          (state.apps app).restart = true → ∀ call ∈ rest, call.isAnswer = false
      | _ => True
  | _ => True

instance : ∀ (state : State α) (label : Label α), Decidable (restartsOutside state label)
  | { todo := [], .. }, .spawn _ => .isTrue fun _ => trivial
  | { todo := call :: _, .. }, .spawn _ =>
      match call with
      | .processStart _ (.main ..) =>
          inferInstanceAs (Decidable (_ ≠ 0 → _ = true → ∀ call ∈ _, Call.isAnswer call = false))
      | .processStart _ (.checker ..)
      | .require .. | .check .. | .checked .. | .start .. | .prepared .. | .onProcessStart ..
      | .endCheck .. | .onError .. | .onProcessExit .. | .kill .. | .onExit ..
      | .clearCallbacks .. | .answer .. | .setChecking .. => .isTrue fun _ => trivial
  | _, .clock _ | _, .call | _, .require .. | _, .read .. | _, .exited ..
  | _, .closed _ | _, .timeout _ | _, .tick _ | _, .timerClosed _ => .isTrue trivial

theorem Lower.trans {lower middle upper : α} (first : Lower config lower middle)
    (second : Lower config middle upper) : Lower config lower upper :=
  Relation.TransGen.trans first second

theorem over_kept {lower : α} {call : Call α} (above : Over config state lower call)
    (restart : ∀ app, (state.apps app).restart = false → (following.apps app).restart = false) :
    Over config following lower call := by
  cases call with
  | onExit pid role termination =>
      cases role with
      | main app round => exact ⟨above.1, restart app above.2⟩
      | checker => exact above
  | processStart pid role | onError pid role error => cases role <;> exact above
  | _ => exact above

/-- A call that is being made inside a traversal is one of those that may be. -/
theorem Layered.over (layered : Layered config state) {head : Call α} {rest : List (Call α)}
    (pending : state.todo = head :: rest) {lower : α} {left : List (Waiter α)} {error : Int}
    (below : .answer lower left error ∈ rest) : Over config state lower head := by
  unfold Layered at layered
  rw [pending, List.pairwise_cons] at layered
  exact layered.1 _ below lower left error rfl

variable [DecidableEq α]

/-- Inside a traversal no app is marked for a restart. -/
theorem restart_kept (move : Move config state label following out)
    (layered : Layered config state) {head : Call α} {rest : List (Call α)}
    (pending : state.todo = head :: rest) {lower : α} {left : List (Waiter α)} {error : Int}
    (below : .answer lower left error ∈ rest) (app : α)
    (above : (state.apps app).restart = false) : (following.apps app).restart = false := by
  rcases restart_of_move move app with same | ⟨_, _, _, top, _⟩ | ⟨_, _, _, _, _, _, now⟩
  · exact same.trans above
  · cases pending.symm.trans top
    exact (layered.over pending below).elim
  · exact now

omit [DecidableEq α] in
/-- What a call makes inside a traversal may be made there. -/
theorem over_of_makes (guarded : restartsOutside state label)
    (sound : Sound config state) {head call : Call α} {rest calls : List (Call α)}
    (pending : state.todo = head :: rest) (made : Makes config state label following head calls)
    (member : call ∈ calls) {lower : α} {left : List (Waiter α)} {error : Int}
    (below : .answer lower left error ∈ rest) (above : Over config state lower head)
    (restart : ∀ app, (state.apps app).restart = false → (following.apps app).restart = false) :
    Over config following lower call := by
  cases made
  case nothing => cases member
  case check | unchecked | checker | requiredClear | requiredStart | startedClear | ready
      | preambles | errorChecker | exitChecker => exact above.elim
  case preparedClear | exitClear | errorMain | answers | answer =>
    obtain rfl := List.mem_singleton.mp member
    first | exact above | exact above.1
  case main =>
    simp only [List.mem_cons, List.not_mem_nil, or_false] at member
    rcases member with rfl | rfl
    · exact above
    · trivial
  case spawn pid role _ _ _ | unread pid role _ _ =>
    simp only [List.mem_cons, List.not_mem_nil, or_false] at member
    rcases member with rfl | rfl
    · cases role <;> exact above
    · trivial
  case pipe pid role error spawning failed _ =>
    obtain ⟨result, rfl, rfl⟩ := spawning
    simp only [List.mem_cons, List.not_mem_nil, or_false] at member
    cases role with
    | checker => exact above.elim
    | main app round =>
        rcases member with rfl | rfl
        · exact above
        · refine ⟨above, restart app ?_⟩
          have outside := guarded failed
          rw [pending] at outside
          by_contra again
          cases outside (by simpa using again) _ below
  case restart again => simp [above.2] at again
  case last app upper ticket round others error last done =>
    have step : app ∈ (config upper).preamble :=
      (sound.ordered_of_answer pending).1
    simp only [List.mem_cons, List.not_mem_nil, or_false] at member
    rcases member with rfl | rfl
    · exact above.trans (.single step)
    · exact above

omit [DecidableEq α] in
/-- What a call makes is layered in itself. -/
theorem layered_calls (sound : Sound config state) {head : Call α} {rest calls : List (Call α)}
    (pending : state.todo = head :: rest) (made : Makes config state label following head calls) :
    calls.Pairwise fun call below =>
      ∀ lower left error, below = .answer lower left error → Over config following lower call := by
  cases made
  case preambles =>
    rw [List.pairwise_map]
    exact List.pairwise_of_forall fun _ _ _ _ _ traversal => nomatch traversal
  case last app upper ticket round others error last done =>
    have step := (sound.ordered_of_answer pending).1
    simp only [List.pairwise_cons, List.mem_singleton, List.not_mem_nil]
    refine ⟨?_, by simp⟩
    rintro _ rfl lower left error traversal
    cases traversal
    exact .single step
  all_goals simp

theorem Layered.of_move (move : Move config state label following out)
    (guarded : restartsOutside state label) (sound : Sound config state)
    (layered : Layered config state) : Layered config following := by
  unfold Layered
  rcases todo_of_move move with ⟨outer, same⟩ | ⟨head, rest, calls, inner, pending, after, made⟩ |
    ⟨calls, idle, after, delivered⟩
  · rw [same]
    refine layered.imp fun above lower left error traversal => ?_
    exact over_kept (above lower left error traversal) (by simp [apps_outer move outer])
  · have below := layered
    unfold Layered at below
    rw [pending, List.pairwise_cons] at below
    rw [after, List.pairwise_append]
    refine ⟨layered_calls sound pending made, ?_, ?_⟩
    · refine below.2.imp_of_mem fun {call traversal} _ member above lower left error same => ?_
      subst same
      exact over_kept (above lower left error rfl) (restart_kept move layered pending member)
    · rintro call member traversal under lower left error rfl
      exact over_of_makes guarded sound pending made member under (layered.over pending under)
        (restart_kept move layered pending under)
  · rw [after]
    cases delivered <;> simp

theorem layered_of_reaches {guard : State α → Label α → Prop}
    (implies : ∀ state label, guard state label → restartsOutside state label)
    (reached : Machine.Reaches (step config) guard (State.initial α) state past) :
    Layered config state :=
  reached.invariant (fun state _ => Layered config state) (by simp [Layered, State.initial])
    fun reached layered guarded moved =>
      layered.of_move (move_of_step moved) (implies _ _ guarded) (sound_of_reaches reached)

/-- Without cycles the callbacks of an app are left alone inside their traversal. -/
theorem Layered.outsideTraversals (layered : Layered config state) (acyclic : Acyclic config) :
    outsideTraversals state label := by
  cases label with
  | call =>
      simp only [Manager.outsideTraversals]
      have above {app : α} {head : Call α} {rest : List (Call α)}
          (pending : state.todo = head :: rest) (other : head.answers app = false)
          (nests : Over config state app head → Lower config app app) :
          state.answering app = false := by
        rw [answering_iff, List.countP_eq_zero]
        intro call member answers
        rw [pending, List.mem_cons] at member
        rcases member with rfl | below
        · simp [other] at answers
        · cases call <;> simp only [Call.answers, decide_eq_true_eq, Bool.false_eq_true] at answers
          subst answers
          exact acyclic _ (nests (layered.over pending below))
      split
      · next app _ rest pending => exact above pending rfl False.elim
      · next app _ rest pending => exact above pending rfl id
      · trivial
  | _ => trivial

end Nexer.Manager
