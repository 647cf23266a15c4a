import Nexer.Manager.Stack

/-!
# Callbacks are answered in batches

`ClearCallbacks` answers every callback that was queued since its last traversal
for the same app, in order and all with one process and one error.  The closures
it calls may run into traversals of other apps; these lie over it in the preamble
relation, so that they leave its callbacks and its process alone, and each of
them answers callbacks that were waiting before, so that all of them end.
-/

namespace Nexer.Manager

open Nexer.Transition

/-- `uv_pipe_init` succeeds for every child. -/
def pipesInitialised {α : Type} (_ : State α) : Label α → Prop
  | .spawn result => result.pipe = 0
  | _ => True

instance {α : Type} : ∀ (state : State α) (label : Label α),
    Decidable (pipesInitialised state label)
  | _, .spawn result => inferInstanceAs (Decidable (result.pipe = 0))
  | _, .clock _ | _, .call | _, .require .. | _, .read .. | _, .exited .. | _, .closed _
  | _, .timeout _ | _, .tick _ | _, .timerClosed _ => .isTrue trivial

theorem restartsOutside_of_pipes {α : Type} {state : State α} {label : Label α}
    (piped : pipesInitialised state label) : restartsOutside state label := by
  cases label with
  | spawn result => exact fun failed => absurd piped failed
  | _ => trivial

variable {α : Type} [DecidableEq α] {config : α → AppConfig α}
variable {state following : State α} {label : Label α} {past out : List (Event α)}

def Event.concerns (app : α) : Event α → Bool
  | .queued other _ | .answered other _ _ _ => other = app
  | _ => false

/-- The callbacks of an app as they are queued and answered. -/
def traffic (app : α) (past : List (Event α)) : List (Event α) :=
  past.filter (Event.concerns app)

/-- Callbacks that one traversal has answered. -/
structure Batch (α : Type) where
  waiters : List (Waiter α)
  process : Option Pid
  error : Int

namespace Batch

def answers (app : α) (batch : Batch α) : List (Event α) :=
  batch.waiters.map fun waiter => .answered app waiter batch.process batch.error

/-- All callbacks of the batch are queued, and then all of them are answered. -/
def events (app : α) (batch : Batch α) : List (Event α) :=
  batch.waiters.map (.queued app) ++ batch.answers app

end Batch

/-- The traffic of the app is a succession of batches, followed by the callbacks
that are still in the vector and by the answers to the first of these that the
running traversal has given. -/
def InBatches (state : State α) (past : List (Event α)) (app : α) : Prop :=
  ∃ (batches : List (Batch α)) (current : Batch α),
    traffic app past = batches.flatMap (Batch.events app) ++
      ((state.apps app).callbacks.map (.queued app) ++ current.answers app) ∧
    (state.apps app).callbacks = current.waiters ++ waiting state app ∧
    (current.waiters ≠ [] → current.process = (state.apps app).process ∧
      ∃ left, .answer app left current.error ∈ state.todo)

@[simp] theorem traffic_append (app : α) (past out : List (Event α)) :
    traffic app (past ++ out) = traffic app past ++ traffic app out :=
  List.filter_append ..

@[simp] theorem traffic_traversalFault (app other : α) :
    traffic app (state.traversalFault other) = [] := by
  unfold State.traversalFault
  split <;> rfl

theorem traffic_queued (app other : α) (waiter : Waiter α) :
    traffic app (.queued app waiter :: state.traversalFault other) = [.queued app waiter] := by
  rw [← List.singleton_append, traffic_append, traffic_traversalFault]
  simp [traffic, Event.concerns]

theorem inBatches_initial (app : α) : InBatches (State.initial α) [] app :=
  ⟨[], ⟨[], none, 0⟩, rfl, rfl, fun some => absurd rfl some⟩

/-- Only `Require` on the app and traversals for it cause traffic. -/
theorem traffic_nil (move : Move config state label following out) {app : α}
    (required : ∀ callback rest, label.inner → state.todo ≠ .require app callback :: rest)
    (answered : ∀ left error rest, label.inner → state.todo ≠ .answer app left error :: rest) :
    traffic app out = [] := by
  rw [traffic, List.filter_eq_nil_iff]
  intro event member concerns
  cases event <;> simp only [Event.concerns, decide_eq_true_eq, Bool.false_eq_true] at concerns
  case queued other waiter =>
    subst concerns
    obtain ⟨rest, pending, _, rfl⟩ := reported_of_move move _ member
    exact required _ _ rfl pending
  case answered other waiter process error =>
    subst concerns
    obtain ⟨rfl, _, others, rest, pending⟩ := reported_of_move move _ member
    exact answered _ _ _ rfl pending

/-- A traversal that does not take the step is still there after it. -/
theorem answer_kept (move : Move config state label following out) {app : α}
    {left : List (Waiter α)} {error : Int} (active : .answer app left error ∈ state.todo)
    (answered : ∀ left error rest, label.inner → state.todo ≠ .answer app left error :: rest) :
    .answer app left error ∈ following.todo := by
  rcases todo_of_move move with ⟨_, same⟩ | ⟨head, rest, calls, inner, pending, after, _⟩ |
    ⟨_, idle, _, _⟩
  · rwa [same]
  · rw [pending, List.mem_cons] at active
    rcases active with rfl | below
    · exact absurd pending (answered _ _ _ inner)
    · rw [after]
      exact List.mem_append_right _ below
  · rw [idle] at active
    cases active

/-- The tracked process of an app is left alone while its callbacks are traversed. -/
theorem process_kept_inside (move : Move config state label following out)
    (layered : Layered config state) (acyclic : Acyclic config) {app : α}
    {left : List (Waiter α)} {error : Int} (active : .answer app left error ∈ state.todo) :
    (following.apps app).process = (state.apps app).process := by
  have nests {head : Call α} {rest : List (Call α)} (pending : state.todo = head :: rest)
      (other : head.isAnswer = false) : Over config state app head := by
    rw [pending, List.mem_cons] at active
    rcases active with rfl | below
    · cases other
    · exact layered.over pending below
  rcases process_of_move move app with same | ⟨_, _, pending, _⟩ | ⟨_, _, _, _, pending, _⟩ |
    ⟨_, _, _, _, _, pending, _⟩
  · exact same
  · exact absurd (nests pending rfl) (acyclic app)
  · exact absurd (nests pending rfl) (acyclic app)
  · exact absurd (nests pending rfl).1 (acyclic app)

omit [DecidableEq α] in
/-- Answers of one traversal, continued by one more of the same. -/
theorem Batch.answers_snoc {app : α} {current : Batch α} {waiter : Waiter α}
    {process : Option Pid} {error : Int}
    (same : current.waiters ≠ [] → current.process = process ∧ current.error = error) :
    current.answers app ++ [.answered app waiter process error] =
      (⟨current.waiters ++ [waiter], process, error⟩ : Batch α).answers app := by
  obtain ⟨waiters, first, code⟩ := current
  cases waiters with
  | nil => rfl
  | cons =>
      obtain ⟨rfl, rfl⟩ := same (List.cons_ne_nil _ _)
      simp [Batch.answers]

namespace InBatches

variable {app : α} {rest : List (Call α)}

/-- Outside a traversal all batches are complete. -/
theorem complete (inBatches : InBatches state past app) (outside : state.answering app = false) :
    ∃ batches : List (Batch α), traffic app past =
      batches.flatMap (Batch.events app) ++ (state.apps app).callbacks.map (.queued app) := by
  obtain ⟨batches, current, split, _, active⟩ := inBatches
  rw [answering_iff, List.countP_eq_zero] at outside
  have none : current.waiters = [] := by
    by_contra some
    obtain ⟨_, _, member⟩ := active some
    exact outside _ member (by simp [Call.answers])
  exact ⟨batches, by simpa [Batch.answers, none] using split⟩

/-- An app with complete batches and no callbacks answered in a traversal. -/
theorem of_complete (batches : List (Batch α))
    (split : traffic app past =
      batches.flatMap (Batch.events app) ++ (state.apps app).callbacks.map (.queued app))
    (untouched : (state.apps app).callbacks = waiting state app) : InBatches state past app :=
  ⟨batches, ⟨[], none, 0⟩, by simpa [Batch.answers] using split, untouched,
    fun some => absurd rfl some⟩

theorem queue (inBatches : InBatches state past app)
    (move : Move config state .call following out) {callback : AfterProcessCheck α}
    (pending : state.todo = .require app callback :: rest)
    (outside : state.answering app = false) : InBatches following (past ++ out) app := by
  obtain ⟨batches, split⟩ := inBatches.complete outside
  have alone := not_mem_of_answering pending outside
  cases move
  case queueMore top _ | queueFirst top _ =>
    cases pending.symm.trans top
    apply of_complete batches
    · rw [traffic_append, split, traffic_queued]
      simp
    · simp [waiting, left_none alone, List.findSome?_cons, Call.left?]
  all_goals cases pending.symm.trans ‹state.todo = _ :: _›

theorem clear (inBatches : InBatches state past app)
    (move : Move config state .call following out) {error : Int}
    (pending : state.todo = .clearCallbacks app error :: rest)
    (outside : state.answering app = false) : InBatches following (past ++ out) app := by
  obtain ⟨batches, split⟩ := inBatches.complete outside
  cases move
  case clearCallbacks top =>
    cases pending.symm.trans top
    apply of_complete batches
    · rw [traffic_append, split, traffic_traversalFault]
      simp
    · simp [waiting, Call.left?]
  all_goals cases pending.symm.trans ‹state.todo = _ :: _›

theorem answer (inBatches : InBatches state past app) (separate : Separate state)
    (move : Move config state .call following out) {left : List (Waiter α)} {error : Int}
    (pending : state.todo = .answer app left error :: rest) :
    InBatches following (past ++ out) app := by
  obtain ⟨batches, current, split, divided, active⟩ := inBatches
  have same (some : current.waiters ≠ []) :
      current.process = (state.apps app).process ∧ current.error = error := by
    obtain ⟨process, others, member⟩ := active some
    rw [pending, List.mem_cons] at member
    rcases member with head | below
    · exact ⟨process, (Call.answer.inj head).2.2⟩
    · exact absurd below (separate.alone pending others current.error)
  have now : waiting state app = left := by
    simp [waiting, pending, Call.left?]
  rw [now] at divided
  cases left with
  | nil =>
      cases move
      case answerEnd top =>
        cases pending.symm.trans top
        apply of_complete (batches ++ [current])
        · rw [traffic_append, split, divided]
          simp [traffic, Batch.events]
        · simp [waiting, left_none (separate.alone pending)]
      all_goals cases pending.symm.trans ‹state.todo = _ :: _›
  | cons waiter others =>
      have reported := out_of_answer move rfl pending
      have kept : (following.apps app).callbacks = (state.apps app).callbacks ∧
          (following.apps app).process = (state.apps app).process ∧
          waiting following app = others ∧ .answer app others error ∈ following.todo := by
        cases move
        case answerCaller top | answerCount top _ | answerLast top _ =>
          cases pending.symm.trans top
          simp [waiting, List.findSome?_cons, Call.left?, update_field]
        all_goals cases pending.symm.trans ‹state.todo = _ :: _›
      obtain ⟨callbacks, process, after, member⟩ := kept
      refine ⟨batches, ⟨current.waiters ++ [waiter], (state.apps app).process, error⟩, ?_, ?_,
        fun _ => ⟨process.symm, others, member⟩⟩
      · rw [← Batch.answers_snoc same, traffic_append, split, callbacks, reported]
        simp [traffic, Event.concerns]
      · rw [callbacks, divided, after]
        simp

theorem keep (inBatches : InBatches state past app)
    (move : Move config state label following out)
    (layered : Layered config state) (acyclic : Acyclic config)
    (required : ∀ callback rest, label.inner → state.todo ≠ .require app callback :: rest)
    (cleared : ∀ error rest, label.inner → state.todo ≠ .clearCallbacks app error :: rest)
    (answered : ∀ left error rest, label.inner → state.todo ≠ .answer app left error :: rest) :
    InBatches following (past ++ out) app := by
  obtain ⟨batches, current, split, divided, active⟩ := inBatches
  have callbacks : (following.apps app).callbacks = (state.apps app).callbacks := by
    rcases callbacks_of_move move app with same | ⟨_, _, rfl, pending, _⟩ | ⟨_, _, rfl, pending, _⟩
    · exact same
    · exact absurd pending (required _ _ rfl)
    · exact absurd pending (answered _ _ _ rfl)
  refine ⟨batches, current, ?_, ?_, fun some => ?_⟩
  · rw [traffic_append, traffic_nil move required answered, callbacks, split, List.append_nil]
  · rw [callbacks, waiting_kept move required cleared answered, divided]
  · obtain ⟨process, left, member⟩ := active some
    exact ⟨process.trans (process_kept_inside move layered acyclic member).symm,
      left, answer_kept move member answered⟩

theorem of_move (inBatches : InBatches state past app)
    (move : Move config state label following out) (separate : Separate state)
    (layered : Layered config state) (acyclic : Acyclic config) :
    InBatches following (past ++ out) app := by
  have outside : Manager.outsideTraversals state label := layered.outsideTraversals acyclic
  by_cases required : ∃ callback rest, label.inner ∧ state.todo = .require app callback :: rest
  · obtain ⟨callback, rest, inner, pending⟩ := required
    obtain rfl := call_of_inner move inner pending (by simp)
    exact inBatches.queue move pending (by simpa [Manager.outsideTraversals, pending] using outside)
  by_cases cleared : ∃ error rest, label.inner ∧ state.todo = .clearCallbacks app error :: rest
  · obtain ⟨error, rest, inner, pending⟩ := cleared
    obtain rfl := call_of_inner move inner pending (by simp)
    exact inBatches.clear move pending (by simpa [Manager.outsideTraversals, pending] using outside)
  by_cases answered : ∃ left error rest, label.inner ∧ state.todo = .answer app left error :: rest
  · obtain ⟨left, error, rest, inner, pending⟩ := answered
    obtain rfl := call_of_inner move inner pending (by simp)
    exact inBatches.answer separate move pending
  simp only [not_exists, not_and] at required cleared answered
  exact inBatches.keep move layered acyclic required cleared answered

end InBatches

end Nexer.Manager
