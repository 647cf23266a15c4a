import Nexer.Manager.Frames

/-!
# What each step reports

Every event of a history names the call that reported it.
-/

namespace Nexer.Manager

variable {α : Type} [DecidableEq α] {config : α → AppConfig α}
variable {state following : State α} {label : Label α} {out : List (Event α)}

theorem traversalFault_fault {app : α} {event : Event α}
    (member : event ∈ state.traversalFault app) : event = .fault (.liveVector app) := by
  unfold State.traversalFault at member
  split at member <;> simp_all

/-- The pending call and the label with which an event is reported. -/
def Reported (state : State α) (label : Label α) : Event α → Prop
  | .queued app waiter => ∃ rest, state.todo = .require app waiter.callback :: rest ∧
      waiter.ticket = state.tickets ∧ label = .call
  | .answered app waiter process error => label = .call ∧
      process = (state.apps app).process ∧ ∃ others rest, state.todo = .answer app (waiter :: others) error :: rest
  | .start app round => round = (state.apps app).rounds + 1 ∧
      ∃ rest, state.todo = .start app :: rest
  | .prepared app round error => ∃ rest, state.todo = .prepared app round error :: rest
  | .spawned pid role => ∃ result rest, label = .spawn result ∧
      result.pipe = 0 ∧ result.spawn = 0 ∧ state.todo = .processStart pid role :: rest
  | .unspawned pid role => ∃ result rest, label = .spawn result ∧
      (result.pipe ≠ 0 ∨ result.spawn ≠ 0) ∧ state.todo = .processStart pid role :: rest
  | .ended pid role termination => label = .call ∧
      ∃ rest, state.todo = .onExit pid role termination :: rest
  | _ => True

theorem reported_of_move (move : Move config state label following out) :
    ∀ event ∈ out, Reported state label event := by
  intro event member
  cases move
  case queueMore pending _ | queueFirst pending _ =>
    rcases List.mem_cons.mp member with rfl | member
    · exact ⟨_, pending, rfl, rfl⟩
    · cases traversalFault_fault member
      trivial
  case clearCallbacks =>
    cases traversalFault_fault member
    trivial
  case answerCaller pending | answerCount pending _ | answerLast pending _ =>
    cases List.mem_singleton.mp member
    exact ⟨rfl, rfl, _, _, pending⟩
  case startReady pending _ | startWaiting pending _ =>
    cases List.mem_singleton.mp member
    exact ⟨rfl, _, pending⟩
  case preparedClear pending _ | preparedStart pending =>
    cases List.mem_singleton.mp member
    exact ⟨_, pending⟩
  case spawnUnread pending piped forked _ _ | spawnDone pending piped forked =>
    cases List.mem_singleton.mp member
    exact ⟨_, _, rfl, piped, forked, pending⟩
  case spawnPipe pending failed =>
    cases List.mem_singleton.mp member
    exact ⟨_, _, rfl, .inl failed, pending⟩
  case spawnFail pending _ failed =>
    cases List.mem_singleton.mp member
    exact ⟨_, _, rfl, .inr failed, pending⟩
  case exitRestart pending _ _ | exitClear pending _ _ _ | exitDrop pending _
      | exitChecker pending =>
    simp only [List.mem_cons, List.not_mem_nil, or_false] at member
    rcases member with rfl | rfl
    · exact ⟨rfl, _, pending⟩
    · trivial
  case errorChecker =>
    rcases List.mem_cons.mp member with rfl | member
    · trivial
    · split at member <;> simp_all [Reported]
  case startedClear | tickIdle =>
    simp only [closeTimer_snd] at member
    split at member <;> simp_all [Reported]
  all_goals
    simp_all [Reported]

/-- `Process::Start` reports whether a child was spawned, and nothing else. -/
theorem out_of_spawn {result : SpawnResult}
    (move : Move config state (.spawn result) following out) {pid : Pid} {role : Role α}
    {rest : List (Call α)} (head : state.todo = .processStart pid role :: rest) :
    (result.pipe = 0 ∧ result.spawn = 0 ∧ out = [.spawned pid role] ∧
        following.spawnedAt pid = (state.procs pid).isSome) ∨
      ((result.pipe ≠ 0 ∨ result.spawn ≠ 0) ∧ out = [.unspawned pid role] ∧
        ∃ error below, error ≠ 0 ∧ following.todo = .onError pid role error :: below) := by
  cases move
  case spawnPipe pending failed =>
    cases head.symm.trans pending
    exact .inr ⟨.inl failed, rfl, _, _, failed, rfl⟩
  case spawnFail pending _ failed =>
    cases head.symm.trans pending
    exact .inr ⟨.inr failed, rfl, _, _, failed, rfl⟩
  case spawnUnread pending _ piped forked _ | spawnDone pending piped forked =>
    cases head.symm.trans pending
    refine .inl ⟨piped, forked, rfl, ?_⟩
    cases there : state.procs pid <;> simp [State.spawnedAt, there]

/-- A turn of the loop of `ClearCallbacks` reports one answer, and nothing else. -/
theorem out_of_answer (move : Move config state label following out) (inner : label.inner)
    {app : α} {waiter : Waiter α} {others : List (Waiter α)} {error : Int}
    {rest : List (Call α)} (head : state.todo = .answer app (waiter :: others) error :: rest) :
    out = [.answered app waiter (state.apps app).process error] := by
  cases move
  case answerCaller pending | answerCount pending _ | answerLast pending _ =>
    cases head.symm.trans pending
    rfl
  all_goals try cases inner
  all_goals cases head.symm.trans ‹state.todo = _ :: _›

/-- The exit callback of a process reports how the process ended. -/
theorem ended_of_exit (move : Move config state label following out)
    (inner : label.inner) {pid : Pid} {role : Role α} {termination : Termination}
    {rest : List (Call α)}
    (head : state.todo = .onExit pid role termination :: rest) :
    .ended pid role termination ∈ out := by
  cases move
  case exitRestart pending _ _ | exitClear pending _ _ _ | exitDrop pending _
      | exitChecker pending =>
    cases head.symm.trans pending
    simp
  all_goals try cases inner
  all_goals cases head.symm.trans ‹state.todo = _ :: _›

end Nexer.Manager
