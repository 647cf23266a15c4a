import Nexer.Manager.Moves

/-!
# What each step changes

For every part of the state that the invariants speak about: the steps that
change it, the call they make, and the value that they leave.  `Makes` and
`Delivers` say which calls a call makes in its place, and which calls an event
of the loop begins with.
-/

namespace Nexer.Manager

variable {α : Type} [DecidableEq α] {config : α → AppConfig α}
variable {state following : State α} {label : Label α} {out : List (Event α)}

/-- The labels of a running handler. -/
def Label.inner : Label α → Bool
  | .call | .spawn _ => true
  | _ => false

/-- The calls with which a handler replaces the call that it is making. -/
inductive Makes (config : α → AppConfig α) (state : State α) (label : Label α)
    (following : State α) :
    Call α → List (Call α) → Prop where
  | nothing {head : Call α} : Makes config state label following head []
  | check {app : α} {callback : AfterProcessCheck α} :
      Makes config state label following (.require app callback) [.check app (.required app)]
  | unchecked {app : α} {next : CheckThen α} (unchecked : (config app).checker = none) :
      Makes config state label following (.check app next) [.checked next 0]
  | checker {app : α} {next : CheckThen α} (has_checker : (config app).checker.isSome)
      (created : following.roleOf state.nextPid = some (.checker app next)) :
      Makes config state label following (.check app next)
        [.processStart state.nextPid (.checker app next),
          .onProcessStart state.nextPid, .endCheck state.nextPid]
  | requiredClear {app : α}
      (satisfied : (config app).checker.isSome ∨ (state.apps app).process ≠ none) :
      Makes config state label following (.checked (.required app) 0) [.clearCallbacks app 0]
  | requiredStart {app : α} {error : Int} (untracked : (state.apps app).process = none) :
      Makes config state label following (.checked (.required app) error) [.start app]
  | startedClear {app : α} {timer : TimerId} {error : Int} :
      Makes config state label following (.checked (.started app timer) error)
        [.clearCallbacks app error, .setChecking app false]
  | ready {app : α} (alone : (config app).preamble = [])
      (none_left : (following.apps app).pendingPreamble = 0)
      (opened : (following.apps app).rounds = (state.apps app).rounds + 1) :
      Makes config state label following (.start app) [.prepared app ((state.apps app).rounds + 1) 0]
  | preambles {app : α}
      (opened : (following.apps app).rounds = (state.apps app).rounds + 1) :
      Makes config state label following (.start app) ((config app).preamble.map fun other =>
        .require other (.preamble app ((state.apps app).rounds + 1)))
  | preparedClear {app : α} {round : Nat} {error : Int} (failed : error ≠ 0) :
      Makes config state label following (.prepared app round error) [.clearCallbacks app error]
  | main {app : α} {round : Nat}
      (created : following.roleOf state.nextPid = some (.main app round))
      (latest : (following.apps app).latestMain = some state.nextPid)
      (tracked : (following.apps app).process = some state.nextPid) :
      Makes config state label following (.prepared app round 0)
        [.processStart state.nextPid (.main app round), .onProcessStart state.nextPid]
  | pipe {pid : Pid} {role : Role α} {error : Int}
      (spawning : ∃ result, label = .spawn result ∧ result.pipe = error) (failed : error ≠ 0)
      (unspawned : following.spawnedAt pid = state.spawnedAt pid) :
      Makes config state label following (.processStart pid role)
        [.onError pid role error, .onExit pid role .unstarted]
  | spawn {pid : Pid} {role : Role α} {error : Int} (failed : error ≠ 0)
      (unspawned : following.spawnedAt pid = state.spawnedAt pid) :
      Makes config state label following (.processStart pid role)
        [.onError pid role error, .onProcessExit pid]
  | unread {pid : Pid} {role : Role α} {error : Int} (failed : error ≠ 0) :
      Makes config state label following (.processStart pid role) [.onError pid role error, .kill pid]
  | errorMain {pid : Pid} {app : α} {round : Nat} {error : Int} :
      Makes config state label following (.onError pid (.main app round) error) [.clearCallbacks app error]
  | errorChecker {pid : Pid} {app : α} {next : CheckThen α} {error : Int} :
      Makes config state label following (.onError pid (.checker app next) error) [.checked next error]
  | restart {pid : Pid} {app : α} {round : Nat} {termination : Termination}
      (again : (state.apps app).restart = true) :
      Makes config state label following (.onExit pid (.main app round) termination) [.start app]
  | exitClear {pid : Pid} {app : α} {round : Nat} {termination : Termination}
      (failed : termination.status ≠ 0) (unchecked : (config app).checker = none) :
      Makes config state label following (.onExit pid (.main app round) termination)
        [.clearCallbacks app termination.status]
  | exitChecker {pid : Pid} {app : α} {next : CheckThen α} {termination : Termination} :
      Makes config state label following (.onExit pid (.checker app next) termination)
        [.checked next termination.status]
  | answers {app : α} {error : Int} :
      Makes config state label following (.clearCallbacks app error)
        [.answer app (state.apps app).callbacks error]
  | answer {app : α} {waiter : Waiter α} {others : List (Waiter α)} {error : Int} :
      Makes config state label following (.answer app (waiter :: others) error) [.answer app others error]
  | last {app upper : α} {ticket round : Nat} {others : List (Waiter α)} {error : Int}
      (last : (state.apps upper).pendingPreamble = 1)
      (done : (following.apps upper).pendingPreamble = 0) :
      Makes config state label following (.answer app (⟨ticket, .preamble upper round⟩ :: others) error)
        [.prepared upper round (following.apps upper).errorPreamble, .answer app others error]

/-- The calls with which the handler of an event of the loop begins. -/
inductive Delivers (state : State α) : Label α → List (Call α) → Prop where
  | require {app : α} {tag : Nat} :
      Delivers state (.require app tag) [.require app (.caller tag)]
  | onError {pid : Pid} {fd : Nat} {nread : Int} {buffer : List UInt8} {proc : Proc α}
      (live : state.procs pid = some proc) (running : proc.phase = .running)
      (failed : nread ≤ 0 ∧ nread ≠ uvEof) :
      Delivers state (.read pid fd nread buffer) [.onError pid proc.role nread]
  | onExit {pid : Pid} {termination : Termination} {proc : Proc α}
      (live : state.procs pid = some proc) (closing : proc.phase = .closing termination) :
      Delivers state (.closed pid) [.onExit pid proc.role termination]
  | check {timer : TimerId} {entry : StartTimer α}
      (live : state.timers timer = some entry)
      (waiting : (state.apps entry.app).callbacks ≠ []) :
      Delivers state (.tick timer)
        [.check entry.app (.started entry.app timer), .setChecking entry.app true]

theorem todo_of_move (move : Move config state label following out) :
    (label.inner = false ∧ following.todo = state.todo) ∨
    (∃ head rest calls, label.inner ∧ state.todo = head :: rest ∧ following.todo = calls ++ rest ∧
      Makes config state label following head calls) ∨
    (∃ calls, state.todo = [] ∧ following.todo = calls ∧ Delivers state label calls) := by
  cases move
  case clock | readData | readEnd | exited | timeout | tickIdle | tickBusy | timerClosed =>
    exact .inl ⟨rfl, rfl⟩
  case required idle => exact .inr (.inr ⟨_, idle, by rw [State.call_todo, idle, List.append_nil], .require⟩)
  case readError idle live running failed =>
    exact .inr (.inr ⟨_, idle, by rw [State.call_todo, idle, List.append_nil], .onError live running failed⟩)
  case closed idle live closing =>
    exact .inr (.inr ⟨_, idle, by rw [State.call_todo, idle, List.append_nil], .onExit live closing⟩)
  case tickCheck idle live _ waiting _ =>
    exact .inr (.inr ⟨_, idle, by rw [State.call_todo, idle, List.append_nil], .check live waiting⟩)
  case queueFirst pending _ => exact .inr (.inl ⟨_, _, _, rfl, pending, rfl, .check⟩)
  case checkNone pending unchecked =>
    exact .inr (.inl ⟨_, _, _, rfl, pending, rfl, .unchecked unchecked⟩)
  case checkSome pending has_checker =>
    exact .inr (.inl ⟨_, _, _, rfl, pending, rfl,
      .checker (by simp [has_checker]) (by simp [State.roleOf])⟩)
  case requiredClear pending satisfied =>
    exact .inr (.inl ⟨_, _, _, rfl, pending, rfl, .requiredClear satisfied⟩)
  case requiredStart pending untracked _ =>
    exact .inr (.inl ⟨_, _, _, rfl, pending, rfl, .requiredStart untracked⟩)
  case startedClear pending _ => exact .inr (.inl ⟨_, _, _, rfl, pending, rfl, .startedClear⟩)
  case startReady pending alone =>
    exact .inr (.inl ⟨_, _, _, rfl, pending, rfl, .ready alone (by simp) (by simp)⟩)
  case startWaiting pending _ =>
    exact .inr (.inl ⟨_, _, _, rfl, pending, rfl, .preambles (by simp)⟩)
  case preparedClear pending failed =>
    exact .inr (.inl ⟨_, _, _, rfl, pending, rfl, .preparedClear failed⟩)
  case preparedStart pending =>
    exact .inr (.inl ⟨_, _, _, rfl, pending, rfl, .main (by simp [State.roleOf]) (by simp) (by simp)⟩)
  case spawnPipe pid _ _ _ pending failed =>
    refine .inr (.inl ⟨_, _, _, rfl, pending, rfl, .pipe ⟨_, rfl, rfl⟩ failed ?_⟩)
    cases there : state.procs pid <;> simp [State.spawnedAt, there]
  case spawnFail pid _ _ _ pending _ failed =>
    refine .inr (.inl ⟨_, _, _, rfl, pending, rfl, .spawn failed ?_⟩)
    cases there : state.procs pid <;> simp [State.spawnedAt, there]
  case spawnUnread pending _ _ failed _ =>
    exact .inr (.inl ⟨_, _, _, rfl, pending, rfl, .unread failed⟩)
  case errorMain pending => exact .inr (.inl ⟨_, _, _, rfl, pending, rfl, .errorMain⟩)
  case errorChecker pending => exact .inr (.inl ⟨_, _, _, rfl, pending, rfl, .errorChecker⟩)
  case exitRestart pending _ again =>
    exact .inr (.inl ⟨_, _, _, rfl, pending, rfl, .restart again⟩)
  case exitClear pending failed _ unchecked =>
    exact .inr (.inl ⟨_, _, _, rfl, pending, rfl, .exitClear failed unchecked⟩)
  case exitChecker pending => exact .inr (.inl ⟨_, _, _, rfl, pending, rfl, .exitChecker⟩)
  case clearCallbacks pending => exact .inr (.inl ⟨_, _, _, rfl, pending, rfl, .answers⟩)
  case answerCaller pending | answerCount pending _ =>
    exact .inr (.inl ⟨_, _, _, rfl, pending, rfl, .answer⟩)
  case answerLast app upper ticket round others error rest pending last =>
    refine .inr (.inl ⟨_, _, [_, _], rfl, pending, ?_, .last last ?_⟩)
    · simp
    · simp [last]
  all_goals exact .inr (.inl ⟨_, _, [], rfl, ‹_›, rfl, .nothing⟩)

/-- What holds of every pending call, when it is kept and passed on to the calls
that are made. -/
theorem forall_todo_of_move {Before After : Call α → Prop}
    (move : Move config state label following out)
    (holds : ∀ call ∈ state.todo, Before call)
    (keep : ∀ call ∈ state.todo, Before call → After call)
    (makes : ∀ head ∈ state.todo, ∀ calls, Before head → Makes config state label following head calls →
      ∀ call ∈ calls, After call)
    (delivers : ∀ calls, Delivers state label calls → ∀ call ∈ calls, After call) :
    ∀ call ∈ following.todo, After call := by
  intro call member
  rcases todo_of_move move with ⟨_, same⟩ | ⟨head, rest, calls, _, pending, after, made⟩ |
    ⟨calls, _, after, delivered⟩
  · rw [same] at member
    exact keep call member (holds call member)
  · have first : head ∈ state.todo := by simp [pending]
    rw [after, List.mem_append] at member
    rcases member with member | member
    · exact makes head first calls (holds head first) made call member
    · have below : call ∈ state.todo := by simp [pending, member]
      exact keep call below (holds call below)
  · rw [after] at member
    exact delivers calls delivered call member

theorem callbacks_of_move (move : Move config state label following out) (app : α) :
    (following.apps app).callbacks = (state.apps app).callbacks ∨
    (∃ callback rest, label = .call ∧ state.todo = .require app callback :: rest ∧
      .queued app ⟨state.tickets, callback⟩ ∈ out ∧
      following.tickets = state.tickets + 1 ∧
      (following.apps app).callbacks =
        (state.apps app).callbacks ++ [⟨state.tickets, callback⟩]) ∨
    (∃ error rest, label = .call ∧ state.todo = .answer app [] error :: rest ∧
      (following.apps app).callbacks = []) := by
  cases move
  case queueMore other callback rest pending _ | queueFirst other callback rest pending _ =>
    by_cases same : app = other
    · subst same
      exact .inr (.inl ⟨callback, rest, rfl, pending, by simp, rfl, by simp⟩)
    · exact .inl (by simp [same])
  case answerEnd other error rest pending =>
    by_cases same : app = other
    · subst same
      exact .inr (.inr ⟨error, rest, rfl, pending, by simp⟩)
    · exact .inl (by simp [same])
  all_goals
    refine .inl ?_
    first
    | rfl
    | exact update_field App.callbacks (by rfl)

/-- A step that makes no `Require` call queues nothing. -/
theorem callbacks_subset (move : Move config state label following out) {app : α}
    (other : ∀ callback rest, label = .call → state.todo ≠ .require app callback :: rest) :
    (following.apps app).callbacks ⊆ (state.apps app).callbacks := by
  rcases callbacks_of_move move app with same | ⟨callback, rest, called, pending, _⟩ |
    ⟨_, _, _, _, cleared⟩
  · exact same ▸ List.Subset.refl _
  · exact absurd pending (other callback rest called)
  · simp [cleared]

theorem process_of_move (move : Move config state label following out) (app : α) :
    (following.apps app).process = (state.apps app).process ∨
    (∃ round rest, state.todo = .prepared app round 0 :: rest ∧
      following.todo = .processStart state.nextPid (.main app round) ::
        .onProcessStart state.nextPid :: rest ∧
      (following.apps app).process = some state.nextPid ∧
      (following.apps app).latestMain = some state.nextPid ∧
      following.roleOf state.nextPid = some (.main app round)) ∨
    (∃ pid round error rest, state.todo = .onError pid (.main app round) error :: rest ∧
      (following.apps app).process = none) ∨
    (∃ pid round termination rest, label = .call ∧
      state.todo = .onExit pid (.main app round) termination :: rest ∧
      (following.apps app).process = none) := by
  cases move
  case preparedStart other round rest pending =>
    by_cases same : app = other
    · subst same
      exact .inr (.inl ⟨round, rest, pending, rfl, by simp, by simp, by simp [State.roleOf]⟩)
    · exact .inl (by simp [same])
  case errorMain pid other round error rest pending =>
    by_cases same : app = other
    · subst same
      exact .inr (.inr (.inl ⟨pid, round, error, rest, pending, by simp⟩))
    · exact .inl (by simp [same])
  case exitRestart pid other round termination rest pending _ _
      | exitClear pid other round termination rest pending _ _ _
      | exitDrop pid other round termination rest pending _ =>
    by_cases same : app = other
    · subst same
      exact .inr (.inr (.inr ⟨pid, round, termination, rest, rfl, pending, by simp⟩))
    · exact .inl (by simp [same])
  all_goals
    refine .inl ?_
    first
    | rfl
    | exact update_field App.process (by rfl)

/-- The events of the loop and the clock leave the apps to the calls they lead to. -/
theorem apps_outer (move : Move config state label following out)
    (outer : label.inner = false) : following.apps = state.apps := by
  cases move
  all_goals
    first
    | rfl
    | cases outer

/-- Every call but `Process::Start` is made by the label `call`. -/
theorem call_of_inner (move : Move config state label following out) (inner : label.inner)
    {head : Call α} {rest : List (Call α)} (pending : state.todo = head :: rest)
    (other : ∀ pid role, head ≠ .processStart pid role) : label = .call := by
  cases label with
  | call => rfl
  | spawn => cases move <;> exact absurd (List.cons.inj (pending.symm.trans ‹_›)).1 (other _ _)
  | _ => cases inner

/-- The exit callback of any main process drops the pointer to the tracked one. -/
theorem process_of_exit (move : Move config state label following out)
    (inner : label.inner) {pid : Pid} {app : α} {round : Nat} {termination : Termination} {rest : List (Call α)}
    (head : state.todo = .onExit pid (.main app round) termination :: rest) :
    (following.apps app).process = none := by
  cases move
  case exitRestart pending _ _ | exitClear pending _ _ _ | exitDrop pending _ =>
    cases head.symm.trans pending
    simp
  all_goals try cases inner
  all_goals cases head.symm.trans ‹state.todo = _ :: _›

/-- So does the error callback. -/
theorem process_of_error (move : Move config state label following out)
    (inner : label.inner) {pid : Pid} {app : α} {round : Nat} {error : Int}
    {rest : List (Call α)} (head : state.todo = .onError pid (.main app round) error :: rest) :
    (following.apps app).process = none := by
  cases move
  case errorMain pending =>
    cases head.symm.trans pending
    simp
  all_goals try cases inner
  all_goals cases head.symm.trans ‹state.todo = _ :: _›

/-- The exit callback ends with the destruction of the process object. -/
theorem gone_of_exit (move : Move config state label following out) (inner : label.inner)
    {pid : Pid} {role : Role α} {termination : Termination} {rest : List (Call α)}
    (head : state.todo = .onExit pid role termination :: rest) :
    following.procs pid = none := by
  cases move
  case exitRestart pending _ _ | exitClear pending _ _ _ | exitDrop pending _
      | exitChecker pending =>
    cases head.symm.trans pending
    simp
  all_goals try cases inner
  all_goals cases head.symm.trans ‹state.todo = _ :: _›

theorem restart_of_move (move : Move config state label following out) (app : α) :
    (following.apps app).restart = (state.apps app).restart ∨
    (∃ pid error rest, state.todo = .checked (.required app) error :: rest ∧
      (state.apps app).process = some pid ∧ error ≠ 0 ∧
      (following.apps app).restart = true) ∨
    (∃ pid round termination rest,
      state.todo = .onExit pid (.main app round) termination :: rest ∧
      termination.status ≠ 0 ∧ (following.apps app).restart = false) := by
  cases move
  case requiredKill other error pid rest pending tracked failed =>
    by_cases same : app = other
    · subst same
      exact .inr (.inl ⟨pid, error, rest, pending, tracked, failed, by simp⟩)
    · exact .inl (by simp [same])
  case exitRestart pid other round termination rest pending failed _ =>
    by_cases same : app = other
    · subst same
      exact .inr (.inr ⟨pid, round, termination, rest, pending, failed, by simp⟩)
    · exact .inl (by simp [same])
  all_goals
    refine .inl ?_
    first
    | rfl
    | exact update_field App.restart (by rfl)

/-- `Start` opens a round with the counter at the number of preambles; each
answer counts it down, whichever round it belongs to. -/
theorem preamble_of_move (move : Move config state label following out) (app : α) :
    ((following.apps app).rounds = (state.apps app).rounds ∧
      (following.apps app).pendingPreamble = (state.apps app).pendingPreamble ∧
      (following.apps app).errorPreamble = (state.apps app).errorPreamble) ∨
    (∃ rest, state.todo = .start app :: rest ∧
      (following.apps app).rounds = (state.apps app).rounds + 1 ∧
      (following.apps app).pendingPreamble = (config app).preamble.length ∧
      (following.apps app).errorPreamble = 0) ∨
    (∃ lower ticket round others error rest,
      state.todo = .answer lower (⟨ticket, .preamble app round⟩ :: others) error :: rest ∧
      (following.apps app).rounds = (state.apps app).rounds ∧
      (following.apps app).pendingPreamble = (state.apps app).pendingPreamble - 1 ∧
      (following.apps app).errorPreamble =
        (state.apps app).errorPreamble + if error ≠ 0 then 1 else 0) := by
  cases move
  case startReady other rest pending alone | startWaiting other rest pending _ =>
    by_cases same : app = other
    · subst same
      exact .inr (.inl ⟨rest, pending, by simp [*]⟩)
    · exact .inl (by simp [same])
  case answerCount lower upper ticket round others error rest pending _
      | answerLast lower upper ticket round others error rest pending _ =>
    by_cases same : app = upper
    · subst same
      exact .inr (.inr ⟨lower, ticket, round, others, error, rest, pending, by simp⟩)
    · exact .inl (by simp [same])
  all_goals
    refine .inl ?_
    first
    | exact ⟨rfl, rfl, rfl⟩
    | exact ⟨update_field App.rounds (by rfl), update_field App.pendingPreamble (by rfl),
        update_field App.errorPreamble (by rfl)⟩

theorem latestMain_of_move (move : Move config state label following out) (app : α) :
    ((following.apps app).latestMain = (state.apps app).latestMain ∧
      (following.apps app).mainTicket = (state.apps app).mainTicket) ∨
    (∃ round rest, state.todo = .prepared app round 0 :: rest ∧
      following.todo = .processStart state.nextPid (.main app round) ::
        .onProcessStart state.nextPid :: rest ∧
      (following.apps app).process = some state.nextPid ∧
      (following.apps app).latestMain = some state.nextPid ∧
      (following.apps app).mainTicket = state.tickets ∧
      following.nextPid = state.nextPid + 1 ∧
      following.roleOf state.nextPid = some (.main app round)) := by
  cases move
  case preparedStart other round rest pending =>
    by_cases same : app = other
    · subst same
      exact .inr ⟨round, rest, pending, rfl, by simp [State.roleOf]⟩
    · exact .inl (by simp [same])
  all_goals
    refine .inl ?_
    first
    | exact ⟨rfl, rfl⟩
    | exact ⟨update_field App.latestMain (by rfl), update_field App.mainTicket (by rfl)⟩

/-- A process object keeps its role until its exit callback destroys it. -/
theorem roleOf_of_move (move : Move config state label following out) (pid : Pid) :
    following.roleOf pid = state.roleOf pid ∨
    (pid = state.nextPid ∧ following.nextPid = state.nextPid + 1 ∧
      ((∃ app next rest, state.todo = .check app next :: rest ∧
          (config app).checker.isSome ∧
          following.roleOf pid = some (.checker app next)) ∨
        ∃ app round rest, state.todo = .prepared app round 0 :: rest ∧
          following.roleOf pid = some (.main app round))) ∨
    (∃ role termination rest, label = .call ∧
      state.todo = .onExit pid role termination :: rest ∧
      following.roleOf pid = none) := by
  cases move
  case checkSome app next rest checker pending has_checker =>
    by_cases same : pid = state.nextPid
    · subst same
      exact .inr (.inl ⟨rfl, rfl, .inl ⟨app, next, rest, pending, by simp [has_checker],
        by simp [State.roleOf]⟩⟩)
    · exact .inl (by simp [State.roleOf, same])
  case preparedStart app round rest pending =>
    by_cases same : pid = state.nextPid
    · subst same
      exact .inr (.inl ⟨rfl, rfl, .inr ⟨app, round, rest, pending, by simp [State.roleOf]⟩⟩)
    · exact .inl (by simp [State.roleOf, same])
  case exitRestart other app round termination rest pending _ _
      | exitClear other app round termination rest pending _ _ _
      | exitDrop other app round termination rest pending _ =>
    by_cases same : pid = other
    · subst same
      exact .inr (.inr ⟨_, _, _, rfl, pending, by simp [State.roleOf]⟩)
    · exact .inl (by simp [State.roleOf, same])
  case exitChecker other app next termination rest pending =>
    by_cases same : pid = other
    · subst same
      exact .inr (.inr ⟨_, _, _, rfl, pending, by simp [State.roleOf]⟩)
    · exact .inl (by simp [State.roleOf, same])
  case spawnPipe other role result rest pending _ | spawnFail other role result rest pending _ _
      | spawnUnread other role result error rest pending _ _ _ _
      | spawnDone other role result rest pending _ _ | endCheck other rest pending
      | onProcessExit other rest pending =>
    refine .inl ?_
    by_cases same : pid = other
    · subst same
      simp [State.roleOf, Function.comp_def]
    · simp [State.roleOf, same]
  case exited other termination proc idle live running =>
    refine .inl ?_
    by_cases same : pid = other
    · subst same
      simp [State.roleOf, live]
    · simp [State.roleOf, same]
  all_goals exact .inl rfl

/-- A process object is marked as spawned by its `Process::Start` only. -/
theorem spawnedAt_of_move (move : Move config state label following out) (pid : Pid) :
    following.spawnedAt pid = state.spawnedAt pid ∨
    (pid = state.nextPid ∧ following.spawnedAt pid = false) ∨
    (∃ result role rest, label = .spawn result ∧
      state.todo = .processStart pid role :: rest ∧ result.pipe = 0 ∧ result.spawn = 0 ∧
      out = [.spawned pid role] ∧
      following.spawnedAt pid = (state.procs pid).isSome) ∨
    (∃ role termination rest, label = .call ∧
      state.todo = .onExit pid role termination :: rest ∧
      following.spawnedAt pid = false) := by
  cases move
  case checkSome | preparedStart =>
    by_cases same : pid = state.nextPid
    · subst same
      exact .inr (.inl ⟨rfl, by simp [State.spawnedAt]⟩)
    · exact .inl (by simp [State.spawnedAt, same])
  case spawnUnread other role result error rest pending piped forked _ _
      | spawnDone other role result rest pending piped forked =>
    by_cases same : pid = other
    · subst same
      refine .inr (.inr (.inl ⟨result, role, rest, rfl, pending, piped, forked, rfl, ?_⟩))
      cases there : state.procs pid <;> simp [State.spawnedAt, there]
    · exact .inl (by simp [State.spawnedAt, same])
  case exitRestart other _ _ _ _ pending _ _ | exitClear other _ _ _ _ pending _ _ _
      | exitDrop other _ _ _ _ pending _ | exitChecker other _ _ _ _ pending =>
    by_cases same : pid = other
    · subst same
      exact .inr (.inr (.inr ⟨_, _, _, rfl, pending, by simp [State.spawnedAt]⟩))
    · exact .inl (by simp [State.spawnedAt, same])
  case spawnPipe other role result rest pending _ | spawnFail other role result rest pending _ _
      | endCheck other rest pending | onProcessExit other rest pending =>
    refine .inl ?_
    by_cases same : pid = other
    · subst same
      cases there : state.procs pid <;> simp [State.spawnedAt, there]
    · simp [State.spawnedAt, same]
  case exited other termination proc idle live running =>
    refine .inl ?_
    by_cases same : pid = other
    · subst same
      simp [State.spawnedAt, live]
    · simp [State.spawnedAt, same]
  all_goals exact .inl rfl

/-- Between two handlers no process object is marked. -/
theorem unspawned_outer (move : Move config state label following out)
    (outer : label.inner = false) {pid : Pid} (no : state.spawnedAt pid = false) :
    following.spawnedAt pid = false := by
  rcases spawnedAt_of_move move pid with kept | ⟨_, no⟩ | ⟨_, _, _, rfl, _⟩ | ⟨_, _, _, rfl, _⟩
  · exact kept.trans no
  · exact no
  · cases outer
  · cases outer

/-- A start-up timer is made by `Start`, closed by its own closures, and
destroyed by its close callback. -/
theorem timers_of_move (move : Move config state label following out) (timer : TimerId) :
    following.timers timer = state.timers timer ∨
    (timer = state.nextTimer ∧ following.nextTimer = state.nextTimer + 1 ∧
      ∃ app round rest, state.todo = .prepared app round 0 :: rest ∧
        following.timers timer = some { app }) ∨
    (((∃ app error rest, state.todo = .checked (.started app timer) error :: rest ∧
          following.todo =
            .clearCallbacks app error :: .setChecking app false :: rest) ∨
        ∃ entry, state.todo = [] ∧ state.timers timer = some entry ∧
          (state.apps entry.app).callbacks = []) ∧
      following.timers timer =
        (state.timers timer).map fun entry => { entry with phase := .closing }) ∨
    (state.todo = [] ∧ (∃ entry, state.timers timer = some entry ∧ entry.phase = .closing) ∧
      following.timers timer = none) := by
  cases move
  case preparedStart app round rest pending =>
    by_cases same : timer = state.nextTimer
    · subst same
      exact .inr (.inl ⟨rfl, rfl, app, round, rest, pending, by simp⟩)
    · exact .inl (by simp [same])
  case startedClear app other error rest pending completed =>
    by_cases same : timer = other
    · subst same
      exact .inr (.inr (.inl ⟨.inl ⟨app, error, rest, pending, rfl⟩, by simp⟩))
    · exact .inl (by simp [same])
  case tickIdle other entry idle live running none_waiting =>
    by_cases same : timer = other
    · subst same
      exact .inr (.inr (.inl ⟨.inr ⟨entry, idle, live, none_waiting⟩, by simp⟩))
    · exact .inl (by simp [same])
  case timerClosed other entry idle live closing =>
    by_cases same : timer = other
    · subst same
      exact .inr (.inr (.inr ⟨idle, ⟨entry, live, closing⟩, by simp⟩))
    · exact .inl (by simp [same])
  all_goals exact .inl rfl

/-- Only `Require` takes a ticket. -/
theorem tickets_of_move (move : Move config state label following out) :
    following.tickets = state.tickets ∨
    (∃ app callback rest, state.todo = .require app callback :: rest ∧
      following.tickets = state.tickets + 1) := by
  cases move
  case queueMore pending _ | queueFirst pending _ => exact .inr ⟨_, _, _, pending, rfl⟩
  all_goals exact .inl rfl

theorem nextPid_of_move (move : Move config state label following out) :
    state.nextPid ≤ following.nextPid := by
  cases move <;> first | exact Nat.le_refl _ | exact Nat.le_succ _

theorem nextTimer_of_move (move : Move config state label following out) :
    state.nextTimer ≤ following.nextTimer := by
  cases move <;> first | exact Nat.le_refl _ | exact Nat.le_succ _

theorem rounds_of_move (move : Move config state label following out) (app : α) :
    (state.apps app).rounds ≤ (following.apps app).rounds := by
  rcases preamble_of_move move app with ⟨same, _⟩ | ⟨_, _, more, _⟩ |
    ⟨_, _, _, _, _, _, _, same, _⟩ <;> omega

end Nexer.Manager
