import Nexer.Manager.Recorded
import Nexer.Transition.History
import Nexer.Transition.Observation

/-!
# The start-up limit

`require_start_time` is the time at which the continuation of `Require` last called `Start`.
The start-up timer compares it with the clock, also when the current start is the restart of
a process that a later `Require` has killed.  A run is observed with the times at which
Requires were issued beside it.
-/

namespace Nexer.Manager

open Nexer.Transition

/-- `current` and `issued` are the times at which the Requires were issued whose continuation is
being called, and whose checker a process is; `killed` and `trigger` those of the Requires that
last killed the main process of an app, and that led to its current start. -/
structure Clocks (α : Type) where
  current : UInt64 := 0
  issued : Pid → UInt64 := fun _ => 0
  killed : α → UInt64 := fun _ => 0
  trigger : α → UInt64 := fun _ => 0
  /-- The current start is the restart of a killed process. -/
  restarted : α → Bool := fun _ => false
  /-- The continuation being called was called by an exit closure. -/
  exited : Bool := false

variable {α : Type} [DecidableEq α]

def Clocks.follow (clocks : Clocks α) (state : State α) (label : Label α)
    (following : State α) : Clocks α :=
  match label with
  | .call =>
      match state.todo with
      | .require _ _ :: _ => { clocks with current := state.now }
      | .check _ _ :: _ =>
          { clocks with issued := Function.update clocks.issued state.nextPid clocks.current }
      | .onError pid (.checker _ _) _ :: _ =>
          { clocks with current := clocks.issued pid, exited := false }
      | .onExit pid (.checker _ _) _ :: _ =>
          { clocks with current := clocks.issued pid, exited := true }
      | .checked (.required app) error :: _ =>
          if error ≠ 0 ∧ (state.apps app).process ≠ none then
            { clocks with killed := Function.update clocks.killed app clocks.current }
          else if following.todo.head? = some (.start app) then
            { clocks with
              trigger := Function.update clocks.trigger app clocks.current
              restarted := Function.update clocks.restarted app false }
          else clocks
      | .onExit _ (.main app _) _ :: _ =>
          if (state.apps app).restart = true ∧ (following.apps app).restart = false then
            { clocks with
              trigger := Function.update clocks.trigger app (clocks.killed app)
              restarted := Function.update clocks.restarted app true }
          else clocks
      | _ => clocks
  | _ => clocks

/-- The clock does not go back. -/
def steady (state : State α) : Label α → Prop
  | .clock now => state.now ≤ now
  | _ => True

instance (state : State α) : ∀ label, Decidable (steady state label)
  | .clock now => inferInstanceAs (Decidable (state.now ≤ now))
  | .call | .spawn _ | .require .. | .read .. | .exited .. | .closed _ | .timeout _ | .tick _
  | .timerClosed _ => .isTrue trivial

/-- A checker that the start-up timer ran exits with a non-zero status while callbacks are queued,
so many milliseconds after `Require` last called `Start` and after the Require that led to the
current start was issued; a running start-up timer ticks while callbacks are queued. -/
inductive StartCheck (α : Type) where
  | failed (app : α) (restarted : Bool) (sinceStart sinceRequire : Nat)
      (withinTick answered retried : Bool)
  | ticked (app : α) (checked : Bool)
  deriving DecidableEq

/-- Callbacks and timer are kept, and the timer's next tick will not find a check going on. -/
def retriable (state following : State α) (app : α) (timer : TimerId) : Bool :=
  (following.apps app).callbacks = (state.apps app).callbacks ∧
    (following.timers timer).map (·.phase) = (state.timers timer).map (·.phase) ∧
    (following.apps app).checking = false ∧ .setChecking app true ∉ following.todo

def startChecks (before : State α × Clocks α) (label : Label α) (after : State α × Clocks α) :
    List (StartCheck α) :=
  let (state, clocks) := before
  match label with
  | .call =>
      match state.todo with
      | .checked (.started app timer) error :: _ =>
          if clocks.exited ∧ error ≠ 0 ∧ error ≠ noEntry ∧ (state.apps app).callbacks ≠ [] then
            [.failed app (clocks.restarted app)
              (state.now - (state.apps app).requireStartTime).toNat
              (state.now - clocks.trigger app).toNat
              (.setChecking app true ∈ state.todo)
              (after.1.todo.head? = some (.clearCallbacks app error))
              (retriable state after.1 app timer)]
          else []
      | _ => []
  | .tick timer =>
      match state.timers timer with
      | some entry =>
          if entry.phase = .running ∧ (state.apps entry.app).callbacks ≠ [] then
            [.ticked entry.app (after.1.todo ≠ [])]
          else []
      | none => []
  | _ => []

/-- The manager, observed by its start-up checks. -/
def timing (config : α → AppConfig α) :
    Machine (State α × Clocks α) (Label α) (StartCheck α) :=
  ((step config).carrying Clocks.follow).noting startChecks

/-- As long as the limit has not passed since the Require was issued, a failed start-up check is
not reported within the tick that began it, and when the current start is a restart, the limit
has not passed since `Require` last called `Start` itself. -/
def Timely (config : α → AppConfig α) : StartCheck α → Prop
  | .ticked .. => True
  | .failed app restarted sinceStart sinceRequire withinTick _ _ =>
      0 < (config app).maxStartTime → sinceRequire ≤ (config app).maxStartTime →
        withinTick = false ∧ (restarted = true → sinceStart ≤ (config app).maxStartTime)

/-- A start-up check of the app failed before the limit had passed. -/
def Early (config : α → AppConfig α) (app : α) : StartCheck α → Prop
  | .ticked .. => False
  | .failed other _ _ sinceRequire .. => other = app ∧ sinceRequire ≤ (config app).maxStartTime

/-- A failed check leads to an answer only when the limit has passed since the Require was issued;
before, it is left to be retried, and the timer's next tick checks again. -/
def OnTime (config : α → AppConfig α) (before : List (StartCheck α)) : StartCheck α → Prop
  | .failed app _ _ sinceRequire _ answered retried =>
      0 < (config app).maxStartTime →
        (answered = true → (config app).maxStartTime < sinceRequire) ∧
        (sinceRequire ≤ (config app).maxStartTime → retried = true)
  | .ticked app checked =>
      0 < (config app).maxStartTime → Outstanding (Early config app) (.ticked app true) before →
        checked = true

variable {config : α → AppConfig α} {state following : State α} {clocks : Clocks α}
variable {label : Label α} {past : List (StartCheck α)} {out : List (Event α)}

/-- All times are past. -/
structure Clocks.Past (clocks : Clocks α) (time : UInt64) : Prop where
  current : clocks.current ≤ time
  issued : ∀ pid, clocks.issued pid ≤ time
  killed : ∀ app, clocks.killed app ≤ time
  trigger : ∀ app, clocks.trigger app ≤ time

omit [DecidableEq α] in
theorem Clocks.Past.mono (dates : clocks.Past state.now) (later : state.now ≤ following.now) :
    clocks.Past following.now where
  current := UInt64.le_trans dates.current later
  issued := fun pid => UInt64.le_trans (dates.issued pid) later
  killed := fun app => UInt64.le_trans (dates.killed app) later
  trigger := fun app => UInt64.le_trans (dates.trigger app) later

theorem past_update {β : Type} [DecidableEq β] {times : β → UInt64} {time bound : UInt64} (key : β)
    (before : ∀ other, times other ≤ bound) (now : time ≤ bound) (other : β) :
    Function.update times key time other ≤ bound := by
  by_cases same : other = key
  · subst same
    simpa using now
  · simpa [same] using before other

theorem Clocks.Past.follow (dates : clocks.Past state.now) :
    (clocks.follow state label following).Past state.now := by
  have ⟨current, issued, killed, trigger⟩ := dates
  unfold Clocks.follow
  split
  · split
    · exact ⟨UInt64.le_refl _, issued, killed, trigger⟩
    · exact ⟨current, past_update _ issued current, killed, trigger⟩
    · exact ⟨issued _, issued, killed, trigger⟩
    · exact ⟨issued _, issued, killed, trigger⟩
    · split
      · exact ⟨current, issued, past_update _ killed current, trigger⟩
      · split
        · exact ⟨current, issued, killed, past_update _ trigger current⟩
        · exact dates
    · split
      · exact ⟨current, issued, killed, past_update _ trigger (killed _)⟩
      · exact dates
    · exact dates
  · exact dates

theorem now_of_move (move : Move config state label following out) (allowed : steady state label) :
    state.now ≤ following.now := by
  cases move
  case clock => exact allowed
  all_goals exact UInt64.le_refl _

/-- The start time of an app is written by the continuation of `Require` only, together with
the time at which that Require was issued; a restart leaves it as it is. -/
theorem startTime_of_move (clocks : Clocks α)
    (move : Move config state label following out) (app : α) :
    ((following.apps app).requireStartTime = state.now ∧
        (clocks.follow state label following).trigger app = clocks.current) ∨
      ((following.apps app).requireStartTime = (state.apps app).requireStartTime ∧
        ((clocks.follow state label following).restarted app = true ∨
          (clocks.follow state label following).restarted app = clocks.restarted app ∧
            (clocks.follow state label following).trigger app = clocks.trigger app)) := by
  cases move
  case requiredStart other error rest pending untracked unsatisfied =>
    by_cases same : app = other
    · subst same
      exact .inl (by simp [Clocks.follow, pending, untracked])
    · exact .inr (by simp [Clocks.follow, pending, untracked, same])
  case exitRestart pid other round termination rest pending failed again =>
    by_cases same : app = other
    · subst same
      exact .inr (by simp [Clocks.follow, pending, again])
    · exact .inr (by simp [Clocks.follow, pending, again, same])
  all_goals
    refine .inr ⟨?_, .inr ?_⟩
    · first
      | rfl
      | exact update_field App.requireStartTime (by rfl)
    · simp [Clocks.follow, *]

/-- A tick of the app's start-up timer is ignored, or will be. -/
def Busy (state : State α) (app : α) : Prop :=
  (state.apps app).checking = true ∨ .setChecking app true ∈ state.todo

/-- Only a tick that begins a check makes an app busy. -/
theorem busy_of_move (move : Move config state label following out) {app : α}
    (busy : Busy following app) :
    Busy state app ∨ ∃ timer entry, label = .tick timer ∧ state.timers timer = some entry ∧
      entry.app = app := by
  cases move
  case tickCheck timer entry idle live running waiting free =>
    rcases busy with checking | setting
    · exact .inl (.inl checking)
    · have same : app = entry.app := by simpa [idle] using setting
      exact .inr ⟨timer, entry, rfl, live, same.symm⟩
  case setChecking other value rest pending =>
    refine .inl ?_
    rcases busy with checking | setting
    · by_cases same : app = other
      · subst same
        have set : value = true := by simpa using checking
        exact .inr (by simp [pending, set])
      · exact .inl (by simpa [same] using checking)
    · exact .inr (by simpa [pending] using .inr setting)
  case preparedStart other _ _ pending | startedAgain other _ _ _ pending _ =>
    refine .inl ?_
    rcases busy with checking | setting
    · by_cases same : app = other
      · subst same
        simp at checking
      · exact .inl (by simpa [same] using checking)
    · exact .inr (by simpa [pending] using setting)
  all_goals
    refine .inl (busy.imp (fun checking => ?_) fun setting => ?_)
    · first
      | exact checking
      | exact (update_field App.checking (by rfl)).symm.trans checking
    · simp_all

/-- What a step reports: nothing, a tick that is ignored or begins a check, or a failed check,
which is answered when the start-up time is over and left to be retried otherwise. -/
inductive CheckReport (config : α → AppConfig α) (state : State α) (clocks : Clocks α)
    (following : State α) : List (StartCheck α) → Prop where
  | quiet (idle : ∀ app, Busy following app → Busy state app) :
      CheckReport config state clocks following []
  | ignored {app : α} (checking : (state.apps app).checking = true) (same : following = state) :
      CheckReport config state clocks following [.ticked app false]
  | checked {app : α} (idle : ∀ other, other ≠ app → Busy following other → Busy state other) :
      CheckReport config state clocks following [.ticked app true]
  | failed {app : α} {withinTick answered retried : Bool}
      (idle : ∀ app, Busy following app → Busy state app)
      (answer : answered = startTimeout (config app) (state.apps app) state.now)
      (again : answered = false → retried = !withinTick ∧ (retried = true → ¬Busy following app)) :
      CheckReport config state clocks following
        [.failed app (clocks.restarted app) (state.now - (state.apps app).requireStartTime).toNat
          (state.now - clocks.trigger app).toNat withinTick answered retried]

theorem checkReport_of_move {after : Clocks α} (move : Move config state label following out)
    (sound : Sound config state) :
    CheckReport config state clocks following
      (startChecks (state, clocks) label (following, after)) := by
  have idle : (∀ timer, label ≠ .tick timer) → ∀ app, Busy following app → Busy state app := by
    intro inner app busy
    refine (busy_of_move move busy).resolve_right ?_
    rintro ⟨timer, _, ticked, _⟩
    exact inner timer ticked
  cases move
  case startedClear app timer error rest pending completed =>
    by_cases report : clocks.exited = true ∧ error ≠ 0 ∧ error ≠ noEntry ∧
        (state.apps app).callbacks ≠ []
    · have late : startTimeout (config app) (state.apps app) state.now = true := by
        rcases completed with zero | missing | late
        · exact absurd zero report.2.1
        · exact absurd missing report.2.2.1
        · exact late
      simp only [startChecks, pending, if_pos report]
      refine .failed (idle (by simp)) ?_ ?_
      · simp [late]
      · simp
    · simp only [startChecks, pending, if_neg report]
      exact .quiet (idle (by simp))
  case startedAgain app timer error rest pending incomplete =>
    simp only [not_or, Bool.not_eq_true] at incomplete
    by_cases report : clocks.exited = true ∧ error ≠ 0 ∧ error ≠ noEntry ∧
        (state.apps app).callbacks ≠ []
    · simp only [startChecks, pending, if_pos report]
      have below : rest.head? ≠ some (.clearCallbacks app error) := by
        intro first
        have waits := sound.head_only _ (by rw [pending]; exact List.mem_of_head? first)
        simp [Call.waits] at waits
      refine .failed (idle (by simp)) ?_ fun _ => ?_
      · simp [incomplete, below]
      · simp [retriable, Busy]
    · simp only [startChecks, pending, if_neg report]
      exact .quiet (idle (by simp))
  case tickIdle timer entry empty live running none_waiting =>
    simp only [startChecks, live, none_waiting, ne_eq, not_true_eq_false, and_false, if_false]
    exact .quiet fun app busy => busy
  case tickBusy timer entry empty live running waiting busy =>
    simp only [startChecks, live, running, waiting, empty, ne_eq, not_false_eq_true, and_self,
      if_true, not_true_eq_false, decide_false]
    exact .ignored busy rfl
  case tickCheck timer entry empty live running waiting free =>
    simp only [startChecks, live, running, waiting, empty, State.call_todo, List.append_nil, ne_eq,
      reduceCtorEq, not_false_eq_true, and_self, if_true, decide_true]
    refine .checked fun other different busy => ?_
    simpa [Busy, empty, different] using busy
  all_goals
    rw [show startChecks _ _ _ = [] by simp [startChecks, *]]
    exact .quiet (idle (by simp))

theorem sub_le_sub {now first last : UInt64} (order : first ≤ last) (past : last ≤ now) :
    (now - last).toNat ≤ (now - first).toNat := by
  rw [UInt64.toNat_sub_of_le _ _ past, UInt64.toNat_sub_of_le _ _ (UInt64.le_trans order past)]
  exact Nat.sub_le_sub_left (UInt64.le_iff_toNat_le.1 order) _

/-- All times are past, a start that is no restart was triggered before its start time, an app is
busy only if no early failure is left to be retried, and the condition is exact. -/
structure Limited (config : α → AppConfig α) (state : State α) (clocks : Clocks α)
    (past : List (StartCheck α)) : Prop where
  dates : clocks.Past state.now
  started : ∀ app, (state.apps app).requireStartTime ≤ state.now
  triggered : ∀ app, clocks.restarted app = false →
    clocks.trigger app ≤ (state.apps app).requireStartTime
  free : (∀ event ∈ past, Timely config event) → ∀ app, 0 < (config app).maxStartTime →
    Busy state app → ¬Outstanding (Early config app) (.ticked app true) past
  exact_ : (∀ event ∈ past, Timely config event) ↔ Historically (OnTime config) past

namespace Limited

omit [DecidableEq α] in
theorem initial : Limited config (State.initial α) {} [] where
  dates := by constructor <;> simp
  started := by simp [State.initial]
  triggered := by simp [State.initial]
  free := by simp
  exact_ := by simp

omit [DecidableEq α] in
/-- The condition on a failed check says exactly that its report is on time. -/
theorem failed_exact (limited : Limited config state clocks past) {app : α}
    {withinTick answered retried : Bool}
    (answer : answered = startTimeout (config app) (state.apps app) state.now)
    (again : answered = false → retried = !withinTick) (before : List (StartCheck α)) :
    Timely config (.failed app (clocks.restarted app)
        (state.now - (state.apps app).requireStartTime).toNat
        (state.now - clocks.trigger app).toNat withinTick answered retried) ↔
      OnTime config before (.failed app (clocks.restarted app)
        (state.now - (state.apps app).requireStartTime).toNat
        (state.now - clocks.trigger app).toNat withinTick answered retried) := by
  have order : clocks.restarted app = false →
      (state.now - (state.apps app).requireStartTime).toNat ≤
        (state.now - clocks.trigger app).toNat :=
    fun original => sub_le_sub (limited.triggered app original) (limited.started app)
  unfold Timely OnTime
  refine forall_congr' fun limit => ?_
  have answered_iff : answered = true ↔ (config app).maxStartTime <
      ((state.now - (state.apps app).requireStartTime).toNat : Int) := by
    rw [answer]
    simp [startTimeout, limit]
  have bounded : clocks.restarted app = true ∨ (state.now - (state.apps app).requireStartTime).toNat ≤
      (state.now - clocks.trigger app).toNat := by
    cases restarted : clocks.restarted app with
    | true => exact .inl rfl
    | false => exact .inr (order restarted)
  constructor
  · intro timely
    have unanswered : ((state.now - clocks.trigger app).toNat : Int) ≤ (config app).maxStartTime →
        ((state.now - (state.apps app).requireStartTime).toNat : Int) ≤
          (config app).maxStartTime := by
      intro early
      rcases bounded with restarted | order
      · exact (timely early).2 restarted
      · omega
    constructor
    · intro answer
      have late := answered_iff.1 answer
      by_contra early
      exact absurd late (Int.not_lt.2 (unanswered (Int.not_lt.1 early)))
    · intro early
      have no : answered = false := by
        rw [← Bool.not_eq_true, answered_iff]
        exact Int.not_lt.2 (unanswered early)
      rw [again no, (timely early).1]
      rfl
  · rintro ⟨late, left⟩ early
    have no : answered = false := by
      rw [← Bool.not_eq_true]
      exact fun answer => absurd (late answer) (Int.not_lt.2 early)
    constructor
    · have kept := left early
      rw [again no] at kept
      simpa using kept
    · intro _
      rw [← Bool.not_eq_true, answered_iff] at no
      exact Int.not_lt.1 no

omit [DecidableEq α] in
theorem free_of_report (limited : Limited config state clocks past) {events : List (StartCheck α)}
    (report : CheckReport config state clocks following events)
    (timely : ∀ event ∈ past ++ events, Timely config event) {app : α}
    (limit : 0 < (config app).maxStartTime) (busy : Busy following app) :
    ¬Outstanding (Early config app) (.ticked app true) (past ++ events) := by
  have free := limited.free (fun event member => timely event (List.mem_append_left _ member)) app
    limit
  cases report with
  | quiet idle =>
      rw [List.append_nil]
      exact free (idle app busy)
  | ignored checking same =>
      subst same
      rw [outstanding_snoc]
      rintro (⟨due, -⟩ | early)
      · exact free busy due
      · exact early
  | @checked other idle =>
      rw [outstanding_snoc]
      rintro (⟨due, different⟩ | early)
      · exact free (idle app (fun same => different (same ▸ rfl)) busy) due
      · exact early
  | @failed other withinTick answered retried idle answer again =>
      rw [outstanding_snoc]
      rintro (⟨due, -⟩ | ⟨rfl, early⟩)
      · exact free (idle app busy) due
      · have now := timely _ (List.mem_append_right _ (List.mem_singleton_self _))
        have onTime := (limited.failed_exact answer (fun no => (again no).1) past).1 now limit
        have no : answered = false := by
          rw [← Bool.not_eq_true]
          exact fun answer => absurd (onTime.1 answer) (Int.not_lt.2 early)
        exact (again no).2 (onTime.2 early) busy

omit [DecidableEq α] in
theorem exact_of_report (limited : Limited config state clocks past) {events : List (StartCheck α)}
    (report : CheckReport config state clocks following events) :
    (∀ event ∈ past ++ events, Timely config event) ↔
      Historically (OnTime config) (past ++ events) := by
  have last : ∀ entry, ((∀ event ∈ past, Timely config event) →
      (Timely config entry ↔ OnTime config past entry)) →
        ((∀ event ∈ past ++ [entry], Timely config event) ↔
          Historically (OnTime config) (past ++ [entry])) := by
    intro entry same
    rw [List.forall_mem_append, List.forall_mem_singleton, historically_snoc, ← limited.exact_]
    exact and_congr_right same
  cases report with
  | quiet =>
      rw [List.append_nil]
      exact limited.exact_
  | @ignored app checking =>
      refine last _ fun timely => iff_of_true trivial fun limit due => ?_
      exact absurd due (limited.free timely app limit (.inl checking))
  | checked => exact last _ fun _ => iff_of_true trivial fun _ _ => rfl
  | failed _ answer again =>
      exact last _ fun _ => limited.failed_exact answer (fun no => (again no).1) past

theorem step (limited : Limited config state clocks past) (sound : Sound config state)
    (allowed : steady state label) (moved : step config state label = some (following, out)) :
    Limited config following (clocks.follow state label following)
      (past ++ startChecks (state, clocks) label
        (following, clocks.follow state label following)) := by
  have move := move_of_step moved
  have later := now_of_move move allowed
  have report : CheckReport config state clocks following (startChecks (state, clocks) label
      (following, clocks.follow state label following)) := checkReport_of_move move sound
  refine ⟨limited.dates.follow.mono later, ?_, ?_, ?_, limited.exact_of_report report⟩
  · intro app
    rcases startTime_of_move clocks move app with ⟨now, -⟩ | ⟨kept, -⟩
    · rw [now]
      exact later
    · rw [kept]
      exact UInt64.le_trans (limited.started app) later
  · intro app original
    rcases startTime_of_move clocks move app with ⟨now, asked⟩ |
      ⟨kept, restarted | ⟨same, trigger⟩⟩
    · rw [now, asked]
      exact limited.dates.current
    · rw [restarted] at original
      cases original
    · rw [kept, trigger]
      exact limited.triggered app (same.symm.trans original)
  · exact fun timely app limit busy => limited.free_of_report report timely limit busy

end Limited

/-- While the condition is met, a failed start-up check leads to an answer only when the limit has
passed since the Require that led to the current start was issued, and is retried
before; the first failed check that does not meet the condition breaks this. -/
theorem start_limit (reached : Machine.Reaches (timing config)
      (fun pair label => steady pair.1 label) (State.initial α, {}) (state, clocks) past) :
    (∀ event ∈ past, Timely config event) ↔ Historically (OnTime config) past := by
  have limited : Limited config state clocks past := by
    refine reached.invariant (fun pair past => Limited config pair.1 pair.2 past) .initial ?_
    rintro ⟨state, clocks⟩ ⟨following, after⟩ past out label before limited allowed moved
    obtain ⟨earlier, run⟩ := before.of_noting
    obtain ⟨events, carried, rfl⟩ := Machine.noting_eq_some.1 moved
    obtain ⟨stepped, rfl⟩ := Machine.carrying_eq_some.1 carried
    exact limited.step (sound_of_reaches run.of_carrying) allowed stepped
  exact limited.exact_

section Runs

/-- One app with a checker, which may take a second to start. -/
def limitedApp : Fin 1 → AppConfig (Fin 1) := fun _ =>
  { command := { file := "run" }, checker := some { file := "check" }, maxStartTime := 1000 }

/-- The start-up check fails after half a second and is made again at the next tick. -/
theorem start_limit_retry : ∃ pair,
    Machine.Reaches (timing limitedApp) (fun pair label => steady pair.1 label)
        (State.initial (Fin 1), {}) pair
        [.ticked 0 true, .failed 0 false 500 500 false false true, .ticked 0 true] ∧
      Historically (OnTime limitedApp)
        [.ticked 0 true, .failed 0 false 500 500 false false true, .ticked 0 true] := by
  obtain ⟨⟨state, clocks⟩, reached, -⟩ := Machine.exists_reaches
    (timing limitedApp) (fun pair label => steady pair.1 label) (State.initial (Fin 1), {})
    [.require 0 1, .call, .call, .spawn {}, .call, .call,
      .exited 0 .failure, .closed 0, .call, .call, .call, .call, .spawn {}, .call,
      .clock 500, .tick 0, .call, .spawn {}, .call, .call, .call,
      .exited 2 .failure, .closed 2, .call, .call, .tick 0]
    [.ticked 0 true, .failed 0 false 500 500 false false true, .ticked 0 true]
    (fun _ => true) (by decide)
  exact ⟨_, reached, (start_limit reached).1 (by simp [Timely])⟩

/-- The app is started; five seconds later it is required again, its main process is killed and
started again, and its first start-up check fails: the callback is answered at once. -/
theorem restart_not_retried : ∃ pair past,
    Machine.Reaches (timing limitedApp) (fun pair label => steady pair.1 label)
        (State.initial (Fin 1), {}) pair past ∧
      past = [.ticked 0 true, .ticked 0 true, .failed 0 true 5000 0 false true false] ∧
      ¬Historically (OnTime limitedApp) past := by
  obtain ⟨pair, reached, -⟩ := Machine.exists_reaches
    (timing limitedApp) (fun pair label => steady pair.1 label) (State.initial (Fin 1), {})
    [.require 0 1, .call, .call, .spawn {}, .call, .call,
      .exited 0 .failure, .closed 0, .call, .call, .call, .call, .spawn {}, .call,
      .tick 0, .call, .spawn {}, .call, .call, .call,
      .exited 2 .success, .closed 2, .call, .call, .call, .call, .call, .call,
      .clock 5000, .require 0 2, .call, .call, .spawn {}, .call, .call,
      .exited 3 .failure, .closed 3, .call, .call,
      .exited 1 .failure, .closed 1, .call, .call, .call, .spawn {}, .call,
      .tick 1, .call, .spawn {}, .call, .call, .call,
      .exited 5 .failure, .closed 5, .call, .call]
    [.ticked 0 true, .ticked 0 true, .failed 0 true 5000 0 false true false]
    (fun _ => true) (by decide)
  refine ⟨pair, _, reached, rfl, fun onTime => ?_⟩
  have last := onTime [.ticked 0 true, .ticked 0 true] _ [] rfl
  exact absurd ((last (by decide)).1 rfl) (by decide)

end Runs

end Nexer.Manager
