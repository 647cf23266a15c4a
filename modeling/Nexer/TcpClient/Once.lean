import Nexer.TcpClient.Retry
import Nexer.Transition.History

/-!
# Connecting with retries answers once

While the timer is open, `data->client` is the one attempt that has not closed.  The
connection of that attempt, or a tick at the timeout, closes the timer and answers;
from then on no other attempt is open, and none reports a connection.
-/

namespace Nexer.TcpClient.Retry

open Nexer.Transition

variable {timeout index : Nat} {state following : State} {past out : List Event}

/-- An attempt that has not been deleted. -/
def Alive (state : State) (attempt : Nat) : Prop :=
  attempt < state.count ∧ (state.attempts attempt).phase ≠ .destroyed

/-- `then` is called once: with the client that has just connected, or at the timeout;
and no attempt is made afterwards. -/
def Proper (timeout : Nat) (before : List Event) : Event → Prop
  | .answered (some attempt) =>
      before.getLast? = some (.connected attempt) ∧ ∀ client, .answered client ∉ before
  | .answered none =>
      (∃ elapsed, timeout ≤ elapsed ∧ before.getLast? = some (.ticked elapsed)) ∧
        ∀ client, .answered client ∉ before
  | .tried _ => ∀ client, .answered client ∉ before
  | _ => True

structure Sound (timeout : Nat) (state : State) (past : List Event) : Prop where
  current : state.freed = false → ∀ attempt, Alive state attempt → state.client = some attempt
  pointed : state.freed = false → ∀ attempt, state.client = some attempt →
    Alive state attempt ∧ state.subscribed attempt = true
  unique : ∀ attempt other, Alive state attempt → Alive state other → attempt = other
  unsubscribed : state.freed = true → ∀ attempt, Alive state attempt →
    state.subscribed attempt = false
  freed_iff : state.freed = true ↔ state.timer = .destroyed
  answered_iff : (∃ client, .answered client ∈ past) ↔ state.timer ≠ .opened
  settled : ∀ client, .answered client ∈ past → ∀ attempt < state.count,
    client ≠ some attempt → (state.attempts attempt).phase ≠ .opened
  quiet : ∀ attempt, .answered (some attempt) ∈ past → (state.attempts attempt).pending = 0
  single : ∀ attempt, (state.attempts attempt).pending ≤ 1
  attempts : ∀ attempt, TcpClient.Sound (state.attempts attempt)
  proper : Historically (Proper timeout) past
  clean : .freedData ∉ past ∧ .badClient ∉ past

theorem sound_initial : Sound timeout .initial [] where
  current := by simp [Alive, State.initial]
  pointed := by simp [State.initial]
  unique := by simp [Alive, State.initial]
  unsubscribed := by simp [State.initial]
  freed_iff := by simp [State.initial]
  answered_iff := by simp [State.initial]
  settled := by simp
  quiet := by simp
  single := by simp [State.initial, TcpClient.State.pending]
  attempts := fun _ => ⟨fun _ => rfl, fun _ => rfl⟩
  proper := historically_nil
  clean := by simp

theorem alive_setAttempt {client : TcpClient.State}
    (phase : client.phase = .destroyed ↔ (state.attempts index).phase = .destroyed)
    (attempt : Nat) : Alive (state.setAttempt index client) attempt ↔ Alive state attempt := by
  by_cases same : attempt = index
  · subst same
    simp [Alive, phase]
  · simp [Alive, same]

namespace Sound

/-- A living attempt goes on. -/
theorem setAttempt {client : TcpClient.State} (sound : Sound timeout state past)
    (phase : client.phase = .destroyed ↔ (state.attempts index).phase = .destroyed)
    (opened : client.phase = .opened → (state.attempts index).phase = .opened)
    (pending : client.pending ≤ (state.attempts index).pending)
    (kept : TcpClient.Sound client) : Sound timeout (state.setAttempt index client) past := by
  have alive : ∀ attempt, Alive (state.setAttempt index client) attempt ↔ Alive state attempt :=
    alive_setAttempt phase
  exact {
    current := by
      simp only [alive]
      exact sound.current
    pointed := by
      simp only [alive]
      exact sound.pointed
    unique := by
      simp only [alive]
      exact sound.unique
    unsubscribed := by
      simp only [alive]
      exact sound.unsubscribed
    freed_iff := sound.freed_iff
    answered_iff := sound.answered_iff
    settled := by
      intro answer answered attempt made other
      have closed := sound.settled answer answered attempt made other
      by_cases same : attempt = index
      · subst same
        simpa using mt opened closed
      · simpa [same] using closed
    quiet := by
      intro attempt answered
      have none := sound.quiet attempt answered
      by_cases same : attempt = index
      · subst same
        simpa using Nat.le_zero.mp (none ▸ pending)
      · simpa [same] using none
    single := by
      intro attempt
      by_cases same : attempt = index
      · subst same
        simpa using Nat.le_trans pending (sound.single attempt)
      · simpa [same] using sound.single attempt
    attempts := by
      intro attempt
      by_cases same : attempt = index
      · subst same
        simpa using kept
      · simpa [same] using sound.attempts attempt
    proper := sound.proper
    clean := sound.clean }

/-- Events that neither answer nor try. -/
theorem snoc {event : Event} (sound : Sound timeout state past)
    (answered : ∀ client, event ≠ .answered client) (proper : Proper timeout past event)
    (clean : event ≠ .freedData ∧ event ≠ .badClient) :
    Sound timeout state (past ++ [event]) where
  current := sound.current
  pointed := sound.pointed
  unique := sound.unique
  unsubscribed := sound.unsubscribed
  freed_iff := sound.freed_iff
  answered_iff := by
    simpa [Ne.symm (answered _)] using sound.answered_iff
  settled := by simpa [Ne.symm (answered _)] using sound.settled
  quiet := by simpa [Ne.symm (answered _)] using sound.quiet
  single := sound.single
  attempts := sound.attempts
  proper := historically_snoc.mpr ⟨sound.proper, proper⟩
  clean := by simpa [Ne.symm clean.1, Ne.symm clean.2] using sound.clean

theorem unanswered (sound : Sound timeout state past) (open_ : state.timer = .opened)
    (client : Option Nat) : .answered client ∉ past :=
  fun member => sound.answered_iff.mp ⟨client, member⟩ open_

theorem not_freed (sound : Sound timeout state past) (alive : state.timer ≠ .destroyed) :
    state.freed = false :=
  Bool.eq_false_iff.mpr fun freed => alive (sound.freed_iff.mp freed)

/-- The timer is closed and `then` is called. -/
theorem answer (sound : Sound timeout state past) (open_ : state.timer = .opened)
    {client : Option Nat}
    (settled : ∀ attempt < state.count, client ≠ some attempt →
      (state.attempts attempt).phase ≠ .opened)
    (quiet : ∀ attempt, client = some attempt → (state.attempts attempt).pending = 0)
    (proper : Proper timeout past (.answered client)) :
    Sound timeout (closeTimer state) (past ++ [.answered client]) := by
  have unanswered := sound.unanswered open_
  have freed := sound.not_freed (by simp [open_])
  rw [closeTimer, if_pos open_]
  exact {
    current := sound.current
    pointed := sound.pointed
    unique := sound.unique
    unsubscribed := sound.unsubscribed
    freed_iff := by simp [freed]
    answered_iff := by simp
    settled := by simpa [unanswered] using settled
    quiet := by simpa [unanswered, eq_comm] using quiet
    single := sound.single
    attempts := sound.attempts
    proper := historically_snoc.mpr ⟨sound.proper, proper⟩
    clean := by simpa using sound.clean }

/-- `data->client` is closed. -/
theorem closeClient (sound : Sound timeout state past) (named : state.client = some index)
    (freed : state.freed = false) :
    closeClient state = (state.setAttempt index (close (state.attempts index)), []) ∧
      Sound timeout (state.setAttempt index (close (state.attempts index))) past := by
  have alive := (sound.pointed freed index named).1
  refine ⟨?_, sound.setAttempt ?_ ?_ ?_ ?_⟩
  · simp [Retry.closeClient, named, alive.2]
  · exact close_destroyed
  · exact fun opened => absurd opened close_phase
  · exact Nat.le_of_eq close_pending
  · exact (sound.attempts index).close

/-- The closures of a living attempt use `data`, which points to that attempt. -/
theorem subscribed (sound : Sound timeout state past) (alive : Alive state index)
    (subscribed : state.subscribed index = true) :
    state.freed = false ∧ state.client = some index := by
  have freed : state.freed = false := by
    rw [Bool.eq_false_iff]
    exact fun freed => nomatch subscribed.symm.trans (sound.unsubscribed freed index alive)
  exact ⟨freed, sound.current freed index alive⟩

/-- Events other than a connection close the attempt at most. -/
theorem react {event : TcpClient.Event} (sound : Sound timeout state past)
    (alive : Alive state index) (passing : event.Passing) :
    Sound timeout (react index event state).1 (past ++ (Retry.react index event state).2) ∧
      Alive (Retry.react index event state).1 index := by
  have silent : Sound timeout state (past ++ []) ∧ Alive state index := by
    rw [List.append_nil]
    exact ⟨sound, alive⟩
  cases event with
  | data length => exact silent
  | send => exact silent
  | error code =>
      simp only [Retry.react]
      split
      · next subscribed =>
        obtain ⟨freed, named⟩ := sound.subscribed alive subscribed
        obtain ⟨closed, after⟩ := sound.closeClient named freed
        simp only [onError, freed, closed, Bool.false_eq_true, if_false, List.append_nil]
        exact ⟨after, (alive_setAttempt close_destroyed index).mpr alive⟩
      · exact silent
  | connect => cases passing
  | closed => cases passing
  | dead name => cases passing

theorem reactAll (events : List TcpClient.Event) (sound : Sound timeout state past)
    (alive : Alive state index) (passing : ∀ event ∈ events, event.Passing) :
    Sound timeout (reactAll index events state).1
      (past ++ (Retry.reactAll index events state).2) := by
  induction events generalizing state past with
  | nil => simpa [Retry.reactAll] using sound
  | cons event rest ih =>
      obtain ⟨first, still⟩ := sound.react alive (passing event (by simp))
      simp only [Retry.reactAll, Reaction.andThen, ← List.append_assoc]
      exact ih first still fun other member => passing other (by simp [member])

/-- An attempt that was open when it connected answers. -/
theorem onConnect (sound : Sound timeout state past) (open_ : state.timer = .opened) (named : state.client = some index)
    (last : (state.attempts index).pending = 0) :
    Sound timeout (onConnect index state).1 (past ++ (Retry.onConnect index state).2) := by
  have freed := sound.not_freed (by simp [open_])
  have connected : Sound timeout state (past ++ [.connected index]) :=
    sound.snoc nofun trivial ⟨nofun, nofun⟩
  have answered : Sound timeout (closeTimer state)
      (past ++ [.connected index] ++ [.answered (some index)]) := by
    refine connected.answer open_ (fun attempt made other opened => other ?_) ?_ ?_
    · rw [← named, sound.current freed attempt ⟨made, by simp [opened]⟩]
    · rintro attempt ⟨⟩
      exact last
    · exact ⟨by simp, connected.unanswered open_⟩
  simpa [Retry.onConnect, freed, named] using answered

/-- When the living attempt has closed there is none. -/
theorem forget (sound : Sound timeout state past) (alive : Alive state index)
    (count : following.count = state.count)
    (attempts : following.attempts = Function.update state.attempts index
      { state.attempts index with phase := .destroyed })
    (freed : following.freed = state.freed) (timer : following.timer = state.timer)
    (client : state.freed = false → following.client = none)
    (kept : TcpClient.Sound { state.attempts index with phase := .destroyed }) :
    Sound timeout following past := by
  have none (attempt : Nat) : ¬ Alive following attempt := by
    rintro ⟨made, living⟩
    rw [count] at made
    by_cases same : attempt = index
    · simp [attempts, same] at living
    · rw [attempts, Function.update_of_ne same] at living
      exact same (sound.unique attempt index ⟨made, living⟩ alive)
  exact {
    current := fun _ attempt living => absurd living (none attempt)
    pointed := by
      intro there attempt named
      rw [freed] at there
      exact nomatch (client there).symm.trans named
    unique := fun attempt _ living => absurd living (none attempt)
    unsubscribed := fun _ attempt living => absurd living (none attempt)
    freed_iff := by
      rw [freed, timer]
      exact sound.freed_iff
    answered_iff := by
      rw [timer]
      exact sound.answered_iff
    settled := by
      intro answer answered attempt made other
      by_cases same : attempt = index
      · simp [attempts, same]
      · rw [attempts, Function.update_of_ne same]
        exact sound.settled answer answered attempt (count ▸ made) other
    quiet := by
      intro attempt answered
      by_cases same : attempt = index
      · subst same
        rw [attempts, Function.update_self]
        exact sound.quiet attempt answered
      · rw [attempts, Function.update_of_ne same]
        exact sound.quiet attempt answered
    single := by
      intro attempt
      by_cases same : attempt = index
      · subst same
        rw [attempts, Function.update_self]
        exact sound.single attempt
      · rw [attempts, Function.update_of_ne same]
        exact sound.single attempt
    attempts := by
      intro attempt
      by_cases same : attempt = index
      · simpa [attempts, same] using kept
      · rw [attempts, Function.update_of_ne same]
        exact sound.attempts attempt
    proper := sound.proper
    clean := sound.clean }

/-- An attempt that has been closed is not pointed to any more. -/
theorem closed (sound : Sound timeout state past) (alive : Alive state index)
    (kept : TcpClient.Sound { state.attempts index with phase := .destroyed }) :
    Sound timeout
      (Retry.reactAll index [.closed] (state.setAttempt index
        { state.attempts index with phase := .destroyed })).1
      (past ++ (Retry.reactAll index [.closed] (state.setAttempt index
        { state.attempts index with phase := .destroyed })).2) := by
  simp only [Retry.reactAll, Retry.react, Reaction.andThen, State.setAttempt_subscribed,
    List.append_nil]
  split
  · next subscribed =>
    have there := (sound.subscribed alive subscribed).1
    simp only [onClose, State.setAttempt_freed, there, Bool.false_eq_true, if_false, List.append_nil]
    exact sound.forget alive rfl rfl there.symm rfl (fun _ => rfl) kept
  · next subscribed =>
    rw [List.append_nil]
    refine sound.forget alive rfl rfl rfl rfl (fun there => ?_) kept
    exact absurd (sound.pointed there index (sound.current there index alive)).2 subscribed

/-- The connection of an open attempt is the first answer. -/
theorem connected {effect : TcpClient.Effect} (sound : Sound timeout state past)
    (alive : Alive state index) (living : effect.1.phase ≠ .destroyed)
    (kept : TcpClient.Sound effect.1) (connected : Connected (state.attempts index) effect) :
    Sound timeout (Retry.reactAll index effect.2 (state.setAttempt index effect.1)).1
      (past ++ (Retry.reactAll index effect.2 (state.setAttempt index effect.1)).2) := by
  have stored : Sound timeout (state.setAttempt index effect.1) past :=
    sound.setAttempt (by simp [living, alive.2]) (fun _ => connected.opened)
      (Nat.le_of_lt connected.pending) kept
  have alive' : Alive (state.setAttempt index effect.1) index :=
    ⟨alive.1, by simpa using living⟩
  have open_ : state.timer = .opened := by
    by_contra closed
    obtain ⟨client, answered⟩ := sound.answered_iff.mpr closed
    by_cases same : client = some index
    · subst same
      have none := sound.quiet index answered
      have fewer := connected.pending
      omega
    · exact sound.settled client answered index alive.1 same connected.opened
  have freed := sound.not_freed (by simp [open_])
  have named := sound.current freed index alive
  have subscribed := (sound.pointed freed index named).2
  have last : effect.1.pending = 0 := by
    have fewer := connected.pending
    have single := sound.single index
    omega
  obtain ⟨rest, out, passing⟩ := connected.events
  have answered := stored.onConnect open_ named (by simpa using last)
  rw [out]
  simp only [Retry.reactAll, Retry.react, State.setAttempt_subscribed, subscribed, if_true,
    Reaction.andThen, ← List.append_assoc]
  refine answered.reactAll rest ?_ passing
  simp only [Retry.onConnect, State.setAttempt_freed, freed, Bool.false_eq_true, if_false, closeTimer]
  split <;> exact alive'

/-- A functioning attempt reports a connection only while nothing has been answered. -/
theorem attempt {label : TcpClient.Label} {effect : TcpClient.Effect}
    (sound : Sound timeout state past) (made : index < state.count)
    (once : reconnects label = false)
    (moved : TcpClient.step (state.attempts index) label = some effect) :
    Sound timeout (Retry.reactAll index effect.2 (state.setAttempt index effect.1)).1
      (past ++ (Retry.reactAll index effect.2 (state.setAttempt index effect.1)).2) := by
  have kept := (sound.attempts index).step moved
  rcases step_cases (sound.attempts index) moved with
    ⟨living, alive⟩ | ⟨rfl, rfl, alive, -⟩ | ⟨gone, -, rfl⟩
  · have open_ : label ≠ .closed := by
      rintro rfl
      simp only [TcpClient.step] at moved
      split at moved
      · exact living.phase (by rw [← Option.some.inj moved])
      · cases moved
    rcases step_reports alive moved once open_ with passing | connected
    · have stored : Sound timeout (state.setAttempt index effect.1) past :=
        sound.setAttempt (by simp [living.phase, alive]) passing.opened passing.pending kept
      exact stored.reactAll effect.2 ⟨made, by simpa using living.phase⟩ passing.events
    · exact sound.connected ⟨made, alive⟩ living.phase kept connected
  · exact sound.closed ⟨made, alive⟩ kept
  · have stored : Sound timeout (state.setAttempt index
        { state.attempts index with resolvers := (state.attempts index).resolvers - 1 }) past :=
      sound.setAttempt Iff.rfl id (by simp only [State.pending]; omega) kept
    exact stored.snoc (by simp) trivial ⟨by simp, by simp⟩

theorem connect (sound : Sound timeout state past) (open_ : state.timer = .opened)
    (named : state.client = none) :
    Sound timeout (connect state).1 (past ++ (Retry.connect state).2) := by
  have freed := sound.not_freed (by simp [open_])
  have unanswered := sound.unanswered open_
  have none (attempt : Nat) : ¬ Alive state attempt := fun alive => by
    cases named.symm.trans (sound.current freed attempt alive)
  have only (attempt : Nat) (alive : Alive (Retry.connect state).1 attempt) :
      attempt = state.count := by
    by_contra other
    obtain ⟨made, living⟩ := alive
    simp only [Retry.connect, State.setAttempt_attempts, Function.update_of_ne other] at made living
    exact none attempt ⟨by omega, living⟩
  exact {
    current := fun _ attempt alive => congrArg some (only attempt alive).symm
    pointed := by
      rintro - _ ⟨⟩
      exact ⟨⟨by simp [Retry.connect], by simp [Retry.connect, getAddrInfo]⟩,
        by simp [Retry.connect]⟩
    unique := fun attempt other first second => (only attempt first).trans (only other second).symm
    unsubscribed := fun gone => by cases gone.symm.trans freed
    freed_iff := sound.freed_iff
    answered_iff := by simpa [Retry.connect] using sound.answered_iff
    settled := by simp [Retry.connect, unanswered]
    quiet := by simp [Retry.connect, unanswered]
    single := by
      intro attempt
      by_cases same : attempt = state.count
      · simp [Retry.connect, same, getAddrInfo, State.pending]
      · simpa [Retry.connect, same] using sound.single attempt
    attempts := by
      intro attempt
      by_cases same : attempt = state.count
      · simpa [Retry.connect, same, getAddrInfo] using
          (⟨by simp, by simp⟩ : TcpClient.Sound { nameResolving := true, resolvers := 1 })
      · simpa [Retry.connect, same] using sound.attempts attempt
    proper := historically_snoc.mpr ⟨sound.proper, unanswered⟩
    clean := by simpa [Retry.connect] using sound.clean }

/-- At the timeout the attempt is closed before `then` is called. -/
theorem expire (sound : Sound timeout state past) (open_ : state.timer = .opened)
    {elapsed : Nat} (late : timeout ≤ elapsed) (ticked : past.getLast? = some (.ticked elapsed)) :
    Sound timeout
      ((if state.client.isSome then Retry.closeClient state else (state, [])).andThen fun state =>
        (closeTimer state, [.answered none])).1
      (past ++ ((if state.client.isSome then Retry.closeClient state else (state, [])).andThen
        fun state => (closeTimer state, [.answered none])).2) := by
  have freed := sound.not_freed (by simp [open_])
  cases named : state.client with
  | none =>
      simp only [Option.isSome_none, Bool.false_eq_true, if_false, Reaction.andThen, List.nil_append]
      refine sound.answer open_ (fun attempt made _ opened => ?_) (by simp)
        ⟨⟨elapsed, late, ticked⟩, sound.unanswered open_⟩
      cases named.symm.trans (sound.current freed attempt ⟨made, by simp [opened]⟩)
  | some index =>
      obtain ⟨closed, after⟩ := sound.closeClient named freed
      simp only [Option.isSome_some, if_true, closed, Reaction.andThen, List.nil_append]
      refine after.answer open_ (fun attempt made _ opened => ?_) (by simp)
        ⟨⟨elapsed, late, ticked⟩, after.unanswered open_⟩
      by_cases same : attempt = index
      · subst same
        exact close_phase (by simpa using opened)
      · have other := sound.current freed attempt ⟨made, by simp_all⟩
        exact same (Option.some.inj (other.symm.trans named))

theorem onTick (sound : Sound timeout state past) (open_ : state.timer = .opened) (elapsed : Nat) :
    Sound timeout (onTick timeout elapsed state).1
      (past ++ (Retry.onTick timeout elapsed state).2) := by
  have ticked : Sound timeout state (past ++ [.ticked elapsed]) :=
    sound.snoc nofun trivial ⟨nofun, nofun⟩
  have freed := sound.not_freed (by simp [open_])
  rw [Retry.onTick, Reaction.andThen]
  dsimp only
  rw [← List.append_assoc]
  split
  · next late => exact ticked.expire open_ late (by simp)
  · split
    · next named => exact ticked.connect open_ (by simpa using named)
    · rwa [List.append_nil]

theorem onTimerClose (sound : Sound timeout state past) (closing : state.timer = .closing) :
    Sound timeout (onTimerClose state).1 (past ++ (Retry.onTimerClose state).2) := by
  have freed := sound.not_freed (by simp [closing])
  have answered := sound.answered_iff.mpr (by simp [closing])
  unfold Retry.onTimerClose
  split
  · next named =>
    rw [List.append_nil]
    have none (attempt : Nat) : ¬ Alive state attempt := fun alive =>
      nomatch named.symm.trans (sound.current freed attempt alive)
    exact {
      current := nofun
      pointed := nofun
      unique := sound.unique
      unsubscribed := fun _ attempt alive => absurd alive (none attempt)
      freed_iff := by simp
      answered_iff := iff_of_true answered nofun
      settled := sound.settled
      quiet := sound.quiet
      single := sound.single
      attempts := sound.attempts
      proper := sound.proper
      clean := sound.clean }
  · next index named =>
    have alive := (sound.pointed freed index named).1
    rw [if_neg alive.2, List.append_nil]
    exact {
      current := nofun
      pointed := nofun
      unique := sound.unique
      unsubscribed := by
        intro _ attempt living
        obtain rfl := sound.unique attempt index living alive
        simp
      freed_iff := by simp
      answered_iff := iff_of_true answered nofun
      settled := sound.settled
      quiet := sound.quiet
      single := sound.single
      attempts := sound.attempts
      proper := sound.proper
      clean := sound.clean }

theorem step {label : Label} {effect : Effect} (sound : Sound timeout state past)
    (moved : step timeout state label = some effect) :
    Sound timeout effect.1 (past ++ effect.2) := by
  cases label with
  | tick elapsed =>
      simp only [Retry.step] at moved
      split at moved
      · next open_ =>
        obtain rfl := Option.some.inj moved
        split
        · exact sound.onTick open_ elapsed
        · rwa [List.append_nil]
      · cases moved
  | timerClosed =>
      simp only [Retry.step] at moved
      split at moved
      · next closing =>
        obtain rfl := Option.some.inj moved
        exact sound.onTimerClose closing
      · cases moved
  | attempt index label =>
      simp only [Retry.step] at moved
      split at moved
      · next ready =>
        split at moved
        · cases moved
        · next client out stepped =>
          obtain rfl := Option.some.inj moved
          exact sound.attempt ready.1 (by simpa using ready.2) stepped
      · cases moved

end Sound

/-- `then` is called at most once, with the client that has just connected or with null
at the timeout, and nothing is tried afterwards.  At most one attempt has not been
deleted, `data->client` is that attempt, and every attempt but the one that was
passed on is closed. -/
theorem connect_once
    (reached : Machine.Reaches (step timeout) Machine.always .initial state past) :
    Historically (Proper timeout) past ∧
      (∀ attempt other, Alive state attempt → Alive state other → attempt = other) ∧
      (state.freed = false → ∀ attempt, Alive state attempt → state.client = some attempt) ∧
      (∀ client, .answered client ∈ past → ∀ attempt < state.count, client ≠ some attempt →
        (state.attempts attempt).phase ≠ .opened) ∧
      .freedData ∉ past ∧ .badClient ∉ past :=
  have sound : Sound timeout state past :=
    reached.invariant (Sound timeout) sound_initial fun _ sound _ moved => sound.step moved
  ⟨sound.proper, sound.unique, sound.current, sound.settled, sound.clean⟩

/-- One attempt fails and the next one connects; the first attempt is closed. -/
theorem connect_once_run : ∃ state past,
    Machine.Reaches (step 2000) Machine.always .initial state past ∧
      .answered (some 1) ∈ past ∧ (state.attempts 0).phase ≠ .opened := by
  obtain ⟨state, reached, checked⟩ := Machine.exists_reaches
    (step 2000) Machine.always .initial
    [.tick 500, .attempt 0 (.addrInfo 0 0 fun _ => false), .attempt 0 (.connected (-111) 0 fun _ => false),
      .tick 1000, .attempt 0 .closed, .tick 1500, .attempt 1 (.addrInfo 0 0 fun _ => false),
      .attempt 1 (.connected 0 0 fun _ => false), .timerClosed]
    [.ticked 500, .tried 0, .ticked 1000, .ticked 1500, .tried 1, .connected 1, .answered (some 1)]
    (fun state => decide (state.count = 2)) (by decide)
  simp only [decide_eq_true_eq] at checked
  have answered : Event.answered (some 1) ∈ [Event.ticked 500, .tried 0, .ticked 1000,
    .ticked 1500, .tried 1, .connected 1, .answered (some 1)] := by decide
  exact ⟨state, _, reached, answered,
    (connect_once reached).2.2.2.1 (some 1) answered 0 (by omega) nofun⟩

end Nexer.TcpClient.Retry
