import Nexer.TcpClient.Once

/-!
# Attempts whose request is rejected

`uv_getaddrinfo` can reject a request at once, and then the error handler runs
inside `Connect`, before `data->client` is set.  The other failures of an attempt are
reported by later callbacks.
-/

namespace Nexer.TcpClient.Retry

open Nexer.Transition

/-- A new client with the closures of `connect`, before its own `Connect`. -/
def subscribe (client : TcpClient.State) (state : State) : State :=
  { state.setAttempt state.count client with
    count := state.count + 1
    subscribed := Function.update state.subscribed state.count true }

/-- `connect`, where `uv_getaddrinfo` returns `status`; `data->client` is set at the end. -/
def connectWith (status : Int) (state : State) : Effect :=
  let attempt := state.count
  let called := getAddrInfo status (fun _ => false) {}
  Reaction.andThen (subscribe called.1 state, [.tried attempt]) fun state =>
    (reactAll attempt called.2 state).andThen fun state =>
      ({ state with client := some attempt }, [])

/-- The closure of `OnTick`. -/
def onTickWith (timeout elapsed : Nat) (status : Int) (state : State) : Effect :=
  Reaction.andThen (state, [.ticked elapsed]) fun state =>
    if timeout ≤ elapsed then
      (if state.client.isSome then closeClient state else (state, [])).andThen fun state =>
        (closeTimer state, [.answered none])
    else if state.client.isNone then connectWith status state
    else (state, [])

/-- The machine of one call of `Connect`; a label comes with what `uv_getaddrinfo` returns
if the step calls it. -/
def attempting (timeout : Nat) : Machine State (Label × Int) Event
  | state, (.tick elapsed, status) =>
      if state.timer = .opened then
        some (if interval ≤ elapsed then onTickWith timeout elapsed status state else (state, []))
      else none
  | state, (.timerClosed, _) => step timeout state .timerClosed
  | state, (.attempt index label, _) => step timeout state (.attempt index label)

/-- The step makes an attempt. -/
def makesAttempt (timeout : Nat) (state : State) : Label → Bool
  | .tick elapsed =>
      state.timer = .opened ∧ interval ≤ elapsed ∧ elapsed < timeout ∧ state.client = none
  | _ => false

/-- `uv_getaddrinfo` accepts the request of every attempt. -/
def accepted (timeout : Nat) (state : State) (label : Label × Int) : Prop :=
  makesAttempt timeout state label.1 → label.2 = 0

instance (timeout : Nat) : ∀ (state : State) (label : Label × Int),
    Decidable (accepted timeout state label) :=
  fun _ _ => inferInstanceAs (Decidable (_ → _))

section Rejection

variable {timeout index : Nat} {state following : State} {past out : List Event}
variable {label : Label × Int}

theorem connectWith_accepted (state : State) : connectWith 0 state = connect state := rfl

/-- A step whose request is accepted is one of the machine whose requests fail later. -/
theorem attempting_accepted (allowed : accepted timeout state label) :
    attempting timeout state label = step timeout state label.1 := by
  obtain ⟨label, status⟩ := label
  cases label with
  | timerClosed => rfl
  | attempt => rfl
  | tick elapsed =>
      simp only [attempting, step]
      split
      · rename_i opened
        split
        · rename_i due
          simp only [onTickWith, onTick, Reaction.andThen]
          split
          · rfl
          · rename_i early
            split
            · rename_i idle
              have requested : status = 0 := by
                refine allowed ?_
                simpa [makesAttempt, opened, due, Nat.lt_of_not_le early] using idle
              rw [requested, connectWith_accepted]
            · rfl
        · rfl
      · rfl

theorem sound_of_accepted
    (reached : Machine.Reaches (attempting timeout) (accepted timeout) .initial state past) :
    Sound timeout state past := by
  refine reached.invariant (Sound timeout) sound_initial ?_
  intro state following past out label _ sound allowed moved
  rw [attempting_accepted allowed] at moved
  exact sound.step moved

/-- The attempt that the closures act on. -/
structure Attended (index : Nat) (state : State) : Prop where
  freed : state.freed = false
  named : state.client = some index
  subscribed : state.subscribed index = true
  living : (state.attempts index).phase ≠ .destroyed

/-- What the closures of an attempt do when it functions: the pointer stays, and an attempt
that has failed is closed. -/
structure Handled (index : Nat) (state : State) (failed : Prop) (effect : Effect) : Prop where
  attended : Attended index effect.1
  closing : (state.attempts index).phase = .closing ∨ failed →
    (effect.1.attempts index).phase = .closing
  clean : .badClient ∉ effect.2 ∧ .freedData ∉ effect.2

theorem close_living {client : TcpClient.State} (living : client.phase ≠ .destroyed) :
    (close client).phase = .closing := by
  unfold close
  split
  · rfl
  · rename_i closed
    cases phase : client.phase with
    | opened => exact absurd phase closed
    | closing => rfl
    | destroyed => exact absurd phase living

namespace Attended

theorem unchanged (attended : Attended index state) : Handled index state False (state, []) where
  attended := attended
  closing := fun closing => closing.resolve_right id
  clean := ⟨List.not_mem_nil, List.not_mem_nil⟩

theorem react {event : TcpClient.Event} (attended : Attended index state)
    (passing : event = .connect ∨ event.Passing) :
    Handled index state (∃ code, event = .error code) (react index event state) := by
  obtain ⟨freed, named, subscribed, living⟩ := attended
  cases event with
  | data length =>
      simpa [Retry.react] using (⟨freed, named, subscribed, living⟩ : Attended index state).unchanged
  | send =>
      simpa [Retry.react] using (⟨freed, named, subscribed, living⟩ : Attended index state).unchanged
  | closed => simp [Event.Passing] at passing
  | dead name => simp [Event.Passing] at passing
  | connect =>
      simp only [Retry.react, subscribed, if_true, onConnect, freed, Bool.false_eq_true, if_false]
      unfold closeTimer
      split
      · exact ⟨⟨freed, named, subscribed, living⟩, fun closing => closing.resolve_right (by simp),
          by simp, by simp⟩
      · exact ⟨⟨freed, named, subscribed, living⟩, fun closing => closing.resolve_right (by simp),
          by simp, by simp⟩
  | error code =>
      have closed := close_living living
      simp only [Retry.react, subscribed, if_true, onError, freed, Bool.false_eq_true, if_false,
        closeClient, named, if_neg living]
      refine ⟨⟨freed, named, subscribed, ?_⟩, fun _ => ?_, List.not_mem_nil, List.not_mem_nil⟩
      · simp [closed]
      · simpa using closed

theorem reactAll (events : List TcpClient.Event) (attended : Attended index state)
    (passing : ∀ event ∈ events, event = .connect ∨ event.Passing) :
    Handled index state (∃ code, .error code ∈ events) (reactAll index events state) := by
  induction events generalizing state with
  | nil => simpa [Retry.reactAll] using attended.unchanged
  | cons event rest ih =>
      have first := attended.react (passing event (.head _))
      have second := ih first.attended fun event member => passing event (.tail _ member)
      refine ⟨second.attended, ?_, ?_, ?_⟩
      · rintro (closing | ⟨code, member⟩)
        · exact second.closing (.inl (first.closing (.inl closing)))
        · rcases List.mem_cons.1 member with rfl | later
          · exact second.closing (.inl (first.closing (.inr ⟨code, rfl⟩)))
          · exact second.closing (.inr ⟨code, later⟩)
      · exact fun member =>
          (List.mem_append.1 member).elim first.clean.1 second.clean.1
      · exact fun member =>
          (List.mem_append.1 member).elim first.clean.2 second.clean.2

end Attended

/-- What an attempt reports when it reports an error. -/
theorem events_of_error {client : TcpClient.State} {label : TcpClient.Label}
    {effect : TcpClient.Effect} {code : Int} (sound : TcpClient.Sound client)
    (moved : TcpClient.step client label = some effect) (once : reconnects label = false)
    (failed : .error code ∈ effect.2) :
    client.phase ≠ .destroyed ∧ effect.1.phase ≠ .destroyed ∧
      ∀ event ∈ effect.2, event = .connect ∨ event.Passing := by
  rcases step_cases sound moved with ⟨living, alive⟩ | ⟨-, rfl, -, -⟩ | ⟨-, -, rfl⟩
  · refine ⟨alive, living.phase, ?_⟩
    have other : label ≠ .closed := by
      rintro rfl
      simp only [TcpClient.step] at moved
      split at moved
      · exact living.phase (by rw [← Option.some.inj moved])
      · cases moved
    rcases step_reports alive moved once other with passing | connected
    · exact fun event member => .inr (passing.events event member)
    · obtain ⟨rest, out, passing⟩ := connected.events
      intro event member
      rw [out] at member
      rcases List.mem_cons.1 member with rfl | later
      · exact .inl rfl
      · exact .inr (passing event later)
  · simp at failed
  · simp at failed

/-- The handler of a failed attempt finds and closes that attempt. -/
theorem attempt_failed {client : TcpClient.State} {events : List TcpClient.Event}
    {label : TcpClient.Label} {status code : Int} (sound : Sound timeout state past)
    (there : state.freed = false)
    (stepped : TcpClient.step (state.attempts index) label = some (client, events))
    (failed : .error code ∈ events)
    (moved : attempting timeout state (.attempt index label, status) = some (following, out)) :
    state.client = some index ∧ (following.attempts index).phase = .closing ∧
      following.client = some index ∧ .badClient ∉ out ∧ .freedData ∉ out := by
  simp only [attempting, step, stepped] at moved
  split at moved
  · rename_i ready
    obtain ⟨alive, living, passing⟩ :=
      events_of_error (sound.attempts index) stepped (by simpa using ready.2) failed
    have named := sound.current there index ⟨ready.1, alive⟩
    have attended : Attended index (state.setAttempt index client) :=
      ⟨there, named, (sound.pointed there index named).2, by simpa using living⟩
    have handled := attended.reactAll events passing
    rw [Option.some.inj moved] at handled
    exact ⟨named, handled.closing (.inr ⟨code, failed⟩), handled.attended.named, handled.clean⟩
  · cases moved

/-- When a closing attempt has been closed, `data->client` is null. -/
theorem attempt_closed (sound : Sound timeout state past) (there : state.freed = false)
    (made : index < state.count) (closing : (state.attempts index).phase = .closing)
    (connects : (state.attempts index).connects = 0) (writes : (state.attempts index).writes = [])
    (status : Int) :
    ∃ following, attempting timeout state (.attempt index .closed, status) = some (following, []) ∧
      following.client = none := by
  have alive : Alive state index := ⟨made, by simp [closing]⟩
  have subscribed := (sound.pointed there index (sound.current there index alive)).2
  have stepped : TcpClient.step (state.attempts index) .closed =
      some ({ state.attempts index with phase := .destroyed }, [.closed]) := by
    simp [TcpClient.step, closing, connects, writes]
  simp only [attempting, step, stepped, if_pos (show index < state.count ∧ ¬reconnects .closed
    from ⟨made, by simp [reconnects]⟩)]
  simp [reactAll, react, Reaction.andThen, subscribed, onClose, there]

/-- A tick before the timeout makes an attempt when there is none. -/
theorem tick_attempts {elapsed : Nat} (due : makesAttempt timeout state (.tick elapsed)) :
    ∃ following, attempting timeout state (.tick elapsed, 0) =
        some (following, [.ticked elapsed, .tried state.count]) ∧
      following.client = some state.count ∧
      (following.attempts state.count).phase = .opened ∧ following.timer = .opened := by
  simp only [makesAttempt, decide_eq_true_eq] at due
  obtain ⟨opened, due, early, idle⟩ := due
  refine ⟨(connect state).1, ?_, rfl, ?_, opened⟩
  · simp [attempting, opened, due, onTickWith, Nat.not_le.2 early, idle, Reaction.andThen,
      connectWith_accepted, connect]
  · simp [connect, getAddrInfo]

/-- The handler of an attempt whose request is rejected finds a null pointer. -/
theorem tick_rejected {elapsed : Nat} {status : Int} (sound : Sound timeout state past)
    (due : makesAttempt timeout state (.tick elapsed))
    (moved : attempting timeout state (.tick elapsed, status) = some (following, out)) :
    .badClient ∈ out ↔ status ≠ 0 := by
  constructor
  · rintro bad rfl
    obtain ⟨_, accepted, _⟩ := tick_attempts due
    rw [accepted] at moved
    obtain ⟨-, rfl⟩ := Prod.mk.inj (Option.some.inj moved)
    simp at bad
  · intro rejected
    simp only [makesAttempt, decide_eq_true_eq] at due
    obtain ⟨opened, due, early, idle⟩ := due
    have freed := sound.not_freed (by simp [opened])
    simp [attempting, opened, due, onTickWith, Nat.not_le.2 early, idle, Reaction.andThen,
      connectWith, getAddrInfo, rejected, TcpClient.onError, invoke, reactAll, react, subscribe,
      onError, freed, closeClient] at moved
    rw [← moved.2]
    simp

end Rejection

/-- While the requests of all attempts are accepted, the error handler of an attempt that
fails later finds that attempt in `data->client` and closes it; when it has been closed
the pointer is null, and then a tick before the timeout makes a new attempt.  The handler
of an attempt whose request is rejected finds a null pointer. -/
theorem failed_attempt_retried {timeout : Nat} {state : State} {past : List Event}
    (reached : Machine.Reaches (attempting timeout) (accepted timeout) .initial state past) :
    (∀ (index : Nat) (label : TcpClient.Label) (status code : Int) (client : TcpClient.State)
        (events : List TcpClient.Event) (following : State) (out : List Event),
      state.freed = false → TcpClient.step (state.attempts index) label = some (client, events) →
      .error code ∈ events →
      attempting timeout state (.attempt index label, status) = some (following, out) →
      state.client = some index ∧ (following.attempts index).phase = .closing ∧
        following.client = some index ∧ .badClient ∉ out ∧ .freedData ∉ out) ∧
    (∀ (index : Nat) (status : Int), state.freed = false → index < state.count →
      (state.attempts index).phase = .closing → (state.attempts index).connects = 0 →
      (state.attempts index).writes = [] →
      ∃ following, attempting timeout state (.attempt index .closed, status) =
        some (following, []) ∧ following.client = none) ∧
    ∀ elapsed, makesAttempt timeout state (.tick elapsed) →
      (∃ following, attempting timeout state (.tick elapsed, 0) =
          some (following, [.ticked elapsed, .tried state.count]) ∧
        following.client = some state.count ∧
        (following.attempts state.count).phase = .opened ∧ following.timer = .opened) ∧
      ∀ (status : Int) (following : State) (out : List Event),
        attempting timeout state (.tick elapsed, status) = some (following, out) →
        (.badClient ∈ out ↔ status ≠ 0) := by
  have sound := sound_of_accepted reached
  refine ⟨?_, ?_, ?_⟩
  · intro index label status code client events following out there stepped failed moved
    exact attempt_failed sound there stepped failed moved
  · intro index status there made closing connects writes
    exact attempt_closed sound there made closing connects writes status
  · intro elapsed due
    exact ⟨tick_attempts due, fun status following out moved => tick_rejected sound due moved⟩

/-- A request to connect is rejected, the attempt is closed and the next tick tries again. -/
theorem failed_attempt_retried_connect : ∃ state past,
    Machine.Reaches (attempting 2000) (accepted 2000) .initial state past ∧
      (state.attempts 0).phase = .destroyed ∧
      ∃ following, attempting 2000 state (.tick 1000, 0) =
        some (following, [.ticked 1000, .tried state.count]) := by
  obtain ⟨state, reached, checked⟩ := Machine.exists_reaches
    (attempting 2000) (accepted 2000) .initial
    [(.tick 500, 0), (.attempt 0 (.addrInfo 0 (-22) fun _ => false), 0), (.attempt 0 .closed, 0)]
    [.ticked 500, .tried 0]
    (fun state => decide ((state.attempts 0).phase = .destroyed) &&
      makesAttempt 2000 state (.tick 1000)) (by decide)
  simp only [Bool.and_eq_true, decide_eq_true_eq] at checked
  obtain ⟨following, tried, -⟩ := ((failed_attempt_retried reached).2.2 1000 checked.2).1
  exact ⟨state, _, reached, checked.1, following, tried⟩

/-- The first attempt asks for a name that `uv_getaddrinfo` rejects. -/
theorem rejected_attempt_crashes : ∃ state past,
    Machine.Reaches (attempting 2000) Machine.always .initial state past ∧
      .tried 0 ∈ past ∧ .badClient ∈ past := by
  obtain ⟨state, reached, -⟩ := Machine.exists_reaches
    (attempting 2000) Machine.always .initial [(.tick 500, -22)]
    [.ticked 500, .tried 0, .badClient] (fun _ => true) (by decide)
  exact ⟨state, _, reached, by decide, by decide⟩

end Nexer.TcpClient.Retry
