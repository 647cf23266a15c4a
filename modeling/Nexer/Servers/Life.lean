import Nexer.Servers.Starting

/-!
# The life of the servers

From the construction of `Nexer` to its destructor: `Start` returns `true` only after a
request for a shutdown, and never while there are dummies; it returns `false` when a
server cannot listen.  In the second case the close callbacks of the servers never run.
-/

namespace Nexer.Servers

open Nexer.Transition

variable {π σ : Type} {config : Config π σ}
variable {state following : State} {past out : List Event} {server : Nat} {label : Label}

/-- Events before `uv_run` returns, when all servers listen. -/
def Event.isEarly : Event → Bool
  | .refused _ _ | .asserted | .returned _ | .loopClosed | .loopBusy | .loopLost => false
  | _ => true

/-- While `uv_run` runs. -/
structure Running (config : Config π σ) (state : State) (past : List Event) : Prop where
  sound : Sound state past
  running : state.stage = .running
  count : state.count = 1 + config.proxies.length + config.dummies.length
  dummies : ∀ server, 1 + config.proxies.length ≤ server → server < state.count →
    state.role server = .dummy
  phases : ∀ server < state.count,
    state.phase server = .listening ∨ (state.phase server).Closed
  early : ∀ event ∈ past, event.isEarly
  shutdown : ∀ server, (state.phase server).Closed → .request true ∈ past
  deleted : ∀ server, .closed server ∈ past ↔ state.phase server = .destroyed

/-- `Start` has returned `true`. -/
structure Finished (config : Config π σ) (state : State) (past : List Event) : Prop where
  sound : Sound state past
  returned : state.stage = .returned true
  dummies : config.dummies = []
  others : state.others = 0
  phases : ∀ server < state.count, state.phase server = .destroyed
  shutdown : .request true ∈ past
  deleted : ∀ server < state.count, .closed server ∈ past
  reports : ∃ before, past = before ++ [.returned true] ∧ ∀ event ∈ before, event.isEarly

/-- Where a run stands. -/
inductive Standing (config : Config π σ) (state : State) (past : List Event) : Prop where
  | constructed (initial : state = .initial) (nothing : past = [])
  | running (running : Running config state past)
  | finished (finished : Finished config state past)
  | failed (failed : Failed state past)
  | aborted (aborted : Aborted config.dummies state past)
  | destroyed (last : State) (before : List Event)
      (exited : Finished config last before ∨ Failed last before)
      (same : state = (destroy last).1) (reports : past = before ++ (destroy last).2)

theorem Event.isEarly_of_isSetup {event : Event} (setup : event.isSetup) : event.isEarly := by
  cases event <;> first | rfl | cases setup

theorem standing_of_started (started : Started config state past) : Standing config state past := by
  cases started with
  | running going count dummies =>
      refine .running ⟨going.sound, going.running, count, dummies,
        fun server small => .inl (going.listening server small),
        fun event member => Event.isEarly_of_isSetup (going.setup event member), ?_, ?_⟩
      · intro server closed
        by_cases small : server < state.count
        · rw [going.listening server small] at closed
          exact absurd closed (by decide)
        · exact absurd closed (going.sound.fresh server (Nat.le_of_not_lt small))
      · intro server
        have unclosed : .closed server ∉ past := fun member => nomatch going.setup _ member
        refine iff_of_false unclosed fun destroyed => ?_
        by_cases small : server < state.count
        · cases (going.listening server small).symm.trans destroyed
        · exact going.sound.fresh server (Nat.le_of_not_lt small) (.inr destroyed)
  | failed failed => exact .failed failed
  | aborted aborted => exact .aborted aborted

/-- `Running` does not speak of handles that are no servers. -/
theorem Running.with (running : Running config state past) (others stranded : Nat) :
    Running config { state with others, stranded } (past ++ []) := by
  rw [List.append_nil]
  exact ⟨running.sound.with state.stage others stranded, running.running, running.count,
    running.dummies, running.phases, running.early, running.shutdown, running.deleted⟩

/-- Events of requests. -/
theorem Running.request (running : Running config state past) {event : Event}
    (request : event = .request false ∨ event = .request true ∨ event = .deadServer) :
    Running config state (past ++ [event]) where
  sound := running.sound.silent (by rcases request with rfl | rfl | rfl <;> simp [Silent])
  running := running.running
  count := running.count
  dummies := running.dummies
  phases := running.phases
  early := by
    intro other member
    rcases List.mem_append.mp member with before | new
    · exact running.early other before
    · rw [List.mem_singleton.mp new]
      rcases request with rfl | rfl | rfl <;> rfl
  shutdown := fun server closed => List.mem_append_left _ (running.shutdown server closed)
  deleted := by
    intro server
    rw [← running.deleted server]
    rcases request with rfl | rfl | rfl <;> simp

/-- A request for a shutdown was made. -/
theorem Running.close (running : Running config state past) (requested : .request true ∈ past) :
    Running config (close state).1 (past ++ (close state).2) := by
  obtain ⟨sound, ⟨phase, same⟩, -⟩ := running.sound.close
  have phases (server : Nat) := close_phase server state
  rw [same] at phases sound ⊢
  constructor
  · exact sound
  · exact running.running
  · exact running.count
  · exact running.dummies
  · intro server small
    rcases phases server with kept | ⟨-, closing⟩
    · exact (running.phases server small).imp (kept.trans ·) (kept ▸ ·)
    · exact .inr (.inl closing)
  · intro event member
    rcases List.mem_append.mp member with before | new
    · exact running.early event before
    · obtain ⟨server, rfl⟩ := running.sound.mem_close new
      rfl
  · exact fun _ _ => List.mem_append_left _ requested
  · intro server
    have unclosed : .closed server ∉ (Servers.close state).2 := by
      intro member
      obtain ⟨other, impossible⟩ := running.sound.mem_close member
      cases impossible
    rw [List.mem_append, or_iff_left unclosed, running.deleted server]
    rcases phases server with kept | ⟨opened, closing⟩
    · rw [← kept]
    · rcases opened with idle | listening
      · simp [idle, show phase server = .closing from closing]
      · simp [listening, show phase server = .closing from closing]

/-- A close callback. -/
theorem Running.closed (running : Running config state past) (small : server < state.count)
    (closing : state.phase server = .closing) :
    Running config (state.setPhase server .destroyed) (past ++ [.closed server]) where
  sound := (running.sound.deleted closing).silent (by simp [Silent])
  running := running.running
  count := running.count
  dummies := running.dummies
  phases := by
    intro other below
    by_cases same : other = server
    · subst same
      exact .inr (.inr (by simp [State.setPhase]))
    · simpa [State.setPhase, same] using running.phases other below
  early := by
    intro other member
    rcases List.mem_append.mp member with before | new
    · exact running.early other before
    · rw [List.mem_singleton.mp new]
      rfl
  shutdown := fun _ _ => List.mem_append_left _ (running.shutdown server (.inl closing))
  deleted := by
    intro other
    by_cases same : other = server
    · subst same
      simp [State.setPhase]
    · simpa [State.setPhase, same] using running.deleted other

/-- `uv_run` returns. -/
theorem Running.finish (running : Running config state past) (exhausted : state.exhausted) :
    Finished config { state with stage := .returned true } (past ++ [.returned true]) := by
  simp only [State.exhausted, Bool.and_eq_true, decide_eq_true_eq, List.all_eq_true,
    List.mem_range, Bool.not_eq_true'] at exhausted
  obtain ⟨others, inactive⟩ := exhausted
  have phases (server : Nat) (small : server < state.count) : state.phase server = .destroyed := by
    have inactive := inactive server small
    simp only [State.active, Bool.or_eq_false_iff, decide_eq_false_iff_not] at inactive
    rcases running.phases server small with listening | closing | destroyed
    · exact absurd listening inactive.1
    · exact absurd closing inactive.2
    · exact destroyed
  have dummies : config.dummies = [] := by
    by_contra present
    have length := List.length_pos_iff.mpr present
    have small : 1 + config.proxies.length < state.count := by
      rw [running.count]
      omega
    exact running.sound.undisturbed _ small (running.dummies _ (Nat.le_refl _) small)
      (.inr (phases _ small))
  have first : 0 < state.count := by
    rw [running.count]
    omega
  exact ⟨(running.sound.silent (by simp [Silent])).with (.returned true) _ _, rfl, dummies, others,
    phases, List.mem_append_left _ (running.shutdown 0 (.inr (phases 0 first))),
    fun server small => List.mem_append_left _ ((running.deleted server).mpr (phases server small)),
    past, rfl, running.early⟩

theorem walk_empty (state : State) : (walk state).empty = state.empty := by
  unfold State.empty
  congr 1
  refine List.all_congr rfl fun server => ?_
  cases phase : state.phase server <;> simp [walk, Phase.walk, phase]

/-- The second call of `uv_loop_close` finds what the first one has found. -/
theorem closeLoop_eq (state : State) :
    closeLoop state =
      if state.empty then (state, [.loopClosed]) else (walk state, [.loopBusy, .loopLost]) := by
  unfold closeLoop
  by_cases empty : state.empty <;> simp [walk_empty, empty]

theorem destroy_eq (sound : Sound state past) :
    ∃ phase, (∀ server, (state.phase server).Begins (phase server)) ∧
      Sound { state with phase, admin := none, proxies := [], stage := .destroyed }
        (past ++ (close state).2) ∧
      destroy state =
        let closed := { state with phase, admin := none, proxies := [], stage := .destroyed }
        if closed.empty then (closed, (close state).2 ++ [.loopClosed])
        else (walk closed, (close state).2 ++ [.loopBusy, .loopLost]) := by
  obtain ⟨closed, ⟨phase, same⟩, -⟩ := sound.close
  have phases (server : Nat) := close_phase server state
  rw [same] at phases closed
  refine ⟨phase, phases, closed.with .destroyed _ _, ?_⟩
  rw [destroy, Reaction.andThen, closeLoop_eq, same]
  split <;> simp_all

/-- What the destructor reports, apart from what it closes. -/
theorem mem_destroy (sound : Sound state past) {loop : List Event} {event : Event}
    (other : ∀ server, event ≠ .closing server) :
    event ∈ past ++ ((close state).2 ++ loop) ↔ event ∈ past ∨ event ∈ loop := by
  have unclosed : event ∉ (close state).2 := by
    intro member
    obtain ⟨server, same⟩ := sound.mem_close member
    exact other server same
  simp [unclosed]

theorem destroy_stage (sound : Sound state past) : (destroy state).1.stage = .destroyed := by
  obtain ⟨phase, -, -, same⟩ := destroy_eq sound
  rw [same]
  dsimp only
  split <;> rfl

/-- The stage tells where a run stands. -/
theorem Standing.stage (standing : Standing config state past) :
    match state.stage with
    | .constructed => state = .initial ∧ past = []
    | .running => Running config state past
    | .returned _ => Finished config state past ∨ Failed state past
    | .aborted => Aborted config.dummies state past
    | .destroyed => ∃ last before, (Finished config last before ∨ Failed last before) ∧
        state = (destroy last).1 ∧ past = before ++ (destroy last).2 := by
  cases standing with
  | constructed initial nothing =>
      subst initial
      exact ⟨rfl, nothing⟩
  | running running =>
      rw [running.running]
      exact running
  | finished finished =>
      rw [finished.returned]
      exact .inl finished
  | failed failed =>
      rw [failed.returned]
      exact .inr failed
  | aborted aborted =>
      rw [aborted.aborted]
      exact aborted
  | destroyed last before exited same reports =>
      have stage : state.stage = .destroyed := by
        rw [same]
        rcases exited with finished | failed
        · exact destroy_stage finished.sound
        · exact destroy_stage failed.sound
      rw [stage]
      exact ⟨last, before, exited, same, reports⟩

theorem standing_of_step (standing : Standing config state past)
    (moved : step config state label = some (following, out)) :
    Standing config following (past ++ out) := by
  have known := standing.stage
  cases label with
  | start calls =>
      simp only [step, Option.ite_none_right_eq_some, Option.some.injEq] at moved
      obtain ⟨stage, moved⟩ := moved
      rw [stage] at known
      obtain ⟨rfl, rfl⟩ := known
      have started : Started config (start calls config .initial).1 (start calls config .initial).2 :=
        started_of_start config
      rw [moved] at started
      exact standing_of_started started
  | opened | stranded =>
      simp only [step, Option.ite_none_right_eq_some, Option.some.injEq, Prod.mk.injEq] at moved
      obtain ⟨stage, rfl, rfl⟩ := moved
      rw [stage] at known
      exact .running (known.with _ _)
  | finished =>
      simp only [step, Option.ite_none_right_eq_some, Option.some.injEq, Prod.mk.injEq] at moved
      obtain ⟨⟨stage, -⟩, rfl, rfl⟩ := moved
      rw [stage] at known
      exact .running (known.with _ _)
  | request url =>
      simp only [step, arrive, Option.ite_none_right_eq_some, Option.some.injEq] at moved
      obtain ⟨⟨stage, -⟩, moved⟩ := moved
      rw [stage] at known
      split at moved
      · obtain ⟨rfl, rfl⟩ := Prod.mk.inj moved
        exact .running (known.request (.inr (.inr rfl)))
      · by_cases shutdown : url.path = ascii "/shutdown"
        · have asked : onRequest url state =
              ((close state).1, .request true :: (close state).2) := by
            simp [onRequest, Reaction.andThen, shutdown]
          obtain ⟨rfl, rfl⟩ := Prod.mk.inj (asked.symm.trans moved)
          have closed := (known.request (.inr (.inl rfl))).close (by simp)
          rw [List.append_assoc] at closed
          exact .running closed
        · have asked : onRequest url state = (state, [.request false]) := by
            simp [onRequest, Reaction.andThen, shutdown]
          obtain ⟨rfl, rfl⟩ := Prod.mk.inj (asked.symm.trans moved)
          exact .running (known.request (.inl rfl))
  | closed server =>
      simp only [step, Option.ite_none_right_eq_some, Option.some.injEq, Prod.mk.injEq] at moved
      obtain ⟨⟨stage, small, closing⟩, rfl, rfl⟩ := moved
      rw [stage] at known
      exact .running (known.closed small closing)
  | exhausted =>
      simp only [step, Option.ite_none_right_eq_some, Option.some.injEq, Prod.mk.injEq] at moved
      obtain ⟨⟨stage, exhausted⟩, rfl, rfl⟩ := moved
      rw [stage] at known
      exact .finished (known.finish exhausted)
  | destroy =>
      simp only [step] at moved
      split at moved
      · next success stage =>
        rw [stage] at known
        have effect := Option.some.inj moved
        exact .destroyed state past known (congrArg Prod.fst effect).symm
          (congrArg (past ++ ·.2) effect).symm
      · cases moved

theorem standing_of_reaches
    (reached : Machine.Reaches (step config) Machine.always .initial state past) :
    Standing config state past :=
  reached.invariant (Standing config) (.constructed rfl rfl)
    fun _ standing _ moved => standing_of_step standing moved

theorem sound_of_destroy (sound : Sound state past) :
    Sound (destroy state).1 (past ++ (destroy state).2) ∧
      ∀ server, ¬ (destroy state).1.Known server := by
  obtain ⟨phase, -, closed, same⟩ := destroy_eq sound
  rw [same]
  dsimp only
  have forgotten (server : Nat) : ¬ State.Known
      { state with phase, admin := none, proxies := [], stage := .destroyed } server := by
    simp [State.Known]
  split
  · refine ⟨?_, forgotten⟩
    rw [← List.append_assoc]
    exact closed.silent (by simp [Silent])
  · refine ⟨?_, forgotten⟩
    rw [← List.append_assoc]
    exact (closed.walk forgotten).silent (by simp [Silent])

theorem sound_of_standing (standing : Standing config state past) : Sound state past := by
  cases standing with
  | constructed initial nothing =>
      subst initial nothing
      exact sound_initial
  | running running => exact running.sound
  | finished finished => exact finished.sound
  | failed failed => exact failed.sound
  | aborted aborted => exact aborted.sound
  | destroyed last before exited same reports =>
      subst same reports
      rcases exited with finished | failed
      · exact (sound_of_destroy finished.sound).1
      · exact (sound_of_destroy failed.sound).1

/--
Each server is closed once at most, and `Close` never touches one that was deleted,
however often it is called.  When the destructor has run, it has been called for the
admin server and the proxies that listened: the dummies, and a proxy that could not
listen, are left to the walk over the handles.
-/
theorem closed_once
    (reached : Machine.Reaches (step config) Machine.always .initial state past) (server : Nat) :
    past.count (.closing server) ≤ 1 ∧ .dead server ∉ past ∧
      (state.stage = .destroyed → server < state.count →
        (.closing server ∈ past ↔
          state.role server ≠ .dummy ∧ ¬ Refused state past server)) := by
  have standing := standing_of_reaches reached
  have sound := sound_of_standing standing
  refine ⟨?_, sound.alive server, fun stage small => ?_⟩
  · rw [sound.once server]
    split <;> decide
  · have known := standing.stage
    rw [stage] at known
    obtain ⟨last, before, exited, same, reports⟩ := known
    have forgotten : ¬ state.Known server := by
      rw [same]
      rcases exited with finished | failed
      · exact (sound_of_destroy finished.sound).2 server
      · exact (sound_of_destroy failed.sound).2 server
    have closing : .closing server ∈ past ↔ (state.phase server).Closed := by
      rw [← List.count_pos_iff, sound.once server]
      split <;> simp_all
    rw [closing]
    constructor
    · exact fun closed => ⟨fun dummy => sound.undisturbed server small dummy closed,
        fun refused => (sound.refused server refused).2 closed⟩
    · rintro ⟨role, listened⟩
      by_contra unclosed
      exact (sound.unknown server small unclosed role).elim forgotten listened

/-- Two proxies and a dummy. -/
def threeServers : Config Unit Unit :=
  { proxies := [{ port := 1 }, { port := 2 }], dummies := [{ port := 3 }], store := () }

/-- The second proxy cannot be bound. -/
def secondTaken (server : Nat) : Calls := if server = 2 then { bind := -98 } else {}

def refusedEvents : List Event :=
  [.made 0 .admin, .listening 0 19500, .made 1 .proxy, .listening 1 1, .made 2 .proxy,
    .refused 2 2, .returned false, .closing 1, .closing 0, .loopBusy, .loopLost]

theorem closed_once_run :
    ∃ state, Machine.Reaches (step threeServers) Machine.always .initial state refusedEvents ∧
      state.stage = .destroyed ∧ state.role 2 = .proxy ∧ .closing 2 ∉ refusedEvents ∧
      .closing 1 ∈ refusedEvents := by
  obtain ⟨state, reached, checked⟩ := Machine.exists_reaches (step threeServers) Machine.always
    .initial [.start secondTaken, .destroy] refusedEvents
    (fun state => decide (state.stage = .destroyed ∧ state.count = 3 ∧ state.role 2 = .proxy ∧
      state.role 1 = .proxy)) (by decide)
  simp only [decide_eq_true_eq] at checked
  obtain ⟨destroyed, count, second, first⟩ := checked
  have left := (closed_once reached 2).2.2 destroyed (by omega)
  have closed := (closed_once reached 1).2.2 destroyed (by omega)
  have refused : Refused state refusedEvents 2 := ⟨second, 2, by decide⟩
  have listened : ¬ Refused state refusedEvents 1 := by
    rintro ⟨-, port, member⟩
    simp [refusedEvents] at member
  exact ⟨state, reached, destroyed, second, fun member => (left.mp member).2 refused,
    closed.mpr ⟨by simp [first], listened⟩⟩

/-- Before the destructor, `Start` has reported how it ended once. -/
structure Ended (config : Config π σ) (state : State) (past : List Event) : Prop where
  returned : (.returned true ∈ past ∧ .returned false ∉ past) ∨
    .returned false ∈ past ∧ .returned true ∉ past
  succeeded : .returned true ∈ past → config.dummies = [] ∧ .request true ∈ past ∧
    ∀ server port, .refused server port ∉ past
  refused : .returned false ∈ past →
    (∃ port, .refused (state.count - 1) port ∈ past) ∧ ∀ server, .closed server ∉ past
  last : ∀ server port, .refused server port ∈ past → server + 1 = state.count
  open_ : .loopClosed ∉ past ∧ .loopLost ∉ past

theorem Finished.ended (finished : Finished config state past) : Ended config state past := by
  obtain ⟨before, rfl, early⟩ := finished.reports
  have reported (event : Event) (late : event.isEarly = false) :
      event ∈ before ++ [.returned true] ↔ event = .returned true := by
    have absent : event ∉ before := fun member => by
      rw [early event member] at late
      cases late
    simp [absent]
  have unrefused (server : Nat) (port : Int32) :
      .refused server port ∉ before ++ [.returned true] := by
    simp [reported (.refused server port) rfl]
  exact {
    returned := .inl (by simp [reported (.returned true) rfl, reported (.returned false) rfl])
    succeeded := fun _ => ⟨finished.dummies, finished.shutdown, unrefused⟩
    refused := by simp [reported (.returned false) rfl]
    last := fun server port member => absurd member (unrefused server port)
    open_ := by simp [reported .loopClosed rfl, reported .loopLost rfl] }

theorem Failed.unreturned (failed : Failed state past) : .returned true ∉ past := by
  obtain ⟨before, port, rfl, setup⟩ := failed.reports
  intro member
  have inside : .returned true ∈ before := by simpa using member
  cases setup _ inside

theorem Failed.ended (failed : Failed state past) : Ended config state past := by
  obtain ⟨before, port, rfl, setup⟩ := failed.reports
  have reported (event : Event) (late : event.isSetup = false) :
      event ∈ before ++ [.refused (state.count - 1) port, .returned false] ↔
        event = .refused (state.count - 1) port ∨ event = .returned false := by
    have absent : event ∉ before := fun member => by
      rw [setup event member] at late
      cases late
    simp [absent]
  obtain ⟨admin, made⟩ := Option.isSome_iff_exists.mp failed.admin
  have small := (failed.sound.known admin (.inl made)).1
  exact {
    returned := .inr (by simp [reported (.returned true) rfl, reported (.returned false) rfl])
    succeeded := by simp [reported (.returned true) rfl]
    refused := fun _ => ⟨⟨port, by simp⟩, fun server => by simp [reported (.closed server) rfl]⟩
    last := by
      intro server other member
      rw [reported _ rfl] at member
      obtain ⟨rfl, -⟩ : server = state.count - 1 ∧ other = port := by simpa using member
      omega
    open_ := by simp [reported .loopClosed rfl, reported .loopLost rfl] }

/-- What the destructor of the loop finds. -/
theorem destroy_reports (exited : Finished config state past ∨ Failed state past) :
    (destroy state).1.count = state.count ∧ (destroy state).1.stranded = state.stranded ∧
      (∀ event, (∀ server, event ≠ .closing server) →
        (event ∈ past ++ (destroy state).2 ↔ event ∈ past ∨
          event ∈ if .returned true ∈ past ∧ state.stranded = 0 then [Event.loopClosed]
            else [.loopBusy, .loopLost])) := by
  have sound : Sound state past := exited.elim (·.sound) (·.sound)
  obtain ⟨phase, phases, -, same⟩ := destroy_eq sound
  have empty : State.empty
      { state with phase, admin := none, proxies := [], stage := .destroyed } =
        decide (.returned true ∈ past ∧ state.stranded = 0) := by
    rcases exited with finished | failed
    · have all : (List.range state.count).all fun server => phase server = .destroyed := by
        simp only [List.all_eq_true, List.mem_range, decide_eq_true_eq]
        intro server small
        rcases phases server with kept | ⟨opened, -⟩
        · exact kept.trans (finished.phases server small)
        · rw [finished.phases server small] at opened
          exact absurd opened (by decide)
      obtain ⟨before, rfl, -⟩ := finished.reports
      simp [State.empty, finished.others, all]
    · obtain ⟨admin, made⟩ := Option.isSome_iff_exists.mp failed.admin
      obtain ⟨small, opened, -⟩ := failed.sound.known admin (.inl made)
      have left : phase admin ≠ .destroyed := by
        rcases phases admin with kept | ⟨-, closing⟩
        · rw [kept]
          exact fun destroyed => opened.not_closed (.inr destroyed)
        · rw [closing]
          nofun
      have some_left : ∃ server < state.count, ¬ phase server = .destroyed := ⟨admin, small, left⟩
      have unreturned : .returned true ∉ past := failed.unreturned
      simpa [State.empty, unreturned] using fun _ _ => some_left
  rw [same]
  dsimp only
  rw [empty]
  by_cases closed : .returned true ∈ past ∧ state.stranded = 0
  · rw [if_pos (decide_eq_true closed), if_pos closed]
    exact ⟨rfl, rfl, fun event other => mem_destroy sound other⟩
  · rw [if_neg (by simpa using closed), if_neg closed]
    exact ⟨rfl, rfl, fun event other => mem_destroy sound other⟩

/-- Before `Start` has ended, no server has been refused. -/
theorem Standing.ended (standing : Standing config state past) :
    (∀ event ∈ past, ∀ success server port, event ≠ .returned success ∧
        event ≠ .refused server port) ∨
      Ended config state past ∨ ∃ last before, (Finished config last before ∨ Failed last before) ∧
        state = (destroy last).1 ∧ past = before ++ (destroy last).2 := by
  cases standing with
  | constructed initial nothing => exact .inl (by simp [nothing])
  | running running =>
      refine .inl fun event member success server port => ?_
      have early := running.early event member
      constructor <;> rintro rfl <;> cases early
  | finished finished => exact .inr (.inl finished.ended)
  | failed failed => exact .inr (.inl failed.ended)
  | aborted aborted =>
      obtain ⟨before, rfl, setup⟩ := aborted.reports
      refine .inl fun event member success server port => ?_
      rcases List.mem_append.mp member with before | last
      · have early := setup event before
        constructor <;> rintro rfl <;> cases early
      · rw [List.mem_singleton.mp last]
        exact ⟨nofun, nofun⟩
  | destroyed last before exited same reports => exact .inr (.inr ⟨last, before, exited, same, reports⟩)

/--
`Start` returns `false` if and only if a server could not listen, which is the last one
that was made.  It returns `true` only if there are no dummies, after a request for a
shutdown.
-/
theorem start_returns
    (reached : Machine.Reaches (step config) Machine.always .initial state past) :
    (.returned true ∈ past → config.dummies = [] ∧ .request true ∈ past) ∧
      (.returned false ∈ past ↔ ∃ port, .refused (state.count - 1) port ∈ past) ∧
      (∀ server port, .refused server port ∈ past → server + 1 = state.count) ∧
      ¬ (.returned true ∈ past ∧ .returned false ∈ past) := by
  have of_ended {state : State} {past : List Event} (ended : Ended config state past) :
      (.returned true ∈ past → config.dummies = [] ∧ .request true ∈ past) ∧
        (.returned false ∈ past ↔ ∃ port, .refused (state.count - 1) port ∈ past) ∧
        (∀ server port, .refused server port ∈ past → server + 1 = state.count) ∧
        ¬ (.returned true ∈ past ∧ .returned false ∈ past) := by
    refine ⟨fun returned => ⟨(ended.succeeded returned).1, (ended.succeeded returned).2.1⟩,
      ⟨fun returned => (ended.refused returned).1, ?_⟩, ended.last, ?_⟩
    · rintro ⟨port, refused⟩
      rcases ended.returned with ⟨returned, -⟩ | ⟨returned, -⟩
      · exact absurd refused ((ended.succeeded returned).2.2 _ port)
      · exact returned
    · rintro ⟨succeeded, failed⟩
      rcases ended.returned with ⟨-, absent⟩ | ⟨-, absent⟩
      · exact absent failed
      · exact absent succeeded
  rcases (standing_of_reaches reached).ended with nothing | ended | ⟨last, before, exited, rfl, rfl⟩
  · have unreturned (success : Bool) : .returned success ∉ past := fun member =>
      (nothing _ member success 0 0).1 rfl
    have unrefused (server : Nat) (port : Int32) : .refused server port ∉ past := fun member =>
      (nothing _ member true server port).2 rfl
    simp [unreturned, unrefused]
  · exact of_ended ended
  · obtain ⟨count, -, reports⟩ := destroy_reports exited
    have kept (event : Event) (other : ∀ server, event ≠ .closing server)
        (outside : event ≠ .loopClosed ∧ event ≠ .loopBusy ∧ event ≠ .loopLost) :
        event ∈ before ++ (destroy last).2 ↔ event ∈ before := by
      rw [reports event other]
      split <;> simp [outside]
    have ended : Ended config last before := exited.elim (·.ended) (·.ended)
    simpa [kept, count] using of_ended ended

/-- A server that is shut down. -/
theorem start_returns_run :
    ∃ state past, Machine.Reaches (step { threeServers with dummies := [] }) Machine.always .initial
        state past ∧ .returned true ∈ past ∧ .request true ∈ past := by
  obtain ⟨state, reached, -⟩ := Machine.exists_reaches (step { threeServers with dummies := [] })
    Machine.always .initial
    [.start fun _ => {}, .opened, .request (.parse (ascii "/")),
      .request (.parse (ascii "/shutdown?now")), .closed 1, .closed 0, .finished, .closed 2, .exhausted]
    [.made 0 .admin, .listening 0 19500, .made 1 .proxy, .listening 1 1, .made 2 .proxy,
      .listening 2 2, .request false, .request true, .closing 1, .closing 2, .closing 0, .closed 1,
      .closed 0, .closed 2, .returned true] (fun _ => true) (by decide)
  exact ⟨state, _, reached, by decide, ((start_returns reached).1 (by decide)).2⟩

/--
The destructor closes the loop if and only if `Start` has returned `true` and no `Accept`
has failed.  Otherwise both of its attempts fail; and when `Start` has returned `false`,
no server was deleted.
-/
theorem loop_closed
    (reached : Machine.Reaches (step config) Machine.always .initial state past)
    (destroyed : state.stage = .destroyed) :
    (.loopClosed ∈ past ↔ .returned true ∈ past ∧ state.stranded = 0) ∧
      (.loopLost ∈ past ↔ .loopClosed ∉ past) ∧
      (.returned false ∈ past → ∀ server, .closed server ∉ past) := by
  have known := (standing_of_reaches reached).stage
  rw [destroyed] at known
  obtain ⟨last, before, exited, rfl, rfl⟩ := known
  have ended : Ended config last before := exited.elim (·.ended) (·.ended)
  obtain ⟨-, stranded, reports⟩ := destroy_reports exited
  have undeleted := fun returned => (ended.refused returned).2
  rw [stranded, reports .loopClosed nofun, reports .loopLost nofun, reports (.returned true) nofun,
    reports (.returned false) nofun]
  simp only [fun server => reports (.closed server) nofun]
  by_cases closed : .returned true ∈ before ∧ last.stranded = 0
  · simpa [closed, ended.open_] using undeleted
  · simpa [closed, ended.open_] using undeleted

/-- Both ways: `Start` fails, or the program is shut down. -/
theorem loop_closed_run :
    (∃ state, Machine.Reaches (step threeServers) Machine.always .initial state refusedEvents ∧
      .loopLost ∈ refusedEvents ∧ ∀ server, .closed server ∉ refusedEvents) ∧
    ∃ state past, Machine.Reaches (step { threeServers with proxies := [], dummies := [] })
      Machine.always .initial state past ∧ .loopClosed ∈ past := by
  obtain ⟨state, reached, destroyed⟩ := Machine.exists_reaches (step threeServers) Machine.always
    .initial [.start secondTaken, .destroy] refusedEvents
    (fun state => decide (state.stage = .destroyed)) (by decide)
  obtain ⟨-, lost, undeleted⟩ := loop_closed reached (of_decide_eq_true destroyed)
  obtain ⟨last, ended, checked⟩ := Machine.exists_reaches
    (step { threeServers with proxies := [], dummies := [] }) Machine.always .initial
    [.start fun _ => {}, .opened, .request (.parse (ascii "/shutdown")), .closed 0, .finished, .exhausted,
      .destroy]
    [.made 0 .admin, .listening 0 19500, .request true, .closing 0, .closed 0, .returned true,
      .loopClosed]
    (fun state => decide (state.stage = .destroyed ∧ state.stranded = 0)) (by decide)
  obtain ⟨over_, accepted⟩ := of_decide_eq_true checked
  exact ⟨⟨state, reached, lost.mpr (by decide), undeleted (by decide)⟩, last, _, ended,
    (loop_closed ended over_).1.mpr ⟨by decide, accepted⟩⟩

end Nexer.Servers
