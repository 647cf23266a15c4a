import Nexer.Http.Feeding
import Nexer.Http.Server
import Nexer.Servers.Life
import Nexer.Transition.Instances
import Nexer.Transition.Service

/-!
# The connections of the admin server

The servers run beside the connections of the admin server.  What a connection reads may
complete any number of requests, and each of them runs the function of `OnRequest`, which
acts on the servers.
-/

namespace Nexer.Servers

open Nexer.Transition

/-- The answer of the function that `StartAdminServer` gives to `OnRequest`. -/
def handler : Http.Handler := fun _ => { status := 200 }

/-- The servers and the connections of the admin server, in the order of their `Accept`. -/
structure Hosted (parser : Http.Parser) where
  servers : State := {}
  connections : List (Http.State parser) := []

inductive HostedLabel where
  /-- Anything but a request. -/
  | servers (label : Label)
  | accept
  | connection (index : Nat) (label : Http.Label)

variable {π σ : Type} {parser : Http.Parser}

def Hosted.initial (parser : Http.Parser) : Hosted parser := {}

/-- The handle of the connection is open or closing. -/
def remains (connection : Http.State parser) : Bool := connection.client ≠ .destroyed

def Hosted.serving (state : Hosted parser) : Nat := state.connections.countP remains

/-- The requests of a read. -/
def arriveAll : List Http.Received → State → Effect
  | [], state => (state, [])
  | received :: rest, state => (arrive received.parsed state).andThen (arriveAll rest)

/-- The handle of a connection has been closed. -/
def released (label : Http.Label) (state : State) : State :=
  match label with
  | .closed => { state with others := state.others - 1 }
  | _ => state

/-- The labels that `Hosted` has a label of its own for, and those that would close the
handle of a connection. -/
def Hosted.foreign (state : Hosted parser) : Label → Bool
  | .request _ => false
  | .finished => state.serving < state.servers.others
  | _ => true

/-- The machine of the servers with the connections of the admin server. -/
def hostedStep (config : Config π σ) (parser : Http.Parser) (statusName : Nat → Bytes) :
    Machine (Hosted parser) HostedLabel (Event ⊕ (Nat × Http.Event))
  | state, .servers label =>
      if state.foreign label then
        (step config state.servers label).map fun effect =>
          ({ state with servers := effect.1 }, effect.2.map .inl)
      else none
  | state, .accept =>
      if state.servers.stage = .running ∧ state.servers.phase 0 = .listening then
        some ({ servers := { state.servers with others := state.servers.others + 1 }
                connections := state.connections ++ [.initial parser] }, [])
      else none
  | state, .connection index label =>
      if state.servers.stage = .running then
        state.connections[index]?.bind fun connection =>
          (Http.step parser statusName (some handler) connection label).map fun effect =>
            -- `OnRequestComplete` reads the admin server, whether or not it still exists.
            if state.servers.phase 0 = .destroyed ∧ Http.completes connection label then
              (state, [.inl .deadServer])
            else
              let asked := arriveAll (Http.requestsOf effect.2) state.servers
              ({ servers := released label asked.1
                 connections := state.connections.set index effect.1 },
                effect.2.map (fun event => .inr (index, event)) ++ asked.2.map .inl)
      else none

/-- What the servers have reported. -/
def reports (past : List (Event ⊕ (Nat × Http.Event))) : List Event :=
  Service.clientEvents past

/-- What a connection has reported. -/
def eventsOf (index : Nat) (past : List (Event ⊕ (Nat × Http.Event))) : List Http.Event :=
  Machine.eventsOf index (Service.serverEvents past)

variable {config : Config π σ} {statusName : Nat → Bytes}
variable {state following : Hosted parser} {label : HostedLabel}
variable {past out : List (Event ⊕ (Nat × Http.Event))}

@[simp] theorem reports_append : reports (past ++ out) = reports past ++ reports out :=
  Service.clientEvents_append

@[simp] theorem reports_inl (events : List Event) : reports (events.map .inl) = events :=
  Service.clientEvents_inl events

@[simp] theorem reports_inr (entries : List (Nat × Http.Event)) : reports (entries.map .inr) = [] :=
  Service.clientEvents_inr entries

@[simp] theorem eventsOf_append (index : Nat) :
    eventsOf index (past ++ out) = eventsOf index past ++ eventsOf index out := by
  simp [eventsOf]

@[simp] theorem eventsOf_inl (index : Nat) (events : List Event) :
    eventsOf index (events.map .inl) = [] := by
  simp [eventsOf, Machine.eventsOf]

@[simp] theorem eventsOf_inr (index other : Nat) (events : List Http.Event) :
    eventsOf index ((events.map (Prod.mk other)).map .inr) = if index = other then events else [] := by
  rw [eventsOf, Service.serverEvents_inr]
  by_cases same : index = other
  · subst same
    rw [Machine.eventsOf_map, if_pos rfl]
  · rw [Machine.eventsOf_map_ne events (Ne.symm same), if_neg same]

/-- What a step of the machine does. -/
inductive Hosts (config : Config π σ) (statusName : Nat → Bytes) (state : Hosted parser) :
    HostedLabel → Hosted parser → List (Event ⊕ (Nat × Http.Event)) → Prop where
  | servers (label : Label) (next : State) (events : List Event) (foreign : state.foreign label)
      (moved : step config state.servers label = some (next, events)) :
      Hosts config statusName state (.servers label) { state with servers := next }
        (events.map .inl)
  | accept (running : state.servers.stage = .running)
      (listening : state.servers.phase 0 = .listening) :
      Hosts config statusName state .accept
        { servers := { state.servers with others := state.servers.others + 1 }
          connections := state.connections ++ [.initial parser] } []
  | dead (index : Nat) (label : Http.Label) (connection : Http.State parser)
      (running : state.servers.stage = .running)
      (there : state.connections[index]? = some connection)
      (able : (Http.step parser statusName (some handler) connection label).isSome)
      (deleted : state.servers.phase 0 = .destroyed)
      (completes : Http.completes connection label) :
      Hosts config statusName state (.connection index label) state [.inl .deadServer]
  | connection (index : Nat) (label : Http.Label) (connection next : Http.State parser)
      (events : List Http.Event) (running : state.servers.stage = .running)
      (there : state.connections[index]? = some connection)
      (moved : Http.step parser statusName (some handler) connection label = some (next, events)) :
      Hosts config statusName state (.connection index label)
        { servers := released label (arriveAll (Http.requestsOf events) state.servers).1
          connections := state.connections.set index next }
        ((events.map (Prod.mk index)).map .inr ++
          (arriveAll (Http.requestsOf events) state.servers).2.map .inl)

theorem hosts_of_step (moved : hostedStep config parser statusName state label = some (following, out)) :
    Hosts config statusName state label following out := by
  cases label with
  | servers label =>
      simp only [hostedStep, Option.ite_none_right_eq_some] at moved
      obtain ⟨foreign, moved⟩ := moved
      obtain ⟨⟨next, events⟩, stepped, same⟩ := Option.map_eq_some_iff.mp moved
      obtain ⟨rfl, rfl⟩ := Prod.mk.inj same
      exact .servers label next events foreign stepped
  | accept =>
      simp only [hostedStep, Option.ite_none_right_eq_some, Option.some.injEq, Prod.mk.injEq]
        at moved
      obtain ⟨⟨running, listening⟩, rfl, rfl⟩ := moved
      exact .accept running listening
  | connection index label =>
      simp only [hostedStep, Option.ite_none_right_eq_some] at moved
      obtain ⟨running, moved⟩ := moved
      obtain ⟨connection, there, moved⟩ := Option.bind_eq_some_iff.mp moved
      obtain ⟨⟨next, events⟩, stepped, same⟩ := Option.map_eq_some_iff.mp moved
      dsimp only at same
      split at same
      · next used =>
        obtain ⟨rfl, rfl⟩ := Prod.mk.inj same
        exact .dead index label connection running there (by simp [stepped]) used.1 used.2
      obtain ⟨rfl, rfl⟩ := Prod.mk.inj same
      have hosts : Hosts config statusName state (.connection index label) _ _ :=
        .connection index label connection next events running there stepped
      simpa [Function.comp_def] using hosts

section Servers

variable (servers : State)

theorem closeServer_frame (server : Nat) :
    (closeServer server servers).1.stage = servers.stage ∧
      (closeServer server servers).1.others = servers.others := by
  unfold closeServer
  split <;> exact ⟨rfl, rfl⟩

theorem closeServers_frame (known : List Nat) :
    (closeServers known servers).1.stage = servers.stage ∧
      (closeServers known servers).1.others = servers.others := by
  induction known generalizing servers with
  | nil => exact ⟨rfl, rfl⟩
  | cons server rest ih =>
      obtain ⟨stage, others⟩ := closeServer_frame servers server
      obtain ⟨stage', others'⟩ := ih (closeServer server servers).1
      exact ⟨stage'.trans stage, others'.trans others⟩

/-- `Close` leaves `main` and the handles that are no servers alone. -/
theorem close_frame :
    (close servers).1.stage = servers.stage ∧ (close servers).1.others = servers.others := by
  obtain ⟨stage, others⟩ := closeServers_frame servers servers.proxies
  rw [close, Reaction.andThen]
  generalize (closeServers servers.proxies servers).1 = next at stage others ⊢
  cases next.admin with
  | none => exact ⟨stage, others⟩
  | some server =>
      obtain ⟨stage', others'⟩ := closeServer_frame { next with proxies := [], admin := none } server
      exact ⟨stage'.trans stage, others'.trans others⟩

theorem arrive_frame (url : Url) :
    (arrive url servers).1.stage = servers.stage ∧
      (arrive url servers).1.others = servers.others := by
  unfold arrive onRequest Reaction.andThen
  split
  · exact ⟨rfl, rfl⟩
  · by_cases shutdown : url.path = ascii "/shutdown"
    · simpa [shutdown] using close_frame servers
    · simp [shutdown]

theorem arriveAll_frame (requests : List Http.Received) :
    (arriveAll requests servers).1.stage = servers.stage ∧
      (arriveAll requests servers).1.others = servers.others := by
  induction requests generalizing servers with
  | nil => exact ⟨rfl, rfl⟩
  | cons received rest ih =>
      obtain ⟨stage, others⟩ := arrive_frame servers received.parsed
      obtain ⟨stage', others'⟩ := ih (arrive received.parsed servers).1
      exact ⟨stage'.trans stage, others'.trans others⟩

/-- A request for a shutdown. -/
def Asks (received : Http.Received) : Prop := received.parsed.path = ascii "/shutdown"

instance (received : Http.Received) : Decidable (Asks received) := inferInstanceAs (Decidable (_ = _))

variable {servers}

/-- A request leaves the admin server undeleted. -/
theorem arrive_alive (url : Url) (alive : servers.phase 0 ≠ .destroyed) :
    (arrive url servers).1.phase 0 ≠ .destroyed := by
  unfold arrive onRequest Reaction.andThen
  rw [if_neg alive]
  by_cases shutdown : url.path = ascii "/shutdown"
  · have closed : (close servers).1.phase 0 ≠ .destroyed := by
      rcases close_phase 0 servers with kept | ⟨-, closing⟩
      · rwa [kept]
      · rw [closing]
        nofun
    simpa [shutdown] using closed
  · simpa [shutdown] using alive

/-- While the admin server exists, every request reaches its function. -/
theorem mem_arriveAll {requests : List Http.Received} (alive : servers.phase 0 ≠ .destroyed) :
    .request true ∈ (arriveAll requests servers).2 ↔ ∃ received ∈ requests, Asks received := by
  induction requests generalizing servers with
  | nil => simp [arriveAll]
  | cons received rest ih =>
      have first : .request true ∈ (arrive received.parsed servers).2 ↔ Asks received := by
        unfold arrive onRequest Reaction.andThen
        rw [if_neg alive]
        by_cases shutdown : received.parsed.path = ascii "/shutdown"
        · simp [shutdown, Asks]
        · simp [shutdown, Asks]
      simp only [arriveAll, Reaction.andThen, List.mem_append, first,
        ih (arrive_alive received.parsed alive), List.mem_cons, exists_eq_or_imp]

/-- Requests are steps of the servers. -/
theorem reaches_arriveAll {events : List Event}
    (reached : Machine.Reaches (step config) Machine.always .initial servers events)
    (running : servers.stage = .running) (present : 0 < servers.others)
    (requests : List Http.Received) :
    Machine.Reaches (step config) Machine.always .initial (arriveAll requests servers).1
      (events ++ (arriveAll requests servers).2) := by
  induction requests generalizing servers events with
  | nil => simpa [arriveAll] using reached
  | cons received rest ih =>
      obtain ⟨stage, others⟩ := arrive_frame servers received.parsed
      have next := reached.next trivial
        (show step config servers (.request received.parsed) = some (arrive received.parsed servers) by
          simp [step, running, present])
      have all := ih next (stage.trans running) (others ▸ present)
      rwa [List.append_assoc] at all

end Servers

/-- What is known of the servers and of the number of their connections. -/
structure Hosting (config : Config π σ) (state : Hosted parser)
    (past : List (Event ⊕ (Nat × Http.Event))) : Prop where
  reached : Machine.Reaches (step config) Machine.always .initial state.servers (reports past)
  constructed : state.servers.stage = .constructed → state.connections = []
  serving : state.servers.stage = .running → state.serving ≤ state.servers.others
  deserted : .returned true ∈ reports past → state.serving = 0
  asked : .request true ∈ reports past ↔
    ∃ index, ∃ received ∈ Http.requestsOf (eventsOf index past), Asks received

theorem hosting_initial : Hosting config (.initial parser) [] where
  reached := .start
  constructed := fun _ => rfl
  serving := fun _ => Nat.zero_le _
  deserted := by simp [reports, Service.clientEvents]
  asked := by
    simp [reports, eventsOf, Service.clientEvents, Service.serverEvents, Machine.eventsOf,
      Http.requestsOf]

theorem Started.quiet {servers : State} {events : List Event} (started : Started config servers events) :
    servers.stage ≠ .constructed ∧ .request true ∉ events ∧ .returned true ∉ events := by
  cases started with
  | running going count dummies =>
      refine ⟨by simp [going.running], fun member => ?_, fun member => ?_⟩
      · cases going.setup _ member
      · cases going.setup _ member
  | failed failed =>
      obtain ⟨before, port, rfl, setup⟩ := failed.reports
      have absent (event : Event) (late : event.isSetup = false) : event ∉ before := by
        intro member
        rw [setup event member] at late
        cases late
      simp [failed.returned, absent (.request true) rfl, absent (.returned true) rfl]
  | aborted aborted =>
      obtain ⟨before, rfl, setup⟩ := aborted.reports
      have absent (event : Event) (late : event.isSetup = false) : event ∉ before := by
        intro member
        rw [setup event member] at late
        cases late
      simp [aborted.aborted, absent (.request true) rfl, absent (.returned true) rfl]

namespace Hosting

/-- A step of `main` that is no request, and leaves the connections alone. -/
theorem main (hosting : Hosting config state past) {label : Label} {next : State}
    {events : List Event} (foreign : state.foreign label)
    (moved : step config state.servers label = some (next, events)) :
    next.stage ≠ .constructed ∧ .request true ∉ events ∧
      (.returned true ∈ events → state.serving = 0) ∧
      (next.stage = .running → state.serving ≤ next.others) := by
  have known := (standing_of_reaches hosting.reached).stage
  cases label with
  | start calls =>
      simp only [step, Option.ite_none_right_eq_some, Option.some.injEq] at moved
      obtain ⟨stage, moved⟩ := moved
      have none : state.serving = 0 := by simp [Hosted.serving, hosting.constructed stage]
      rw [stage] at known
      have started : Started config (start calls config .initial).1 (start calls config .initial).2 :=
        started_of_start config
      rw [← known.1, moved] at started
      obtain ⟨built, unasked, -⟩ := started.quiet
      exact ⟨built, unasked, fun _ => none, fun _ => none ▸ Nat.zero_le _⟩
  | opened | stranded =>
      simp only [step, Option.ite_none_right_eq_some, Option.some.injEq, Prod.mk.injEq] at moved
      obtain ⟨stage, rfl, rfl⟩ := moved
      have serving := hosting.serving stage
      refine ⟨by simp [stage], List.not_mem_nil, fun member => absurd member List.not_mem_nil, ?_⟩
      intro
      simp only
      omega
  | finished =>
      simp only [step, Option.ite_none_right_eq_some, Option.some.injEq, Prod.mk.injEq] at moved
      obtain ⟨⟨stage, -⟩, rfl, rfl⟩ := moved
      simp only [Hosted.foreign, decide_eq_true_eq] at foreign
      refine ⟨by simp [stage], List.not_mem_nil, fun member => absurd member List.not_mem_nil, ?_⟩
      intro
      simp only
      omega
  | request url => cases foreign
  | closed server =>
      simp only [step, Option.ite_none_right_eq_some, Option.some.injEq, Prod.mk.injEq] at moved
      obtain ⟨⟨stage, -⟩, rfl, rfl⟩ := moved
      exact ⟨by simp [State.setPhase, stage], by simp, by simp, fun _ => hosting.serving stage⟩
  | exhausted =>
      simp only [step, Option.ite_none_right_eq_some, Option.some.injEq, Prod.mk.injEq] at moved
      obtain ⟨⟨stage, exhausted⟩, rfl, rfl⟩ := moved
      have none : state.servers.others = 0 := by
        simp only [State.exhausted, Bool.and_eq_true, decide_eq_true_eq] at exhausted
        exact exhausted.1
      have serving := hosting.serving stage
      exact ⟨by simp, by simp, fun _ => by omega, by simp⟩
  | destroy =>
      simp only [step] at moved
      split at moved
      · next success stage =>
        obtain ⟨rfl, rfl⟩ : (destroy state.servers).1 = next ∧ (destroy state.servers).2 = events :=
          Prod.mk.inj (Option.some.inj moved)
        rw [stage] at known
        have sound : Sound state.servers (reports past) := known.elim (·.sound) (·.sound)
        obtain ⟨phase, -, -, same⟩ := destroy_eq sound
        have last := destroy_stage sound
        have unreported (event : Event) (other : ∀ server, event ≠ .closing server)
            (inner : event ≠ .loopClosed ∧ event ≠ .loopBusy ∧ event ≠ .loopLost) :
            event ∉ (destroy state.servers).2 := by
          have unclosed : event ∉ (close state.servers).2 := by
            intro member
            obtain ⟨server, closing⟩ := sound.mem_close member
            exact other server closing
          rw [same]
          dsimp only
          split <;> simp [unclosed, inner]
        rw [last]
        have unasked := unreported (.request true) (by simp) (by simp)
        have unreturned := unreported (.returned true) (by simp) (by simp)
        exact ⟨by simp, unasked, fun member => absurd member unreturned, by simp⟩
      · cases moved

end Hosting

end Nexer.Servers
