import Nexer.Http.Framing
import Nexer.Servers.Hosting
import Nexer.Text.Paths

/-!
# What the requests do to the servers

While `uv_run` runs, the servers that listened are closed if and only if a connection has
carried a request whose target has the path `/shutdown`.  `uv_run` returns when every
connection has been deleted as well.
-/

namespace Nexer.Servers

open Nexer.Transition

variable {π σ : Type} {parser : Http.Parser} {config : Config π σ}
variable {statusName : Nat → Bytes} {state following : Hosted parser} {label : HostedLabel}
variable {past out : List (Event ⊕ (Nat × Http.Event))}

/-- The handle of a connection is deleted by its close callback. -/
theorem step_closed {connection next : Http.State parser} {handler : Option Http.Handler}
    {events : List Http.Event}
    (moved : Http.step parser statusName handler connection .closed = some (next, events)) :
    next.client = .destroyed ∧ Http.requestsOf events = [] := by
  simp only [Http.step, Option.ite_none_right_eq_some, Option.some.injEq, Prod.mk.injEq] at moved
  obtain ⟨-, rfl, rfl⟩ := moved
  exact ⟨rfl, rfl⟩

/-- A connection that takes a step is there. -/
theorem remains_of_step {connection : Http.State parser} {handler : Option Http.Handler}
    {label : Http.Label} {effect : Http.Effect parser}
    (moved : Http.step parser statusName handler connection label = some effect) :
    remains connection = true := by
  by_contra gone
  have destroyed : connection.client = .destroyed := by simpa [remains] using gone
  rw [Http.step_destroyed destroyed] at moved
  cases moved

/-- What an entry of a list leaves when it is overwritten. -/
theorem countP_set {α : Type} {p : α → Bool} {values : List α} {index : Nat} {old : α} (new : α)
    (there : values[index]? = some old) (counted : p old = true) :
    (values.set index new).countP p + (if p new then 0 else 1) = values.countP p := by
  obtain ⟨small, same⟩ := List.getElem?_eq_some_iff.mp there
  obtain ⟨before, after, split, -, changed⟩ :
      ∃ before after, values = before ++ values[index] :: after ∧ before.length = index ∧
        values.set index new = before ++ new :: after := List.exists_of_set small
  rw [changed, split, same]
  simp only [List.countP_append, List.countP_cons, counted]
  cases p new <;> simp [Nat.add_assoc]

/-- The requests of all connections, when one of them has carried some more. -/
theorem asked_append {index : Nat} {events : List Http.Event} {more : List Event} :
    (∃ other, ∃ received ∈ Http.requestsOf (eventsOf other
        (past ++ ((events.map (Prod.mk index)).map .inr ++ more.map .inl))), Asks received) ↔
      (∃ other, ∃ received ∈ Http.requestsOf (eventsOf other past), Asks received) ∨
        ∃ received ∈ Http.requestsOf events, Asks received := by
  have entries (other : Nat) : eventsOf other
      (past ++ ((events.map (Prod.mk index)).map .inr ++ more.map .inl)) =
        eventsOf other past ++ if other = index then events else [] := by
    simp [-List.map_map]
  constructor
  · rintro ⟨other, received, member, asks⟩
    rw [entries, Http.requestsOf_append, List.mem_append] at member
    rcases member with before | new
    · exact .inl ⟨other, received, before, asks⟩
    · split at new
      · exact .inr ⟨received, new, asks⟩
      · cases new
  · rintro (⟨other, received, before, asks⟩ | ⟨received, new, asks⟩)
    · refine ⟨other, received, ?_, asks⟩
      rw [entries, Http.requestsOf_append]
      exact List.mem_append_left _ before
    · refine ⟨index, received, ?_, asks⟩
      rw [entries, if_pos rfl, Http.requestsOf_append]
      exact List.mem_append_right _ new

namespace Hosting

/-- A step of a connection. -/
theorem connection (hosting : Hosting config state past) {index : Nat} {label : Http.Label}
    {connection next : Http.State parser} {events : List Http.Event}
    (running : state.servers.stage = .running) (there : state.connections[index]? = some connection)
    (moved : Http.step parser statusName (some handler) connection label = some (next, events)) :
    Hosting config
      { servers := released label (arriveAll (Http.requestsOf events) state.servers).1
        connections := state.connections.set index next }
      (past ++ ((events.map (Prod.mk index)).map .inr ++
        (arriveAll (Http.requestsOf events) state.servers).2.map .inl)) := by
  have counted := countP_set next there (remains_of_step moved)
  have serving := hosting.serving running
  have present : 0 < state.servers.others := by
    refine Nat.lt_of_lt_of_le ?_ serving
    exact List.countP_pos_iff.mpr ⟨connection, List.mem_of_getElem? there, remains_of_step moved⟩
  have known : Running config state.servers (reports past) := by
    have known := (standing_of_reaches hosting.reached).stage
    rwa [running] at known
  obtain ⟨stage, others⟩ := arriveAll_frame state.servers (Http.requestsOf events)
  have arrived := reaches_arriveAll hosting.reached running present (Http.requestsOf events)
  have shown : reports (past ++ ((events.map (Prod.mk index)).map .inr ++
      (arriveAll (Http.requestsOf events) state.servers).2.map .inl)) =
        reports past ++ (arriveAll (Http.requestsOf events) state.servers).2 := by
    simp [-List.map_map]
  have asked : .request true ∈ reports past ++ (arriveAll (Http.requestsOf events) state.servers).2 ↔
      (∃ other, ∃ received ∈ Http.requestsOf (eventsOf other past), Asks received) ∨
        ∃ received ∈ Http.requestsOf events, Asks received := by
    rw [List.mem_append, hosting.asked]
    by_cases deleted : state.servers.phase 0 = .destroyed
    · -- The admin server has been closed by an earlier request.
      have before := hosting.asked.mp (known.shutdown 0 (.inr deleted))
      exact iff_of_true (.inl before) (.inl before)
    · rw [mem_arriveAll deleted]
  have running' : (arriveAll (Http.requestsOf events) state.servers).1.stage = .running :=
    stage.trans running
  have unfinished : .returned true ∉
      reports past ++ (arriveAll (Http.requestsOf events) state.servers).2 := by
    have known := (standing_of_reaches arrived).stage
    rw [running'] at known
    exact fun member => Bool.false_ne_true (known.early _ member)
  by_cases closes : label = .closed
  · subst closes
    obtain ⟨destroyed, silent⟩ := step_closed moved
    have gone : remains next = false := by simp [remains, destroyed]
    rw [gone] at counted
    simp only [Bool.false_eq_true, if_false] at counted
    have finished : step config (arriveAll (Http.requestsOf events) state.servers).1 .finished =
        some (released .closed (arriveAll (Http.requestsOf events) state.servers).1, []) := by
      simp [step, running', others, present, released]
    constructor
    · rw [shown]
      simpa using arrived.next trivial finished
    · simp [released, running']
    · intro
      simp only [Hosted.serving, released, others] at serving ⊢
      omega
    · rw [shown]
      exact fun member => absurd member unfinished
    · rw [shown, asked, asked_append]
  · have kept : released label (arriveAll (Http.requestsOf events) state.servers).1 =
        (arriveAll (Http.requestsOf events) state.servers).1 := by
      cases label <;> first | rfl | exact absurd rfl closes
    rw [kept]
    constructor
    · rw [shown]
      exact arrived
    · simp [running']
    · intro
      simp only [Hosted.serving, others] at serving ⊢
      omega
    · rw [shown]
      exact fun member => absurd member unfinished
    · rw [shown, asked, asked_append]

theorem step (hosting : Hosting config state past)
    (moved : hostedStep config parser statusName state label = some (following, out)) :
    Hosting config following (past ++ out) := by
  cases hosts_of_step moved with
  | servers label next events foreign stepped =>
      obtain ⟨built, unasked, exhausted, serving⟩ := hosting.main foreign stepped
      have shown : reports (past ++ events.map .inl) = reports past ++ events := by simp
      constructor
      · rw [shown]
        exact hosting.reached.next trivial stepped
      · exact fun constructed => absurd constructed built
      · exact serving
      · rw [shown, List.mem_append]
        exact fun member => member.elim hosting.deserted exhausted
      · simpa [unasked] using hosting.asked
  | accept running listening =>
      have opened : Servers.step config state.servers .opened =
          some ({ state.servers with others := state.servers.others + 1 }, []) := by
        simp [Servers.step, running]
      have reached := hosting.reached.next trivial opened
      have serving := hosting.serving running
      have known := (standing_of_reaches hosting.reached).stage
      rw [running] at known
      rw [List.append_nil] at reached ⊢
      constructor
      · exact reached
      · simp [running]
      · intro
        simp only [Hosted.serving, List.countP_append, List.countP_singleton] at serving ⊢
        split <;> omega
      · exact fun member => absurd (known.early _ member) Bool.false_ne_true
      · exact hosting.asked
  | dead index label connection running there able deleted =>
      have serving := hosting.serving running
      have remaining : remains connection := by
        obtain ⟨effect, stepped⟩ := Option.isSome_iff_exists.mp able
        exact remains_of_step stepped
      have present : 0 < state.servers.others := by
        refine Nat.lt_of_lt_of_le ?_ serving
        exact List.countP_pos_iff.mpr ⟨connection, List.mem_of_getElem? there, remaining⟩
      have asked : Servers.step config state.servers (.request {}) =
          some (state.servers, [.deadServer]) := by
        simp [Servers.step, running, present, arrive, deleted]
      have shown : reports (past ++ [.inl .deadServer]) = reports past ++ [.deadServer] :=
        reports_append
      constructor
      · rw [shown]
        exact hosting.reached.next trivial asked
      · exact hosting.constructed
      · exact hosting.serving
      · rw [shown]
        simpa using hosting.deserted
      · rw [shown, List.mem_append, hosting.asked]
        have silent (index : Nat) : eventsOf index [.inl .deadServer] = [] := rfl
        simp [silent]
  | connection index label connection next events running there stepped =>
      exact hosting.connection running there stepped

end Hosting

theorem hosting_of_reaches {guard : Hosted parser → HostedLabel → Prop}
    (reached : Machine.Reaches (hostedStep config parser statusName) guard (.initial parser)
      state past) :
    Hosting config state past :=
  reached.invariant (Hosting config) hosting_initial fun _ hosting _ moved => hosting.step moved

/-- What a connection has done is a run of its machine. -/
theorem connection_of_reaches {guard : Hosted parser → HostedLabel → Prop}
    {allowed : Http.State parser → Http.Label → Prop}
    (implies : ∀ {state : Hosted parser} {index label connection},
      guard state (.connection index label) → state.connections[index]? = some connection →
      allowed connection label)
    (living : ∀ {state : Hosted parser} {index label connection},
      guard state (.connection index label) → state.connections[index]? = some connection →
      state.servers.phase 0 = .destroyed → ¬ Http.completes connection label)
    (reached : Machine.Reaches (hostedStep config parser statusName) guard (.initial parser)
      state past) (index : Nat) :
    (∀ connection, state.connections[index]? = some connection →
      Machine.Reaches (Http.step parser statusName (some handler)) allowed (.initial parser)
        connection (eventsOf index past)) ∧
    (state.connections.length ≤ index → eventsOf index past = []) := by
  induction reached with
  | start => exact ⟨nofun, fun _ => rfl⟩
  | @next state following past out label _ permitted moved ih =>
      cases hosts_of_step moved with
      | servers label next events =>
          simpa using ih
      | accept =>
          rw [List.append_nil, List.length_append]
          refine ⟨fun connection there => ?_, fun beyond => ih.2 (Nat.le_of_add_right_le beyond)⟩
          rcases Nat.lt_or_ge index state.connections.length with below | beyond
          · rw [List.getElem?_append_left below] at there
            exact ih.1 connection there
          · rw [List.getElem?_append_right beyond] at there
            obtain rfl : Http.State.initial parser = connection := by
              have member := List.mem_of_getElem? there
              exact (List.mem_singleton.mp member).symm
            rw [ih.2 beyond]
            exact .start
      | dead other label connection running there able deleted completes =>
          exact absurd completes (living permitted there deleted)
      | connection other label connection next events running there stepped =>
          rw [List.length_set]
          by_cases same : other = index
          · subst same
            have small := (List.getElem?_eq_some_iff.mp there).1
            refine ⟨fun last found => ?_, fun beyond => absurd small (Nat.not_lt.mpr beyond)⟩
            rw [List.getElem?_set_self small, Option.some.injEq] at found
            subst found
            have reached := (ih.1 connection there).next (implies permitted there) stepped
            simpa [-List.map_map] using reached
          · rw [List.getElem?_set_ne same]
            simpa [-List.map_map, Ne.symm same] using ih

/-- `Close` knows no server any more. -/
def Forgotten (state : State) : Prop := state.admin = none ∧ state.proxies = []

theorem forgotten_close {servers : State} {events : List Event} (sound : Sound servers events) :
    Forgotten (close servers).1 := by
  obtain ⟨-, ⟨phase, same⟩, -⟩ := sound.close
  rw [same]
  exact ⟨rfl, rfl⟩

/-- After a request for a shutdown, `Close` has nothing left to do. -/
theorem forgotten_of_reaches {servers : State} {events : List Event}
    (reached : Machine.Reaches (step config) Machine.always .initial servers events) :
    .request true ∈ events → Forgotten servers := by
  refine reached.invariant (fun servers events => .request true ∈ events → Forgotten servers)
    (fun member => absurd member List.not_mem_nil) ?_
  intro servers following events out label reached forgotten _ moved member
  have standing := standing_of_reaches reached
  have known := standing.stage
  cases label with
  | start calls =>
      simp only [step, Option.ite_none_right_eq_some, Option.some.injEq] at moved
      obtain ⟨stage, moved⟩ := moved
      rw [stage] at known
      have started : Started config (start calls config .initial).1 (start calls config .initial).2 :=
        started_of_start config
      rw [← known.1, moved] at started
      rw [known.2] at member
      exact absurd member started.quiet.2.1
  | opened | stranded | exhausted =>
      simp only [step, Option.ite_none_right_eq_some, Option.some.injEq, Prod.mk.injEq] at moved
      obtain ⟨-, rfl, rfl⟩ := moved
      exact forgotten (by simpa using member)
  | finished | closed =>
      simp only [step, Option.ite_none_right_eq_some, Option.some.injEq, Prod.mk.injEq] at moved
      obtain ⟨-, rfl, rfl⟩ := moved
      exact forgotten (by simpa using member)
  | request url =>
      simp only [step, arrive, Option.ite_none_right_eq_some, Option.some.injEq] at moved
      obtain ⟨-, moved⟩ := moved
      split at moved
      · obtain ⟨rfl, rfl⟩ := Prod.mk.inj moved
        exact forgotten (by simpa using member)
      · by_cases shutdown : url.path = ascii "/shutdown"
        · obtain ⟨rfl, -⟩ : (close servers).1 = following ∧ _ = out :=
            Prod.mk.inj (by simpa [onRequest, Reaction.andThen, shutdown] using moved)
          exact forgotten_close (sound_of_standing standing)
        · obtain ⟨rfl, rfl⟩ : servers = following ∧ [.request false] = out :=
            Prod.mk.inj (by simpa [onRequest, Reaction.andThen, shutdown] using moved)
          exact forgotten (by simpa using member)
  | destroy =>
      simp only [step] at moved
      split at moved
      · obtain ⟨rfl, -⟩ : (destroy servers).1 = following ∧ _ = out :=
          Prod.mk.inj (Option.some.inj moved)
        obtain ⟨phase, -, -, same⟩ := destroy_eq (sound_of_standing standing)
        rw [same]
        dsimp only
        split <;> exact ⟨rfl, rfl⟩
      · cases moved

/-- While `uv_run` runs, a request for a shutdown has closed the servers that it closes. -/
theorem closed_iff_asked {servers : State} {events : List Event}
    (reached : Machine.Reaches (step config) Machine.always .initial servers events)
    (running : servers.stage = .running) {server : Nat} (small : server < servers.count) :
    (servers.phase server).Closed ↔ servers.role server ≠ .dummy ∧ .request true ∈ events := by
  have known := (standing_of_reaches reached).stage
  rw [running] at known
  constructor
  · exact fun closed => ⟨fun dummy => known.sound.undisturbed server small dummy closed,
      known.shutdown server closed⟩
  · rintro ⟨role, asked⟩
    obtain ⟨admin, proxies⟩ := forgotten_of_reaches reached asked
    by_contra unclosed
    rcases known.sound.unknown server small unclosed role with remembered | ⟨-, port, refused⟩
    · simp [State.Known, admin, proxies] at remembered
    · exact Bool.false_ne_true (known.early _ refused)

theorem asked_of_returned {servers : State} {events : List Event}
    (standing : Standing config servers events) (returned : .returned true ∈ events) :
    .request true ∈ events := by
  rcases standing.ended with nothing | ended | ⟨last, before, exited, rfl, rfl⟩
  · exact absurd rfl (nothing _ returned true 0 0).1
  · exact (ended.succeeded returned).2.1
  · have ended : Ended config last before := exited.elim (·.ended) (·.ended)
    have first : .returned true ∈ before := by
      rw [(destroy_reports exited).2.2 (.returned true) nofun] at returned
      refine returned.resolve_right fun late => ?_
      split at late <;> simp at late
    exact List.mem_append_left _ (ended.succeeded first).2.1

/--
`Start` returns `true` only after a connection of the admin server has carried a request
with the path `/shutdown`, and when all of its connections have been deleted.
-/
theorem returned_deserted
    (reached : Machine.Reaches (hostedStep config parser statusName) Machine.always (.initial parser)
      state past) (returned : .returned true ∈ reports past) :
    (∃ index, ∃ received ∈ Http.requestsOf (eventsOf index past), Asks received) ∧
      ∀ connection ∈ state.connections, connection.client = .destroyed := by
  have hosting := hosting_of_reaches reached
  refine ⟨hosting.asked.mp (asked_of_returned (standing_of_reaches hosting.reached) returned), ?_⟩
  have none := hosting.deserted returned
  simpa [Hosted.serving, remains] using none

/-- A request for a shutdown, and its connection. -/
def shutdownWire : Http.Wire :=
  (ascii "GET /shutdown HTTP/1.1\r\n\r\n", { url := ascii "/shutdown", headers := [], body := [] })

theorem returned_deserted_run :
    ∃ state past, Machine.Reaches
        (hostedStep { threeServers with proxies := [], dummies := [] } Http.scanner (fun _ => []))
        Machine.always (.initial Http.scanner) state past ∧ .returned true ∈ reports past ∧
      ∀ connection ∈ state.connections, connection.client = .destroyed := by
  obtain ⟨state, reached, -⟩ := Machine.exists_reaches
    (hostedStep { threeServers with proxies := [], dummies := [] } Http.scanner (fun _ => []))
    Machine.always (.initial Http.scanner)
    [.servers (.start fun _ => {}), .accept, .connection 0 (.read shutdownWire.1),
      .servers (.closed 0), .connection 0 (.written 0), .connection 0 .eof, .connection 0 .closed,
      .servers .exhausted]
    [.inl (.made 0 .admin), .inl (.listening 0 19500), .inr (0, .read shutdownWire.1),
      .inr (0, .request shutdownWire.2.received), .inr (0, .touched .startLine),
      .inr (0, .touched .head), .inr (0, .write (Http.Reply.encode (fun _ => []) { status := 200 })),
      .inl (.request true), .inl (.closing 0), .inl (.closed 0),
      .inr (0, .written 0 (Http.Reply.encode (fun _ => []) { status := 200 })), .inr (0, .closing),
      .inr (0, .closed), .inl (.returned true)]
    (fun _ => true) (by decide)
  exact ⟨state, _, reached, by decide, (returned_deserted reached (by decide)).2⟩

/-- The connections are not disturbed, and no request is complete after the admin server was
deleted. -/
def Undisturbed (state : Hosted parser) : HostedLabel → Prop
  | .connection index label =>
      ∀ connection ∈ state.connections[index]?, Http.Orderly connection label ∧
        (state.servers.phase 0 = .destroyed → ¬ Http.completes connection label)
  | .servers _ | .accept => True

instance : ∀ (state : Hosted parser) label, Decidable (Undisturbed state label)
  | state, .connection index label =>
      inferInstanceAs
        (Decidable (∀ connection ∈ state.connections[index]?, Http.Orderly connection label ∧
          (state.servers.phase 0 = .destroyed → ¬ Http.completes connection label)))
  | _, .servers _ | _, .accept => .isTrue trivial

/-- What a connection has handled when its reads are those of some requests. -/
theorem answered_of_aligned {wires : List Http.Wire}
    (served : Http.Served parser statusName handler wires) {connection : Http.State parser}
    {events : List Http.Event}
    (reached : Machine.Reaches (Http.step parser statusName (some handler)) Http.Orderly
      (.initial parser) connection events)
    (aligned : Http.Aligned (Http.readsOf events) (wires.map Prod.fst)) :
    Http.requestsOf events = wires.map (fun wire => wire.2.received) ∧
      Http.responsesOf events =
        wires.map fun _ => Http.Reply.encode statusName { status := 200 } := by
  have progress : Http.Progress statusName handler wires connection events :=
    reached.invariant (Http.Progress statusName handler wires) Http.progress_initial
      fun _ progress orderly moved => progress.step served orderly moved
  obtain ⟨done, todo, chunks, rfl, tail, standing⟩ := progress [] (by simpa using aligned)
  obtain rfl := Http.todo_eq_nil (by simpa using tail) standing.incomplete
  rw [List.append_nil]
  exact ⟨standing.requests, standing.responses⟩

/-- The path of a request for a shutdown, spelled out. -/
theorem asks_iff (message : Http.Message) :
    Asks message.received ↔ Url.Addresses (ascii "shutdown") (cString message.url) :=
  Url.path_eq_iff (by decide) (by decide +kernel) message.url

/--
While `uv_run` runs, the servers that listened, but for the dummies, are closed if and
only if a request was made whose target names `/shutdown` as its path; and every request
is answered with 200, also when it has closed the server, if the server is not deleted before.
-/
theorem shutdown_requested {wires : Nat → List Http.Wire}
    (served : ∀ index, Http.Served parser statusName handler (wires index))
    (reached : Machine.Reaches (hostedStep config parser statusName) Undisturbed (.initial parser)
      state past)
    (running : state.servers.stage = .running)
    (aligned : ∀ index < state.connections.length,
      Http.Aligned (Http.readsOf (eventsOf index past)) ((wires index).map Prod.fst)) :
    (∀ server < state.servers.count, (state.servers.phase server).Closed ↔
        state.servers.role server ≠ .dummy ∧ ∃ index < state.connections.length,
          ∃ wire ∈ wires index, Url.Addresses (ascii "shutdown") (cString wire.2.url)) ∧
      ∀ index < state.connections.length, Http.responsesOf (eventsOf index past) =
        (wires index).map fun _ => Http.Reply.encode statusName { status := 200 } := by
  have hosting := hosting_of_reaches reached
  have undisturbed {state : Hosted parser} {index : Nat} {label : Http.Label}
      {connection : Http.State parser} (permitted : Undisturbed state (.connection index label))
      (there : state.connections[index]? = some connection) :
      Http.Orderly connection label ∧
        (state.servers.phase 0 = .destroyed → ¬ Http.completes connection label) :=
    permitted connection there
  have connections := connection_of_reaches (fun permitted there => (undisturbed permitted there).1)
    (fun permitted there => (undisturbed permitted there).2) reached
  have answered (index : Nat) (small : index < state.connections.length) :=
    answered_of_aligned (served index)
      ((connections index).1 _ (List.getElem?_eq_getElem small)) (aligned index small)
  refine ⟨fun server small => ?_, fun index small => (answered index small).2⟩
  rw [closed_iff_asked hosting.reached running small, hosting.asked]
  refine and_congr_right fun _ => ⟨?_, ?_⟩
  · rintro ⟨index, received, member, asks⟩
    rcases Nat.lt_or_ge index state.connections.length with below | beyond
    · rw [(answered index below).1] at member
      obtain ⟨wire, sent, rfl⟩ := List.mem_map.mp member
      exact ⟨index, below, wire, sent, (asks_iff wire.2).mp asks⟩
    · rw [(connections index).2 beyond] at member
      cases member
  · rintro ⟨index, below, wire, sent, addresses⟩
    refine ⟨index, wire.2.received, ?_, (asks_iff wire.2).mpr addresses⟩
    rw [(answered index below).1]
    exact List.mem_map_of_mem sent

/-- The second connection asks for a shutdown, the first one for nothing. -/
def secondShutdown (index : Nat) : List Http.Wire := if index = 1 then [shutdownWire] else []

theorem served_secondShutdown (index : Nat) :
    Http.Served Http.scanner (fun _ => []) handler (secondShutdown index) := by
  have only : ∀ wire ∈ secondShutdown index, wire = shutdownWire := by
    unfold secondShutdown
    split <;> simp
  refine ⟨Http.contract_scanner fun wire member => ?_, fun wire member => ?_,
    fun wire member => ?_, fun wire member => ?_⟩
  all_goals obtain rfl := only wire member
  · exact Http.reports_scanner
      ⟨(ascii "/shutdown").map fun byte => [byte], [], []⟩ (by decide) (by decide) (by decide)
  · decide
  · decide
  · decide

theorem shutdown_requested_run :
    ∃ state past, Machine.Reaches (hostedStep threeServers Http.scanner (fun _ => [])) Undisturbed
        (.initial Http.scanner) state past ∧
      (state.servers.phase 1).Closed ∧ ¬ (state.servers.phase 3).Closed := by
  obtain ⟨state, reached, checked⟩ := Machine.exists_reaches
    (hostedStep threeServers Http.scanner (fun _ => [])) Undisturbed (.initial Http.scanner)
    [.servers (.start fun _ => {}), .accept, .accept,
      .connection 1 (.read (ascii "GET /shut")), .connection 0 (.read []),
      .connection 1 (.read (ascii "down HTTP/1.1\r\n\r\n")), .servers (.closed 1)]
    [.inl (.made 0 .admin), .inl (.listening 0 19500), .inl (.made 1 .proxy),
      .inl (.listening 1 1), .inl (.made 2 .proxy), .inl (.listening 2 2), .inl (.made 3 .dummy),
      .inl (.listening 3 3), .inr (1, .read (ascii "GET /shut")), .inr (0, .read []),
      .inr (1, .read (ascii "down HTTP/1.1\r\n\r\n")), .inr (1, .request shutdownWire.2.received),
      .inr (1, .touched .startLine), .inr (1, .touched .head),
      .inr (1, .write (Http.Reply.encode (fun _ => []) { status := 200 })), .inl (.request true),
      .inl (.closing 1), .inl (.closing 2), .inl (.closing 0), .inl (.closed 1)]
    (fun state => decide (state.servers.stage = .running ∧ state.servers.count = 4 ∧
      state.servers.role 1 = .proxy ∧ state.servers.role 3 = .dummy ∧ state.connections.length = 2))
    (by decide)
  obtain ⟨running, count, proxy, dummy, two⟩ := of_decide_eq_true checked
  have closed := (shutdown_requested served_secondShutdown reached running ?_).1
  · refine ⟨state, _, reached, (closed 1 (by omega)).mpr ⟨by simp [proxy], 1, by omega, shutdownWire,
      by decide, ?_⟩, fun left => ((closed 3 (by omega)).mp left).1 dummy⟩
    exact .rooted [] (by simp [Url.Ends]) (by decide)
  · intro index small
    obtain rfl | rfl : index = 0 ∨ index = 1 := by omega
    · exact .rest [[]] (by simp)
    · exact .request [ascii "GET /shut"] (ascii "down HTTP/1.1\r\n\r\n") (by decide)
        (.rest [] (by simp))

end Nexer.Servers
