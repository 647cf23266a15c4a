import Nexer.Children.Expected
import Nexer.Proxy.Streams
import Nexer.System.Backed
import Nexer.System.Settlement

/-!
# The program with its processes and its streams

The program is run with the processes of the manager, whose children write and end when they
like, and with the streams of the forwarders.  It refines the program in which the manager
hears of processes that are not there and the proxies do not report what they forward.
-/

namespace Nexer.System

open Nexer.Transition

variable {α Index : Type} [DecidableEq α] [DecidableEq Index]

abbrev StreamEvent (Index : Type) := Index × (Proxy.Event ⊕ Nat × Forwarder.Event)

/-- The proxies, which also report what their forwarders do. -/
def streams (upstream : Index → Option α) :
    Machine (Proxies Index) (ProxyLabel Index) (StreamEvent Index) :=
  Machine.instances (fun index => Proxy.streaming (upstream index).isSome) .initial

/-- What happens in the program, with what happens to its processes and in its streams. -/
abbrev Occurrence (α Index : Type) := StreamEvent Index ⊕ Children.Event α

instance : DecidableEq (Occurrence α Index) :=
  inferInstanceAs (DecidableEq (StreamEvent Index ⊕ Children.Event α))

/-- What the proxies and the manager report of it. -/
def happening : Occurrence α Index → List (Happening α Index) :=
  Service.aboutSide Machine.aboutOne Children.ownReports

section Machines

variable (config : α → Manager.AppConfig α) (upstream : Index → Option α)
variable (closures : Nat ≃ Key Index) (timeout : Index → Nat)

/-- The proxies with the manager and its processes. -/
def wholeChecks :
    Service (Proxies Index) (ProxyLabel Index) (StreamEvent Index)
      (Children.State α) (Children.Label α) (Children.Event α) (Check α Index) Int where
  client := streams upstream
  server := Children.step config
  asked state out := (checks config upstream closures).asked state (out.flatMap Machine.aboutOne)
  ask check := .manager ((checks config upstream closures).ask check)
  answered out := (checks config upstream closures).answered (out.flatMap Children.ownReports)
  answer := (checks config upstream closures).answer
  own := (checks config upstream closures).own
  inner
    | .manager label => (checks config upstream closures).inner label
    | _ => true
  clientIdle := (checks config upstream closures).clientIdle
  serverIdle state := (checks config upstream closures).serverIdle state.manager

/-- The proxies, the manager and its processes, as the callers of `Connect`. -/
def whole :
    Service (Proxies Index × Children.State α) (ProxyLabel Index ⊕ Children.Label α)
      (Occurrence α Index) (Connecting Index) (ConnectLabel Index) (ConnectEvent Index)
      (Key Index) Bool where
  client := (wholeChecks config upstream closures).machine
  server := connecting timeout
  asked pair out := connectOf closures pair.1 (out.flatMap happening)
  ask := (program config upstream closures timeout).ask
  answered := (program config upstream closures timeout).answered
  answer key success := .inl (key.1, some (.connected key.2 success))
  own
    | .inl label => (program config upstream closures timeout).own (.inl label)
    | .inr _ => true
  inner := (program config upstream closures timeout).inner
  clientIdle pair := pair.2.manager.todo.isEmpty
  serverIdle := (program config upstream closures timeout).serverIdle

end Machines

variable {config : α → Manager.AppConfig α} {upstream : Index → Option α}
variable {closures : Nat ≃ Key Index} {timeout : Index → Nat}

theorem refines_checks : Service.Refinement (wholeChecks config upstream closures)
    (checks config upstream closures) id Children.State.manager (fun _ label => some label)
    Children.heard Machine.aboutOne Children.ownReports where
  client := Machine.refinement_annotating (fun index => Proxy.step (upstream index).isSome)
    Proxy.traffic .initial
  server := Children.refines_manager
  asked _ _ := rfl
  unasked _ := rfl
  ask _ _ := rfl
  answered _ := rfl
  unanswered := rfl
  answer _ _ _ := rfl
  own := by
    intro client label other own same
    obtain rfl := Option.some.inj same
    exact own
  inner := by
    intro server label other inner heard
    cases label with
    | manager label =>
        obtain rfl := Option.some.inj heard
        exact inner
    | start | exited =>
        obtain rfl := Option.some.inj heard
        rfl
    | child pid transfer =>
        have noticed : Children.notice pid (server.children pid) transfer = some other := heard
        unfold Children.notice at noticed
        split at noticed
        · obtain rfl := Option.some.inj noticed
          rfl
        · obtain rfl := Option.some.inj noticed
          rfl
        · split at noticed
          · obtain rfl := Option.some.inj noticed
            rfl
          · cases noticed
        · cases noticed
  clientIdle := id
  serverIdle := id

/-- The label of the program without processes. -/
def translate : Proxies Index × Children.State α → ProxyLabel Index ⊕ Children.Label α →
    Option (ProxyLabel Index ⊕ Manager.Label α) :=
  Service.translateSide (fun _ label => some label) Children.heard

theorem refines_program : Service.Refinement (whole config upstream closures timeout)
    (program config upstream closures timeout) (Prod.map id Children.State.manager) id
    translate (fun _ label => some label) happening fun event => [event] where
  client := refines_checks.machine
  server := Machine.refinement_refl _
  asked _ _ := rfl
  unasked _ := rfl
  ask _ _ := rfl
  answered events := by
    rw [List.flatMap_singleton']
    rfl
  unanswered := rfl
  answer _ _ _ := rfl
  own := by
    rintro ⟨client, children⟩ label other own named
    cases label with
    | inl label =>
        obtain rfl := Option.some.inj named
        exact own
    | inr label =>
        obtain ⟨heard, -, rfl⟩ := Option.map_eq_some_iff.mp named
        rfl
  inner := by
    intro connects label other inner same
    obtain rfl := Option.some.inj same
    exact inner
  clientIdle := id
  serverIdle := id

/-- A guard on what the manager hears. -/
def attentive (managing : Manager.State α → Manager.Label α → Prop) :
    Children.State α → Children.Label α → Prop :=
  fun children label => ∀ heard ∈ Children.heard children label, managing children.manager heard

instance {managing : Manager.State α → Manager.Label α → Prop}
    [∀ manager label, Decidable (managing manager label)] :
    ∀ children label, Decidable (attentive managing children label) :=
  fun children label => inferInstanceAs
    (Decidable (∀ heard ∈ Children.heard children label, managing children.manager heard))

/-- The proxies with the manager and its processes, and the calls of `Connect`. -/
abbrev Entire (α Index : Type) := (Proxies Index × Children.State α) × Connecting Index

/-- The runs of the program with lively proxies, from the state in which `Start` finds it. -/
def Wholes (config : α → Manager.AppConfig α) (upstream : Index → Option α)
    (closures : Nat ≃ Key Index) (timeout : Index → Nat)
    (managing : Manager.State α → Manager.Label α → Prop) :
    Entire α Index → List (Occurrence α Index ⊕ ConnectEvent Index) → Prop :=
  Machine.Reaches (whole config upstream closures timeout).machine
    (Service.sides (Service.sides lively (attentive managing)) Machine.always)
    ((fun _ => none, .initial α), fun _ => none)

/-- What the proxies and the manager have reported. -/
def happenings (past : List (Occurrence α Index ⊕ ConnectEvent Index)) :
    List (Happening α Index) :=
  (Service.clientEvents past).flatMap happening

/-- What has happened to the processes. -/
def childEvents (past : List (Occurrence α Index ⊕ ConnectEvent Index)) : List (Children.Event α) :=
  Service.serverEvents (Service.clientEvents past)

/-- What the forwarder of a connection has done. -/
def streamOf (key : Key Index) (past : List (Occurrence α Index ⊕ ConnectEvent Index)) :
    List Forwarder.Event :=
  Proxy.streamOf key.2
    (Machine.eventsOf key.1 (Service.clientEvents (Service.clientEvents past)))

variable {managing : Manager.State α → Manager.Label α → Prop}
variable {state : Proxies Index} {children : Children.State α} {connects : Connecting Index}
variable {past : List (Occurrence α Index ⊕ ConnectEvent Index)} {key : Key Index}

omit [DecidableEq α] [DecidableEq Index] in
theorem serverEvents_happenings :
    Service.serverEvents (happenings past) = Children.reports (childEvents past) := by
  rw [happenings, happening, Service.serverEvents_aboutSide, Children.ownReports_eq]
  rfl

/-- The program with its processes and streams runs the program without them. -/
theorem programs_of_wholes
    (run : Wholes config upstream closures timeout managing ((state, children), connects) past) :
    Programs config upstream closures timeout (Service.sides lively managing)
      ((state, children.manager), connects)
      (past.flatMap (Service.aboutSide happening fun event => [event])) := by
  refine refines_program.machine.reaches ?_ run
  rintro ⟨⟨state, children⟩, connects⟩ label other allowed named
  cases label with
  | inr label =>
      obtain rfl := Option.some.inj named
      trivial
  | inl label =>
      obtain ⟨inner, same, rfl⟩ := Option.map_eq_some_iff.mp named
      cases label with
      | inl label =>
          obtain rfl := Option.some.inj same
          exact allowed
      | inr label =>
          obtain ⟨heard, noticed, rfl⟩ := Option.map_eq_some_iff.mp same
          exact allowed heard noticed

theorem checks_of_wholes
    (run : Wholes config upstream closures timeout managing ((state, children), connects) past) :
    LivelyRuns config upstream closures managing (state, children.manager) (happenings past) := by
  have parts := (Service.parts_of_reaches (program_guarded lively_answers)
    (programs_of_wholes run)).1
  rwa [Service.clientEvents_aboutSide] at parts

/-- The proxies and the processes of the program run their own machines. -/
theorem parts_of_wholes (asks : ∀ manager app caller, managing manager (.require app caller))
    (run : Wholes config upstream closures timeout managing ((state, children), connects) past) :
    Machine.Reaches (streams upstream) lively (fun _ => none) state
        (Service.clientEvents (Service.clientEvents past)) ∧
      Machine.Reaches (Children.step config) (attentive managing) (.initial α) children
        (childEvents past) := by
  have guarded : Service.Guarded (wholeChecks config upstream closures)
      (Service.sides lively (attentive managing)) lively (attentive managing) := by
    refine Service.guarded_sides (fun _ _ _ _ _ => trivial) ?_
    intro children check heard same
    obtain rfl := Option.some.inj same
    exact asks children.manager check.1 _
  have answers : Service.Guarded (whole config upstream closures timeout)
      (Service.sides (Service.sides lively (attentive managing)) Machine.always)
      (Service.sides lively (attentive managing)) Machine.always :=
    Service.guarded_sides (fun _ _ _ _ _ => trivial) fun _ _ => trivial
  exact Service.parts_of_reaches guarded (Service.parts_of_reaches answers run).1

/-- A proxy that exists has run its machine with its streams, and nothing was streamed before. -/
theorem streaming_of_wholes (asks : ∀ manager app caller, managing manager (.require app caller))
    (run : Wholes config upstream closures timeout managing ((state, children), connects) past)
    (index : Index) :
    (∀ proxy, state index = some proxy →
      Machine.Reaches (Proxy.streaming (upstream index).isSome) Proxy.Lively .initial proxy
        (Machine.eventsOf index (Service.clientEvents (Service.clientEvents past)))) ∧
      (state index = none →
        Machine.eventsOf index (Service.clientEvents (Service.clientEvents past)) = []) := by
  have implies {state : Proxies Index} {index : Index} {label : Proxy.Label} {proxy : Proxy.State}
      (allowed : lively state (index, some label)) (there : state index = some proxy) :
      Proxy.Lively proxy label := allowed proxy there
  have reached := (parts_of_wholes asks run).1
  unfold streams at reached
  exact Machine.instance_of_reaches implies reached

omit [DecidableEq Index] in
/-- A connection whose upstream has been written to has been handed on. -/
theorem connects_of_written {app : Bool} {proxy : Proxy.State}
    {stream : List (Proxy.Event ⊕ Nat × Forwarder.Event)} (there : state key.1 = some proxy)
    (reached : Machine.Reaches (Proxy.streaming app) Proxy.Lively .initial proxy stream)
    (written : Forwarder.completedOn .connected (Proxy.streamOf key.2 stream) ≠ []) :
    Connects state key := by
  have plain := reached.of_annotating
  have core := Forwarder.core_of_reaches (Proxy.forwarder_of_reaches reached key.2)
  have given : (proxy.connections key.2).forwarder.attached ≠ none :=
    fun alone => written ((core.unattached alone).2.2 .connected)
  have created : key.2 < proxy.count := by
    by_contra above
    rw [Proxy.unborn_of_reaches plain key.2 (Nat.le_of_not_lt above)] at given
    exact given rfl
  have connected := Proxy.joined_of_reaches plain key.2 created given
  refine .inr ?_
  simp [stageOf, there, Proxy.State.stage?, created, connected]

/-- The end of a child that has been reported is the only exit of its process. -/
theorem exits_of_happened {pid : Manager.Pid} {role : Manager.Role α}
    {termination : Manager.Termination}
    (asks : ∀ manager app caller, managing manager (.require app caller))
    (run : Wholes config upstream closures timeout managing ((state, children), connects) past)
    (happened : .inr (.ended pid role termination) ∈ happenings past) :
    Process.exits (Process.reported (Children.recordsOf pid (childEvents past))) =
      [(termination.code, termination.signal)] := by
  have reported : .ended pid role termination ∈ Children.reports (childEvents past) := by
    rw [← serverEvents_happenings]
    exact Service.mem_serverEvents.mpr happened
  have agrees := Children.agrees_of_reaches (parts_of_wholes asks run).2 pid
  exact agrees.exits_of_ending (List.mem_filterMap.mpr ⟨_, reported, by simp⟩)

/--
What is written to an upstream is what the client of the connection has sent, in order.  If
the upstream has an app with a checker, then a child that was started as a checker of this app
has exited with status 0 before, and its exit closure has run since the client was accepted.
-/
theorem bytes_checked (acyclic : Manager.Acyclic config)
    (run : Wholes config upstream closures timeout (checkedOnly config)
      ((state, children), connects) past) (key : Key Index) :
    Forwarder.completedOn .connected (streamOf key past) <+:
        Forwarder.receivedFrom .accepted (streamOf key past) ∧
      ∀ app, upstream key.1 = some app → (config app).checker.isSome →
        Forwarder.completedOn .connected (streamOf key past) ≠ [] →
        ∃ address pid, Since (acceptedAt key address)
            (fun event => ∃ next termination,
              event = .inr (.ended pid (.checker app next) termination)) (happenings past) ∧
          Process.exits (Process.reported (Children.recordsOf pid (childEvents past))) =
            [(0, 0)] := by
  have asks : ∀ manager app caller, checkedOnly config manager (.require app caller) :=
    fun _ _ _ => ⟨trivial, trivial⟩
  obtain ⟨streaming, silent⟩ := streaming_of_wholes asks run key.1
  cases there : state key.1 with
  | none =>
      rw [streamOf, silent there]
      exact ⟨List.prefix_rfl, fun _ _ _ some => absurd rfl some⟩
  | some proxy =>
      have reached := streaming proxy there
      have core := Forwarder.core_of_reaches (Proxy.forwarder_of_reaches reached key.2)
      have attached := Proxy.attached_of_reaches reached.of_annotating key.2
      have ledger := Proxy.ledger core attached .incoming
      refine ⟨⟨_, (ledger.trans (List.append_assoc ..)).symm⟩,
        fun app wanted has_checker written => ?_⟩
      have handed := connects_of_written there reached written
      obtain ⟨address, before, after, split, event, member, entry, rfl, pid, next, termination, rfl,
        code, signal⟩ :=
        since_of_connects acyclic (checks_of_wholes run).runs wanted has_checker handed
      have happened : .inr (.ended pid (.checker app next) termination) ∈ happenings past := by
        rw [split]
        simp [member]
      have exits := exits_of_happened asks run happened
      rw [code, signal] at exits
      exact ⟨address, pid, ⟨before, after, split, _, member, next, termination, rfl⟩, exits⟩

/-- A client sends a byte while the checker of its upstream runs, which ends well. -/
def checkedClient : List (ProxyLabel Bool ⊕ Children.Label (Fin 1)) :=
  [.inl (true, none), .inl (true, some (.accept 1))] ++
    List.replicate 2 (.inr (.manager .call)) ++ [.inr (.start {})] ++
    List.replicate 2 (.inr (.manager .call)) ++
    [.inl (true, some (.forwarder 0 (.data .accepted [7]))), .inr (.child 0 .ended),
      .inr (.exited 0 .success), .inr (.child 0 (.move .complete))] ++
    List.replicate 5 (.inr (.manager .call))

def checkedClientEvents (app : Fin 1) : List (Occurrence (Fin 1) Bool) :=
  [.inl (true, .inl (.accepted 0 1)), .inr (.inl (.queued app ⟨0, .caller 1⟩))] ++
    (Process.opened.map (Prod.mk 0)).map (fun entry => .inr (.inr entry)) ++
    [.inr (.inl (.spawned 0 (.checker app (.required app)))), .inr (.inl (.processStart 0)),
      .inl (true, .inr (0, .received .accepted [7]))] ++
    (Process.ended.map (Prod.mk 0)).map (fun entry => .inr (.inr entry)) ++
    [.inr (.inl (.ended 0 (.checker app (.required app)) .success)),
      .inr (.inl (.processExit 0 0 0)), .inr (.inl (.answered app ⟨0, .caller 1⟩ none 0))]

/-- The upstream is connected, and the byte is written. -/
def checkedByte : List ((ProxyLabel Bool ⊕ Children.Label (Fin 1)) ⊕ ConnectLabel Bool) :=
  checkedClient.map .inl ++
    [.inr ((true, 0), some (.tick 500)),
      .inr ((true, 0), some (.attempt 0 (.addrInfo 0 0 fun _ => false))),
      .inr ((true, 0), some (.attempt 0 (.connected 0 0 fun _ => false))),
      .inl (.inl (true, some (.forwarder 0 (.sent .connected))))]

def checkedByteEvents (app : Fin 1) : List (Occurrence (Fin 1) Bool ⊕ ConnectEvent Bool) :=
  (checkedClientEvents app).map .inl ++
    [.inr ((true, 0), .ticked 500), .inr ((true, 0), .tried 0), .inr ((true, 0), .connected 0),
      .inr ((true, 0), .answered (some 0)),
      .inl (.inl (true, .inr (0, .write .connected ⟨⟨.incoming, false⟩, [7]⟩))),
      .inl (.inl (true, .inl (.setOutgoing 0 0))),
      .inl (.inl (true, .inr (0, .completed .connected [7])))]

theorem bytes_checked_run : ∃ state children connects past,
    Wholes Manager.checkedApp twoProxies Equiv.boolProdNatEquivNat.symm (fun _ => 2000)
        (checkedOnly Manager.checkedApp) ((state, children), connects) past ∧
      Forwarder.completedOn .connected (streamOf (true, 0) past) = [7] ∧
      ∃ pid, Process.exits (Process.reported (Children.recordsOf pid (childEvents past))) =
        [(0, 0)] := by
  obtain ⟨⟨⟨state, children⟩, connects⟩, reached, -⟩ := Machine.exists_reaches
    (whole Manager.checkedApp twoProxies Equiv.boolProdNatEquivNat.symm fun _ => 2000).machine
    (Service.sides (Service.sides lively (attentive (checkedOnly Manager.checkedApp)))
      Machine.always)
    ((fun _ => none, .initial (Fin 1)), fun _ => none) checkedByte (checkedByteEvents 0)
    (fun _ => true) (by decide)
  have written : Forwarder.completedOn .connected (streamOf (true, 0) (checkedByteEvents 0)) = [7] := by
    decide
  obtain ⟨-, checked⟩ := bytes_checked Manager.acyclic_checkedApp reached (true, 0)
  obtain ⟨address, pid, -, exited⟩ := checked 0 rfl rfl (by simp [written])
  exact ⟨state, children, connects, _, reached, written, pid, exited⟩

/--
When no handler runs, nothing is left for the loop to tell a process and no start-up timer is
running, the manager has deleted all of its processes, and every connection whose `Connect`, if
it has one, has closed its timer is decided.
-/
theorem whole_settled (acyclic : Manager.Acyclic config)
    (run : Wholes config upstream closures timeout Manager.keepsWaiters
      ((state, children), connects) past)
    (idle : children.manager.todo = [])
    (settled : ∀ pid < children.manager.nextPid, Process.Settled (children.children pid).process)
    (timers : ∀ timer, ∀ entry ∈ children.manager.timers timer, entry.phase ≠ .running) :
    (∀ pid, children.manager.procs pid = none) ∧
      ∀ index proxy, state index = some proxy → ∀ connection < proxy.count,
        (∀ retry ∈ connects (index, connection), retry.timer ≠ .opened) →
        Decided (proxy.connections connection) connection
          (TcpClient.Retry.answersIn
            (Machine.eventsOf (index, connection) (Service.serverEvents past))) := by
  have reached := (parts_of_wholes (fun _ _ _ => ⟨trivial, trivial⟩) run).2
  have forgotten : ∀ pid, children.manager.procs pid = none := fun pid =>
    (Children.agrees_of_reaches reached pid).forgotten idle (settled pid)
  refine ⟨forgotten, fun index proxy there connection accepted ended => ?_⟩
  have decided := decided_of_programs acyclic (programs_of_wholes run) ⟨idle, forgotten, timers⟩ there
    accepted ended
  rwa [deliveries, Service.serverEvents_aboutSide, List.flatMap_singleton'] at decided

theorem whole_settled_run : ∃ state children connects past proxy,
    Wholes Manager.checkedApp twoProxies Equiv.boolProdNatEquivNat.symm (fun _ => 2000)
        Manager.keepsWaiters ((state, children), connects) past ∧
      children.manager.procs 0 = none ∧ state true = some proxy ∧
      Decided (proxy.connections 0) 0 [some 0] := by
  obtain ⟨⟨⟨state, children⟩, connects⟩, reached, checked⟩ := Machine.exists_reaches
    (whole Manager.checkedApp twoProxies Equiv.boolProdNatEquivNat.symm fun _ => 2000).machine
    (Service.sides (Service.sides lively (attentive Manager.keepsWaiters)) Machine.always)
    ((fun _ => none, .initial (Fin 1)), fun _ => none) checkedByte (checkedByteEvents 0)
    (fun whole => whole.1.2.manager.isQuiet &&
      decide (whole.1.2.manager.nextPid = 1 ∧ (whole.1.2.children 0).process.running = false ∧
        (whole.1.2.children 0).process.timer = .none ∧
        .process ∉ (whole.1.2.children 0).process.pending ∧
        ((whole.1.1 true).any fun proxy => proxy.count = 1) ∧
        ∀ retry ∈ whole.2 (true, 0), retry.timer ≠ .opened)) (by decide)
  simp only [Bool.and_eq_true, decide_eq_true_eq, Option.any_eq_true] at checked
  obtain ⟨quiet, issued, stopped, timer, pending, ⟨proxy, there, one⟩, ended⟩ := checked
  have sound := Manager.sound_of_reaches (checks_of_wholes reached).managed
  have quiet := Manager.quiet_of_isQuiet sound quiet
  have settled : Process.Settled (children.children 0).process := ⟨stopped, by simp [timer], pending⟩
  have only : ∀ pid < children.manager.nextPid, Process.Settled (children.children pid).process := by
    intro pid below
    rw [issued] at below
    obtain rfl := Nat.lt_one_iff.mp below
    exact settled
  obtain ⟨forgotten, decided⟩ :=
    whole_settled Manager.acyclic_checkedApp reached quiet.idle only quiet.timers
  exact ⟨state, children, connects, _, proxy, reached, forgotten 0, there,
    decided true proxy there 0 (by simp [one]) ended⟩

end Nexer.System
