import Nexer.Manager.Answered
import Nexer.System.Program

/-!
# Every connection of the program is settled

A connection waits for its check or for its `Connect`, and what it waits for is under
way.  When the manager has nothing left that could happen by itself and no `Connect` has
its timer open, no connection waits any more: each is connected, or its incoming socket
has been closed.
-/

namespace Nexer.System

open Nexer.Transition

variable {α Index : Type} [DecidableEq α] [DecidableEq Index]
variable {config : α → Manager.AppConfig α} {upstream : Index → Option α}
variable {closures : Nat ≃ Key Index} {timeout : Index → Nat}
variable {state : Proxies Index} {manager : Manager.State α} {connects : Connecting Index}
variable {past : List (Happening α Index ⊕ ConnectEvent Index)} {key : Key Index} {app : α}

/-- The proxies are lively, and the manager keeps its waiters. -/
def undisturbed (α Index : Type) [DecidableEq α] [DecidableEq Index] :
    Proxies Index × Manager.State α → ProxyLabel Index ⊕ Manager.Label α → Prop :=
  Service.sides lively Manager.keepsWaiters

instance : ∀ pair label, Decidable (undisturbed α Index pair label) :=
  inferInstanceAs (∀ pair label, Decidable (Service.sides lively Manager.keepsWaiters pair label))

omit [DecidableEq α] in
/-- A connection that is checked has an upstream with an app. -/
theorem wanted_of_reaches {guard : Proxies Index → ProxyLabel Index → Prop}
    {events : List (ProxyEvent Index)}
    (reached : Machine.Reaches (proxies upstream) guard (fun _ => none) state events)
    (checking : stageOf state key = some .checking) : ∃ app, upstream key.1 = some app := by
  induction reached with
  | start => simp [stageOf] at checking
  | @next before following past out label _ _ moved ih =>
      have advance := advance_of_step moved
      generalize stageOf following = after at advance checking
      generalize acceptedKey out = keys at advance
      cases advance with
      | accept other address unused =>
          by_cases same : key = other
          · subst same
            cases wanted : upstream key.1 with
            | none => simp [wanted] at checking
            | some app => exact ⟨app, rfl⟩
          · exact ih (by simpa [same] using checking)
      | checked other error stage waiting result =>
          by_cases same : key = other
          · subst same
            rcases result with ⟨rfl, -⟩ | rfl <;> simp at checking
          · exact ih (by simpa [same] using checking)
      | connected other success waiting =>
          by_cases same : key = other
          · subst same
            cases success <;> simp at checking
          · exact ih (by simpa [same] using checking)
      | quiet => exact ih checking

theorem undisturbed_guarded : Service.Guarded (checks config upstream closures)
    (undisturbed α Index) lively Manager.keepsWaiters :=
  Service.guarded_sides (fun _ _ _ _ _ => trivial) fun _ _ => ⟨trivial, trivial⟩

theorem undisturbed_answers (pair : Proxies Index × Manager.State α) (key : Key Index)
    (success : Bool) : undisturbed α Index pair (.inl (key.1, some (.connected key.2 success))) :=
  lively_answers pair key success

/-- The proxies and the manager of an undisturbed program run their own machines. -/
theorem parts_of_programs
    (run : Programs config upstream closures timeout (undisturbed α Index)
      ((state, manager), connects) past) :
    Machine.Reaches (proxies upstream) lively (fun _ => none) state
        (Service.clientEvents (Service.clientEvents past)) ∧
      Machine.Reaches (Manager.step config) Manager.keepsWaiters (.initial α) manager
        (Service.serverEvents (Service.clientEvents past)) :=
  Service.parts_of_reaches undisturbed_guarded
    (Service.parts_of_reaches (program_guarded undisturbed_answers) run).1

theorem managed_of_undisturbed : ∀ pair label, undisturbed α Index pair label →
    managed Manager.restartsOutside pair label
  | _, .inl _, _ => trivial
  | (_, _), .inr _, allowed => allowed.2

omit [DecidableEq Index] in
/-- A manager that has nothing left to do owes nobody. -/
theorem nothing_owed (acyclic : Manager.Acyclic config) {history : List (Manager.Event α)}
    (reached : Machine.Reaches (Manager.step config) Manager.keepsWaiters (.initial α) manager
      history) (quiet : Manager.Quiet manager) (app : α) (caller : Nat) :
    Manager.owed app caller manager = 0 := by
  have inOrder := Manager.inOrder_of_reaches (fun _ reached =>
    (Manager.layered_of_reaches (fun _ _ guarded => guarded.2) reached).outsideTraversals acyclic)
    reached
  have clear : (manager.apps app).callbacks = [] := by
    by_contra queued
    obtain ⟨lowest, waits, least⟩ :=
      Manager.exists_lowest acyclic (Manager.finite_queued inOrder quiet.idle) queued
    obtain ⟨lower, member, below⟩ := Manager.exists_waiting (Manager.rounds_of_reaches reached)
      inOrder quiet.idle (quiet.outstanding (Manager.served_of_reaches reached lowest waits))
    exact least lower below (.single member)
  simp [Manager.owed, Manager.waiting, quiet.idle, clear]

/-- A connection is decided: it has failed, and its incoming socket is not open any more, or it
has got its client, which is with its own forwarder or was closed. -/
def Decided (connection : Proxy.Connection) (index : Nat) (clients : List (Option Nat)) : Prop :=
  (connection.stage = .failed ∧ (connection.forwarder.tcps .accepted).phase ≠ .opened) ∨
    (connection.stage = .connected ∧ (∃ attempt, clients = [some attempt]) ∧
      (connection.outgoing = .attached index ∧ connection.forwarder.attached = some .connected ∨
        connection.outgoing = .apart .closing ∨ connection.outgoing = .apart .closed))

/-- When the manager is quiet and its `Connect` is over, a connection is decided. -/
theorem decided_of_programs (acyclic : Manager.Acyclic config)
    (run : Programs config upstream closures timeout (undisturbed α Index)
      ((state, manager), connects) past)
    (quiet : Manager.Quiet manager) {index : Index} {proxy : Proxy.State}
    (there : state index = some proxy) {connection : Nat} (accepted : connection < proxy.count)
    (ended : ∀ retry ∈ connects (index, connection), retry.timer ≠ .opened) :
    Decided (proxy.connections connection) connection (deliveries (index, connection) past) := by
  unfold Decided
  obtain ⟨proxiesReached, managerReached⟩ := parts_of_programs run
  have stage : stageOf state (index, connection) = some (proxy.connections connection).stage := by
    simp [stageOf, there, Proxy.State.stage?, accepted]
  have proxyReached : Machine.Reaches (Proxy.step (upstream index).isSome) Proxy.Lively .initial
      proxy (Machine.eventsOf index (Service.clientEvents (Service.clientEvents past))) :=
    proxy_of_reaches proxiesReached there
  have connectionSettled := (Proxy.settled_of_reaches proxyReached).settled connection accepted
  have matched : Matched (stageOf state (index, connection)) (connects (index, connection))
      (deliveries (index, connection) past) := matched_of_runs undisturbed_answers run (index, connection)
  rw [stage] at matched
  unfold Proxy.Connection.Settled at connectionSettled
  generalize (proxy.connections connection).stage = now at stage matched connectionSettled
  cases now with
  | checking =>
      obtain ⟨app, wanted⟩ := wanted_of_reaches proxiesReached stage
      have orderly : Runs config upstream closures Manager.restartsOutside (state, manager)
          (Service.clientEvents past) :=
        (Service.parts_of_reaches (program_guarded undisturbed_answers) run).1.mono
          managed_of_undisturbed
      have debt := accounts acyclic orderly (app, (index, connection))
      simp [waitsFor, owedFor, wanted, stage, nothing_owed acyclic managerReached quiet] at debt
  | connecting =>
      generalize connects (index, connection) = retry at matched ended
      generalize deliveries (index, connection) past = clients at matched
      cases matched with
      | connecting retry opened => exact absurd opened (ended retry rfl)
  | failed => exact .inl ⟨rfl, connectionSettled.2⟩
  | connected =>
      generalize deliveries (index, connection) past = clients at matched ⊢
      generalize connects (index, connection) = retry at matched
      cases matched with
      | connected retry attempt => exact .inr ⟨rfl, ⟨attempt, rfl⟩, connectionSettled⟩

/--
When the manager is quiet, a connection of a proxy whose `Connect`, if it has one, has
closed its timer is decided.  If it failed, its incoming socket is not open any more.
Otherwise the one client that its `Connect` has delivered is the outgoing socket of its
own forwarder, or was closed because the incoming socket had gone.
-/
theorem program_settled (acyclic : Manager.Acyclic config)
    (run : Programs config upstream closures timeout (undisturbed α Index)
      ((state, manager), connects) past)
    (quiet : Manager.Quiet manager) {index : Index} {proxy : Proxy.State}
    (there : state index = some proxy) {connection : Nat} (accepted : connection < proxy.count)
    (ended : ∀ retry ∈ connects (index, connection), retry.timer ≠ .opened) :
    ((proxy.connections connection).stage = .failed ∧
        ((proxy.connections connection).forwarder.tcps .accepted).phase ≠ .opened) ∨
      ((proxy.connections connection).stage = .connected ∧
        (∃ attempt, deliveries (index, connection) past = [some attempt]) ∧
        ((proxy.connections connection).outgoing = .attached connection ∧
            (proxy.connections connection).forwarder.attached = some .connected ∨
          (proxy.connections connection).outgoing = .apart .closing ∨
          (proxy.connections connection).outgoing = .apart .closed)) :=
  decided_of_programs acyclic run quiet there accepted ended

/-- One connection is connected, and the other one has failed. -/
theorem program_settled_run : ∃ state manager connects proxy past,
    Programs Manager.checkedApp twoProxies Equiv.boolProdNatEquivNat.symm (fun _ => 2000)
        (undisturbed (Fin 1) Bool) ((state, manager), connects) past ∧
      state false = some proxy ∧ proxy.count = 1 ∧
      ((proxy.connections 0).forwarder.tcps .accepted).phase ≠ .opened := by
  obtain ⟨⟨⟨state, manager⟩, connects⟩, reached, checked⟩ := Machine.exists_reaches
    (program Manager.checkedApp twoProxies Equiv.boolProdNatEquivNat.symm fun _ => 2000).machine
    (Service.sides (undisturbed (Fin 1) Bool) Machine.always)
    ((fun _ => none, .initial (Fin 1)), fun _ => none) connectedAndRefused
    connectedAndRefusedEvents
    (fun whole => whole.1.2.isQuiet &&
      decide (((whole.1.1 false).any fun proxy => proxy.count = 1 ∧
          (proxy.connections 0).stage = .failed) ∧
        ∀ retry ∈ whole.2 (false, 0), retry.timer ≠ .opened)) (by decide)
  simp only [Bool.and_eq_true, decide_eq_true_eq, Option.any_eq_true] at checked
  obtain ⟨quiet, ⟨proxy, there, one, failed⟩, ended⟩ := checked
  have sound := Manager.sound_of_reaches (parts_of_programs reached).2
  rcases program_settled Manager.acyclic_checkedApp reached (Manager.quiet_of_isQuiet sound quiet)
    there (one ▸ Nat.zero_lt_one) ended with ⟨-, closed⟩ | ⟨connected, -⟩
  · exact ⟨state, manager, connects, proxy, _, reached, there, one, closed⟩
  · cases failed.symm.trans connected

end Nexer.System
