import Nexer.System.Answers
import Nexer.System.Connects

/-!
# A connection and its connect

Each connection of the program that is handed on has one `Connect`, which is under way as
long as the connection waits for it, and which delivers to this connection, once.
-/

namespace Nexer.System

open Nexer.Transition

variable {α Index : Type} [DecidableEq α] [DecidableEq Index]

/-- The proxies with their manager, and the calls of `Connect`. -/
abbrev Whole (α Index : Type) := (Proxies Index × Manager.State α) × Connecting Index

/-- The runs of the program from the state in which `Start` finds it. -/
def Programs (config : α → Manager.AppConfig α) (upstream : Index → Option α)
    (closures : Nat ≃ Key Index) (timeout : Index → Nat)
    (guard : Proxies Index × Manager.State α → ProxyLabel Index ⊕ Manager.Label α → Prop) :
    Whole α Index → List (Happening α Index ⊕ ConnectEvent Index) → Prop :=
  Machine.Reaches (program config upstream closures timeout).machine
    (Service.sides guard Machine.always) ((fun _ => none, .initial α), fun _ => none)

variable {config : α → Manager.AppConfig α} {upstream : Index → Option α}
variable {closures : Nat ≃ Key Index} {timeout : Index → Nat}
variable {guard : Proxies Index × Manager.State α → ProxyLabel Index ⊕ Manager.Label α → Prop}
variable {state : Proxies Index} {manager : Manager.State α} {connects later : Connecting Index}
variable {past : List (Happening α Index ⊕ ConnectEvent Index)} {key : Key Index}

theorem program_guarded (answers : ∀ pair (key : Key Index) success,
      guard pair (.inl (key.1, some (.connected key.2 success)))) :
    Service.Guarded (program config upstream closures timeout)
      (Service.sides guard Machine.always) guard Machine.always :=
  Service.guarded_sides answers fun _ _ => trivial

/-- The clients that the `Connect` of a connection has delivered. -/
def deliveries (key : Key Index) (past : List (Happening α Index ⊕ ConnectEvent Index)) :
    List (Option Nat) :=
  TcpClient.Retry.answersIn (Machine.eventsOf key (Service.serverEvents past))

omit [DecidableEq α] in
@[simp] theorem deliveries_append (out : List (Happening α Index ⊕ ConnectEvent Index)) :
    deliveries key (past ++ out) = deliveries key past ++ deliveries key out := by
  simp [deliveries]

omit [DecidableEq α] in
@[simp] theorem deliveries_inl (events : List (Happening α Index)) :
    deliveries key (events.map (.inl : _ → Happening α Index ⊕ ConnectEvent Index)) = [] := by
  unfold deliveries
  rw [Service.serverEvents_inl]
  rfl

omit [DecidableEq α] in
@[simp] theorem deliveries_inr (events : List (ConnectEvent Index)) :
    deliveries key (events.map (.inr : _ → Happening α Index ⊕ ConnectEvent Index)) =
      TcpClient.Retry.answersIn (Machine.eventsOf key events) := by
  simp [deliveries]

/-- How far a connection is, how far its `Connect` is, and what this has delivered. -/
inductive Matched : Option Proxy.Stage → Option TcpClient.Retry.State → List (Option Nat) → Prop
  | unborn : Matched none none []
  | checking : Matched (some .checking) none []
  | refused : Matched (some .failed) none []
  | connecting (retry : TcpClient.Retry.State) (opened : retry.timer = .opened) :
      Matched (some .connecting) (some retry) []
  | connected (retry : TcpClient.Retry.State) (attempt : Nat) (ended : retry.timer ≠ .opened) :
      Matched (some .connected) (some retry) [some attempt]
  | failed (retry : TcpClient.Retry.State) (ended : retry.timer ≠ .opened) :
      Matched (some .failed) (some retry) [none]

/-- A connection that is not handed on has no `Connect` yet, or keeps it. -/
theorem Matched.passage {before after : Option Proxy.Stage} {retry : Option TcpClient.Retry.State}
    {clients : List (Option Nat)} {handed : Prop} (matched : Matched before retry clients)
    (passage : Passage handed before after) :
    (¬ handed → Matched after retry clients) ∧
      (handed → after = some .connecting ∧ retry = none ∧ clients = []) := by
  cases passage with
  | stays _ kept => exact ⟨fun _ => matched, fun given => absurd given kept⟩
  | checks kept =>
      cases matched
      exact ⟨fun _ => .checking, fun given => absurd given kept⟩
  | fails kept =>
      cases matched
      exact ⟨fun _ => .refused, fun given => absurd given kept⟩
  | connects _ early given =>
      refine ⟨fun kept => absurd given kept, fun _ => ?_⟩
      rcases early with rfl | rfl <;> cases matched <;> exact ⟨rfl, rfl, rfl⟩

/-- A `Connect` that gives no answer goes on as it was. -/
theorem Matched.works {stage : Option Proxy.Stage} {retry next : TcpClient.Retry.State}
    {clients : List (Option Nat)} (matched : Matched stage (some retry) clients)
    (kept : next.timer = .opened ↔ retry.timer = .opened) : Matched stage (some next) clients := by
  cases matched with
  | connecting _ opened => exact .connecting next (kept.mpr opened)
  | connected _ attempt ended => exact .connected next attempt (mt kept.mp ended)
  | failed _ ended => exact .failed next (mt kept.mp ended)

/-- The only answer of a `Connect` settles its connection. -/
theorem Matched.answers {stage : Option Proxy.Stage} {retry next : TcpClient.Retry.State}
    {clients : List (Option Nat)} (matched : Matched stage (some retry) clients)
    (opened : retry.timer = .opened) (ended : next.timer ≠ .opened) (client : Option Nat) :
    Matched (some (if client.isSome then .connected else .failed)) (some next)
      (clients ++ [client]) := by
  cases matched with
  | connecting =>
      cases client with
      | none => exact .failed next ended
      | some attempt => exact .connected next attempt ended
  | connected _ _ before => exact absurd opened before
  | failed _ before => exact absurd opened before

theorem matched_of_runs (answers : ∀ pair (key : Key Index) success,
      guard pair (.inl (key.1, some (.connected key.2 success))))
    {whole : Whole α Index} (run : Programs config upstream closures timeout guard whole past)
    (key : Key Index) : Matched (stageOf whole.1.1 key) (whole.2 key) (deliveries key past) := by
  induction run with
  | start => exact .unborn
  | next reached allowed moved ih =>
      have serverReached := (Service.parts_of_reaches (program_guarded answers) reached).2
      rw [deliveries_append]
      cases Service.moved_of_machine moved with
      | silent pair next connects label events own idle stepped unasked =>
          have passage := passage_of_step stepped own key
          have nothing : connectOf closures next.1 events = none := unasked
          simpa using (ih.passage passage).1 (by simp [nothing])
      | asks pair next connects later label tag events taken own idle stepped asked took =>
          have passage := ih.passage (passage_of_step stepped own key)
          have handed : connectOf closures next.1 events = some tag := asked
          have created : connecting timeout connects (tag, none) = some (later, taken) := took
          cases Machine.steps_of_instances created with
          | create _ absent =>
              rw [List.map_nil, List.append_nil, deliveries_inl, List.append_nil]
              by_cases same : key = tag
              · subst same
                obtain ⟨stage, -, none⟩ := passage.2 handed
                simp only [stage, none, Function.update_self]
                exact .connecting _ rfl
              · have others := passage.1 (by simp [handed, Ne.symm same])
                simpa [same] using others
      | works pair connects later label events inner idle stepped unanswered =>
          obtain ⟨index, _ | label⟩ := label
          · cases inner
          obtain ⟨retry, next, there, rfl, others, ⟨-, silent, kept⟩ | ⟨client, answered, -⟩⟩ :=
            answers_of_moved serverReached stepped
          · rw [deliveries_inr]
            by_cases same : key = index
            · subst same
              rw [silent, List.append_nil]
              simp only [Function.update_self]
              rw [there] at ih
              exact ih.works kept
            · simpa [same, others key same, TcpClient.Retry.answersIn] using ih
          · cases unanswered.symm.trans answered
      | answers pair next connects later label tag success events taken inner idle stepped
          answered took =>
          obtain ⟨index, _ | label⟩ := label
          · cases inner
          obtain ⟨retry, next, there, rfl, others, ⟨silent, -⟩ | ⟨client, found, single, opened, ended⟩⟩ :=
            answers_of_moved serverReached stepped
          · cases silent.symm.trans answered
          · obtain ⟨rfl, rfl⟩ := Prod.mk.inj (Option.some.inj (found.symm.trans answered))
            obtain ⟨-, -, stages⟩ := settles_of_connected took
            rw [deliveries_append, deliveries_inr, deliveries_inl, List.append_nil]
            simp only [stages]
            by_cases same : key = index
            · subst same
              rw [single]
              simp only [Function.update_self]
              rw [there] at ih
              exact ih.answers opened ended client
            · simpa [same, others key same, TcpClient.Retry.answersIn] using ih

/-- A connection that is handed on is given a `Connect` of its own. -/
theorem program_of_asks {label : ProxyLabel Index ⊕ Manager.Label α}
    {next : Proxies Index × Manager.State α} {out : List (Happening α Index)}
    (own : (program config upstream closures timeout).own label = true)
    (moved : (checks config upstream closures).machine (state, manager) label = some (next, out))
    (handed : connectOf closures next.1 out = some key) (absent : connects key = none) :
    (program config upstream closures timeout).machine ((state, manager), connects) (.inl label) =
      some ((next, Function.update connects key (some .initial)), out.map .inl) := by
  have idle : (program config upstream closures timeout).serverIdle connects = true := rfl
  have stepped : (program config upstream closures timeout).client (state, manager) label =
    some (next, out) := moved
  have asked : (program config upstream closures timeout).asked next out = some key := handed
  have took : (program config upstream closures timeout).server connects
      ((program config upstream closures timeout).ask key) =
        some (Function.update connects key (some .initial), []) := by
    simp [program, connecting, Machine.instances, absent]
  simp [Service.machine, Service.clientStep, own, idle, stepped, asked, took]

omit [DecidableEq α] [DecidableEq Index] in
theorem lively_answers {managing : Manager.State α → Manager.Label α → Prop}
    (pair : Proxies Index × Manager.State α) (key : Key Index) (success : Bool) :
    Service.sides lively managing pair (.inl (key.1, some (.connected key.2 success))) :=
  fun _ _ => trivial

/-- The runs of the program in which the proxies are lively. -/
def LivelyPrograms (config : α → Manager.AppConfig α) (upstream : Index → Option α)
    (closures : Nat ≃ Key Index) (timeout : Index → Nat) :
    Whole α Index → List (Happening α Index ⊕ ConnectEvent Index) → Prop :=
  Programs config upstream closures timeout (Service.sides lively Manager.restartsOutside)

theorem LivelyPrograms.checks
    (run : LivelyPrograms config upstream closures timeout ((state, manager), connects) past) :
    LivelyRuns config upstream closures Manager.restartsOutside (state, manager)
      (Service.clientEvents past) :=
  (Service.parts_of_reaches (program_guarded lively_answers) run).1

/-- The program takes what the proxies and the manager do, and begins the `Connect` of a
connection that is handed on. -/
theorem program_of_moved {whole : Whole α Index} {label : ProxyLabel Index ⊕ Manager.Label α}
    {next : Proxies Index × Manager.State α} {out : List (Happening α Index)}
    (matched : ∀ key, Matched (stageOf whole.1.1 key) (whole.2 key) (deliveries key past))
    (own : (program config upstream closures timeout).own label = true)
    (moved : (checks config upstream closures).machine whole.1 label = some (next, out)) :
    ((program config upstream closures timeout).machine whole (.inl label)).isSome := by
  obtain ⟨pair, connects⟩ := whole
  cases handed : connectOf closures next.1 out with
  | none =>
      have idle : (program config upstream closures timeout).serverIdle connects = true := rfl
      have stepped : (program config upstream closures timeout).client pair label =
        some (next, out) := moved
      have unasked : (program config upstream closures timeout).asked next out = none := handed
      simp [Service.machine, Service.clientStep, own, idle, stepped, unasked]
  | some key =>
      have absent := (((matched key).passage (passage_of_step moved own key)).2 handed).2.1
      rw [program_of_asks own moved handed absent]
      rfl

/--
A connection has a `Connect` whose timer is open exactly while it waits for one.  That
one delivers once: a client to a connection that is connected then, nothing to one that
has failed then.  No connection is handed on twice, and what the manager does is refused
by no proxy.
-/
theorem connect_matched (acyclic : Manager.Acyclic config)
    (run : LivelyPrograms config upstream closures timeout ((state, manager), connects) past) :
    (∀ key, Matched (stageOf state key) (connects key) (deliveries key past)) ∧
      (∀ {label next out key}, (program config upstream closures timeout).own label = true →
        (checks config upstream closures).machine (state, manager) label = some (next, out) →
        connectOf closures next.1 out = some key →
        connects key = none ∧ deliveries key past = [] ∧
          (program config upstream closures timeout).machine ((state, manager), connects)
            (.inl label) =
              some ((next, Function.update connects key (some .initial)), out.map .inl)) ∧
      ∀ {label}, (checks config upstream closures).inner label = true →
        Manager.restartsOutside manager label → (Manager.step config manager label).isSome →
        ((program config upstream closures timeout).machine ((state, manager), connects)
          (.inl (.inr label))).isSome := by
  have matched := matched_of_runs lively_answers run
  refine ⟨matched, fun {label next out key} own moved handed => ?_,
    fun {label} inner allowed able => ?_⟩
  · obtain ⟨-, absent, nothing⟩ := ((matched key).passage (passage_of_step moved own key)).2 handed
    exact ⟨absent, nothing, program_of_asks own moved handed absent⟩
  · have taken := taken_of_manager acyclic run.checks inner allowed able
    obtain ⟨⟨next, out⟩, moved⟩ := Option.isSome_iff_exists.mp taken
    exact program_of_moved matched rfl moved

/-- The two connections are handed on; one gets its client, the host name of the other one
is not found until its time is up. -/
def connectedAndRefused : List ((ProxyLabel Bool ⊕ Manager.Label (Fin 1)) ⊕ ConnectLabel Bool) :=
  checkedBoth.map .inl ++ [.inr ((true, 0), some (.tick 500)),
    .inr ((true, 0), some (.attempt 0 (.addrInfo 0 0 fun _ => false))),
    .inr ((true, 0), some (.attempt 0 (.connected 0 0 fun _ => false))),
    .inr ((false, 0), some (.tick 500)),
    .inr ((false, 0), some (.attempt 0 (.addrInfo 0 (-3001) fun _ => false))),
    .inr ((false, 0), some (.tick 2000))]

def connectedAndRefusedEvents : List (Happening (Fin 1) Bool ⊕ ConnectEvent Bool) :=
  checkedBothEvents.map .inl ++ [.inr ((true, 0), .ticked 500), .inr ((true, 0), .tried 0), .inr ((true, 0), .connected 0),
    .inr ((true, 0), .answered (some 0)), .inl (.inl (true, .setOutgoing 0 0)),
    .inr ((false, 0), .ticked 500), .inr ((false, 0), .tried 0), .inr ((false, 0), .ticked 2000),
    .inr ((false, 0), .answered none), .inl (.inl (false, .refused 0))]

theorem connect_matched_run : ∃ state manager connects past,
    LivelyPrograms Manager.checkedApp twoProxies Equiv.boolProdNatEquivNat.symm (fun _ => 2000)
        ((state, manager), connects) past ∧
      Matched (stageOf state (true, 0)) (connects (true, 0)) [some 0] ∧
      Matched (stageOf state (false, 0)) (connects (false, 0)) [none] := by
  obtain ⟨⟨⟨state, manager⟩, connects⟩, reached, -⟩ := Machine.exists_reaches
    (program Manager.checkedApp twoProxies Equiv.boolProdNatEquivNat.symm fun _ => 2000).machine
    (Service.sides (Service.sides lively Manager.restartsOutside) Machine.always)
    ((fun _ => none, .initial (Fin 1)), fun _ => none) connectedAndRefused
    connectedAndRefusedEvents (fun _ => true) (by decide)
  have matched := (connect_matched Manager.acyclic_checkedApp reached).1
  exact ⟨state, manager, connects, _, reached, matched (true, 0), matched (false, 0)⟩

/--
A `Connect` delivers only to a connection that waits for it, and for no check any more, in a
proxy that has not been destroyed, and the proxy then runs its closure: what the machine of a
proxy takes for granted about `Connect` is what it does.
-/
theorem connect_expected (acyclic : Manager.Acyclic config)
    (run : LivelyPrograms config upstream closures timeout ((state, manager), connects) past)
    {label : ConnectLabel Index} {events : List (ConnectEvent Index)} {success : Bool}
    (moved : connecting timeout connects label = some (later, events))
    (answered : delivered events = some (key, success)) (idle : manager.todo = []) :
    stageOf state key = some .connecting ∧
      (∀ app, Manager.owed app (closures.symm key) manager = 0) ∧
      ∃ proxy, state key.1 = some proxy ∧ proxy.server ≠ .destroyed ∧
        (program config upstream closures timeout).machine ((state, manager), connects)
            (.inr label) =
          some (((Function.update state key.1
              (some (Proxy.onConnected success key.2 proxy).1), manager), later),
            events.map .inr ++ ((Proxy.onConnected success key.2 proxy).2.map
              fun event => .inl (.inl (key.1, event)))) := by
  have inner : (program config upstream closures timeout).inner label = true := by
    obtain ⟨index, _ | label⟩ := label
    · cases Machine.steps_of_instances moved with
      | create => cases answered
    · rfl
  have waiting : waitsConnect (state, manager) key = true :=
    Service.waits_of_answered (program_guarded lively_answers) (program_kept _) run trivial
      inner moved answered
  have connecting : stageOf state key = some .connecting := of_decide_eq_true waiting
  refine ⟨connecting, fun app => ?_, ?_⟩
  · have debt : Manager.owed app (closures.symm key) manager = _ :=
      accounts acyclic run.checks.runs (app, key)
    simpa [waitsFor, connecting] using debt
  obtain ⟨proxy, there, waits⟩ := Option.bind_eq_some_iff.mp connecting
  obtain ⟨alive, running⟩ := alive_of_reaches (run.checks.proxies fun _ _ _ => trivial) there
  refine ⟨proxy, there, alive, ?_⟩
  have step : Proxy.step (upstream key.1).isSome proxy (.connected key.2 success) = _ :=
    Proxy.step_connected running waits success
  generalize Proxy.onConnected success key.2 proxy = effect at step ⊢
  have stepped := proxies_of_step there step
  have unasked : askedBy upstream (effect.2.map (Prod.mk key.1)) = none := by
    simp [askedBy, (stageOf_of_connected stepped).1]
  have took : (checks config upstream closures).machine (state, manager)
      (.inl (key.1, some (.connected key.2 success))) =
        some ((Function.update state key.1 (some effect.1), manager),
          (effect.2.map (Prod.mk key.1)).map .inl) := by
    have same : (checks config upstream closures).client state
      (key.1, some (.connected key.2 success)) = _ := stepped
    have quiet : (checks config upstream closures).serverIdle manager = true := by
      simp [checks, idle]
    have own : (checks config upstream closures).own (key.1, some (.connected key.2 success)) =
      true := rfl
    have silent : (checks config upstream closures).asked
      (Function.update state key.1 (some effect.1)) (effect.2.map (Prod.mk key.1)) = none := unasked
    simp [Service.machine, Service.clientStep, same, quiet, own, silent]
  have client : (program config upstream closures timeout).clientIdle (state, manager) = true := by
    simp [program, idle]
  simpa [Function.comp_def] using Service.machine_of_answer inner client moved answered took

/-- The time of the second connection is up. -/
theorem connect_expected_run : ∃ state manager connects,
    (∃ past, LivelyPrograms Manager.checkedApp twoProxies Equiv.boolProdNatEquivNat.symm
      (fun _ => 2000) ((state, manager), connects) past) ∧
    stageOf state (false, 0) = some .connecting ∧
    ((program Manager.checkedApp twoProxies Equiv.boolProdNatEquivNat.symm fun _ => 2000).machine
      ((state, manager), connects) (.inr ((false, 0), some (.tick 2000)))).isSome := by
  obtain ⟨⟨⟨state, manager⟩, connects⟩, reached, checked⟩ := Machine.exists_reaches
    (program Manager.checkedApp twoProxies Equiv.boolProdNatEquivNat.symm fun _ => 2000).machine
    (Service.sides (Service.sides lively Manager.restartsOutside) Machine.always)
    ((fun _ => none, .initial (Fin 1)), fun _ => none) (connectedAndRefused.take 23)
    (connectedAndRefusedEvents.take 17)
    (fun whole => decide (whole.1.2.todo = [] ∧
      ((connecting (fun _ => 2000) whole.2 ((false, 0), some (.tick 2000))).bind fun effect =>
        delivered effect.2) = some ((false, 0), false))) (by decide)
  simp only [decide_eq_true_eq] at checked
  obtain ⟨idle, answers⟩ := checked
  obtain ⟨⟨later, events⟩, moved, answered⟩ := Option.bind_eq_some_iff.mp answers
  obtain ⟨waiting, -, proxy, -, -, taken⟩ :=
    connect_expected Manager.acyclic_checkedApp reached moved answered idle
  exact ⟨state, manager, connects, ⟨_, reached⟩, waiting, by rw [taken]; rfl⟩

end Nexer.System
