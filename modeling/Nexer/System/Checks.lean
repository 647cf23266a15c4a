import Nexer.Manager.Owed
import Nexer.Proxy.Stages
import Nexer.Transition.Instances
import Nexer.Transition.Service
import Mathlib.Logic.Equiv.Defs

/-!
# The proxies and the process manager

The proxies of the program share one process manager.  A proxy whose upstream has an app
calls `Require` for every connection that it accepts, with a closure that captures the
connection, and the manager invokes these closures inside its handlers.  Everything runs
on the thread of the event loop: a proxy acts when no handler of the manager is running.

The machine of a proxy expects one answer for each of its checks, and while the
connection waits for it.  The manager keeps to that.
-/

namespace Nexer.System

open Nexer.Transition

variable {α Index : Type} [DecidableEq α] [DecidableEq Index]

/-- A connection of one of the proxies. -/
abbrev Key (Index : Type) := Index × Nat

abbrev Proxies (Index : Type) := Index → Option Proxy.State

abbrev ProxyLabel (Index : Type) := Index × Option Proxy.Label

abbrev ProxyEvent (Index : Type) := Index × Proxy.Event

/-- The proxies, with the app of the upstream of each.  `Start` creates them. -/
def proxies (upstream : Index → Option α) :
    Machine (Proxies Index) (ProxyLabel Index) (ProxyEvent Index) :=
  Machine.instances (fun index => Proxy.step (upstream index).isSome) .initial

/-- The stage of a connection that has been accepted. -/
def stageOf (state : Proxies Index) (key : Key Index) : Option Proxy.Stage :=
  (state key.1).bind (·.stage? key.2)

/-- The connection that a step of the proxies accepts. -/
def acceptedKey (out : List (ProxyEvent Index)) : Option (Key Index) :=
  out.findSome? fun entry => entry.2.accepted?.map (Prod.mk entry.1)

/-- A check that a connection waits for: `Require` was called for the app with the
closure of the connection. -/
abbrev Check (α Index : Type) := α × Key Index

/-- The check that a step of the proxies begins. -/
def askedBy (upstream : Index → Option α) (out : List (ProxyEvent Index)) :
    Option (Check α Index) :=
  (acceptedKey out).bind fun key => (upstream key.1).map (·, key)

/-- The proxies as the callers of the process manager.  `closures` numbers the closures
that `OnConnection` hands to `CheckUpstreamProcess`. -/
def checks (config : α → Manager.AppConfig α) (upstream : Index → Option α)
    (closures : Nat ≃ Key Index) :
    Service (Proxies Index) (ProxyLabel Index) (ProxyEvent Index)
      (Manager.State α) (Manager.Label α) (Manager.Event α) (Check α Index) Int where
  client := proxies upstream
  server := Manager.step config
  asked _ out := askedBy upstream out
  ask check := .require check.1 (closures.symm check.2)
  answered out := (Manager.answeredCaller out).map fun answer =>
    ((answer.1.1, closures answer.1.2), answer.2)
  answer check error := (check.2.1, some (.checked check.2.2 error))
  own
    | (_, some (.checked _ _)) => false
    | _ => true
  inner
    | .require _ _ => false
    | _ => true
  clientIdle _ := true
  serverIdle state := state.todo.isEmpty

/-- What happens in the program, as far as the proxies and the manager see it. -/
abbrev Happening (α Index : Type) := ProxyEvent Index ⊕ Manager.Event α

variable {config : α → Manager.AppConfig α} {upstream : Index → Option α}
variable {closures : Nat ≃ Key Index}
variable {state following : Proxies Index} {manager later : Manager.State α}
variable {label : ProxyLabel Index} {out : List (ProxyEvent Index)}
variable {past : List (Happening α Index)} {key other : Key Index} {app : α}

/-- How a step of the proxies changes the stages, and which connection it accepts. -/
inductive Advance (upstream : Index → Option α) (stages : Key Index → Option Proxy.Stage) :
    ProxyLabel Index → (Key Index → Option Proxy.Stage) → Option (Key Index) → Prop where
  | accept (key : Key Index) (address : Proxy.Address) (unused : stages key = none) :
      Advance upstream stages (key.1, some (.accept address))
        (Function.update stages key
          (some (if (upstream key.1).isSome then .checking else .connecting))) (some key)
  | checked (key : Key Index) (error : Int) (stage : Proxy.Stage)
      (waiting : stages key = some .checking)
      (result : stage = .connecting ∧ error = 0 ∨ stage = .failed) :
      Advance upstream stages (key.1, some (.checked key.2 error))
        (Function.update stages key (some stage)) none
  | connected (key : Key Index) (success : Bool) (waiting : stages key = some .connecting) :
      Advance upstream stages (key.1, some (.connected key.2 success))
        (Function.update stages key (some (if success then .connected else .failed))) none
  | quiet (label : ProxyLabel Index) (own : label.2.any Proxy.Label.isAnswer = false) :
      Advance upstream stages label stages none

/-- The stages of all connections, when those of one proxy are set. -/
theorem stageOf_update {index : Index} {proxy next : Proxy.State} (there : state index = some proxy)
    {connection : Nat} {stage : Option Proxy.Stage}
    (stages : next.stage? = Function.update proxy.stage? connection stage) :
    stageOf (Function.update state index (some next)) =
      Function.update (stageOf state) (index, connection) stage := by
  funext ⟨other, another⟩
  by_cases same : other = index
  · subst same
    by_cases equal : another = connection
    · subst equal
      simp [stageOf, stages]
    · have apart : (other, another) ≠ (other, connection) := by simp [equal]
      rw [Function.update_of_ne apart]
      simp [stageOf, stages, equal, there]
  · have apart : (other, another) ≠ (index, connection) := by simp [same]
    rw [Function.update_of_ne apart]
    simp [stageOf, same]

theorem stageOf_same {index : Index} {proxy next : Proxy.State} (there : state index = some proxy)
    (stages : next.stage? = proxy.stage?) :
    stageOf (Function.update state index (some next)) = stageOf state := by
  funext ⟨other, connection⟩
  by_cases same : other = index
  · subst same
    simp [stageOf, stages, there]
  · simp [stageOf, same]

omit [DecidableEq Index] in
theorem acceptedKey_map (index : Index) (events : List Proxy.Event) :
    acceptedKey (events.map (Prod.mk index)) =
      (events.filterMap Proxy.Event.accepted?).head?.map (Prod.mk index) := by
  induction events with
  | nil => rfl
  | cons event rest ih =>
      cases event with
      | accepted => rfl
      | _ => exact ih

omit [DecidableEq α] in
theorem proxies_of_step {index : Index} {proxy next : Proxy.State} {input : Proxy.Label}
    {events : List Proxy.Event} (there : state index = some proxy)
    (stepped : Proxy.step (upstream index).isSome proxy input = some (next, events)) :
    proxies upstream state (index, some input) =
      some (Function.update state index (some next), events.map (Prod.mk index)) := by
  unfold proxies
  exact Machine.instances_of_move there stepped

omit [DecidableEq α] in
theorem advance_of_step (moved : proxies upstream state label = some (following, out)) :
    Advance upstream (stageOf state) label (stageOf following) (acceptedKey out) := by
  cases Machine.steps_of_instances moved with
  | create index absent =>
      have kept : stageOf (Function.update state index (some .initial)) = stageOf state := by
        funext ⟨other, connection⟩
        by_cases same : other = index
        · subst same
          simp [stageOf, absent, Proxy.State.stage?, Proxy.State.initial]
        · simp [stageOf, same]
      rw [kept]
      exact .quiet _ rfl
  | move index label proxy next events there stepped =>
      have progress := Proxy.progress_of_step stepped
      rw [acceptedKey_map]
      generalize accepted : events.filterMap Proxy.Event.accepted? = keys at progress
      generalize stages : next.stage? = after at progress
      cases progress with
      | accept address unused =>
          rw [stageOf_update there stages]
          refine .accept (index, proxy.count) address ?_
          simpa [stageOf, there] using unused
      | checked connection error stage waiting result =>
          rw [stageOf_update there stages]
          refine .checked (index, connection) error stage ?_ result
          simpa [stageOf, there] using waiting
      | connected connection success waiting =>
          rw [stageOf_update there stages]
          refine .connected (index, connection) success ?_
          simpa [stageOf, there] using waiting
      | other label own =>
          rw [stageOf_same there stages]
          exact .quiet _ (by simpa using own)

/-- The connection waits for the check. -/
def waitsFor (upstream : Index → Option α) (state : Proxies Index) (check : Check α Index) : Bool :=
  upstream check.2.1 = some check.1 && stageOf state check.2 = some .checking

/-- The number of calls that the closure of the check still has to get. -/
def owedFor (closures : Nat ≃ Key Index) (manager : Manager.State α) (check : Check α Index) : Nat :=
  Manager.owed check.1 (closures.symm check.2) manager

omit [DecidableEq Index] in
theorem waitsFor_iff {check : Check α Index} : waitsFor upstream state check = true ↔
    upstream check.2.1 = some check.1 ∧ stageOf state check.2 = some .checking := by
  simp [waitsFor]

omit [DecidableEq α] [DecidableEq Index] in
/-- A check begins for a connection that is accepted, with the app of its upstream. -/
theorem askedBy_eq_some {check : Check α Index} : askedBy upstream out = some check ↔
    acceptedKey out = some check.2 ∧ upstream check.2.1 = some check.1 := by
  obtain ⟨app, key⟩ := check
  simp only [askedBy, Option.bind_eq_some_iff, Option.map_eq_some_iff, Prod.mk.injEq]
  constructor
  · rintro ⟨_, accepted, _, wanted, rfl, rfl⟩
    exact ⟨accepted, wanted⟩
  · exact fun ⟨accepted, wanted⟩ => ⟨key, accepted, app, wanted, rfl, rfl⟩

/-- The waiting connections after a step that is no answer to a check. -/
theorem waitsFor_of_step (moved : proxies upstream state label = some (following, out))
    (own : (checks config upstream closures).own label = true) (check : Check α Index) :
    waitsFor upstream following check =
      (waitsFor upstream state check || askedBy upstream out = some check) := by
  have advance := advance_of_step moved
  rw [Bool.eq_iff_iff, Bool.or_eq_true, decide_eq_true_eq, askedBy_eq_some]
  simp only [waitsFor_iff]
  generalize stageOf following = after at advance ⊢
  generalize acceptedKey out = keys at advance ⊢
  cases advance with
  | accept key address unused =>
      by_cases same : check.2 = key
      · subst same
        cases wanted : upstream check.2.1 <;> simp [unused]
      · simp [same, Ne.symm same]
  | checked => cases own
  | connected key success waiting =>
      by_cases same : check.2 = key
      · subst same
        cases success <;> simp [waiting]
      · simp [same]
  | quiet => simp

/-- A connection does not wait before it is accepted. -/
theorem waitsFor_of_asked {check : Check α Index}
    (moved : proxies upstream state label = some (following, out))
    (asked : askedBy upstream out = some check) : waitsFor upstream state check = false := by
  have advance := advance_of_step moved
  rw [(askedBy_eq_some.mp asked).1] at advance
  generalize stageOf following = after at advance
  cases advance with
  | accept _ _ unused => simp [waitsFor, unused]

/-- An answer ends the waiting of one connection and asks nothing. -/
theorem waitsFor_of_told {check : Check α Index} {error : Int}
    (waiting : waitsFor upstream state check = true)
    (moved : proxies upstream state (check.2.1, some (.checked check.2.2 error)) =
      some (following, out)) :
    askedBy upstream out = none ∧
      ∀ other, waitsFor upstream following other = (waitsFor upstream state other && other ≠ check) := by
  have advance := advance_of_step moved
  obtain ⟨wanted, checking⟩ := waitsFor_iff.mp waiting
  generalize stages : stageOf following = after at advance
  generalize accepted : acceptedKey out = keys at advance
  generalize named : (check.2.1, some (Proxy.Label.checked check.2.2 error)) = label at advance
  cases advance with
  | accept => simp at named
  | connected => simp at named
  | quiet _ own =>
      subst named
      cases own
  | checked key _ stage _ result =>
      obtain ⟨index, connection⟩ := key
      obtain ⟨rfl, rfl, rfl⟩ : check.2.1 = index ∧ check.2.2 = connection ∧ error = _ := by
        simpa using named
      refine ⟨by simp [askedBy, accepted], fun other => ?_⟩
      rw [Bool.eq_iff_iff, Bool.and_eq_true, decide_eq_true_eq]
      simp only [waitsFor_iff, stages]
      by_cases same : other.2 = check.2
      · have settled : stage ≠ .checking := by
          rcases result with ⟨rfl, -⟩ | rfl <;> decide
        simp only [same, Prod.mk.eta, Function.update_self, Option.some.injEq, settled, and_false,
          false_iff, not_and, not_not, and_imp]
        intro wanted_ _
        exact Prod.ext (Option.some.inj (wanted_.symm.trans wanted)) same
      · have apart : other ≠ check := fun equal => same (congrArg Prod.snd equal)
        simp [same, apart]

omit [DecidableEq Index] in
/-- The debt of the manager to one of the closures. -/
theorem owedFor_of_step (acyclic : Manager.Acyclic config) {label : Manager.Label α}
    {history out : List (Manager.Event α)}
    (reached : Machine.Reaches (Manager.step config) Manager.restartsOutside (.initial α) manager
      history)
    (moved : Manager.step config manager label = some (later, out)) (check : Check α Index) :
    owedFor closures later check + Manager.answersTo check.1 (closures.symm check.2) out =
      owedFor closures manager check + label.asks check.1 (closures.symm check.2) :=
  Manager.owed_of_step acyclic reached moved _ _

/-- The answer that a step of the manager gives, and to which of the checks. -/
theorem answersTo_of_answered {label : Manager.Label α}
    {out : List (Manager.Event α)}
    {check : Check α Index} {error : Int}
    (moved : Manager.step config manager label = some (later, out))
    (answered : (checks config upstream closures).answered out = some (check, error))
    (other : Check α Index) :
    Manager.answersTo other.1 (closures.symm other.2) out = if other = check then 1 else 0 := by
  obtain ⟨⟨⟨app, caller⟩, code⟩, found, same⟩ := Option.map_eq_some_iff.mp answered
  obtain ⟨rfl, rfl⟩ := Prod.mk.inj same
  rw [Manager.answersTo_of_some (Manager.move_of_step moved) found]
  refine if_congr ?_ rfl rfl
  rw [Prod.ext_iff, Prod.ext_iff, closures.symm_apply_eq]

/-- Neither side of the accounts is touched but by questions and answers. -/
theorem checks_kept (acyclic : Manager.Acyclic config)
    (allowed : Proxies Index → ProxyLabel Index → Prop) :
    Service.Kept (checks config upstream closures) allowed Manager.restartsOutside
      (fun _ => none) (.initial α) (waitsFor upstream) (owedFor closures) where
  initial := fun check => by simp [waitsFor, stageOf, owedFor, Manager.owed, Manager.waiting,
    Manager.State.initial]
  silent := by
    intro client past label next events _ _ own stepped unasked check
    have nothing : askedBy upstream events = none := unasked
    simp [waitsFor_of_step stepped own check, nothing]
  asks := by
    intro client past label next events check _ _ own stepped asks
    have asked : askedBy upstream events = some check := asks
    refine ⟨waitsFor_of_asked stepped asked, fun other => ?_⟩
    simp [waitsFor_of_step stepped own other, asked, eq_comm]
  told := fun _ waiting stepped => waitsFor_of_told waiting stepped
  question := by
    intro manager past next events check reached stepped
    have moved : Manager.step config manager (.require check.1 (closures.symm check.2)) =
      some (next, events) := stepped
    have debt (other : Check α Index) : owedFor closures next other + _ = _ :=
      owedFor_of_step acyclic reached moved other
    obtain rfl := Manager.out_of_require moved
    refine ⟨rfl, fun other => ?_⟩
    have asked : check.1 = other.1 ∧ check.2 = other.2 ↔ other = check :=
      Prod.ext_iff.symm.trans eq_comm
    simpa [Manager.answersTo, Manager.answeredOf, Manager.Label.asks, asked] using debt other
  works := by
    intro manager past label next events reached _ inner stepped unanswered check
    have moved : Manager.step config manager label = some (next, events) := stepped
    have none : Manager.answeredCaller events = none := Option.map_eq_none_iff.mp unanswered
    have debt : owedFor closures next check + _ = _ :=
      owedFor_of_step acyclic reached moved check
    rw [Manager.answersTo_of_none none] at debt
    cases label with
    | require => cases inner
    | _ => exact debt
  answers := by
    intro manager past label next events check error reached _ inner stepped answered other
    have moved : Manager.step config manager label = some (next, events) := stepped
    have debt : owedFor closures next other + _ = _ :=
      owedFor_of_step acyclic reached moved other
    rw [answersTo_of_answered moved answered] at debt
    cases label with
    | require => cases inner
    | _ => exact debt.symm

end Nexer.System
