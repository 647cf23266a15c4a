import Nexer.Manager.Answered
import Nexer.Proxy.Settled
import Nexer.System.Checks
import Mathlib.Logic.Equiv.Nat

/-!
# Every check is answered once

Whatever the proxies accept and whatever the processes do: as long as a connection waits
for the check of its upstream process, its closure is among the callbacks of the manager,
once; the manager invokes it once; and it does so at a time when the proxy expects it.
-/

namespace Nexer.System

open Nexer.Transition

variable {α Index : Type} [DecidableEq α] [DecidableEq Index]
variable {config : α → Manager.AppConfig α} {upstream : Index → Option α}
variable {closures : Nat ≃ Key Index}
variable {state following : Proxies Index} {manager later : Manager.State α}
variable {label : ProxyLabel Index} {out : List (ProxyEvent Index)}
variable {past : List (Happening α Index)} {key : Key Index} {app : α}
variable {guard : Manager.State α → Manager.Label α → Prop}

/-- A guard on the steps of the manager. -/
def managed (guard : Manager.State α → Manager.Label α → Prop) :
    Proxies Index × Manager.State α → ProxyLabel Index ⊕ Manager.Label α → Prop
  | (_, manager), .inr label => guard manager label
  | _, .inl _ => True

instance [∀ manager label, Decidable (guard manager label)] :
    ∀ (pair : Proxies Index × Manager.State α) label, Decidable (managed guard pair label)
  | (_, manager), .inr label => inferInstanceAs (Decidable (guard manager label))
  | _, .inl _ => .isTrue trivial

/-- The proxies and the manager, from the state in which `Start` finds them. -/
def Runs (config : α → Manager.AppConfig α) (upstream : Index → Option α)
    (closures : Nat ≃ Key Index) (guard : Manager.State α → Manager.Label α → Prop) :
    Proxies Index × Manager.State α → List (Happening α Index) → Prop :=
  Machine.Reaches (checks config upstream closures).machine (managed guard)
    (fun _ => none, .initial α)

theorem managed_guarded (asks : ∀ manager app caller, guard manager (.require app caller)) :
    Service.Guarded (checks config upstream closures) (managed guard) Machine.always guard where
  client := fun _ => trivial
  server := id
  answer := fun _ _ _ => trivial
  ask := fun manager check => asks manager check.1 _

/-- The proxies and the manager run their own machines. -/
theorem parts_of_runs (asks : ∀ manager app caller, guard manager (.require app caller))
    (run : Runs config upstream closures guard (state, manager) past) :
    Machine.Reaches (proxies upstream) Machine.always (fun _ => none) state
        (Service.clientEvents past) ∧
      Machine.Reaches (Manager.step config) guard (.initial α) manager
        (Service.serverEvents past) :=
  Service.parts_of_reaches (managed_guarded asks) run

theorem Runs.mono {weaker : Manager.State α → Manager.Label α → Prop}
    (implies : ∀ manager label, guard manager label → weaker manager label)
    (run : Runs config upstream closures guard (state, manager) past) :
    Runs config upstream closures weaker (state, manager) past := by
  refine Machine.Reaches.mono ?_ run
  rintro ⟨_, _⟩ (_ | _) allowed
  · trivial
  · exact implies _ _ allowed

/-- A check has been asked for. -/
def requested (upstream : Index → Option α) (state : Proxies Index) (check : Check α Index) : Bool :=
  upstream check.2.1 = some check.1 && (stageOf state check.2).isSome

theorem requested_of_step (moved : proxies upstream state label = some (following, out))
    (check : Check α Index) :
    requested upstream following check =
      (requested upstream state check || askedBy upstream out = some check) := by
  have advance := advance_of_step moved
  rw [Bool.eq_iff_iff, Bool.or_eq_true, decide_eq_true_eq, askedBy_eq_some]
  simp only [requested, Bool.and_eq_true, decide_eq_true_eq]
  generalize stageOf following = after at advance ⊢
  generalize acceptedKey out = keys at advance ⊢
  cases advance with
  | accept key address unused =>
      by_cases same : check.2 = key
      · subst same
        simp [unused]
      · simp [same, Ne.symm same]
  | checked key error stage waiting | connected key success waiting =>
      by_cases same : check.2 = key
      · subst same
        simp [waiting]
      · simp [same]
  | quiet => simp

theorem not_requested_of_asked {check : Check α Index}
    (moved : proxies upstream state label = some (following, out))
    (asked : askedBy upstream out = some check) : requested upstream state check = false := by
  have advance := advance_of_step moved
  rw [(askedBy_eq_some.mp asked).1] at advance
  generalize stageOf following = after at advance
  cases advance with
  | accept _ _ unused => simp [requested, unused]

variable (upstream closures) in
/-- A call from outside is not answered in the same step. -/
theorem inner_of_answered {label : Manager.Label α} {out : List (Manager.Event α)}
    {answer : (α × Nat) × Int} (moved : Manager.step config manager label = some (later, out))
    (answered : Manager.answeredCaller out = some answer) :
    (checks config upstream closures).inner label = true := by
  cases label with
  | require other tag =>
      obtain rfl := Manager.out_of_require moved
      cases answered
  | _ => rfl

section Orderly

variable (acyclic : Manager.Acyclic config)

include acyclic

theorem accounts (run : Runs config upstream closures Manager.restartsOutside (state, manager) past)
    (check : Check α Index) :
    owedFor closures manager check = (waitsFor upstream state check).toNat :=
  Service.accounts_of_reaches (managed_guarded fun _ _ _ => trivial)
    (checks_kept acyclic Machine.always) run check

omit [DecidableEq Index] acyclic in
theorem answersTo_append (first second : List (Manager.Event α)) (caller : Nat) :
    Manager.answersTo app caller (first ++ second) =
      Manager.answersTo app caller first + Manager.answersTo app caller second := by
  simp [Manager.answersTo, List.countP_append]

/-- What was asked for has been answered or is owed. -/
theorem answered_or_owed
    (run : Runs config upstream closures Manager.restartsOutside (state, manager) past)
    (check : Check α Index) :
    Manager.answersTo check.1 (closures.symm check.2) (Service.serverEvents past) +
      owedFor closures manager check = (requested upstream state check).toNat := by
  generalize both : (state, manager) = pair at run
  induction run generalizing state manager with
  | start =>
      obtain ⟨rfl, rfl⟩ := Prod.mk.inj both
      simp [Manager.answersTo, Manager.answeredOf, Service.serverEvents, owedFor, Manager.owed,
        Manager.waiting, Manager.State.initial, requested, stageOf]
  | next reached allowed moved ih =>
      obtain ⟨clientReached, serverReached⟩ := parts_of_runs (fun _ _ _ => trivial) reached
      have kept : Service.Kept (checks config upstream closures) Machine.always _ _ _ _ _ :=
        checks_kept acyclic Machine.always
      rw [Service.serverEvents_append, answersTo_append]
      cases Service.moved_of_machine moved with
      | silent before next server label events own idle stepped unasked =>
          obtain ⟨rfl, rfl⟩ := Prod.mk.inj both
          have nothing : askedBy upstream events = none := unasked
          rw [requested_of_step stepped, nothing, Service.serverEvents_inl]
          simpa [Manager.answersTo, Manager.answeredOf] using ih rfl
      | asks before next server later label asked events taken own idle stepped asks took =>
          obtain ⟨rfl, rfl⟩ := Prod.mk.inj both
          obtain ⟨unanswered, more⟩ := kept.question serverReached took
          have asked_ : askedBy upstream events = some asked := asks
          have fresh := not_requested_of_asked stepped asked_
          have none := Manager.answersTo_of_none (Option.map_eq_none_iff.mp unanswered)
          have before := ih rfl
          rw [requested_of_step stepped, asked_, Service.serverEvents_append,
            Service.serverEvents_inl, Service.serverEvents_inr, List.nil_append, none, more]
          by_cases same : check = asked
          · subst same
            rw [fresh] at before ⊢
            simp only [Bool.toNat_false, Bool.false_or, decide_true, Bool.toNat_true, if_true]
              at before ⊢
            omega
          · simpa [same, Ne.symm same] using before
      | works client server later label events inner idle stepped unanswered =>
          obtain ⟨rfl, rfl⟩ := Prod.mk.inj both
          rw [Service.serverEvents_inr,
            Manager.answersTo_of_none (Option.map_eq_none_iff.mp unanswered),
            kept.works serverReached allowed inner stepped unanswered, ← ih rfl]
          rfl
      | answers before next server later label told error events taken inner idle stepped answered
          took =>
          obtain ⟨rfl, rfl⟩ := Prod.mk.inj both
          have waiting := Service.waits_of_answered (managed_guarded fun _ _ _ => trivial)
            kept reached allowed inner stepped answered
          have nothing : askedBy upstream taken = none := (waitsFor_of_told waiting took).1
          have less := kept.answers serverReached allowed inner stepped answered check
          rw [requested_of_step took, nothing, Service.serverEvents_append,
            Service.serverEvents_inl, Service.serverEvents_inr, List.append_nil,
            answersTo_of_answered stepped answered, Nat.add_assoc, Nat.add_comm (ite ..), ← less,
            ih rfl]
          simp

/-- The connection of a closure that is invoked waits for the check of this app. -/
theorem waits_of_answer
    (run : Runs config upstream closures Manager.restartsOutside (state, manager) past)
    {label : Manager.Label α} {out : List (Manager.Event α)} {caller : Nat} {error : Int}
    (allowed : Manager.restartsOutside manager label)
    (moved : Manager.step config manager label = some (later, out))
    (answered : Manager.answeredCaller out = some ((app, caller), error)) :
    upstream (closures caller).1 = some app ∧ stageOf state (closures caller) = some .checking := by
  have told : (checks config upstream closures).answered out =
      some ((app, closures caller), error) := by
    simp [checks, answered]
  exact waitsFor_iff.mp (Service.waits_of_answered (managed_guarded fun _ _ _ => trivial)
    (checks_kept acyclic Machine.always) run allowed
    (inner_of_answered upstream closures moved answered) moved told)

end Orderly

/--
A connection whose upstream has an app waits for its check as long as the manager has to
invoke its closure, which it then has to do once; when the connection has stopped
waiting, the closure was invoked once.  The closure is never handed to another app.
-/
theorem checks_answered_once (acyclic : Manager.Acyclic config)
    (run : Runs config upstream closures Manager.restartsOutside (state, manager) past)
    (key : Key Index) (app : α) :
    Manager.owed app (closures.symm key) manager =
        (if upstream key.1 = some app ∧ stageOf state key = some .checking then 1 else 0) ∧
      Manager.answersTo app (closures.symm key) (Service.serverEvents past) =
        if upstream key.1 = some app ∧ (stageOf state key).any (· ≠ .checking) then 1 else 0 := by
  have debt : Manager.owed app (closures.symm key) manager = _ := accounts acyclic run (app, key)
  have total : _ + Manager.owed app (closures.symm key) manager = _ :=
    answered_or_owed acyclic run (app, key)
  rw [debt] at total ⊢
  simp only [waitsFor, requested] at total ⊢
  by_cases wanted : upstream key.1 = some app
  · generalize stageOf state key = reached at total ⊢
    rcases reached with _ | (_ | _ | _ | _) <;> simpa [wanted] using total
  · simpa [wanted] using total

/-- Two proxies for the app with a checker. -/
def twoProxies : Bool → Option (Fin 1) := fun _ => some 0

/-- Each of two proxies accepts a connection; the checker that the first one has started
ends well, and both closures are invoked. -/
def checkedTwice : List (ProxyLabel Bool ⊕ Manager.Label (Fin 1)) :=
  [.inl (true, none), .inl (false, none), .inl (true, some (.accept 1)), .inr .call, .inr .call,
    .inr (.spawn {}), .inr .call, .inr .call, .inl (false, some (.accept 2)), .inr .call,
    .inr (.exited 0 .success), .inr (.closed 0), .inr .call, .inr .call, .inr .call, .inr .call]

def checkedTwiceEvents : List (Happening (Fin 1) Bool) :=
  [.inl (true, .accepted 0 1), .inr (.queued 0 ⟨0, .caller 1⟩),
    .inr (.spawned 0 (.checker 0 (.required 0))), .inr (.processStart 0),
    .inl (false, .accepted 0 2), .inr (.queued 0 ⟨1, .caller 0⟩),
    .inr (.ended 0 (.checker 0 (.required 0)) .success), .inr (.processExit 0 0 0),
    .inr (.answered 0 ⟨0, .caller 1⟩ none 0)]

/-- The handler is over. -/
def checkedBoth : List (ProxyLabel Bool ⊕ Manager.Label (Fin 1)) :=
  checkedTwice ++ [.inr .call, .inr .call]

def checkedBothEvents : List (Happening (Fin 1) Bool) :=
  checkedTwiceEvents ++ [.inr (.answered 0 ⟨1, .caller 0⟩ none 0)]

theorem checks_answered_once_run : ∃ state manager past,
    Runs Manager.checkedApp twoProxies Equiv.boolProdNatEquivNat.symm Manager.restartsOutside
        (state, manager) past ∧
      Manager.answersTo 0 1 (Service.serverEvents past) = 1 ∧ Manager.owed 0 0 manager = 1 := by
  obtain ⟨⟨state, manager⟩, reached, checked⟩ := Machine.exists_reaches
    (checks Manager.checkedApp twoProxies Equiv.boolProdNatEquivNat.symm).machine
    (managed Manager.restartsOutside) (fun _ => none, .initial (Fin 1)) checkedTwice
    checkedTwiceEvents
    (fun pair => decide (stageOf pair.1 (true, 0) = some .connecting ∧
      stageOf pair.1 (false, 0) = some .checking)) (by decide)
  simp only [decide_eq_true_eq] at checked
  have first := checks_answered_once Manager.acyclic_checkedApp reached (true, 0) 0
  have second := checks_answered_once Manager.acyclic_checkedApp reached (false, 0) 0
  simp only [checked] at first second
  exact ⟨state, manager, _, reached, first.2, second.1⟩

/-- No proxy is destroyed, and the forwarders of a proxy have addresses of their own. -/
def lively : Proxies Index → ProxyLabel Index → Prop
  | state, (index, some label) => ∀ proxy ∈ state index, Proxy.Lively proxy label
  | _, (_, none) => True

omit [DecidableEq Index] in
instance : ∀ (state : Proxies Index) label, Decidable (lively state label)
  | _, (_, some _) => inferInstanceAs (Decidable (∀ proxy ∈ _, Proxy.Lively proxy _))
  | _, (_, none) => .isTrue trivial

/-- The proxies and the manager, when the proxies are lively. -/
def LivelyRuns (config : α → Manager.AppConfig α) (upstream : Index → Option α)
    (closures : Nat ≃ Key Index) (guard : Manager.State α → Manager.Label α → Prop) :
    Proxies Index × Manager.State α → List (Happening α Index) → Prop :=
  Machine.Reaches (checks config upstream closures).machine (Service.sides lively guard)
    (fun _ => none, .initial α)

omit [DecidableEq α] in
/-- A proxy that exists has run its machine. -/
theorem proxy_of_reaches {events : List (ProxyEvent Index)} {index : Index} {proxy : Proxy.State}
    (reached : Machine.Reaches (proxies upstream) lively (fun _ => none) state events)
    (there : state index = some proxy) :
    Machine.Reaches (Proxy.step (upstream index).isSome) Proxy.Lively .initial proxy
      (Machine.eventsOf index events) := by
  have implies {state : Proxies Index} {index : Index} {label : Proxy.Label} {proxy : Proxy.State}
      (allowed : lively state (index, some label)) (there : state index = some proxy) :
      Proxy.Lively proxy label := allowed proxy there
  unfold proxies at reached
  exact (Machine.instance_of_reaches implies reached).1 proxy there

omit [DecidableEq α] in
/-- A proxy that exists has not been destroyed, and runs on. -/
theorem alive_of_reaches {events : List (ProxyEvent Index)} {index : Index} {proxy : Proxy.State}
    (reached : Machine.Reaches (proxies upstream) lively (fun _ => none) state events)
    (there : state index = some proxy) : proxy.server ≠ .destroyed ∧ proxy.overrun = false := by
  have run := proxy_of_reaches reached there
  exact ⟨(Proxy.settled_of_reaches run).exists_, Proxy.running_of_reaches run⟩

namespace LivelyRuns

theorem runs (run : LivelyRuns config upstream closures guard (state, manager) past) :
    Runs config upstream closures guard (state, manager) past := by
  refine Machine.Reaches.mono ?_ run
  rintro ⟨_, _⟩ (_ | _) allowed
  · trivial
  · exact allowed

theorem proxies (asks : ∀ manager app caller, guard manager (.require app caller))
    (run : LivelyRuns config upstream closures guard (state, manager) past) :
    Machine.Reaches (System.proxies upstream) lively (fun _ => none) state
      (Service.clientEvents past) :=
  (Service.parts_of_reaches (Service.guarded_sides (fun _ _ _ _ _ => trivial)
    fun manager check => asks manager check.1 _) run).1

theorem managed (run : LivelyRuns config upstream closures guard (state, manager) past) :
    Machine.Reaches (Manager.step config) Machine.always (.initial α) manager
      (Service.serverEvents past) :=
  (parts_of_runs (fun _ _ _ => trivial) (run.runs.mono fun _ _ _ => trivial)).2

end LivelyRuns

/-- The proxy of a closure that is invoked takes the answer. -/
theorem taken_of_answer (acyclic : Manager.Acyclic config)
    (run : LivelyRuns config upstream closures Manager.restartsOutside (state, manager) past)
    {label : Manager.Label α} {out : List (Manager.Event α)} {caller : Nat} {error : Int}
    (allowed : Manager.restartsOutside manager label)
    (moved : Manager.step config manager label = some (later, out))
    (answered : Manager.answeredCaller out = some ((app, caller), error)) :
    ∃ proxy, state (closures caller).1 = some proxy ∧ proxy.server ≠ .destroyed ∧
      (checks config upstream closures).machine (state, manager) (.inr label) =
        some ((Function.update state (closures caller).1
            (some (Proxy.onChecked error (closures caller).2 proxy).1), later),
          out.map .inr ++ ((Proxy.onChecked error (closures caller).2 proxy).2.map
            (Prod.mk (closures caller).1)).map .inl) := by
  have inner := inner_of_answered upstream closures moved answered
  obtain ⟨-, checking⟩ := waits_of_answer acyclic run.runs allowed moved answered
  have told : (checks config upstream closures).answered out =
      some ((app, closures caller), error) := by
    simp [checks, answered]
  obtain ⟨proxy, there, waiting⟩ := Option.bind_eq_some_iff.mp checking
  obtain ⟨alive, running⟩ := alive_of_reaches (run.proxies fun _ _ _ => trivial) there
  refine ⟨proxy, there, alive, ?_⟩
  have step : Proxy.step (upstream (closures caller).1).isSome proxy
      (.checked (closures caller).2 error) = _ := Proxy.step_checked running waiting error
  generalize Proxy.onChecked error (closures caller).2 proxy = effect at step ⊢
  exact Service.machine_of_answer inner rfl moved told (proxies_of_step there step)

/-- Whatever the manager does by itself, the proxies take its answers. -/
theorem taken_of_manager (acyclic : Manager.Acyclic config)
    (run : LivelyRuns config upstream closures Manager.restartsOutside (state, manager) past)
    {label : Manager.Label α} (inner : (checks config upstream closures).inner label = true)
    (allowed : Manager.restartsOutside manager label)
    (able : (Manager.step config manager label).isSome) :
    ((checks config upstream closures).machine (state, manager) (.inr label)).isSome := by
  obtain ⟨⟨later, out⟩, moved⟩ := Option.isSome_iff_exists.mp able
  have stepped : (checks config upstream closures).server manager label = some (later, out) := moved
  cases told : Manager.answeredCaller out with
  | none =>
      have silent : (checks config upstream closures).answered out = none := by simp [checks, told]
      have idle : (checks config upstream closures).clientIdle state = true := rfl
      simp [Service.machine, Service.serverStep, inner, idle, stepped, silent]
  | some answer =>
      obtain ⟨⟨app, caller⟩, error⟩ := answer
      obtain ⟨proxy, -, -, taken⟩ := taken_of_answer acyclic run allowed moved told
      rw [taken]
      rfl

/--
The manager invokes a closure only while its connection waits for the check of this app,
in a proxy that has not been destroyed, and the proxy then runs it: what the machine of a
proxy takes for granted about `Require` is what the manager does.
-/
theorem answer_expected (acyclic : Manager.Acyclic config)
    (run : LivelyRuns config upstream closures Manager.restartsOutside (state, manager) past)
    {label : Manager.Label α} {out : List (Manager.Event α)} {caller : Nat} {error : Int}
    (allowed : Manager.restartsOutside manager label)
    (moved : Manager.step config manager label = some (later, out))
    (answered : Manager.answeredCaller out = some ((app, caller), error)) :
    upstream (closures caller).1 = some app ∧
      stageOf state (closures caller) = some .checking ∧
      ∃ proxy, state (closures caller).1 = some proxy ∧ proxy.server ≠ .destroyed ∧
        (checks config upstream closures).machine (state, manager) (.inr label) =
          some ((Function.update state (closures caller).1
              (some (Proxy.onChecked error (closures caller).2 proxy).1), later),
            out.map .inr ++ ((Proxy.onChecked error (closures caller).2 proxy).2.map
              (Prod.mk (closures caller).1)).map .inl) := by
  obtain ⟨wanted, checking⟩ := waits_of_answer acyclic run.runs allowed moved answered
  obtain ⟨proxy, there, alive, taken⟩ := taken_of_answer acyclic run allowed moved answered
  exact ⟨wanted, checking, proxy, there, alive, taken⟩

/-- The next call of the handler invokes the second closure. -/
theorem answer_expected_run : ∃ state manager,
    (∃ past, LivelyRuns Manager.checkedApp twoProxies Equiv.boolProdNatEquivNat.symm
      Manager.restartsOutside (state, manager) past) ∧
    stageOf state (false, 0) = some .checking ∧
    ((checks Manager.checkedApp twoProxies Equiv.boolProdNatEquivNat.symm).machine
      (state, manager) (.inr .call)).isSome := by
  obtain ⟨⟨state, manager⟩, reached, checked⟩ := Machine.exists_reaches
    (checks Manager.checkedApp twoProxies Equiv.boolProdNatEquivNat.symm).machine
    (Service.sides lively Manager.restartsOutside) (fun _ => none, .initial (Fin 1)) checkedTwice
    checkedTwiceEvents
    (fun pair => decide (((Manager.step Manager.checkedApp pair.2 .call).bind fun effect =>
        Manager.answeredCaller effect.2) = some ((0, 0), 0))) (by decide)
  simp only [decide_eq_true_eq] at checked
  obtain ⟨⟨later, out⟩, moved, answered⟩ := Option.bind_eq_some_iff.mp checked
  have allowed : Manager.restartsOutside manager .call := by
    unfold Manager.restartsOutside
    trivial
  obtain ⟨-, checking, proxy, -, -, taken⟩ := answer_expected Manager.acyclic_checkedApp reached
    allowed moved answered
  exact ⟨state, manager, ⟨_, reached⟩, checking, by rw [taken]; rfl⟩

end Nexer.System
