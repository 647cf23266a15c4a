import Nexer.System.Answers
import Nexer.TcpClient.Answering

/-!
# The proxies, the process manager and the connects

For every connection whose upstream is there the proxy calls `TcpClient::Connect`, whose
timer and attempts are objects of their own.  They answer the proxy once, between two
handlers of the loop.  Together with the process manager this is all that the program
runs after `Start`.
-/

namespace Nexer.System

open Nexer.Transition

variable {α Index : Type} [DecidableEq α] [DecidableEq Index]

/-- The calls of `Connect`, by the connection that they were made for. -/
abbrev Connecting (Index : Type) := Key Index → Option TcpClient.Retry.State

abbrev ConnectLabel (Index : Type) := Key Index × Option TcpClient.Retry.Label

abbrev ConnectEvent (Index : Type) := Key Index × TcpClient.Retry.Event

/-- The calls of `Connect`, with the `connect_timeout` of each upstream. -/
def connecting (timeout : Index → Nat) :
    Machine (Connecting Index) (ConnectLabel Index) (ConnectEvent Index) :=
  Machine.instances (fun key => TcpClient.Retry.step (timeout key.1)) .initial

/-- The connection that is accepted, or whose closure is invoked. -/
def concerned (closures : Nat ≃ Key Index) : Happening α Index → Option (Key Index)
  | .inl (index, .accepted connection _) => some (index, connection)
  | .inr (.answered _ ⟨_, .caller caller⟩ _ _) => some (closures caller)
  | _ => none

/-- The connection that a step hands on to `Connect`. -/
def connectOf (closures : Nat ≃ Key Index) (state : Proxies Index) (out : List (Happening α Index)) :
    Option (Key Index) :=
  (out.findSome? (concerned closures)).filter fun key => stageOf state key = some .connecting

/-- The client that a call of `Connect` delivers, and to which connection. -/
def delivered (out : List (ConnectEvent Index)) : Option (Key Index × Bool) :=
  out.findSome? fun
    | (key, .answered client) => some (key, client.isSome)
    | _ => none

variable (config : α → Manager.AppConfig α) (upstream : Index → Option α)
variable (closures : Nat ≃ Key Index) (timeout : Index → Nat)

/-- The program: the proxies with their manager, as the callers of `Connect`. -/
def program :
    Service (Proxies Index × Manager.State α) (ProxyLabel Index ⊕ Manager.Label α)
      (Happening α Index) (Connecting Index) (ConnectLabel Index) (ConnectEvent Index)
      (Key Index) Bool where
  client := (checks config upstream closures).machine
  server := connecting timeout
  asked pair out := connectOf closures pair.1 out
  ask key := (key, none)
  answered := delivered
  answer key success := .inl (key.1, some (.connected key.2 success))
  own
    | .inl (_, some (.connected _ _)) => false
    | _ => true
  inner
    | (_, none) => false
    | _ => true
  clientIdle pair := pair.2.todo.isEmpty
  serverIdle _ := true

variable {config upstream closures timeout}
variable {pair following : Proxies Index × Manager.State α} {connects later : Connecting Index}
variable {label : ProxyLabel Index ⊕ Manager.Label α} {out : List (Happening α Index)}
variable {past : List (Happening α Index ⊕ ConnectEvent Index)} {key other : Key Index}

omit [DecidableEq α] [DecidableEq Index] in
theorem connectOf_eq_some {state : Proxies Index} :
    connectOf closures state out = some key ↔
      out.findSome? (concerned closures) = some key ∧ stageOf state key = some .connecting := by
  simp [connectOf, Option.filter_eq_some_iff]

omit [DecidableEq α] [DecidableEq Index] in
theorem concerned_inl (events : List (ProxyEvent Index)) :
    (events.map (.inl : _ → Happening α Index)).findSome? (concerned closures) =
      acceptedKey events := by
  induction events with
  | nil => rfl
  | cons event rest ih =>
      obtain ⟨index, event⟩ := event
      cases event with
      | accepted => rfl
      | _ => exact ih

omit [DecidableEq α] [DecidableEq Index] in
theorem concerned_inr (events : List (Manager.Event α)) :
    (events.map (.inr : _ → Happening α Index)).findSome? (concerned closures) =
      (Manager.answeredCaller events).map fun answer => closures answer.1.2 := by
  induction events with
  | nil => rfl
  | cons event rest ih =>
      cases event with
      | answered app waiter process error =>
          obtain ⟨ticket, callback⟩ := waiter
          cases callback with
          | caller => rfl
          | preamble => exact ih
      | _ => exact ih

/-- How the stage of one connection changes while its `Connect` gives no answer, and
whether it is handed on. -/
inductive Passage (handed : Prop) : Option Proxy.Stage → Option Proxy.Stage → Prop where
  | stays (stage : Option Proxy.Stage) (kept : ¬ handed) : Passage handed stage stage
  | checks (kept : ¬ handed) : Passage handed none (some .checking)
  | fails (kept : ¬ handed) : Passage handed (some .checking) (some .failed)
  | connects (stage : Option Proxy.Stage) (early : stage = none ∨ stage = some .checking)
      (given : handed) : Passage handed stage (some .connecting)

omit [DecidableEq α] in
/-- A step of the proxies that is no answer to a connect concerns the connection that it
accepts, or the one whose closure it runs. -/
theorem Advance.passage {stages after : Key Index → Option Proxy.Stage} {input : ProxyLabel Index}
    {accepted concerns : Option (Key Index)} (advance : Advance upstream stages input after accepted)
    (cause : input.2.any Proxy.Label.isAnswer = false ∧ concerns = accepted ∨
      ∃ told error, input = (told.1, some (.checked told.2 error)) ∧ concerns = some told)
    (key : Key Index) :
    Passage (concerns = some key ∧ after key = some .connecting) (stages key) (after key) := by
  cases advance with
  | accept other address unused =>
      obtain ⟨-, rfl⟩ | ⟨told, error, named, -⟩ := cause
      · by_cases same : key = other
        · subst same
          rw [Function.update_self, unused]
          cases (upstream key.1).isSome with
          | true => exact .checks (by simp)
          | false => exact .connects none (.inl rfl) ⟨rfl, rfl⟩
        · rw [Function.update_of_ne same]
          exact .stays _ (by simp [Ne.symm same])
      · simp at named
  | checked other error stage waiting result =>
      obtain ⟨own, -⟩ | ⟨told, code, named, rfl⟩ := cause
      · cases own
      obtain rfl : other = told := by
        simp only [Prod.mk.injEq, Option.some.injEq, Proxy.Label.checked.injEq] at named
        exact Prod.ext named.1 named.2.1
      by_cases same : key = other
      · subst same
        rw [Function.update_self, waiting]
        rcases result with ⟨rfl, -⟩ | rfl
        · exact .connects _ (.inr rfl) ⟨rfl, rfl⟩
        · exact .fails (by simp)
      · rw [Function.update_of_ne same]
        exact .stays _ (by simp [Ne.symm same])
  | connected other success waiting =>
      obtain ⟨own, -⟩ | ⟨told, code, named, -⟩ := cause
      · cases own
      · simp at named
  | quiet _ own =>
      obtain ⟨-, rfl⟩ | ⟨told, code, rfl, -⟩ := cause
      · exact .stays _ (by simp)
      · cases own

/-- How a step of the proxies and the manager changes the stage of a connection, when it
is no answer to a connect. -/
theorem passage_of_step
    (moved : (checks config upstream closures).machine pair label = some (following, out))
    (own : (program config upstream closures timeout).own label = true) (key : Key Index) :
    Passage (connectOf closures following.1 out = some key) (stageOf pair.1 key)
      (stageOf following.1 key) := by
  rw [connectOf_eq_some]
  have unanswered {input : ProxyLabel Index} (outside : (checks config upstream closures).own input)
      (own : (program config upstream closures timeout).own (.inl input) = true) :
      input.2.any Proxy.Label.isAnswer = false := by
    obtain ⟨index, _ | input⟩ := input
    · rfl
    · cases input with
      | checked => cases outside
      | connected => cases own
      | _ => rfl
  cases Service.moved_of_machine moved with
  | silent state next manager label events outside _ stepped =>
      rw [concerned_inl]
      exact (advance_of_step stepped).passage (.inl ⟨unanswered outside own, rfl⟩) key
  | asks state next manager later label check events taken outside _ stepped _ took =>
      have required : Manager.step config manager (.require check.1 (closures.symm check.2)) =
        some (later, taken) := took
      rw [Manager.out_of_require required, List.map_nil, List.append_nil, concerned_inl]
      exact (advance_of_step stepped).passage (.inl ⟨unanswered outside own, rfl⟩) key
  | works state manager later label events _ _ _ silent =>
      have none : Manager.answeredCaller events = none := Option.map_eq_none_iff.mp silent
      exact .stays _ (by simp [concerned_inr, none])
  | answers state next manager later label check error events taken _ _ _ answered took =>
      obtain ⟨answer, found, same⟩ := Option.map_eq_some_iff.mp answered
      obtain ⟨rfl, rfl⟩ := Prod.mk.inj same
      rw [List.findSome?_append, concerned_inr, found]
      exact (advance_of_step took).passage (.inr ⟨closures answer.1.2, answer.2, rfl, rfl⟩) key

omit [DecidableEq α] in
theorem stageOf_of_connected {state next : Proxies Index} {events : List (ProxyEvent Index)}
    {success : Bool} (stepped : proxies upstream state (key.1, some (.connected key.2 success)) =
      some (next, events)) :
    acceptedKey events = none ∧ stageOf state key = some .connecting ∧
      stageOf next =
        Function.update (stageOf state) key (some (if success then .connected else .failed)) := by
  have advance := advance_of_step stepped
  generalize stageOf next = after at advance ⊢
  generalize acceptedKey events = keys at advance ⊢
  generalize named : (key.1, some (Proxy.Label.connected key.2 success)) = label at advance
  cases advance with
  | accept | checked => simp at named
  | quiet _ own =>
      subst named
      cases own
  | connected told result waiting =>
      simp only [Prod.mk.injEq, Option.some.injEq, Proxy.Label.connected.injEq] at named
      obtain rfl : key = told := Prod.ext named.1 named.2.1
      obtain rfl := named.2.2
      exact ⟨rfl, waiting, rfl⟩

/-- The answer to a connect settles one connection and begins no other connect. -/
theorem settles_of_connected {success : Bool}
    (moved : (checks config upstream closures).machine pair
      (.inl (key.1, some (.connected key.2 success))) = some (following, out)) :
    connectOf closures following.1 out = none ∧ stageOf pair.1 key = some .connecting ∧
      stageOf following.1 =
        Function.update (stageOf pair.1) key (some (if success then .connected else .failed)) := by
  cases Service.moved_of_machine moved with
  | silent state next manager _ events _ _ stepped =>
      obtain ⟨unaccepted, stages⟩ := stageOf_of_connected stepped
      exact ⟨by simp [connectOf, concerned_inl, unaccepted], stages⟩
  | asks state next manager later _ check events taken _ _ stepped asked =>
      have begun : askedBy upstream events = some check := asked
      simp [askedBy, (stageOf_of_connected stepped).1] at begun

/-- The connection waits for its connect. -/
def waitsConnect (pair : Proxies Index × Manager.State α) (key : Key Index) : Bool :=
  stageOf pair.1 key = some .connecting

/-- The number of answers that a call of `Connect` still has to give. -/
def owesConnect (connects : Connecting Index) (key : Key Index) : Nat :=
  if (connects key).any (·.timer = .opened) then 1 else 0

omit [DecidableEq Index] in
theorem delivered_map (key : Key Index) (events : List TcpClient.Retry.Event) :
    delivered (events.map (Prod.mk key)) =
      (TcpClient.Retry.answersIn events).head?.map fun client => (key, client.isSome) := by
  induction events with
  | nil => rfl
  | cons event rest ih =>
      cases event with
      | answered => rfl
      | _ => exact ih

/-- A step of one of the connects, and the answer that it gives. -/
theorem answers_of_moved {guard : Connecting Index → ConnectLabel Index → Prop}
    {history events : List (ConnectEvent Index)} {input : TcpClient.Retry.Label}
    (reached : Machine.Reaches (connecting timeout) guard (fun _ => none) connects history)
    (moved : connecting timeout connects (key, some input) = some (later, events)) :
    ∃ retry next, connects key = some retry ∧ later = Function.update connects key (some next) ∧
      (∀ other, other ≠ key → Machine.eventsOf other events = []) ∧
      (delivered events = none ∧ TcpClient.Retry.answersIn (Machine.eventsOf key events) = [] ∧
          (next.timer = .opened ↔ retry.timer = .opened) ∨
        ∃ client, delivered events = some (key, client.isSome) ∧
          TcpClient.Retry.answersIn (Machine.eventsOf key events) = [client] ∧
          retry.timer = .opened ∧ next.timer ≠ .opened) := by
  have steps := Machine.steps_of_instances moved
  cases steps with
  | move _ _ retry next events there stepped =>
      have alone : Machine.Reaches (TcpClient.Retry.step (timeout key.1)) Machine.always .initial
          retry (Machine.eventsOf key history) :=
        (Machine.instance_of_reaches (fun _ _ => trivial) reached).1 retry there
      refine ⟨retry, next, there, rfl,
        fun other apart => Machine.eventsOf_map_ne events (Ne.symm apart), ?_⟩
      rw [delivered_map, Machine.eventsOf_map]
      rcases TcpClient.Retry.answersIn_of_step alone stepped with ⟨silent, kept⟩ |
        ⟨client, single, opened, closed⟩
      · exact .inl ⟨by simp [silent], silent, kept⟩
      · exact .inr ⟨client, by simp [single], single, opened, closed⟩

/-- A step of the connects that creates none. -/
theorem owesConnect_of_step {guard : Connecting Index → ConnectLabel Index → Prop}
    {history events : List (ConnectEvent Index)} {input : TcpClient.Retry.Label}
    (reached : Machine.Reaches (connecting timeout) guard (fun _ => none) connects history)
    (moved : connecting timeout connects (key, some input) = some (later, events)) :
    (delivered events = none ∧ ∀ other, owesConnect later other = owesConnect connects other) ∨
      ∃ success, delivered events = some (key, success) ∧
        ∀ other, owesConnect connects other =
          owesConnect later other + if other = key then 1 else 0 := by
  obtain ⟨retry, next, there, rfl, -, ⟨silent, -, kept⟩ | ⟨client, answered, -, opened, closed⟩⟩ :=
    answers_of_moved reached moved
  · refine .inl ⟨silent, fun other => ?_⟩
    by_cases same : other = key
    · subst same
      simp [owesConnect, there, kept]
    · simp [owesConnect, same]
  · refine .inr ⟨client.isSome, answered, fun other => ?_⟩
    by_cases same : other = key
    · subst same
      simp [owesConnect, there, opened, closed]
    · simp [owesConnect, same]

/-- Neither side of the accounts of the connects is touched but by calls and answers. -/
theorem program_kept
    (allowed : Proxies Index × Manager.State α → ProxyLabel Index ⊕ Manager.Label α → Prop) :
    Service.Kept (program config upstream closures timeout) allowed Machine.always
      (fun _ => none, .initial α) (fun _ => none) waitsConnect owesConnect where
  initial := fun key => by simp [waitsConnect, stageOf, owesConnect]
  silent := by
    intro pair past label next events _ _ own stepped unasked key
    have nothing : connectOf closures next.1 events = none := unasked
    have passage := passage_of_step stepped own key
    rw [nothing] at passage
    unfold waitsConnect
    generalize stageOf pair.1 key = before, stageOf next.1 key = after at passage
    cases passage with
    | connects _ _ given => cases given
    | _ => rfl
  asks := by
    intro pair past label next events key _ _ own stepped asks
    have asked : connectOf closures next.1 events = some key := asks
    have passage (other : Key Index) := passage_of_step stepped own other
    simp only [asked, Option.some.injEq] at passage
    unfold waitsConnect
    generalize stageOf pair.1 = before, stageOf next.1 = after at passage
    refine ⟨?_, fun other => ?_⟩
    · have own := passage key
      generalize before key = first, after key = last at own
      cases own with
      | connects _ early => rcases early with rfl | rfl <;> rfl
      | stays _ kept | checks kept | fails kept => exact absurd rfl kept
    · have single := passage other
      generalize before other = first, after other = last at single
      cases single with
      | connects _ early given => simp [given]
      | stays _ kept | checks kept | fails kept => simp [Ne.symm kept]
  told := by
    intro pair past next events key success _ _ stepped
    obtain ⟨unasked, -, stages⟩ := settles_of_connected stepped
    refine ⟨unasked, fun other => ?_⟩
    unfold waitsConnect
    rw [stages]
    by_cases same : other = key
    · subst same
      cases success <;> simp
    · simp [same]
  question := by
    intro connects past next events key _ stepped
    have moved : connecting timeout connects (key, none) = some (next, events) := stepped
    cases Machine.steps_of_instances moved with
    | create _ absent =>
        refine ⟨rfl, fun other => ?_⟩
        by_cases same : other = key
        · subst same
          simp [owesConnect, absent, TcpClient.Retry.State.initial]
        · simp [owesConnect, same]
  works := by
    intro connects past label next events reached _ inner stepped unanswered key
    obtain ⟨index, _ | label⟩ := label
    · cases inner
    rcases owesConnect_of_step reached stepped with ⟨-, kept⟩ | ⟨success, answered, -⟩
    · exact kept key
    · cases unanswered.symm.trans answered
  answers := by
    intro connects past label next events key success reached _ inner stepped answered other
    obtain ⟨index, _ | label⟩ := label
    · cases inner
    rcases owesConnect_of_step reached stepped with ⟨silent, -⟩ | ⟨result, found, kept⟩
    · cases silent.symm.trans answered
    · obtain ⟨rfl, rfl⟩ := Prod.mk.inj (Option.some.inj (found.symm.trans answered))
      exact kept other

end Nexer.System
