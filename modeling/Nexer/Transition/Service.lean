import Nexer.Transition.History
import Nexer.Transition.Machine
import Mathlib.Algebra.Group.Nat.Defs

/-!
# A client of a service

Two machines run beside each other on one thread.  Some steps of the client ask the
service something, under a tag, and some steps of the service answer a tag, which is a
step of the client again.  The composed machine takes a step of one of them together
with the step of the other one that it causes.

Each of the two machines is written for an environment: the client expects answers to
what it has asked, the service expects questions.  What the client waits for and what
the service owes are two accounts of the same thing; they agree in every run.
-/

namespace Nexer.Transition

variable {Client ClientLabel ClientEvent Server ServerLabel ServerEvent Tag Answer : Type}

structure Service (Client ClientLabel ClientEvent Server ServerLabel ServerEvent Tag Answer : Type)
    where
  client : Machine Client ClientLabel ClientEvent
  server : Machine Server ServerLabel ServerEvent
  /-- What a step of the client asks, by its reports and the state that it leads to. -/
  asked : Client → List ClientEvent → Option Tag
  ask : Tag → ServerLabel
  /-- What a step of the service answers. -/
  answered : List ServerEvent → Option (Tag × Answer)
  answer : Tag → Answer → ClientLabel
  /-- The labels of the client that are no answers. -/
  own : ClientLabel → Bool
  /-- The labels of the service that are no questions. -/
  inner : ServerLabel → Bool
  /-- The client is not in the middle of a handler. -/
  clientIdle : Client → Bool
  serverIdle : Server → Bool

namespace Service

variable (service : Service Client ClientLabel ClientEvent Server ServerLabel ServerEvent Tag Answer)

/-- A step of the client, with the question that it asks. -/
def clientStep (label : ClientLabel) (client : Client) (server : Server) :
    Option (Reaction (Client × Server) (ClientEvent ⊕ ServerEvent)) :=
  (service.client client label).bind fun effect =>
    match service.asked effect.1 effect.2 with
    | none => some ((effect.1, server), effect.2.map .inl)
    | some tag => (service.server server (service.ask tag)).map fun taken =>
        ((effect.1, taken.1), effect.2.map .inl ++ taken.2.map .inr)

/-- A step of the service, with the answer that it gives. -/
def serverStep (label : ServerLabel) (client : Client) (server : Server) :
    Option (Reaction (Client × Server) (ClientEvent ⊕ ServerEvent)) :=
  (service.server server label).bind fun effect =>
    match service.answered effect.2 with
    | none => some ((client, effect.1), effect.2.map .inr)
    | some (tag, value) => (service.client client (service.answer tag value)).map fun taken =>
        ((taken.1, effect.1), effect.2.map .inr ++ taken.2.map .inl)

/-- The machine of the client and the service. -/
def machine : Machine (Client × Server) (ClientLabel ⊕ ServerLabel) (ClientEvent ⊕ ServerEvent)
  | (client, server), .inl label =>
      if service.own label && service.serverIdle server then service.clientStep label client server
      else none
  | (client, server), .inr label =>
      if service.inner label && service.clientIdle client then
        service.serverStep label client server
      else none

variable {service}
variable {client nextClient initialClient : Client} {server nextServer initialServer : Server}
variable {state following : Client × Server} {label : ClientLabel ⊕ ServerLabel}
variable {past out : List (ClientEvent ⊕ ServerEvent)}

/-- What a step of the composed machine does. -/
inductive Moved (service :
    Service Client ClientLabel ClientEvent Server ServerLabel ServerEvent Tag Answer) :
    Client × Server → ClientLabel ⊕ ServerLabel → Client × Server →
      List (ClientEvent ⊕ ServerEvent) → Prop where
  | silent (client nextClient : Client) (server : Server) (label : ClientLabel)
      (events : List ClientEvent) (own : service.own label = true)
      (idle : service.serverIdle server = true)
      (stepped : service.client client label = some (nextClient, events))
      (unasked : service.asked nextClient events = none) :
      Moved service (client, server) (.inl label) (nextClient, server) (events.map .inl)
  | asks (client nextClient : Client) (server nextServer : Server) (label : ClientLabel) (tag : Tag)
      (events : List ClientEvent) (taken : List ServerEvent) (own : service.own label = true)
      (idle : service.serverIdle server = true)
      (stepped : service.client client label = some (nextClient, events))
      (asked : service.asked nextClient events = some tag)
      (took : service.server server (service.ask tag) = some (nextServer, taken)) :
      Moved service (client, server) (.inl label) (nextClient, nextServer)
        (events.map .inl ++ taken.map .inr)
  | works (client : Client) (server nextServer : Server) (label : ServerLabel)
      (events : List ServerEvent) (inner : service.inner label = true)
      (idle : service.clientIdle client = true)
      (stepped : service.server server label = some (nextServer, events))
      (unanswered : service.answered events = none) :
      Moved service (client, server) (.inr label) (client, nextServer) (events.map .inr)
  | answers (client nextClient : Client) (server nextServer : Server) (label : ServerLabel)
      (tag : Tag) (value : Answer) (events : List ServerEvent) (taken : List ClientEvent)
      (inner : service.inner label = true) (idle : service.clientIdle client = true)
      (stepped : service.server server label = some (nextServer, events))
      (answered : service.answered events = some (tag, value))
      (took : service.client client (service.answer tag value) = some (nextClient, taken)) :
      Moved service (client, server) (.inr label) (nextClient, nextServer)
        (events.map .inr ++ taken.map .inl)

theorem moved_of_machine (moved : service.machine state label = some (following, out)) :
    Moved service state label following out := by
  obtain ⟨client, server⟩ := state
  cases label with
  | inl label =>
      simp only [machine, Option.ite_none_right_eq_some, Bool.and_eq_true] at moved
      obtain ⟨⟨own, idle⟩, moved⟩ := moved
      obtain ⟨⟨nextClient, events⟩, stepped, moved⟩ := Option.bind_eq_some_iff.mp moved
      dsimp only at moved
      split at moved
      · next unasked =>
        obtain ⟨rfl, rfl⟩ := Prod.mk.inj (Option.some.inj moved)
        exact .silent client nextClient server label events own idle stepped unasked
      · next tag asked =>
        obtain ⟨⟨nextServer, taken⟩, took, same⟩ := Option.map_eq_some_iff.mp moved
        obtain ⟨rfl, rfl⟩ := Prod.mk.inj same
        exact .asks client nextClient server nextServer label tag events taken own idle stepped
          asked took
  | inr label =>
      simp only [machine, Option.ite_none_right_eq_some, Bool.and_eq_true] at moved
      obtain ⟨⟨inner, idle⟩, moved⟩ := moved
      obtain ⟨⟨nextServer, events⟩, stepped, moved⟩ := Option.bind_eq_some_iff.mp moved
      dsimp only at moved
      split at moved
      · next unanswered =>
        obtain ⟨rfl, rfl⟩ := Prod.mk.inj (Option.some.inj moved)
        exact .works client server nextServer label events inner idle stepped unanswered
      · next tag value answered =>
        obtain ⟨⟨nextClient, taken⟩, took, same⟩ := Option.map_eq_some_iff.mp moved
        obtain ⟨rfl, rfl⟩ := Prod.mk.inj same
        exact .answers client nextClient server nextServer label tag value events taken inner idle
          stepped answered took

/-- A step of the service whose answer the client takes. -/
theorem machine_of_answer {label : ServerLabel} {tag : Tag} {value : Answer}
    {events : List ServerEvent} {taken : List ClientEvent}
    (inner : service.inner label = true) (idle : service.clientIdle client = true)
    (stepped : service.server server label = some (nextServer, events))
    (answered : service.answered events = some (tag, value))
    (took : service.client client (service.answer tag value) = some (nextClient, taken)) :
    service.machine (client, server) (.inr label) =
      some ((nextClient, nextServer), events.map .inr ++ taken.map .inl) := by
  simp [machine, serverStep, inner, idle, stepped, answered, took]

/-- What the client has reported, and what the service has. -/
def clientEvents (past : List (ClientEvent ⊕ ServerEvent)) : List ClientEvent :=
  past.filterMap Sum.getLeft?

def serverEvents (past : List (ClientEvent ⊕ ServerEvent)) : List ServerEvent :=
  past.filterMap Sum.getRight?

@[simp] theorem clientEvents_append :
    clientEvents (past ++ out) = clientEvents past ++ clientEvents out :=
  List.filterMap_append

@[simp] theorem serverEvents_append :
    serverEvents (past ++ out) = serverEvents past ++ serverEvents out :=
  List.filterMap_append

@[simp] theorem clientEvents_inl (events : List ClientEvent) :
    clientEvents (events.map (.inl : ClientEvent → ClientEvent ⊕ ServerEvent)) = events := by
  simp [clientEvents, List.filterMap_map, Function.comp_def]

@[simp] theorem clientEvents_inr (events : List ServerEvent) :
    clientEvents (events.map (.inr : ServerEvent → ClientEvent ⊕ ServerEvent)) = [] := by
  simp [clientEvents, List.filterMap_map, Function.comp_def]

@[simp] theorem serverEvents_inl (events : List ClientEvent) :
    serverEvents (events.map (.inl : ClientEvent → ClientEvent ⊕ ServerEvent)) = [] := by
  simp [serverEvents, List.filterMap_map, Function.comp_def]

@[simp] theorem serverEvents_inr (events : List ServerEvent) :
    serverEvents (events.map (.inr : ServerEvent → ClientEvent ⊕ ServerEvent)) = events := by
  simp [serverEvents, List.filterMap_map, Function.comp_def]

theorem mem_clientEvents {event : ClientEvent} : event ∈ clientEvents past ↔ .inl event ∈ past := by
  simp [clientEvents, List.mem_filterMap, Sum.getLeft?_eq_some_iff]

theorem mem_serverEvents {event : ServerEvent} : event ∈ serverEvents past ↔ .inr event ∈ past := by
  simp [serverEvents, List.mem_filterMap, Sum.getRight?_eq_some_iff]

/-- What has happened in the service has happened in the composed run, in this order. -/
theorem since_of_serverEvents {mark : ServerEvent} {Q : ServerEvent → Prop}
    (holds : Since mark Q (serverEvents past)) :
    Since (.inr mark) (fun event => ∃ entry, event = .inr entry ∧ Q entry) past := by
  obtain ⟨before, after, split, entry, member, good⟩ := holds
  obtain ⟨first, rest, rfl, -, tail⟩ := List.filterMap_eq_append_iff.mp split
  obtain ⟨skipped, event, last, rfl, -, found, rfl⟩ := List.filterMap_eq_cons_iff.mp tail
  obtain rfl := Sum.getRight?_eq_some_iff.mp found
  exact ⟨first ++ skipped, last, by simp, .inr entry, mem_serverEvents.mp member, entry, rfl, good⟩

variable {guard : Client × Server → ClientLabel ⊕ ServerLabel → Prop}
variable {clientGuard : Client → ClientLabel → Prop} {serverGuard : Server → ServerLabel → Prop}

/-- A guard on the composed machine that implies guards on the two machines, which leave
answers and questions alone. -/
structure Guarded (service :
      Service Client ClientLabel ClientEvent Server ServerLabel ServerEvent Tag Answer)
    (guard : Client × Server → ClientLabel ⊕ ServerLabel → Prop)
    (clientGuard : Client → ClientLabel → Prop) (serverGuard : Server → ServerLabel → Prop) :
    Prop where
  client : ∀ {client server label}, guard (client, server) (.inl label) → clientGuard client label
  server : ∀ {client server label}, guard (client, server) (.inr label) → serverGuard server label
  answer : ∀ client tag value, clientGuard client (service.answer tag value)
  ask : ∀ server tag, serverGuard server (service.ask tag)

/-- A guard for each of the two machines. -/
def sides (clientGuard : Client → ClientLabel → Prop) (serverGuard : Server → ServerLabel → Prop) :
    Client × Server → ClientLabel ⊕ ServerLabel → Prop
  | (client, _), .inl label => clientGuard client label
  | (_, server), .inr label => serverGuard server label

instance [∀ client label, Decidable (clientGuard client label)]
    [∀ server label, Decidable (serverGuard server label)] :
    ∀ pair label, Decidable (sides clientGuard serverGuard pair label)
  | (client, _), .inl label => inferInstanceAs (Decidable (clientGuard client label))
  | (_, server), .inr label => inferInstanceAs (Decidable (serverGuard server label))

theorem guarded_sides (answer : ∀ client tag value, clientGuard client (service.answer tag value))
    (ask : ∀ server tag, serverGuard server (service.ask tag)) :
    Guarded service (sides clientGuard serverGuard) clientGuard serverGuard where
  client := id
  server := id
  answer := answer
  ask := ask

/-- The client and the service have run their own machines. -/
theorem parts_of_reaches (guarded : Guarded service guard clientGuard serverGuard)
    (reached : Machine.Reaches service.machine guard (initialClient, initialServer) state past) :
    Machine.Reaches service.client clientGuard initialClient state.1 (clientEvents past) ∧
      Machine.Reaches service.server serverGuard initialServer state.2 (serverEvents past) := by
  induction reached with
  | start => exact ⟨.start, .start⟩
  | next _ allowed moved ih =>
      obtain ⟨clientReached, serverReached⟩ := ih
      cases moved_of_machine moved with
      | silent _ _ _ _ _ _ _ stepped =>
          simpa using ⟨clientReached.next (guarded.client allowed) stepped, serverReached⟩
      | asks _ _ _ _ _ _ _ _ _ _ stepped _ took =>
          simpa using ⟨clientReached.next (guarded.client allowed) stepped,
            serverReached.next (guarded.ask _ _) took⟩
      | works _ _ _ _ _ _ _ stepped =>
          simpa using ⟨clientReached, serverReached.next (guarded.server allowed) stepped⟩
      | answers _ _ _ _ _ _ _ _ _ _ _ stepped _ took =>
          simpa using ⟨clientReached.next (guarded.answer _ _ _) took,
            serverReached.next (guarded.server allowed) stepped⟩

/-- The accounts of both sides are kept: the client waits for a tag from when it asks until
it is answered, and the service owes it from when it is asked until it answers. -/
structure Kept [DecidableEq Tag] (service :
      Service Client ClientLabel ClientEvent Server ServerLabel ServerEvent Tag Answer)
    (clientGuard : Client → ClientLabel → Prop) (serverGuard : Server → ServerLabel → Prop)
    (initialClient : Client) (initialServer : Server)
    (waits : Client → Tag → Bool) (owes : Server → Tag → Nat) : Prop where
  initial : ∀ tag, owes initialServer tag = (waits initialClient tag).toNat
  silent : ∀ {client past label next events},
    Machine.Reaches service.client clientGuard initialClient client past →
    clientGuard client label → service.own label = true →
    service.client client label = some (next, events) → service.asked next events = none →
    ∀ tag, waits next tag = waits client tag
  asks : ∀ {client past label next events tag},
    Machine.Reaches service.client clientGuard initialClient client past →
    clientGuard client label → service.own label = true →
    service.client client label = some (next, events) → service.asked next events = some tag →
    waits client tag = false ∧ ∀ other, waits next other = (waits client other || other = tag)
  told : ∀ {client past next events tag value},
    Machine.Reaches service.client clientGuard initialClient client past →
    waits client tag = true → service.client client (service.answer tag value) = some (next, events) →
    service.asked next events = none ∧
      ∀ other, waits next other = (waits client other && other ≠ tag)
  question : ∀ {server past next events tag},
    Machine.Reaches service.server serverGuard initialServer server past →
    service.server server (service.ask tag) = some (next, events) →
    service.answered events = none ∧
      ∀ other, owes next other = owes server other + if other = tag then 1 else 0
  works : ∀ {server past label next events},
    Machine.Reaches service.server serverGuard initialServer server past →
    serverGuard server label → service.inner label = true →
    service.server server label = some (next, events) → service.answered events = none →
    ∀ tag, owes next tag = owes server tag
  answers : ∀ {server past label next events tag value},
    Machine.Reaches service.server serverGuard initialServer server past →
    serverGuard server label → service.inner label = true →
    service.server server label = some (next, events) →
    service.answered events = some (tag, value) →
    ∀ other, owes server other = owes next other + if other = tag then 1 else 0

theorem eq_true_of_owed {waits : Bool} {rest : Nat} (owed : rest + 1 = waits.toNat) :
    waits = true := by
  cases waits with
  | true => rfl
  | false => exact absurd owed (Nat.succ_ne_zero rest)

section Accounts

variable [DecidableEq Tag] {waits : Client → Tag → Bool} {owes : Server → Tag → Nat}
variable (guarded : Guarded service guard clientGuard serverGuard)
variable (kept : Kept service clientGuard serverGuard initialClient initialServer waits owes)

include guarded kept

/-- What the client waits for is owed once, and nothing else is owed. -/
theorem accounts_of_reaches
    (reached : Machine.Reaches service.machine guard (initialClient, initialServer) state past)
    (tag : Tag) : owes state.2 tag = (waits state.1 tag).toNat := by
  induction reached generalizing tag with
  | start => exact kept.initial tag
  | next reached allowed moved ih =>
      obtain ⟨clientReached, serverReached⟩ := parts_of_reaches guarded reached
      cases moved_of_machine moved with
      | silent _ _ _ _ _ own _ stepped unasked =>
          rw [kept.silent clientReached (guarded.client allowed) own stepped unasked tag]
          exact ih tag
      | asks _ _ _ _ _ asked _ _ own _ stepped asks took =>
          obtain ⟨unwaited, waiting⟩ :=
            kept.asks clientReached (guarded.client allowed) own stepped asks
          rw [(kept.question serverReached took).2 tag, waiting tag, ih tag]
          by_cases same : tag = asked
          · subst same
            simp [unwaited]
          · simp [same]
      | works _ _ _ _ _ inner _ stepped unanswered =>
          rw [kept.works serverReached (guarded.server allowed) inner stepped unanswered tag]
          exact ih tag
      | answers _ _ _ _ _ answered _ _ _ inner _ stepped answers took =>
          have less := kept.answers serverReached (guarded.server allowed) inner stepped answers
          have waited := ih answered
          rw [less answered, if_pos rfl] at waited
          have waiting := eq_true_of_owed waited
          rw [(kept.told clientReached waiting took).2 tag]
          have before := ih tag
          rw [less tag] at before
          by_cases same : tag = answered
          · subst same
            simpa [waiting] using before
          · simpa [same] using before

/-- An answer is given to a client that waits for it. -/
theorem waits_of_answered
    (reached : Machine.Reaches service.machine guard (initialClient, initialServer)
      (client, server) past) {label : ServerLabel} {events : List ServerEvent} {tag : Tag}
    {value : Answer} (allowed : guard (client, server) (.inr label))
    (inner : service.inner label = true)
    (stepped : service.server server label = some (nextServer, events))
    (answered : service.answered events = some (tag, value)) : waits client tag = true := by
  have owed := accounts_of_reaches guarded kept reached tag
  rw [kept.answers (parts_of_reaches guarded reached).2 (guarded.server allowed) inner stepped
    answered tag, if_pos rfl] at owed
  exact eq_true_of_owed owed

end Accounts

end Service

end Nexer.Transition
