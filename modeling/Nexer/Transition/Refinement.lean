import Nexer.Transition.Annotation
import Nexer.Transition.Instances
import Nexer.Transition.Service

/-!
# Machines with more in them

A machine refines another one when its states, labels and reports can be projected so that
each step becomes a step of the other machine, or nothing.  Runs are projected then.  Objects
refine their kind one by one, and a service refines another one with its two machines.
-/

namespace Nexer.Transition

namespace Machine

variable {Fine FineLabel FineEvent Coarse CoarseLabel CoarseEvent : Type}

/-- A step that takes the label, or nothing where there is none. -/
inductive Follows (coarse : Machine Coarse CoarseLabel CoarseEvent) (before : Coarse) :
    Option CoarseLabel → Coarse → List CoarseEvent → Prop where
  | rests : Follows coarse before none before []
  | moves (label : CoarseLabel) (after : Coarse) (events : List CoarseEvent)
      (moved : coarse before label = some (after, events)) :
      Follows coarse before (some label) after events

/-- The projection of a machine to another one. -/
structure Refinement (fine : Machine Fine FineLabel FineEvent)
    (coarse : Machine Coarse CoarseLabel CoarseEvent) (project : Fine → Coarse)
    (translate : Fine → FineLabel → Option CoarseLabel) (about : FineEvent → List CoarseEvent) :
    Prop where
  step : ∀ {state following label out}, fine state label = some (following, out) →
    Follows coarse (project state) (translate state label) (project following) (out.flatMap about)

variable {fine : Machine Fine FineLabel FineEvent}
variable {coarse : Machine Coarse CoarseLabel CoarseEvent} {project : Fine → Coarse}
variable {translate : Fine → FineLabel → Option CoarseLabel}
variable {about : FineEvent → List CoarseEvent}

theorem Follows.moved {before after : Coarse} {label : CoarseLabel} {events : List CoarseEvent}
    (follows : Follows coarse before (some label) after events) :
    coarse before label = some (after, events) := by
  cases follows with
  | moves _ _ _ moved => exact moved

theorem Follows.cases {before after : Coarse} {label : Option CoarseLabel}
    {events : List CoarseEvent} (follows : Follows coarse before label after events) :
    label = none ∧ after = before ∧ events = [] ∨
      ∃ other, label = some other ∧ coarse before other = some (after, events) := by
  cases follows with
  | rests => exact .inl ⟨rfl, rfl, rfl⟩
  | moves label _ _ moved => exact .inr ⟨label, rfl, moved⟩

/-- A step that takes an allowed label. -/
theorem Follows.allowed {guard : Coarse → CoarseLabel → Prop} {before after : Coarse}
    {label : Option CoarseLabel} {events : List CoarseEvent}
    (follows : Follows coarse before label after events)
    (implies : ∀ other, label = some other → guard before other) :
    Moves coarse guard before after events := by
  cases follows with
  | rests => exact .rests
  | moves label _ _ moved => exact .moves label _ _ (implies label rfl) moved

/-- The guard of the projected runs is implied step by step. -/
theorem Refinement.reaches (refinement : Refinement fine coarse project translate about)
    {guard : Fine → FineLabel → Prop} {coarseGuard : Coarse → CoarseLabel → Prop}
    (implies : ∀ {state label other}, guard state label → translate state label = some other →
      coarseGuard (project state) other)
    {initial state : Fine} {past : List FineEvent} (reached : Reaches fine guard initial state past) :
    Reaches coarse coarseGuard (project initial) (project state) (past.flatMap about) := by
  refine reached.part project (List.flatMap about) rfl (fun _ _ => List.flatMap_append) ?_
  intro state following past out label _ allowed moved
  exact (refinement.step moved).allowed fun other named => implies allowed named

/-- A machine that is left as it is. -/
theorem refinement_refl (machine : Machine Coarse CoarseLabel CoarseEvent) :
    Refinement machine machine id (fun _ label => some label) fun event => [event] where
  step := by
    intro state following label out moved
    rw [List.flatMap_singleton']
    exact .moves label following out moved

section Instances

variable {Index State Label Event Note : Type} [DecidableEq Index]

/-- What an object reports itself. -/
def aboutOne (entry : Index × (Event ⊕ Note)) : List (Index × Event) :=
  (reported [entry.2]).map (Prod.mk entry.1)

omit [DecidableEq Index] in
@[simp] theorem aboutOne_map (index : Index) (events : List (Event ⊕ Note)) :
    (events.map (Prod.mk index)).flatMap aboutOne = (reported events).map (Prod.mk index) := by
  induction events with
  | nil => rfl
  | cons event rest ih =>
      rw [List.map_cons, List.flatMap_cons, ih, ← List.singleton_append, reported_append,
        List.map_append]
      rfl

/-- Objects that report more refine their kind. -/
theorem refinement_annotating (machine : Index → Machine State Label Event)
    (annotate : State → Label → List Event → List Note) (created : State) :
    Refinement (instances (fun index => (machine index).annotating annotate) created)
      (instances machine created) id (fun _ label => some label) aboutOne where
  step := by
    intro state following label out moved
    cases steps_of_instances moved with
    | create index absent =>
        refine .moves (index, none) _ _ ?_
        simp [instances, absent]
    | move index label object next events there stepped =>
        obtain ⟨own, ran, rfl⟩ := annotating_eq_some.mp stepped
        rw [aboutOne_map, reported_annotated]
        exact .moves (index, some label) _ _ (instances_of_move there ran)

end Instances

end Machine

namespace Service

section Machines

variable {Client ClientLabel ClientEvent Server ServerLabel ServerEvent Tag Answer : Type}
variable {service : Service Client ClientLabel ClientEvent Server ServerLabel ServerEvent Tag Answer}
variable {pair following : Client × Server} {label : ClientLabel ⊕ ServerLabel}
variable {out : List (ClientEvent ⊕ ServerEvent)}

/-- The machine takes the steps that it can take. -/
theorem machine_of_moved (moved : Moved service pair label following out) :
    service.machine pair label = some (following, out) := by
  cases moved with
  | silent _ _ _ _ _ own idle stepped unasked =>
      simp [machine, clientStep, own, idle, stepped, unasked]
  | asks _ _ _ _ _ _ _ _ own idle stepped asked took =>
      simp [machine, clientStep, own, idle, stepped, asked, took]
  | works _ _ _ _ _ inner idle stepped unanswered =>
      simp [machine, serverStep, inner, idle, stepped, unanswered]
  | answers _ _ _ _ _ _ _ _ _ inner idle stepped answered took =>
      exact machine_of_answer inner idle stepped answered took

end Machines

variable {FineClient FineClientLabel FineClientEvent FineServer FineServerLabel FineServerEvent : Type}
variable {Client ClientLabel ClientEvent Server ServerLabel ServerEvent Tag Answer : Type}

/-- A service whose client and whose server refine those of another one. -/
structure Refinement
    (fine : Service FineClient FineClientLabel FineClientEvent
      FineServer FineServerLabel FineServerEvent Tag Answer)
    (coarse : Service Client ClientLabel ClientEvent Server ServerLabel ServerEvent Tag Answer)
    (projectClient : FineClient → Client) (projectServer : FineServer → Server)
    (translateClient : FineClient → FineClientLabel → Option ClientLabel)
    (translateServer : FineServer → FineServerLabel → Option ServerLabel)
    (aboutClient : FineClientEvent → List ClientEvent)
    (aboutServer : FineServerEvent → List ServerEvent) : Prop where
  client : Machine.Refinement fine.client coarse.client projectClient translateClient aboutClient
  server : Machine.Refinement fine.server coarse.server projectServer translateServer aboutServer
  asked : ∀ client events,
    fine.asked client events = coarse.asked (projectClient client) (events.flatMap aboutClient)
  unasked : ∀ client, coarse.asked client [] = none
  ask : ∀ server tag, translateServer server (fine.ask tag) = some (coarse.ask tag)
  answered : ∀ events, fine.answered events = coarse.answered (events.flatMap aboutServer)
  unanswered : coarse.answered [] = none
  answer : ∀ client tag value,
    translateClient client (fine.answer tag value) = some (coarse.answer tag value)
  own : ∀ {client label other}, fine.own label = true →
    translateClient client label = some other → coarse.own other = true
  inner : ∀ {server label other}, fine.inner label = true →
    translateServer server label = some other → coarse.inner other = true
  clientIdle : ∀ {client}, fine.clientIdle client = true →
    coarse.clientIdle (projectClient client) = true
  serverIdle : ∀ {server}, fine.serverIdle server = true →
    coarse.serverIdle (projectServer server) = true

/-- The label of the side that takes it. -/
def translateSide (translateClient : FineClient → FineClientLabel → Option ClientLabel)
    (translateServer : FineServer → FineServerLabel → Option ServerLabel) :
    FineClient × FineServer → FineClientLabel ⊕ FineServerLabel →
      Option (ClientLabel ⊕ ServerLabel)
  | (client, _), .inl label => (translateClient client label).map .inl
  | (_, server), .inr label => (translateServer server label).map .inr

/-- What is reported by one of the sides. -/
def aboutSide (aboutClient : FineClientEvent → List ClientEvent)
    (aboutServer : FineServerEvent → List ServerEvent) :
    FineClientEvent ⊕ FineServerEvent → List (ClientEvent ⊕ ServerEvent)
  | .inl event => (aboutClient event).map .inl
  | .inr event => (aboutServer event).map .inr

section Sides

variable {aboutClient : FineClientEvent → List ClientEvent}
variable {aboutServer : FineServerEvent → List ServerEvent}

@[simp] theorem aboutSide_inl (events : List FineClientEvent) :
    (events.map .inl).flatMap (aboutSide aboutClient aboutServer) =
      (events.flatMap aboutClient).map .inl := by
  rw [List.flatMap_map, List.map_flatMap]
  rfl

@[simp] theorem aboutSide_inr (events : List FineServerEvent) :
    (events.map .inr).flatMap (aboutSide aboutClient aboutServer) =
      (events.flatMap aboutServer).map .inr := by
  rw [List.flatMap_map, List.map_flatMap]
  rfl

@[simp] theorem clientEvents_aboutSide (past : List (FineClientEvent ⊕ FineServerEvent)) :
    clientEvents (past.flatMap (aboutSide aboutClient aboutServer)) =
      (clientEvents past).flatMap aboutClient := by
  induction past with
  | nil => rfl
  | cons event rest ih =>
      rw [List.flatMap_cons, clientEvents_append, ih]
      cases event with
      | inl event => rw [aboutSide, clientEvents_inl]; rfl
      | inr event => rw [aboutSide, clientEvents_inr]; rfl

@[simp] theorem serverEvents_aboutSide (past : List (FineClientEvent ⊕ FineServerEvent)) :
    serverEvents (past.flatMap (aboutSide aboutClient aboutServer)) =
      (serverEvents past).flatMap aboutServer := by
  induction past with
  | nil => rfl
  | cons event rest ih =>
      rw [List.flatMap_cons, serverEvents_append, ih]
      cases event with
      | inl event => rw [aboutSide, serverEvents_inl]; rfl
      | inr event => rw [aboutSide, serverEvents_inr]; rfl

end Sides

variable {fine : Service FineClient FineClientLabel FineClientEvent
  FineServer FineServerLabel FineServerEvent Tag Answer}
variable {coarse : Service Client ClientLabel ClientEvent Server ServerLabel ServerEvent Tag Answer}
variable {projectClient : FineClient → Client} {projectServer : FineServer → Server}
variable {translateClient : FineClient → FineClientLabel → Option ClientLabel}
variable {translateServer : FineServer → FineServerLabel → Option ServerLabel}
variable {aboutClient : FineClientEvent → List ClientEvent}
variable {aboutServer : FineServerEvent → List ServerEvent}

/-- A service refines another one when its client and its server do. -/
theorem Refinement.machine (refinement : Refinement fine coarse projectClient projectServer
      translateClient translateServer aboutClient aboutServer) :
    Machine.Refinement fine.machine coarse.machine (Prod.map projectClient projectServer)
      (translateSide translateClient translateServer) (aboutSide aboutClient aboutServer) where
  step := by
    intro state following label out moved
    cases moved_of_machine moved with
    | silent client next server label events own idle stepped unasked =>
        have follows := refinement.client.step stepped
        rw [refinement.asked] at unasked
        rw [aboutSide_inl]
        simp only [translateSide, Prod.map]
        generalize named : translateClient client label = other at follows
        generalize projectClient next = after, events.flatMap aboutClient = later
          at follows unasked
        cases follows with
        | rests => exact .rests
        | moves other _ _ followed =>
            exact .moves _ _ _ (machine_of_moved (.silent _ _ _ _ _ (refinement.own own named)
              (refinement.serverIdle idle) followed unasked))
    | asks client next server nextServer label tag events taken own idle stepped asked took =>
        have follows := refinement.client.step stepped
        have question := refinement.server.step took
        rw [refinement.asked] at asked
        rw [refinement.ask] at question
        rw [List.flatMap_append, aboutSide_inl, aboutSide_inr]
        simp only [translateSide, Prod.map]
        generalize named : translateClient client label = other at follows
        generalize projectClient next = after, events.flatMap aboutClient = later at follows asked
        cases follows with
        | rests => cases (refinement.unasked _).symm.trans asked
        | moves other _ _ followed =>
            exact .moves _ _ _ (machine_of_moved (.asks _ _ _ _ _ _ _ _ (refinement.own own named)
              (refinement.serverIdle idle) followed asked question.moved))
    | works client server next label events inner idle stepped unanswered =>
        have follows := refinement.server.step stepped
        rw [refinement.answered] at unanswered
        rw [aboutSide_inr]
        simp only [translateSide, Prod.map]
        generalize named : translateServer server label = other at follows
        generalize projectServer next = after, events.flatMap aboutServer = later
          at follows unanswered
        cases follows with
        | rests => exact .rests
        | moves other _ _ followed =>
            exact .moves _ _ _ (machine_of_moved (.works _ _ _ _ _ (refinement.inner inner named)
              (refinement.clientIdle idle) followed unanswered))
    | answers client next server nextServer label tag value events taken inner idle stepped
        answered took =>
        have follows := refinement.server.step stepped
        have answer := refinement.client.step took
        rw [refinement.answered] at answered
        rw [refinement.answer] at answer
        rw [List.flatMap_append, aboutSide_inl, aboutSide_inr]
        simp only [translateSide, Prod.map]
        generalize named : translateServer server label = other at follows
        generalize projectServer nextServer = after, events.flatMap aboutServer = later
          at follows answered
        cases follows with
        | rests => cases refinement.unanswered.symm.trans answered
        | moves other _ _ followed =>
            exact .moves _ _ _ (machine_of_moved (.answers _ _ _ _ _ _ _ _ _
              (refinement.inner inner named) (refinement.clientIdle idle) followed answered
              answer.moved))

end Service

end Nexer.Transition
