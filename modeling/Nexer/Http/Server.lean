import Nexer.Http.InFlight
import Mathlib.Logic.Function.Basic

/-!
# The HTTP server and its connections

A `Request` keeps a reference to the server that made it.  When it is complete, the
server is asked for the function of `OnRequest`, whether or not it still exists.
-/

namespace Nexer.Http

open Nexer.Transition

/-- The server as a `Handle`, and what it has accepted. -/
structure ServerState (parser : Parser) where
  server : TcpClient.Phase := .opened
  count : Nat := 0
  connections : Nat → State parser := fun _ => .initial parser

inductive ServerEvent where
  | accepted (connection : Nat)
  | connection (index : Nat) (event : Event)
  /-- `server()` is used after the server was deleted. -/
  | deadServer (connection : Nat)
  deriving DecidableEq

inductive ServerLabel where
  | accept
  | connection (index : Nat) (label : Label)
  | close
  | closed

variable {parser : Parser}

def ServerState.initial (parser : Parser) : ServerState parser := {}

/-- The label brings the last byte of a request, so that `OnRequestComplete` runs. -/
def completes (state : State parser) : Label → Bool
  | .read bytes => (parser.execute state.entry bytes).2.1.contains .messageComplete
  | .eof | .readError | .written _ | .closed => false

/-- The machine of a server.  Its handle may be closed at any time, also by the function
of `OnRequest`; the connections have handles of their own. -/
def serverStep (parser : Parser) (statusName : Nat → Bytes) (handler : Option Handler) :
    Machine (ServerState parser) ServerLabel ServerEvent
  | state, .accept =>
      if state.server = .opened then
        some ({ state with count := state.count + 1 }, [.accepted state.count])
      else none
  | state, .connection index label =>
      if index < state.count then
        match step parser statusName handler (state.connections index) label with
        | none => none
        | some (connection, out) =>
            some ({ state with connections := Function.update state.connections index connection },
              if state.server = .destroyed ∧ completes (state.connections index) label then
                [.deadServer index]
              else out.map (.connection index))
      else none
  | state, .close =>
      match state.server with
      | .opened => some ({ state with server := .closing }, [])
      | .closing => some (state, [])
      | .destroyed => none
  | state, .closed =>
      if state.server = .closing then some ({ state with server := .destroyed }, []) else none

/-- The server is destroyed after all of its connections. -/
def Deserted (state : ServerState parser) : ServerLabel → Prop
  | .closed => ∀ index < state.count, (state.connections index).client = .destroyed
  | _ => True

instance : ∀ (state : ServerState parser) label, Decidable (Deserted state label)
  | state, .closed =>
      inferInstanceAs
        (Decidable (∀ index < state.count, (state.connections index).client = .destroyed))
  | _, .accept | _, .connection _ _ | _, .close => .isTrue trivial

variable {statusName : Nat → Bytes} {handler : Option Handler}
variable {state : ServerState parser} {past : List ServerEvent}

/-- A connection that has been deleted runs nothing. -/
theorem step_destroyed {connection : State parser} (destroyed : connection.client = .destroyed)
    (label : Label) : step parser statusName handler connection label = none := by
  cases label <;> simp only [step, destroyed]
  case written => split <;> simp
  all_goals simp

/-- The connections of a destroyed server have been deleted, so that none asks for it. -/
theorem server_alive
    (reached : Machine.Reaches (serverStep parser statusName handler) Deserted
      (.initial parser) state past) :
    (state.server = .destroyed →
        ∀ index < state.count, (state.connections index).client = .destroyed) ∧
      ∀ index, .deadServer index ∉ past := by
  refine reached.invariant
    (fun state past => (state.server = .destroyed →
      ∀ index < state.count, (state.connections index).client = .destroyed) ∧
        ∀ index, .deadServer index ∉ past)
    ⟨nofun, by simp⟩ ?_
  rintro state following past out label - ⟨deserted, sound⟩ allowed moved
  cases label with
  | accept =>
      simp only [serverStep] at moved
      split at moved
      · next opened =>
        obtain ⟨rfl, rfl⟩ := Prod.mk.inj (Option.some.inj moved)
        exact ⟨fun destroyed => (nomatch opened.symm.trans destroyed), by simpa using sound⟩
      · cases moved
  | connection index label =>
      simp only [serverStep] at moved
      split at moved
      · next created =>
        split at moved
        · cases moved
        · next connection events ran =>
          obtain ⟨rfl, rfl⟩ := Prod.mk.inj (Option.some.inj moved)
          have exists_ : state.server ≠ .destroyed := by
            intro destroyed
            rw [step_destroyed (deserted destroyed index created)] at ran
            cases ran
          exact ⟨fun destroyed => absurd destroyed exists_, by simpa [exists_] using sound⟩
      · cases moved
  | close =>
      simp only [serverStep] at moved
      split at moved
      · obtain ⟨rfl, rfl⟩ := Prod.mk.inj (Option.some.inj moved)
        exact ⟨nofun, by simpa using sound⟩
      · obtain ⟨rfl, rfl⟩ := Prod.mk.inj (Option.some.inj moved)
        exact ⟨deserted, by simpa using sound⟩
      · cases moved
  | closed =>
      simp only [serverStep] at moved
      split at moved
      · obtain ⟨rfl, rfl⟩ := Prod.mk.inj (Option.some.inj moved)
        exact ⟨fun _ => allowed, by simpa using sound⟩
      · cases moved

end Nexer.Http
