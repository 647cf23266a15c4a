import Nexer.Config.Startable
import Nexer.Servers.Life

/-!
# Dummies that were configured

`StartDummyServer` asserts that a dummy is no HTTP server.  No document that `main` reads
makes the assertion fail.
-/

namespace Nexer.Servers

open Nexer.Transition

variable {π κ σ : Type}

/-- What `main` does with a document: without a configuration it returns at once. -/
def program (dump : Config.Json → String) (store : Config.Store π κ σ) (state : σ)
    (document : Config.Json) : Option (Machine State Label Event) :=
  let parsed := Config.parse dump store document { store := state }
  if parsed.ok then some (step parsed.target) else none

theorem asserted_of_standing {config : Config π σ} {state : State} {past : List Event}
    (standing : Standing config state past) (asserted : .asserted ∈ past) :
    ∃ dummy ∈ config.dummies, dummy.type = .http := by
  have late {before last : List Event} (setup : ∀ event ∈ before, event.isSetup)
      (member : .asserted ∈ before ++ last) : .asserted ∈ last := by
    refine (List.mem_append.mp member).resolve_left fun early => ?_
    cases setup _ early
  have exited {last : State} {before : List Event}
      (ended : Finished config last before ∨ Failed last before) : .asserted ∉ before := by
    intro member
    rcases ended with finished | failed
    · obtain ⟨earlier, rfl, early⟩ := finished.reports
      rcases List.mem_append.mp member with inside | last
      · cases early _ inside
      · cases List.mem_singleton.mp last
    · obtain ⟨earlier, port, rfl, setup⟩ := failed.reports
      simpa using late setup member
  cases standing with
  | constructed initial nothing => simp [nothing] at asserted
  | running running => cases running.early _ asserted
  | finished finished => exact absurd asserted (exited (.inl finished))
  | failed failed => exact absurd asserted (exited (.inr failed))
  | aborted aborted => exact aborted.unknown
  | destroyed last before ended same reports =>
      subst reports
      rw [(destroy_reports ended).2.2 .asserted nofun] at asserted
      rcases asserted with before | after
      · exact absurd before (exited ended)
      · split at after <;> simp at after

/--
Whatever the document is, the assertion of `StartDummyServer` holds in every run of
`main`.
-/
theorem never_asserted {dump : Config.Json → String} {store : Config.Store π κ σ} {initial : σ}
    {document : Config.Json} {machine : Machine State Label Event} {state : State}
    {past : List Event} (started : program dump store initial document = some machine)
    (reached : Machine.Reaches machine Machine.always .initial state past) :
    .asserted ∉ past ∧ state.stage ≠ .aborted := by
  obtain ⟨-, same⟩ := Option.ite_none_right_eq_some.mp started
  obtain rfl := Option.some.inj same
  have startable := Config.parse_startable dump store document { store := initial }
    (by simp [Config.Startable])
  have standing := standing_of_reaches reached
  constructor
  · intro asserted
    obtain ⟨dummy, member, unknown⟩ := asserted_of_standing standing asserted
    exact startable dummy member unknown
  · intro aborted
    have known := standing.stage
    rw [aborted] at known
    obtain ⟨dummy, member, unknown⟩ := known.unknown
    exact startable dummy member unknown

/-- A dummy of type `http`. -/
def httpDummy : Config.Json :=
  .object 1 [({ name := "dummy", line := 1 }, .array 1 [.object 1
    [({ name := "type", line := 1 }, .string 1 "http"),
      ({ name := "listen", line := 1 }, .integer 1 80)]])]

/-- It becomes a TCP server. -/
def readDummy : Config Config.AppId Config.Registry :=
  { dummies := [{ type := .tcp, port := 80 }], store := {} }

theorem parse_httpDummy :
    (Config.parse (fun _ => "") Config.registry httpDummy { store := {} }).ok = true ∧
      (Config.parse (fun _ => "") Config.registry httpDummy { store := {} }).target = readDummy := by
  decide

theorem never_asserted_run :
    ∃ machine state past, program (fun _ => "") Config.registry {} httpDummy = some machine ∧
      Machine.Reaches machine Machine.always .initial state past ∧ .asserted ∉ past := by
  obtain ⟨ok, target⟩ := parse_httpDummy
  have started : program (fun _ => "") Config.registry {} httpDummy =
      some (step readDummy) := by
    rw [program, if_pos ok, target]
  obtain ⟨state, reached, -⟩ := Machine.exists_reaches (step readDummy) Machine.always .initial
    [.start fun _ => {}] [.made 0 .admin, .listening 0 19500, .made 1 .dummy, .listening 1 80]
    (fun _ => true) (by decide)
  exact ⟨_, state, _, started, reached, (never_asserted started reached).1⟩

end Nexer.Servers
