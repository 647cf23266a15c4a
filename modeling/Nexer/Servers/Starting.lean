import Nexer.Servers.Closing

/-!
# How the servers are started

`Start` makes the servers one after the other and stops at the first one that cannot
listen.
-/

namespace Nexer.Servers

open Nexer.Transition

variable {state next : State} {past out : List Event} {server : Nat} {calls : Nat → Calls}
variable {phase : Phase} {π σ : Type}

/-- A new server, which listens or is idle. -/
def State.added (state : State) (role : Role) (phase : Phase) : State :=
  { state with
    count := state.count + 1
    role := Function.update state.role state.count role
    phase := Function.update state.phase state.count phase }

theorem listen_eq (role : Role) (port : Int32) :
    listen calls role port state =
      if (calls state.count).listens then
        (state.added role .listening, [.made state.count role, .listening state.count port])
      else (state.added role .idle, [.made state.count role, .refused state.count port]) := by
  simp [listen, State.make, State.setPhase, State.added]

/-- How a new server becomes known. -/
inductive Owned (state : State) : Role → Phase → Option Nat → List Nat → Prop where
  | dummy (phase : Phase) : Owned state .dummy phase state.admin state.proxies
  | refused : Owned state .proxy .idle state.admin state.proxies
  | proxy : Owned state .proxy .listening state.admin (state.proxies ++ [state.count])
  | admin (phase : Phase) (first : state.admin = none) :
      Owned state .admin phase (some state.count) state.proxies

/-- What `Listen` reports. -/
def outcome (server : Nat) (role : Role) (phase : Phase) (port : Int32) : List Event :=
  [.made server role, if phase = .listening then .listening server port else .refused server port]

theorem Sound.added (sound : Sound state past) {role : Role} {phase : Phase} (opened : phase.Open)
    {admin : Option Nat} {proxies : List Nat} (port : Int32)
    (owned : Owned state role phase admin proxies) :
    Sound { state.added role phase with admin, proxies }
      (past ++ outcome state.count role phase port) := by
  have unknown : ¬ state.Known state.count := fun known =>
    absurd (sound.known _ known).1 (Nat.lt_irrefl _)
  have old {other : Nat} (small : other < state.count + 1) (apart : other ≠ state.count) :
      other < state.count := by omega
  have refused (other : Nat) : Refused { state.added role phase with admin, proxies }
      (past ++ outcome state.count role phase port) other ↔
        if other = state.count then role = .proxy ∧ phase ≠ .listening
        else Refused state past other := by
    have unheard (port : Int32) : .refused state.count port ∉ past := fun member =>
      absurd (sound.earlier _ _ member) (Nat.lt_irrefl _)
    by_cases same : other = state.count
    · subst same
      by_cases listens : phase = .listening
      · simp [Refused, State.added, outcome, listens, unheard]
      · simp [Refused, State.added, outcome, listens, unheard]
    · by_cases listens : phase = .listening
      · simp [Refused, State.added, outcome, listens, same]
      · simp [Refused, State.added, outcome, listens, same]
  have known (other : Nat) : State.Known { state.added role phase with admin, proxies } other ↔
      if other = state.count then role = .admin ∨ role = .proxy ∧ phase = .listening
      else state.Known other := by
    by_cases same : other = state.count
    · subst same
      cases owned <;> simp [State.Known] at unknown ⊢ <;> simp [unknown]
    · cases owned <;> simp [State.Known, Ne.symm same, *]
  constructor
  · intro other now
    rw [known] at now
    split at now
    · next same =>
      subst same
      refine ⟨Nat.lt_succ_self _, by simpa [State.added] using opened, ?_⟩
      rcases now with rfl | ⟨rfl, -⟩ <;> simp [State.added]
    · next apart =>
      obtain ⟨small, opened, role⟩ := sound.known other now
      exact ⟨Nat.lt_succ_of_lt small, by simpa [State.added, apart] using opened,
        by simpa [State.added, apart] using role⟩
  · cases owned with
    | proxy =>
        refine List.nodup_append.mpr ⟨sound.distinct, by simp, fun other member new made => ?_⟩
        rintro rfl
        exact unknown (.inr (List.mem_singleton.mp made ▸ member))
    | _ => exact sound.distinct
  · cases owned with
    | proxy =>
        intro other admin member
        rcases List.mem_append.mp member with before | new
        · exact sound.apart other admin before
        · rw [List.mem_singleton.mp new] at admin
          exact unknown (.inl admin)
    | admin =>
        rintro other same member
        rw [← Option.some.inj same] at member
        exact unknown (.inr member)
    | _ => exact sound.apart
  · intro other small unclosed role
    rw [known, refused]
    by_cases same : other = state.count
    · subst same
      cases owned <;> simp_all [State.added]
    · simp only [same, if_false]
      exact sound.unknown other (old small same) (by simpa [State.added, same] using unclosed)
        (by simpa [State.added, same] using role)
  · intro other small dummy
    by_cases same : other = state.count
    · subst same
      simpa [State.added] using opened.not_closed
    · simpa [State.added, same] using sound.undisturbed other (old small same)
        (by simpa [State.added, same] using dummy)
  · intro other before
    rw [refused] at before
    rw [known]
    by_cases same : other = state.count
    · subst same
      rw [if_pos rfl] at before ⊢
      refine ⟨by simp [before], by simpa [State.added] using opened.not_closed⟩
    · rw [if_neg same] at before ⊢
      obtain ⟨unknown, unclosed⟩ := sound.refused other before
      exact ⟨unknown, by simpa [State.added, same] using unclosed⟩
  · intro other port member
    rcases List.mem_append.mp member with before | new
    · exact Nat.lt_succ_of_lt (sound.earlier other port before)
    · by_cases listens : phase = .listening
      · simp [outcome, listens] at new
      · obtain ⟨rfl, -⟩ : other = state.count ∧ _ := by simpa [outcome, listens] using new
        exact Nat.lt_succ_self _
  · intro other beyond
    have apart : other ≠ state.count := by
      rintro rfl
      exact absurd beyond (Nat.not_succ_le_self _)
    simpa [State.added, apart] using sound.fresh other (Nat.le_of_succ_le beyond)
  · intro other
    have silent : .closing other ∉ outcome state.count role phase port := by
      by_cases listens : phase = .listening <;> simp [outcome, listens]
    rw [List.count_append, List.count_eq_zero_of_not_mem silent, Nat.add_zero, sound.once other]
    by_cases same : other = state.count
    · subst same
      rw [if_neg (sound.fresh _ (Nat.le_refl _)), if_neg]
      simpa [State.added] using opened.not_closed
    · simp [State.added, same]
  · intro other member
    rcases List.mem_append.mp member with before | new
    · exact sound.alive other before
    · by_cases listens : phase = .listening <;> simp [outcome, listens] at new

/-- Events of servers that are made and listen. -/
def Event.isSetup : Event → Bool
  | .made _ _ | .listening _ _ => true
  | _ => false

/-- The admin server has been made, and nothing else runs yet. -/
structure Begun (state : State) (past : List Event) : Prop where
  sound : Sound state past
  admin : state.admin.isSome
  others : state.others = 0
  stranded : state.stranded = 0

/-- Every server so far listens. -/
structure Going (state : State) (past : List Event) : Prop extends Begun state past where
  running : state.stage = .running
  listening : ∀ server < state.count, state.phase server = .listening
  setup : ∀ event ∈ past, event.isSetup

/-- The last server could not listen. -/
structure Failed (state : State) (past : List Event) : Prop extends Begun state past where
  returned : state.stage = .returned false
  reports : ∃ before port, past = before ++ [.refused (state.count - 1) port, .returned false] ∧
    ∀ event ∈ before, event.isSetup

/-- The kind of a dummy is not one that `StartDummyServer` knows. -/
structure Aborted (configs : List Config.Dummy) (state : State) (past : List Event) : Prop where
  sound : Sound state past
  aborted : state.stage = .aborted
  unknown : ∃ config ∈ configs, config.type = .http
  reports : ∃ before, past = before ++ [.asserted] ∧ ∀ event ∈ before, event.isSetup

/-- A server is made by one of the loops. -/
theorem Going.listen (going : Going state past) (role : Role) (loop : role ≠ .admin) (port : Int32) :
    (listen calls role port state = (state.added role .listening,
          [.made state.count role, .listening state.count port]) ∧
        Going { state.added role .listening with
            proxies := if role = .proxy then state.proxies ++ [state.count] else state.proxies }
          (past ++ [.made state.count role, .listening state.count port])) ∨
      listen calls role port state = (state.added role .idle,
          [.made state.count role, .refused state.count port]) ∧
        Failed { state.added role .idle with stage := .returned false }
          (past ++ [.made state.count role, .refused state.count port, .returned false]) := by
  rw [listen_eq]
  by_cases listens : (calls state.count).listens
  · rw [if_pos listens]
    refine .inl ⟨rfl, ?_⟩
    have owned : Owned state role .listening state.admin
        (if role = .proxy then state.proxies ++ [state.count] else state.proxies) := by
      cases role with
      | admin => exact absurd rfl loop
      | proxy => exact .proxy
      | dummy => exact .dummy .listening
    have sound := going.sound.added (.inr rfl) port owned
    refine ⟨⟨sound, going.admin, going.others, going.stranded⟩, going.running, ?_, ?_⟩
    · intro server small
      by_cases same : server = state.count
      · simp [State.added, same]
      · have before : server < state.count := Nat.lt_of_le_of_ne (Nat.le_of_lt_succ small) same
        simpa [State.added, same] using going.listening server before
    · intro event member
      rcases List.mem_append.mp member with before | new
      · exact going.setup event before
      · simp only [List.mem_cons, List.not_mem_nil, or_false] at new
        rcases new with rfl | rfl <;> rfl
  · rw [if_neg listens]
    refine .inr ⟨rfl, ?_⟩
    have owned : Owned state role .idle state.admin state.proxies := by
      cases role with
      | admin => exact absurd rfl loop
      | proxy => exact .refused
      | dummy => exact .dummy .idle
    have silent : Silent [.returned false] := by simp [Silent]
    have sound := ((going.sound.added (.inl rfl) port owned).silent silent).with (.returned false)
      state.others state.stranded
    rw [List.append_assoc] at sound
    refine ⟨⟨sound, going.admin, going.others, going.stranded⟩, rfl,
      past ++ [.made state.count role], port, by simp [State.added], ?_⟩
    intro event member
    rcases List.mem_append.mp member with before | new
    · exact going.setup event before
    · rw [List.mem_singleton.mp new]
      rfl

theorem succeeded_listening (role : Role) : (state.added role .listening).succeeded = true := by
  simp [State.succeeded, State.added]

theorem succeeded_idle (role : Role) : (state.added role .idle).succeeded = false := by
  simp [State.succeeded, State.added]

theorem Going.startProxies (going : Going state past) (configs : List (Config.Proxy π)) :
    (Going (startProxies calls configs state).1 (past ++ (startProxies calls configs state).2) ∧
        (startProxies calls configs state).1.count = state.count + configs.length) ∨
      Failed (startProxies calls configs state).1
        (past ++ (startProxies calls configs state).2) := by
  induction configs generalizing state past with
  | nil => exact .inl ⟨by simpa [Servers.startProxies] using going, rfl⟩
  | cons config rest ih =>
      rw [Servers.startProxies]
      rcases going.listen .proxy (by simp) config.port with ⟨made, next⟩ | ⟨made, failed⟩
      · rw [made, Reaction.andThen]
        dsimp only
        rw [succeeded_listening, if_pos rfl]
        have later := ih next
        rw [List.append_assoc] at later
        refine later.imp_left fun run => ⟨run.1, run.2.trans ?_⟩
        simp only [State.added, List.length_cons]
        omega
      · rw [made, Reaction.andThen]
        dsimp only
        rw [succeeded_idle, if_neg Bool.false_ne_true]
        exact .inr failed

theorem Going.startDummies (going : Going state past) (configs : List Config.Dummy) :
    (Going (startDummies calls configs state).1 (past ++ (startDummies calls configs state).2) ∧
        (startDummies calls configs state).1.count = state.count + configs.length ∧
        ∀ server, (startDummies calls configs state).1.role server =
          if state.count ≤ server ∧ server < state.count + configs.length then .dummy
          else state.role server) ∨
      Failed (startDummies calls configs state).1
          (past ++ (startDummies calls configs state).2) ∨
        Aborted configs (startDummies calls configs state).1
          (past ++ (startDummies calls configs state).2) := by
  induction configs generalizing state past with
  | nil =>
      refine .inl ⟨by simpa [Servers.startDummies] using going, rfl, fun server => ?_⟩
      rw [if_neg]
      · rfl
      · simp only [List.length_nil]
        omega
  | cons config rest ih =>
      rw [Servers.startDummies]
      by_cases http : config.type = .http
      · have abort : startDummyServer calls config state =
            ({ state with stage := .aborted }, [.asserted]) := by
          simp [startDummyServer, http]
        rw [abort, Reaction.andThen]
        have silent : Silent [.asserted] := by simp [Silent]
        have sound := (going.sound.silent silent).with .aborted state.others state.stranded
        exact .inr (.inr ⟨sound, rfl, ⟨config, List.mem_cons_self, http⟩, past, rfl, going.setup⟩)
      · have listed : startDummyServer calls config state =
            Servers.listen calls .dummy config.port state := by
          cases type : config.type with
          | http => exact absurd type http
          | _ => simp [startDummyServer, type]
        rw [listed]
        rcases going.listen .dummy (by simp) config.port with ⟨made, next⟩ | ⟨made, failed⟩
        · rw [made, Reaction.andThen]
          dsimp only
          have running : (state.added .dummy .listening).stage ≠ .aborted := by
            simp [State.added, going.running]
          rw [if_neg running, succeeded_listening, if_pos rfl]
          have going : Going (state.added .dummy .listening) _ := next
          have later := ih going
          rw [List.append_assoc] at later
          rcases later with ⟨going, count, roles⟩ | failed | aborted
          · refine .inl ⟨going, count.trans ?_, fun server => ?_⟩
            · simp only [State.added, List.length_cons]
              omega
            · rw [roles server]
              simp only [State.added, List.length_cons]
              by_cases same : server = state.count
              · have within : state.count ≤ server ∧
                    server < state.count + (rest.length + 1) := by omega
                rw [if_pos within]
                simp [same]
              · rw [Function.update_of_ne same]
                exact if_congr (by omega) rfl rfl
          · exact .inr (.inl failed)
          · obtain ⟨other, member, type⟩ := aborted.unknown
            exact .inr (.inr ⟨aborted.sound, aborted.aborted,
              ⟨other, List.mem_cons_of_mem _ member, type⟩, aborted.reports⟩)
        · rw [made, Reaction.andThen]
          dsimp only
          have running : (state.added .dummy .idle).stage ≠ .aborted := by
            simp [State.added, going.running]
          rw [if_neg running, succeeded_idle, if_neg Bool.false_ne_true]
          exact .inr (.inl failed)

/-- What `Start` leaves when it comes to `uv_run`, or does not. -/
inductive Started (config : Config π σ) (state : State) (past : List Event) : Prop where
  | running (going : Going state past)
      (count : state.count = 1 + config.proxies.length + config.dummies.length)
      (dummies : ∀ server, 1 + config.proxies.length ≤ server → server < state.count →
        state.role server = .dummy)
  | failed (failed : Failed state past)
  | aborted (aborted : Aborted config.dummies state past)

/-- The admin server is the first one. -/
def State.first (phase : Phase) (stage : Stage) : State :=
  { State.initial.added .admin phase with admin := some 0, stage }

theorem sound_first (opened : phase.Open) (port : Int32) (stage : Stage) :
    Sound (.first phase stage) (outcome 0 .admin phase port) :=
  (sound_initial.added opened port (.admin phase rfl)).with stage 0 0

theorem going_first (port : Int32) :
    Going (.first .listening .running) [.made 0 .admin, .listening 0 port] where
  sound := sound_first (.inr rfl) port .running
  admin := rfl
  others := rfl
  stranded := rfl
  running := rfl
  listening := by
    intro server small
    obtain rfl : server = 0 := Nat.lt_one_iff.mp small
    rfl
  setup := by simp [Event.isSetup]

theorem failed_first (port : Int32) :
    Failed (.first .idle (.returned false))
      [.made 0 .admin, .refused 0 port, .returned false] where
  sound := (sound_first (.inl rfl) port (.returned false)).silent (by simp [Silent])
  admin := rfl
  others := rfl
  stranded := rfl
  returned := rfl
  reports := ⟨[.made 0 .admin], port, rfl, by simp [Event.isSetup]⟩

theorem started_of_start (config : Config π σ) :
    Started config (start calls config .initial).1 (start calls config .initial).2 := by
  unfold start startAdminServer
  rw [listen_eq]
  by_cases listens : (calls 0).listens
  · have made : (calls { State.initial with admin := some State.initial.count }.count).listens = true :=
      listens
    rw [if_pos made, Reaction.andThen]
    dsimp only
    rw [succeeded_listening, if_pos rfl]
    have going := going_first config.admin.port
    have proxies : Going (startProxies calls config.proxies (.first .listening .running)).1 _ ∧ _ ∨ _ :=
      going.startProxies config.proxies
    have same : startProxies calls config.proxies
        { State.added { State.initial with admin := some State.initial.count } .admin .listening with
          stage := .running } = startProxies calls config.proxies (.first .listening .running) := rfl
    rw [Reaction.andThen, same]
    generalize startProxies calls config.proxies (.first .listening .running) = effect at proxies ⊢
    rcases proxies with ⟨going, count⟩ | failed
    · rw [if_pos going.running]
      have dummies : Going (startDummies calls config.dummies effect.1).1 _ ∧ _ ∨ _ :=
        going.startDummies config.dummies
      rw [List.append_assoc] at dummies
      have first : (State.first .listening .running).count = 1 := rfl
      rcases dummies with ⟨going, total, roles⟩ | failed | aborted
      · rw [count, first] at total roles
        refine .running going total fun server above below => ?_
        exact (roles server).trans (if_pos ⟨above, total ▸ below⟩)
      · exact .failed failed
      · exact .aborted aborted
    · have stopped : effect.1.stage ≠ .running := by simp [failed.returned]
      rw [if_neg stopped, List.append_nil]
      exact .failed failed
  · have made : ¬ (calls { State.initial with admin := some State.initial.count }.count).listens = true :=
      listens
    rw [if_neg made, Reaction.andThen]
    dsimp only
    rw [succeeded_idle, if_neg Bool.false_ne_true]
    exact .failed (failed_first config.admin.port)

end Nexer.Servers
