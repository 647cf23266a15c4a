import Nexer.Servers.State

/-!
# What is closed, and what is left

`Close` forgets what it has closed, so that it may be called again.  It never touches a
server that was deleted; and it does not know the dummies, nor a proxy that could not
listen.
-/

namespace Nexer.Servers

open Nexer.Transition

/-- A handle that nobody has closed. -/
def Phase.Open (phase : Phase) : Prop := phase = .idle ∨ phase = .listening

instance (phase : Phase) : Decidable phase.Open := inferInstanceAs (Decidable (_ ∨ _))

/-- `uv_close` was called with `OnClose`. -/
def Phase.Closed (phase : Phase) : Prop := phase = .closing ∨ phase = .destroyed

instance (phase : Phase) : Decidable phase.Closed := inferInstanceAs (Decidable (_ ∨ _))

theorem Phase.Open.not_closed {phase : Phase} (opened : phase.Open) : ¬ phase.Closed := by
  rcases opened with rfl | rfl <;> decide

theorem Phase.walk_closed (phase : Phase) : phase.walk.Closed ↔ phase.Closed := by
  cases phase <;> decide

/-- `Close` would close the server. -/
def State.Known (state : State) (server : Nat) : Prop :=
  state.admin = some server ∨ server ∈ state.proxies

/-- The proxy could not listen. -/
def Refused (state : State) (past : List Event) (server : Nat) : Prop :=
  state.role server = .proxy ∧ ∃ port, .refused server port ∈ past

/-- `Close` knows the admin server and the proxies that listen until it closes them. -/
structure Sound (state : State) (past : List Event) : Prop where
  known : ∀ server, state.Known server →
    server < state.count ∧ (state.phase server).Open ∧ state.role server ≠ .dummy
  distinct : state.proxies.Nodup
  apart : ∀ server, state.admin = some server → server ∉ state.proxies
  unknown : ∀ server < state.count, ¬ (state.phase server).Closed → state.role server ≠ .dummy →
    state.Known server ∨ Refused state past server
  undisturbed : ∀ server < state.count, state.role server = .dummy →
    ¬ (state.phase server).Closed
  refused : ∀ server, Refused state past server →
    ¬ state.Known server ∧ ¬ (state.phase server).Closed
  earlier : ∀ server port, .refused server port ∈ past → server < state.count
  fresh : ∀ server, state.count ≤ server → ¬ (state.phase server).Closed
  once : ∀ server, past.count (.closing server) = if (state.phase server).Closed then 1 else 0
  alive : ∀ server, .dead server ∉ past

variable {state : State} {past out : List Event} {server : Nat}

theorem sound_initial : Sound .initial [] where
  known := by simp [State.Known, State.initial]
  distinct := List.nodup_nil
  apart := by simp [State.initial]
  unknown := by simp [State.initial]
  undisturbed := by simp [State.initial]
  refused := by simp [Refused]
  earlier := by simp
  fresh := by simp [State.initial, Phase.Closed]
  once := by simp [State.initial, Phase.Closed]
  alive := by simp

/-- Events that say nothing of closing, nor of servers that do not listen. -/
def Silent (out : List Event) : Prop :=
  ∀ server, .closing server ∉ out ∧ .dead server ∉ out ∧ ∀ port, .refused server port ∉ out

theorem refused_silent (silent : Silent out) :
    Refused state (past ++ out) server ↔ Refused state past server := by
  simp [Refused, (silent server).2.2]

theorem Sound.silent (sound : Sound state past) (silent : Silent out) :
    Sound state (past ++ out) where
  known := sound.known
  distinct := sound.distinct
  apart := sound.apart
  unknown := by
    simpa only [refused_silent silent] using sound.unknown
  undisturbed := sound.undisturbed
  refused := by
    simpa only [refused_silent silent] using sound.refused
  earlier := fun server port member =>
    (List.mem_append.mp member).elim (sound.earlier server port) fun new =>
      absurd new ((silent server).2.2 port)
  fresh := sound.fresh
  once := fun server => by
    rw [List.count_append, List.count_eq_zero_of_not_mem (silent server).1, Nat.add_zero]
    exact sound.once server
  alive := fun server member =>
    (List.mem_append.mp member).elim (sound.alive server) (silent server).2.1

/-- `Sound` does not speak of the stage, nor of handles that are no servers. -/
theorem Sound.with (sound : Sound state past) (stage : Stage) (others stranded : Nat) :
    Sound { state with stage, others, stranded } past :=
  ⟨sound.known, sound.distinct, sound.apart, sound.unknown, sound.undisturbed, sound.refused,
    sound.earlier, sound.fresh, sound.once, sound.alive⟩

theorem closeServer_open (opened : (state.phase server).Open) :
    closeServer server state = (state.setPhase server .closing, [.closing server]) := by
  rcases opened with idle | listening
  · simp [closeServer, idle]
  · simp [closeServer, listening]

/-- A server that is known is closed and then forgotten. -/
theorem Sound.setClosing (sound : Sound state past) (known : state.Known server)
    {admin : Option Nat} {proxies : List Nat}
    (rest : ∀ other, admin = some other ∨ other ∈ proxies ↔ state.Known other ∧ other ≠ server)
    (distinct : proxies.Nodup) (apart : ∀ other, admin = some other → other ∉ proxies) :
    Sound { state.setPhase server .closing with admin, proxies } (past ++ [.closing server]) := by
  obtain ⟨below, opened, role⟩ := sound.known server known
  have unrefused (other : Nat) : Refused { state.setPhase server .closing with admin, proxies }
      (past ++ [.closing server]) other ↔ Refused state past other := by
    simp [Refused, State.setPhase]
  constructor
  · intro other now
    obtain ⟨before, different⟩ := (rest other).mp now
    obtain ⟨small, opened, role⟩ := sound.known other before
    exact ⟨small, by simpa [State.setPhase, different] using opened, role⟩
  · exact distinct
  · exact apart
  · intro other small unclosed role
    rw [unrefused]
    by_cases same : other = server
    · subst same
      simp [State.setPhase, Phase.Closed] at unclosed
    · have before : ¬ (state.phase other).Closed := by
        simpa [State.setPhase, same] using unclosed
      exact (sound.unknown other small before role).imp_left fun known =>
        (rest other).mpr ⟨known, same⟩
  · intro other small dummy
    by_cases same : other = server
    · exact absurd (same ▸ dummy) role
    · simpa [State.setPhase, same] using sound.undisturbed other small dummy
  · intro other refused
    obtain ⟨unknown, unclosed⟩ := sound.refused other ((unrefused other).mp refused)
    have different : other ≠ server := by
      rintro rfl
      exact unknown known
    exact ⟨fun now => unknown ((rest other).mp now).1,
      by simpa [State.setPhase, different] using unclosed⟩
  · simpa [State.setPhase] using sound.earlier
  · intro other beyond
    have different : other ≠ server := by
      rintro rfl
      exact absurd below (Nat.not_lt_of_le beyond)
    simpa [State.setPhase, different] using sound.fresh other beyond
  · intro other
    rw [List.count_append, sound.once other]
    by_cases same : other = server
    · subst same
      rw [if_neg opened.not_closed]
      simp [State.setPhase, Phase.Closed]
    · simp [State.setPhase, same, Ne.symm same]
  · simpa using sound.alive

/-- The servers of the list are closed, whoever else is known. -/
theorem Sound.closeServers {proxies : List Nat} (sound : Sound { state with proxies } past) :
    Sound { (closeServers proxies state).1 with proxies := [] }
        (past ++ (closeServers proxies state).2) ∧
      (∃ phase, (closeServers proxies state).1 = { state with phase }) ∧
      (closeServers proxies state).2 = proxies.map .closing := by
  induction proxies generalizing state past with
  | nil => exact ⟨by simpa [Servers.closeServers] using sound, ⟨_, rfl⟩, rfl⟩
  | cons server rest ih =>
      obtain ⟨absent, distinct⟩ := List.nodup_cons.mp sound.distinct
      have known : State.Known { state with proxies := server :: rest } server :=
        .inr List.mem_cons_self
      have others (other : Nat) : state.admin = some other ∨ other ∈ rest ↔
          State.Known { state with proxies := server :: rest } other ∧ other ≠ server := by
        constructor
        · rintro (admin | member)
          · refine ⟨.inl admin, ?_⟩
            rintro rfl
            exact sound.apart other admin List.mem_cons_self
          · refine ⟨.inr (List.mem_cons_of_mem _ member), ?_⟩
            rintro rfl
            exact absent member
        · rintro ⟨admin | member, different⟩
          · exact .inl admin
          · exact .inr ((List.mem_cons.mp member).resolve_left different)
      have first : Sound { state.setPhase server .closing with proxies := rest } _ :=
        sound.setClosing known others distinct
          fun other admin member => sound.apart other admin (List.mem_cons_of_mem _ member)
      obtain ⟨last, ⟨phase, kept⟩, closings⟩ := ih first
      have opened : (state.phase server).Open := (sound.known server known).2.1
      rw [Servers.closeServers, closeServer_open opened]
      refine ⟨by simpa [Reaction.andThen] using last, ⟨phase, kept⟩, ?_⟩
      simpa [Reaction.andThen] using closings

/-- `Close` closes what it knows, and nothing else, and forgets it. -/
theorem Sound.close (sound : Sound state past) :
    Sound (close state).1 (past ++ (close state).2) ∧
      (∃ phase, (close state).1 = { state with phase, admin := none, proxies := [] }) ∧
      (close state).2 = state.proxies.map .closing ++ state.admin.toList.map .closing := by
  obtain ⟨first, ⟨phase, kept⟩, closings⟩ := @Sound.closeServers _ _ state.proxies sound
  rw [Servers.close]
  generalize Servers.closeServers state.proxies state = closed at first kept closings ⊢
  obtain ⟨next, out⟩ := closed
  dsimp only at first kept closings
  subst kept closings
  cases admin : state.admin with
  | none =>
      refine ⟨?_, ⟨phase, ?_⟩, by simp [Reaction.andThen]⟩
      · simpa [Reaction.andThen, admin] using first
      · simp [Reaction.andThen]
  | some server =>
      have known : State.Known { state with phase, proxies := [] } server := .inl admin
      have others (other : Nat) : none = some other ∨ other ∈ ([] : List Nat) ↔
          State.Known { state with phase, proxies := [] } other ∧ other ≠ server := by
        simp [State.Known, admin, eq_comm]
      have last := first.setClosing known others List.nodup_nil (by simp)
      have opened : (phase server).Open := (first.known server known).2.1
      simp only [Reaction.andThen]
      rw [closeServer_open opened]
      rw [← List.append_assoc]
      exact ⟨last, ⟨_, rfl⟩, by simp⟩

theorem Sound.mem_close (sound : Sound state past) {event : Event}
    (member : event ∈ (Servers.close state).2) : ∃ server, event = .closing server := by
  rw [sound.close.2.2] at member
  rcases List.mem_append.mp member with proxy | admin
  · obtain ⟨server, -, rfl⟩ := List.mem_map.mp proxy
    exact ⟨server, rfl⟩
  · obtain ⟨server, -, rfl⟩ := List.mem_map.mp admin
    exact ⟨server, rfl⟩

/-- `Handle::Close` does nothing or begins to close. -/
def Phase.Begins (before after : Phase) : Prop :=
  after = before ∨ before.Open ∧ after = .closing

theorem Phase.Begins.trans {first second third : Phase} (one : first.Begins second)
    (two : second.Begins third) : first.Begins third := by
  rcases one with rfl | ⟨opened, rfl⟩
  · exact two
  · rcases two with rfl | ⟨open_, -⟩
    · exact .inr ⟨opened, rfl⟩
    · exact absurd open_ (by decide)

theorem closeServer_phase (server other : Nat) (state : State) :
    (state.phase other).Begins ((closeServer server state).1.phase other) := by
  by_cases same : other = server
  · subst same
    unfold closeServer
    split
    · next idle => exact .inr ⟨.inl idle, by simp [State.setPhase]⟩
    · next listening => exact .inr ⟨.inr listening, by simp [State.setPhase]⟩
    all_goals exact .inl rfl
  · refine .inl ?_
    unfold closeServer
    split <;> simp [State.setPhase, same]

theorem closeServers_phase (servers : List Nat) (other : Nat) (state : State) :
    (state.phase other).Begins ((closeServers servers state).1.phase other) := by
  induction servers generalizing state with
  | nil => exact .inl rfl
  | cons server rest ih => exact (closeServer_phase server other state).trans (ih _)

theorem close_phase (other : Nat) (state : State) :
    (state.phase other).Begins ((close state).1.phase other) := by
  refine (closeServers_phase state.proxies other state).trans ?_
  rw [close, Reaction.andThen]
  generalize (closeServers state.proxies state).1 = next
  cases next.admin with
  | none => exact .inl rfl
  | some server => exact closeServer_phase server other { next with proxies := [], admin := none }

/-- The walk closes what is left, without a function. -/
theorem Sound.walk (sound : Sound state past) (unknown : ∀ server, ¬ state.Known server) :
    Sound (walk state) past where
  known := fun server known => absurd known (unknown server)
  distinct := sound.distinct
  apart := sound.apart
  unknown := fun server small unclosed role =>
    sound.unknown server small (mt (Phase.walk_closed _).mpr unclosed) role
  undisturbed := fun server small dummy =>
    mt (Phase.walk_closed _).mp (sound.undisturbed server small dummy)
  refused := fun server refused =>
    ⟨unknown server, mt (Phase.walk_closed _).mp (sound.refused server refused).2⟩
  earlier := sound.earlier
  fresh := fun server beyond => mt (Phase.walk_closed _).mp (sound.fresh server beyond)
  once := fun server => by
    rw [sound.once server]
    exact if_congr (Phase.walk_closed _).symm rfl rfl
  alive := sound.alive

/-- A server whose handle was closed is deleted. -/
theorem Sound.deleted (sound : Sound state past) (closing : state.phase server = .closing) :
    Sound (state.setPhase server .destroyed) past := by
  have closed (other : Nat) : ((state.setPhase server .destroyed).phase other).Closed ↔
      (state.phase other).Closed := by
    by_cases same : other = server
    · subst same
      simp [State.setPhase, closing, Phase.Closed]
    · simp [State.setPhase, same]
  constructor
  · intro other known
    obtain ⟨small, opened, role⟩ := sound.known other known
    have different : other ≠ server := by
      rintro rfl
      rcases opened with idle | listening
      · cases idle.symm.trans closing
      · cases listening.symm.trans closing
    exact ⟨small, by simpa [State.setPhase, different] using opened, role⟩
  · exact sound.distinct
  · exact sound.apart
  · exact fun other small unclosed => sound.unknown other small (mt (closed other).mpr unclosed)
  · exact fun other small dummy => mt (closed other).mp (sound.undisturbed other small dummy)
  · exact fun other refused => (sound.refused other refused).imp_right (mt (closed other).mp)
  · exact sound.earlier
  · exact fun other beyond => mt (closed other).mp (sound.fresh other beyond)
  · intro other
    rw [sound.once other]
    exact if_congr (closed other).symm rfl rfl
  · exact sound.alive

end Nexer.Servers
