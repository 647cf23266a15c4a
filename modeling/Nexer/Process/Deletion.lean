import Nexer.Process.Handles

/-!
# When a process is deleted

Until `OnProcessExit` runs, no handle is closing.  Afterwards the process handle is
in front of the pipes in the list of closing handles, so that the object is deleted
while all of its pipes wait for their close to complete.
-/

namespace Nexer.Process

open Nexer.Transition

variable {state following : State} {past out : List Event} {handle : Handle}

/-- Nothing has been closed. -/
structure Quiet (state : State) : Prop where
  pending : state.pending = []
  phase : ∀ handle, state.phase handle = .unset ∨ state.phase handle = .opened

/-- The process handle is the first one to be completed. -/
structure Closing (state : State) : Prop where
  first : state.pending.head? = some .process
  process : state.phase .process = .closing
  pipe : ∀ index, state.phase (.pipe index) = .unset ∨ state.phase (.pipe index) = .closing
  running : state.running = false

/-- `Start` is running and nothing has been closed. -/
structure Spawning (state : State) : Prop where
  quiet : Quiet state
  intact : state.aborted = false
  there : state.deleted = false
  started : state.started = true

theorem Spawning.open_ (ready : Spawning state) (handle : Handle) :
    Spawning (state.setPhase handle .opened) where
  quiet := by
    refine ⟨ready.quiet.pending, fun other => ?_⟩
    by_cases same : other = handle
    · simp [same]
    · simpa [same] using ready.quiet.phase other
  intact := ready.intact
  there := ready.there
  started := ready.started

/-- What closing handles leaves as it is. -/
structure Kept (state : State) (effect : Effect) : Prop where
  events : ∀ event ∈ effect.2, event = .aborted
  unset : ∀ handle, effect.1.phase handle = .unset ↔ state.phase handle = .unset
  deleted : effect.1.deleted = state.deleted
  started : effect.1.started = state.started
  running : effect.1.running = state.running
  timer : effect.1.timer = state.timer

namespace Kept

theorem refl (state : State) : Kept state (state, []) := by
  constructor <;> simp

theorem andThen {effect : Effect} {next : State → Effect} (first : Kept state effect)
    (second : Kept effect.1 (next effect.1)) : Kept state (effect.andThen next) where
  events := by
    intro event member
    rcases List.mem_append.mp member with before | after
    · exact first.events event before
    · exact second.events event after
  unset := fun handle => (second.unset handle).trans (first.unset handle)
  deleted := second.deleted.trans first.deleted
  started := second.started.trans first.started
  running := second.running.trans first.running
  timer := second.timer.trans first.timer

theorem harmless {effect : Effect} (kept : Kept state effect) (index : Fin 3)
    (handles : List Handle) : .initialised index ∉ effect.2 ∧ .deleted handles ∉ effect.2 :=
  ⟨fun member => (nomatch kept.events _ member), fun member => (nomatch kept.events _ member)⟩

theorem of_uvClose (handle : Handle) (state : State) : Kept state (uvClose handle state) := by
  unfold uvClose
  split
  · exact .refl state
  · split
    · next opened =>
      constructor
      case unset =>
        intro other
        by_cases same : other = handle
        · simp [same, opened]
        · simp [same]
      all_goals simp
    · constructor <;> simp

theorem of_closePipes (handles : List Handle) (state : State) :
    Kept state (closePipes handles state) := by
  induction handles generalizing state with
  | nil => exact .refl state
  | cons pipe rest ih =>
      refine andThen ?_ (ih _)
      split
      · exact of_uvClose pipe state
      · exact .refl state

end Kept

theorem pipe_mem_pipes (index : Fin 3) : .pipe index ∈ pipes := by
  revert index
  decide

theorem uvClose_opened (intact : state.aborted = false) (opened : state.phase handle = .opened) :
    uvClose handle state =
      ({ state.setPhase handle .closing with pending := handle :: state.pending }, []) := by
  simp [uvClose, intact, opened]

/-- Pipes that are open are closed, and nothing else. -/
theorem closePipes_fresh (handles : List Handle) (intact : state.aborted = false)
    (nodup : handles.Nodup)
    (fresh : ∀ handle ∈ handles, state.phase handle = .unset ∨ state.phase handle = .opened) :
    (closePipes handles state).1.aborted = false ∧ ∀ handle,
      (closePipes handles state).1.phase handle =
        if handle ∈ handles ∧ state.phase handle = .opened then .closing
        else state.phase handle := by
  induction handles generalizing state with
  | nil => simp [closePipes, intact]
  | cons first rest ih =>
      obtain ⟨unseen, nodup⟩ := List.nodup_cons.mp nodup
      rcases fresh first (by simp) with unset | opened
      · obtain ⟨intact', phase⟩ := ih intact nodup fun handle member => fresh handle (by simp [member])
        simp only [closePipes, unset, Reaction.andThen, ne_eq, not_true_eq_false, if_false]
        refine ⟨intact', fun handle => (phase handle).trans ?_⟩
        by_cases same : handle = first
        · simp [same, unset]
        · simp [same]
      · have other : ∀ handle ∈ rest, handle ≠ first := fun handle member same =>
          unseen (same ▸ member)
        have fresh' : ∀ handle ∈ rest, (state.setPhase first .closing).phase handle = .unset ∨
            (state.setPhase first .closing).phase handle = .opened := fun handle member => by
          simpa [other handle member] using fresh handle (by simp [member])
        obtain ⟨intact', phase⟩ :=
          @ih { state.setPhase first .closing with pending := first :: state.pending }
            intact nodup fresh'
        simp only [closePipes, opened, Reaction.andThen, ne_eq, reduceCtorEq, not_false_eq_true,
          if_true, uvClose_opened intact opened]
        refine ⟨intact', fun handle => (phase handle).trans ?_⟩
        by_cases same : handle = first
        · simp [same, opened, unseen]
        · simp [same]

/-- Closing what is closing already ends the program. -/
theorem uvClose_closing (closing : state.phase handle = .closing) :
    (uvClose handle state).1.aborted = true := by
  unfold uvClose
  split
  · assumption
  · simp [closing]

theorem closePipes_other (handles : List Handle) (other : handle ∉ handles) :
    (closePipes handles state).1.phase handle = state.phase handle := by
  induction handles generalizing state with
  | nil => rfl
  | cons first rest ih =>
      simp only [List.mem_cons, not_or] at other
      simp only [closePipes, Reaction.andThen, ih other.2]
      split
      · simp only [uvClose]
        split
        · rfl
        · split
          · simp [other.1]
          · rfl
      · rfl

theorem outstanding_eq_nil_iff
    (process : state.phase .process = .unset ∨ state.phase .process = .closed)
    (pipe : ∀ index, state.phase (.pipe index) = .unset ∨ state.phase (.pipe index) = .closing) :
    outstanding state = [] ↔ ∀ index, state.phase (.pipe index) = .unset := by
  have alive (index : Fin 3) : (state.phase (.pipe index) = .opened ∨
      state.phase (.pipe index) = .closing) ↔ state.phase (.pipe index) ≠ .unset := by
    rcases pipe index with unset | closing <;> simp [*]
  have done : ¬ (state.phase .process = .opened ∨ state.phase .process = .closing) := by
    rcases process with unset | closed <;> simp [*]
  simp only [outstanding, pipes, List.filter_eq_nil_iff, List.forall_mem_cons, decide_eq_true_eq,
    done, alive, not_not]
  simp [Fin.forall_fin_succ]

/-- What holds of a process and its history in every reachable state. -/
structure Sound (state : State) (past : List Event) : Prop where
  initialised : ∀ index, .initialised index ∈ past ↔ state.phase (.pipe index) ≠ .unset
  stage : state.deleted = false → state.aborted = false → Quiet state ∨ Closing state
  unstarted : state.started = false → ∀ handle, state.phase handle = .unset
  ticking : state.timer = .active → state.deleted = false
  deleted : ∀ handles, .deleted handles ∈ past → state.deleted = true
  outstanding : ∀ handles, .deleted handles ∈ past →
    (handles = [] ↔ ∀ index, .initialised index ∉ past)

theorem sound_initial : Sound State.initial [] where
  initialised := by simp [State.initial]
  stage := fun _ _ => .inl ⟨rfl, fun _ => .inl rfl⟩
  unstarted := fun _ _ => rfl
  ticking := fun _ => rfl
  deleted := by simp
  outstanding := by simp

namespace Sound

/-- Events that neither initialise a pipe nor delete the object. -/
theorem snoc (sound : Sound state past)
    (unset : ∀ handle, following.phase handle = .unset ↔ state.phase handle = .unset)
    (deleted : following.deleted = state.deleted)
    (started : following.started = false → state.started = false)
    (ticking : following.timer = .active → following.deleted = false)
    (events : ∀ index handles, .initialised index ∉ out ∧ .deleted handles ∉ out)
    (stage : following.deleted = false → following.aborted = false →
      Quiet following ∨ Closing following) : Sound following (past ++ out) where
  initialised := by
    intro index
    simp only [List.mem_append, (events index []).1, or_false, ne_eq, unset]
    exact sound.initialised index
  stage := stage
  unstarted := by
    exact fun fresh handle => (unset handle).mpr (sound.unstarted (started fresh) handle)
  ticking := ticking
  deleted := by
    intro handles member
    rw [deleted]
    exact sound.deleted handles ((List.mem_append.mp member).resolve_right (events 0 handles).2)
  outstanding := by
    intro handles member
    have before := (List.mem_append.mp member).resolve_right (events 0 handles).2
    simp only [List.mem_append, (events _ []).1, or_false]
    exact sound.outstanding handles before

/-- Closing handles neither initialises a pipe nor deletes the object. -/
theorem kept {effect : Effect} (sound : Sound state past) (kept : Kept state effect)
    (stage : effect.1.deleted = false → effect.1.aborted = false →
      Quiet effect.1 ∨ Closing effect.1) : Sound effect.1 (past ++ effect.2) :=
  sound.snoc kept.unset kept.deleted kept.started.symm.trans
    (by rw [kept.timer, kept.deleted]; exact sound.ticking) kept.harmless stage

/-- A change that concerns neither the handles nor the object. -/
theorem congr (sound : Sound state past) (phase : following.phase = state.phase)
    (pending : following.pending = state.pending) (deleted : following.deleted = state.deleted)
    (aborted : following.aborted = state.aborted)
    (started : following.started = false → state.started = false)
    (running : state.running = false → following.running = false)
    (ticking : following.timer = .active → following.deleted = false) : Sound following past := by
  have stage : following.deleted = false → following.aborted = false →
      Quiet following ∨ Closing following := by
    rw [deleted, aborted]
    intro there intact
    rcases sound.stage there intact with quiet | closing
    · exact .inl ⟨pending.trans quiet.pending, phase ▸ quiet.phase⟩
    · refine .inr ⟨?_, ?_, ?_, running closing.running⟩
      · rw [pending]
        exact closing.first
      · rw [phase]
        exact closing.process
      · rw [phase]
        exact closing.pipe
  have same : Sound following (past ++ []) :=
    sound.snoc (by simp [phase]) deleted started ticking (by simp) stage
  rwa [List.append_nil] at same

/-- The object is deleted while just its pipes are closing. -/
theorem delete (sound : Sound state past) (there : state.deleted = false)
    (unset : ∀ handle, following.phase handle = .unset ↔ state.phase handle = .unset)
    (started : following.started = state.started)
    (events : ∀ index handles, .initialised index ∉ out ∧ .deleted handles ∉ out)
    (process : following.phase .process = .unset ∨ following.phase .process = .closed)
    (pipe : ∀ index, following.phase (.pipe index) = .unset ∨
      following.phase (.pipe index) = .closing) :
    Sound (onProcessHandleClose following).1
      (past ++ (out ++ (onProcessHandleClose following).2)) := by
  have initialised (index : Fin 3) : .initialised index ∈
      past ++ (out ++ (onProcessHandleClose following).2) ↔
        following.phase (.pipe index) ≠ .unset := by
    simpa [onProcessHandleClose, (events index []).1, unset] using sound.initialised index
  exact {
    initialised := initialised
    stage := nofun
    unstarted := fun fresh handle => (unset handle).mpr
      (sound.unstarted (started.symm.trans fresh) handle)
    ticking := by
      simp only [onProcessHandleClose]
      split <;> exact nofun
    deleted := fun _ _ => rfl
    outstanding := by
      intro handles member
      have fresh : .deleted handles ∉ past := fun before =>
        absurd (sound.deleted handles before) (by simp [there])
      obtain rfl : handles = Process.outstanding following := by
        simpa [onProcessHandleClose, fresh, (events 0 handles).2] using member
      rw [outstanding_eq_nil_iff process pipe]
      exact forall_congr' fun index => by rw [initialised index, not_not] }

end Sound

/-- `OnProcessExit` after `status_` is set. -/
def closeAll (state : State) : Effect :=
  (closePipes pipes state).andThen fun state =>
    if state.phase .process ≠ .unset then uvClose .process state
    else if state.aborted then (state, [])
    else onProcessHandleClose state

theorem onProcessExit_eq (code signal : Int) (state : State) : onProcessExit code signal state =
    closeAll { state with running := false, exitCode := code, termSignal := signal } :=
  rfl

namespace Sound

theorem closeAll (sound : Sound state past) (intact : state.aborted = false)
    (there : state.deleted = false) (stopped : state.running = false) :
    Sound (closeAll state).1 (past ++ (closeAll state).2) := by
  have kept := Kept.of_closePipes pipes state
  have process : (closePipes pipes state).1.phase .process = state.phase .process :=
    closePipes_other pipes (by decide)
  have whole : Kept state ((closePipes pipes state).andThen (uvClose .process)) :=
    kept.andThen (.of_uvClose .process _)
  simp only [Process.closeAll, Reaction.andThen, process]
  rcases sound.stage there intact with quiet | closing
  · obtain ⟨intact', phase⟩ := closePipes_fresh pipes intact (by decide)
      fun handle _ => quiet.phase handle
    have pipe (index : Fin 3) : (closePipes pipes state).1.phase (.pipe index) = .unset ∨
        (closePipes pipes state).1.phase (.pipe index) = .closing := by
      rw [phase]
      rcases quiet.phase (.pipe index) with unset | opened
      · simp [unset]
      · simp [opened, pipe_mem_pipes]
    rcases quiet.phase .process with unset | opened
    · simp only [unset, ne_eq, not_true_eq_false, if_false, intact', Bool.false_eq_true]
      exact sound.delete there kept.unset kept.started kept.harmless (.inl (process.trans unset)) pipe
    · rw [if_pos (by simp [opened])]
      refine sound.kept whole fun _ _ => .inr ?_
      simp only [Reaction.andThen, uvClose_opened intact' (process.trans opened)]
      exact ⟨rfl, by simp, by simpa using pipe, kept.running.trans stopped⟩
  · rw [if_pos (by simp [closing.process])]
    have ended := uvClose_closing (process.trans closing.process)
    exact sound.kept whole fun _ intact' => absurd (ended.symm.trans intact') nofun

theorem exit (sound : Sound state past) (intact : state.aborted = false)
    (there : state.deleted = false) (code signal : Int) :
    Sound (onProcessExit code signal state).1 (past ++ (onProcessExit code signal state).2) := by
  rw [onProcessExit_eq]
  have stopped : Sound { state with running := false, exitCode := code, termSignal := signal } past :=
    sound.congr rfl rfl rfl rfl id (fun _ => rfl) sound.ticking
  exact stopped.closeAll intact there rfl

/-- `InitStdio` opens pipes and reports each of them. -/
theorem initStdio (pipeInit : Fin 3 → Int) (indices : List (Fin 3)) (sound : Sound state past)
    (ready : Spawning state) :
    Sound (initStdio pipeInit indices state).1.1
        (past ++ (Process.initStdio pipeInit indices state).1.2) ∧
      Spawning (Process.initStdio pipeInit indices state).1.1 := by
  induction indices generalizing state past with
  | nil => simpa [Process.initStdio] using ⟨sound, ready⟩
  | cons index rest ih =>
      simp only [Process.initStdio]
      split
      · simpa using ⟨sound, ready⟩
      · have opened : Spawning (state.setPhase (.pipe index) .opened) := ready.open_ _
        have fresh (handles : List Handle) : .deleted handles ∉ past := fun member =>
          nomatch ready.there.symm.trans (sound.deleted handles member)
        have after : Sound (state.setPhase (.pipe index) .opened) (past ++ [.initialised index]) := {
          initialised := by
            intro other
            by_cases same : other = index
            · simp [same]
            · simpa [same] using sound.initialised other
          stage := fun _ _ => .inl opened.quiet
          unstarted := fun unstarted => nomatch unstarted.symm.trans opened.started
          ticking := sound.ticking
          deleted := by simp [fresh]
          outstanding := by simp [fresh] }
        simpa using ih after opened

/-- `uv_spawn` initialises the process handle, whether it succeeds or not. -/
theorem spawned (sound : Sound state past) (ready : Spawning state) (running : Bool) :
    Sound { state.setPhase .process .opened with running } past ∧
      Spawning { state.setPhase .process .opened with running } := by
  have opened := ready.open_ .process
  refine ⟨?_, ⟨⟨opened.quiet.pending, opened.quiet.phase⟩, ready.intact, ready.there, ready.started⟩⟩
  exact {
    initialised := by simpa using sound.initialised
    stage := fun _ _ => .inl ⟨opened.quiet.pending, opened.quiet.phase⟩
    unstarted := fun unstarted => nomatch unstarted.symm.trans ready.started
    ticking := sound.ticking
    deleted := sound.deleted
    outstanding := sound.outstanding }

theorem spawn (sound : Sound state past) (ready : Spawning state) (outcome : Outcome) :
    Sound (spawn outcome state).1.1 (past ++ (Process.spawn outcome state).1.2) ∧
      Spawning (Process.spawn outcome state).1.1 := by
  have piped := sound.initStdio outcome.pipeInit [0, 1, 2] ready
  simp only [Process.spawn]
  split
  · exact piped
  · have after := piped.1.spawned piped.2 (decide (outcome.spawn = 0))
    split
    · exact after
    · split <;> exact after

/-- After an error the process is killed, or it ends as if it had exited. -/
theorem failed (sound : Sound state past) (ready : Spawning state) (err : Int) :
    Sound (Reaction.andThen (state, [.error err]) fun state =>
        if state.running then (state, [.kill]) else onProcessExit (-1) (-1) state).1
      (past ++ (Reaction.andThen (state, [.error err]) fun state =>
        if state.running then (state, [.kill]) else onProcessExit (-1) (-1) state).2) := by
  have reported : Sound state (past ++ [.error err]) :=
    sound.snoc (fun _ => Iff.rfl) rfl id sound.ticking (by simp) sound.stage
  simp only [Reaction.andThen, ← List.append_assoc]
  split
  · exact reported.snoc (fun _ => Iff.rfl) rfl id sound.ticking (by simp) sound.stage
  · exact reported.exit ready.intact ready.there (-1) (-1)

theorem start (sound : Sound state past) (intact : state.aborted = false)
    (there : state.deleted = false) (fresh : state.started = false) (outcome : Outcome) :
    Sound (start outcome state).1 (past ++ (Process.start outcome state).2) := by
  have quiet : Quiet state := by
    rcases sound.stage there intact with quiet | closing
    · exact quiet
    · exact nomatch closing.process.symm.trans (sound.unstarted fresh .process)
  have began : Sound { state with started := true } past :=
    sound.congr rfl rfl rfl rfl nofun id sound.ticking
  obtain ⟨after, ready⟩ := began.spawn ⟨⟨quiet.pending, quiet.phase⟩, intact, there, rfl⟩ outcome
  simp only [Process.start]
  split
  · exact after
  · have failed := after.failed ready (Process.spawn outcome { state with started := true }).2
    rwa [List.append_assoc] at failed

/-- Every label keeps the invariant. -/
theorem step {label : Label} {effect : Effect} (sound : Sound state past)
    (moved : Process.step state label = some effect) : Sound effect.1 (past ++ effect.2) := by
  cases label with
  | setTimeout =>
      simp only [Process.step] at moved
      split at moved
      · next ready =>
        obtain rfl := Option.some.inj moved
        simp only [Bool.not_eq_true] at ready
        rw [List.append_nil]
        exact sound.congr rfl rfl rfl rfl id id fun _ => ready.2.1
      · cases moved
  | start outcome =>
      simp only [Process.step] at moved
      split at moved
      · next ready =>
        obtain rfl := Option.some.inj moved
        simp only [Bool.not_eq_true] at ready
        exact sound.start ready.1 ready.2.1 ready.2.2 outcome
      · cases moved
  | exited code signal =>
      simp only [Process.step] at moved
      split at moved
      · next ready =>
        obtain rfl := Option.some.inj moved
        simp only [Bool.not_eq_true] at ready
        exact sound.exit ready.1 ready.2.1 code signal
      · cases moved
  | tick =>
      simp only [Process.step] at moved
      split at moved
      · next ready =>
        obtain rfl := Option.some.inj moved
        simp only [Bool.not_eq_true] at ready
        have stopped : Sound { state with timer := .stopped } past :=
          sound.congr rfl rfl rfl rfl id id nofun
        split
        · exact stopped.snoc (fun _ => Iff.rfl) rfl id nofun (by simp) stopped.stage
        · exact stopped.exit ready.1 (sound.ticking ready.2) _ _
      · cases moved
  | complete =>
      simp only [Process.step] at moved
      split at moved
      · cases moved
      · next first rest front =>
        split at moved
        · cases moved
        · next intact =>
          split at moved
          · next gone =>
            obtain rfl := Option.some.inj moved
            refine sound.snoc (fun _ => Iff.rfl) rfl id sound.ticking (by simp) fun there => ?_
            exact nomatch gone.symm.trans there
          · next there =>
            obtain rfl := Option.some.inj moved
            simp only [Bool.not_eq_true] at intact there
            rcases sound.stage there intact with quiet | closing
            · exact nomatch front.symm.trans quiet.pending
            · have process : first = .process := by
                simpa [front] using closing.first
              subst process
              rw [if_pos rfl]
              have unset (handle : Handle) :
                  (state.setPhase .process .closed).phase handle = .unset ↔
                    state.phase handle = .unset := by
                by_cases same : handle = .process
                · simp [same, closing.process]
                · simp [same]
              have gone (ended : State) (same : ended =
                  { state.setPhase .process .closed with pending := rest }) :
                  Sound (onProcessHandleClose ended).1
                    (past ++ ([] ++ (onProcessHandleClose ended).2)) := by
                subst same
                exact sound.delete there unset rfl (by simp) (.inr (by simp))
                  (by simpa using closing.pipe)
              exact gone _ rfl

end Sound

/-- A process is deleted last exactly when no pipe of it was initialised. -/
theorem deleted_last_iff (reached : Machine.Reaches step Machine.always State.initial state past)
    {handles : List Handle} (deleted : .deleted handles ∈ past) :
    handles = [] ↔ ∀ index, .initialised index ∉ past :=
  (reached.invariant Sound sound_initial fun _ sound _ moved => sound.step moved).outstanding
    handles deleted

/-- A process that was never started ends at its timeout and is deleted last. -/
theorem deleted_last_run : ∃ state past,
    Machine.Reaches step Machine.always State.initial state past ∧
      .deleted [] ∈ past ∧ ∀ index, .initialised index ∉ past := by
  obtain ⟨state, reached, -⟩ := Machine.exists_reaches
    step Machine.always State.initial [.setTimeout, .tick] [.exit (-2) 0, .deleted []]
    (fun _ => true) (by decide)
  have member : Event.deleted [] ∈ [Event.exit (-2) 0, .deleted []] := by decide
  exact ⟨state, _, reached, member, (deleted_last_iff reached member).mp rfl⟩

/-- A process that is spawned and exits is deleted while its pipes are closing. -/
theorem deleted_before_pipes : ∃ state past,
    Machine.Reaches step Machine.always State.initial state past ∧
      .deleted [.pipe 0, .pipe 1, .pipe 2] ∈ past ∧ .dangling (.pipe 2) ∈ past := by
  obtain ⟨state, reached, -⟩ := Machine.exists_reaches
    step Machine.always State.initial [.start {}, .exited 0 0, .complete, .complete]
    [.initialised 0, .initialised 1, .initialised 2, .exit 0 0,
      .deleted [.pipe 0, .pipe 1, .pipe 2], .dangling (.pipe 2)]
    (fun _ => true) (by decide)
  exact ⟨state, _, reached, by decide, by decide⟩

end Nexer.Process
