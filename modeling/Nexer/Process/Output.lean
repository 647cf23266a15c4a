import Nexer.Process.Termination
import Nexer.Text.Bytes
import Nexer.Transition.History

/-!
# The output of a child

A child writes to two pipes.  The loop reads them and is told that the child has
ended, in any order; `OnProcessExit` then closes the pipes with what has not been
read.
-/

namespace Nexer.Process

open Nexer.Transition

/-- The descriptors of a child whose pipes are read. -/
inductive Descriptor where
  | stdout
  | stderr
  deriving DecidableEq

/-- A pipe, with the bytes that were written to it and not read; `reading` is set by
`uv_read_start`, and cleared by the end of the pipe, by an error and by `uv_close`, and
`closed` tells that the child has closed its end. -/
structure Channel where
  reading : Bool := false
  closed : Bool := false
  unread : Bytes := []

/-- A process with its child, which is `alive` until it ends by itself or by a signal. -/
structure Flow where
  process : State
  alive : Bool := false
  channels : Descriptor → Channel := fun _ => {}

inductive Record where
  | report (report : Report)
  | wrote (fd : Descriptor) (bytes : Bytes)
  /-- `on_data_`. -/
  | data (fd : Descriptor) (bytes : Bytes)
  /-- `on_error_`, called by `OnRead`. -/
  | unreadable (fd : Descriptor) (code : Int)
  deriving DecidableEq

inductive Transfer where
  | move (move : Move)
  | write (fd : Descriptor) (bytes : Bytes)
  | close (fd : Descriptor)
  /-- The child ends; the loop is told of it later. -/
  | ended
  | read (fd : Descriptor) (nread : Int)

/-- `UV_EOF`. -/
def uvEof : Int := -4095

def Flow.initial : Flow where
  process := State.initial

/-- The calls of `uv_read_start` come after one another, and the first error ends them. -/
def Outcome.reads (outcome : Outcome) : Descriptor → Bool
  | .stdout => outcome.readStdout = 0
  | .stderr => outcome.readStdout = 0 ∧ outcome.readStderr = 0

/-- The process after a step of its owner or of the loop.  The pipes of a child that is
not running have been closed. -/
def Flow.proceed (flow : Flow) (move : Move) (process : State) : Flow where
  process := process
  alive :=
    match move with
    | .start _ => process.running
    | _ => flow.alive
  channels := fun fd =>
    { flow.channels fd with
      reading := process.running &&
        match move with
        | .start outcome => outcome.reads fd
        | _ => (flow.channels fd).reading }

def Flow.setChannel (flow : Flow) (fd : Descriptor) (channel : Channel) : Flow :=
  { flow with channels := fun other => if other = fd then channel else flow.channels other }

/-- `OnRead`, where `base` holds what has been read. -/
def onRead (fd : Descriptor) (nread : Int) (base : Bytes) : List Record :=
  if nread ≤ 0 ∧ nread ≠ uvEof then [.unreadable fd nread]
  else if 0 < nread then [.data fd (base.take nread.toNat)]
  else []

/-- What libuv has done before it calls `OnRead`. -/
def Channel.consume (channel : Channel) (nread : Int) : Channel :=
  if nread < 0 then { channel with reading := false }
  else { channel with unread := channel.unread.drop nread.toNat }

/-- The results that a read of the pipe can have: the end is seen when everything has been
read and nobody can write. -/
def Flow.readable (flow : Flow) (fd : Descriptor) (nread : Int) : Bool :=
  (flow.channels fd).reading ∧ nread ≤ (flow.channels fd).unread.length ∧
    (nread = uvEof →
      (flow.alive → (flow.channels fd).closed) ∧ (flow.channels fd).unread = [])

/-- The exit callback of libuv. -/
def Move.isExited : Move → Bool
  | .exited _ _ => true
  | _ => false

/-- The machine of a process with the output of its child. -/
def transfer : Machine Flow Transfer Record
  | flow, .move move =>
      if move.isExited ∧ flow.alive then none
      else
        (drive flow.process move).map fun effect =>
          (flow.proceed move effect.1, effect.2.map .report)
  | flow, .write fd bytes =>
      if flow.alive ∧ ¬ (flow.channels fd).closed then
        let channel := flow.channels fd
        some (flow.setChannel fd { channel with unread := channel.unread ++ bytes },
          [.wrote fd bytes])
      else none
  | flow, .close fd =>
      if flow.alive then
        some (flow.setChannel fd { flow.channels fd with closed := true }, [])
      else none
  | flow, .ended => if flow.alive then some ({ flow with alive := false }, []) else none
  | flow, .read fd nread =>
      if flow.readable fd nread then
        let channel := flow.channels fd
        some (flow.setChannel fd (channel.consume nread), onRead fd nread channel.unread)
      else none

/-- The bytes that `on_data_` was called with, for a descriptor. -/
def delivered (fd : Descriptor) (past : List Record) : Bytes :=
  past.flatMap fun
    | .data other bytes => if other = fd then bytes else []
    | _ => []

/-- The bytes that the child has written to a descriptor. -/
def written (fd : Descriptor) (past : List Record) : Bytes :=
  past.flatMap fun
    | .wrote other bytes => if other = fd then bytes else []
    | _ => []

/-- What the process has reported. -/
def reported (past : List Record) : List Report :=
  past.filterMap fun
    | .report report => some report
    | _ => none

/-- When `on_exit_` is called, `on_data_` has been called with all that was written; nothing
is written or delivered afterwards. -/
def Complete (before : List Record) : Record → Prop
  | .report (.event (.exit _ _)) => ∀ fd, delivered fd before = written fd before
  | .wrote _ _ | .data _ _ => exits (reported before) = []
  | _ => True

/-- The exit callback of libuv comes when the pipes have been read empty. -/
def drained (flow : Flow) : Transfer → Prop
  | .move (.exited _ _) => ∀ fd, (flow.channels fd).unread = []
  | _ => True

theorem Descriptor.forall_iff {P : Descriptor → Prop} : P .stdout ∧ P .stderr ↔ ∀ fd, P fd := by
  constructor
  · rintro ⟨stdout, stderr⟩ fd
    cases fd
    · exact stdout
    · exact stderr
  · exact fun all => ⟨all _, all _⟩

instance {P : Descriptor → Prop} [DecidablePred P] : Decidable (∀ fd, P fd) :=
  decidable_of_iff (P .stdout ∧ P .stderr) Descriptor.forall_iff

instance : ∀ (flow : Flow) (label : Transfer), Decidable (drained flow label)
  | flow, .move (.exited _ _) =>
      inferInstanceAs (Decidable (∀ fd, (flow.channels fd).unread = []))
  | _, .move .setTimeout | _, .move (.start _) | _, .move .kill | _, .move .tick
  | _, .move .complete | _, .write _ _ | _, .close _ | _, .ended | _, .read _ _ => .isTrue trivial

section Output

variable {flow following : Flow} {past : List Record} {fd : Descriptor}

theorem delivered_append (past later : List Record) :
    delivered fd (past ++ later) = delivered fd past ++ delivered fd later :=
  List.flatMap_append

theorem written_append (past later : List Record) :
    written fd (past ++ later) = written fd past ++ written fd later :=
  List.flatMap_append

theorem reported_append (past later : List Record) :
    reported (past ++ later) = reported past ++ reported later :=
  List.filterMap_append

theorem delivered_reports (reports : List Report) :
    delivered fd (reports.map .report) = [] := by
  simp [delivered]

theorem written_reports (reports : List Report) : written fd (reports.map .report) = [] := by
  simp [written]

theorem reported_reports (reports : List Report) :
    reported (reports.map .report) = reports := by
  simp [reported, List.filterMap_map]

/-- Reports of the process are complete as far as they contain an exit. -/
theorem historically_reports (reports : List Report) :
    Historically Complete (past ++ reports.map .report) ↔
      Historically Complete past ∧
        (exits reports ≠ [] → ∀ fd, delivered fd past = written fd past) := by
  induction reports using List.reverseRecOn with
  | nil => simp [exits]
  | append_singleton earlier last ih =>
      rw [List.map_append, ← List.append_assoc, List.map_singleton, historically_snoc, ih,
        exits_append]
      have exit_iff : Complete (past ++ earlier.map .report) (.report last) ↔
          (exits [last] ≠ [] → ∀ fd, delivered fd past = written fd past) := by
        cases last with
        | recorded => simp [Complete, exits]
        | event event =>
            cases event <;>
              simp [Complete, exits, delivered_append, written_append, delivered_reports,
                written_reports]
      rw [exit_iff]
      constructor
      · rintro ⟨⟨complete, before⟩, after⟩
        refine ⟨complete, fun some => ?_⟩
        rcases not_and_or.1 (mt List.append_eq_nil_iff.2 some) with found | found
        · exact before found
        · exact after found
      · rintro ⟨complete, whole⟩
        refine ⟨⟨complete, fun some => whole ?_⟩, fun some => whole ?_⟩
        · exact fun none => some (List.append_eq_nil_iff.1 none).1
        · exact fun none => some (List.append_eq_nil_iff.1 none).2

end Output

/-- A child that is running goes on until its exit is notified. -/
theorem running_of_drive {state : State} {move : Move} {effect : Reaction State Report}
    (moved : drive state move = some effect) (running : state.running = true)
    (other : move.isExited = false) : effect.1.running = true ∨ ∃ outcome, move = .start outcome := by
  obtain ⟨result, acted, rfl⟩ := Option.map_eq_some_iff.1 moved
  dsimp only
  cases move with
  | start outcome => exact .inr ⟨outcome, rfl⟩
  | exited code signal => cases other
  | setTimeout =>
      simp only [act] at acted
      split at acted
      · obtain rfl := Option.some.inj acted
        exact .inl running
      · cases acted
  | kill =>
      simp only [act] at acted
      split at acted
      · obtain rfl := Option.some.inj acted
        exact .inl running
      · cases acted
  | tick =>
      simp only [act, step, if_pos running] at acted
      split at acted
      · obtain rfl := Option.some.inj acted
        exact .inl running
      · cases acted
  | complete =>
      simp only [act, step] at acted
      split at acted
      · cases acted
      · split at acted
        · cases acted
        · split at acted
          · obtain rfl := Option.some.inj acted
            exact .inl running
          · split at acted
            · obtain rfl := Option.some.inj acted
              exact .inl running
            · obtain rfl := Option.some.inj acted
              exact .inl running

/-- What has been written is delivered or unread, and the exit is complete when nothing is
unread. -/
structure Balanced (flow : Flow) (past : List Record) : Prop where
  process : Machine.Reaches drive Machine.always State.initial flow.process (reported past)
  alive : flow.alive = true → flow.process.running = true
  reading : ∀ fd, (flow.channels fd).reading = true → flow.process.running = true
  balance : ∀ fd, written fd past = delivered fd past ++ (flow.channels fd).unread
  complete : Historically Complete past ↔
    (exits (reported past) ≠ [] → ∀ fd, (flow.channels fd).unread = [])

namespace Balanced

variable {flow following : Flow} {past : List Record} {out : List Record} {fd : Descriptor}

theorem initial : Balanced Flow.initial [] where
  process := .start
  alive := by simp [Flow.initial]
  reading := by simp [Flow.initial]
  balance := by simp [Flow.initial, written, delivered]
  complete := by simp [reported, exits]

theorem delivered_iff (balanced : Balanced flow past) :
    (∀ fd, delivered fd past = written fd past) ↔ ∀ fd, (flow.channels fd).unread = [] := by
  constructor
  · intro same fd
    have balance := balanced.balance fd
    rw [← same fd] at balance
    exact List.self_eq_append_right.1 balance
  · intro none fd
    rw [balanced.balance fd, none fd, List.append_nil]

theorem course (balanced : Balanced flow past) : Course flow.process (reported past) :=
  course_of_reaches balanced.process

/-- A child that is running has not been reported. -/
theorem unreported (balanced : Balanced flow past) (running : flow.process.running = true) :
    exits (reported past) = [] ∧ recordings (reported past) = [] := by
  obtain ⟨-, -, -, -, unrecorded, silent⟩ := balanced.course.living running
  exact ⟨silent, unrecorded⟩

/-- A process whose exit has been reported is not running. -/
theorem stopped (balanced : Balanced flow past)
    (ended : exits (reported past) ≠ [] ∨ recordings (reported past) ≠ []) :
    flow.process.running = false := by
  rw [Bool.eq_false_iff]
  intro running
  obtain ⟨silent, unrecorded⟩ := balanced.unreported running
  exact ended.elim (fun some => some silent) fun some => some unrecorded

/-- What the process reports takes nothing from its pipes. -/
theorem move {move : Move} {effect : Reaction State Report} (balanced : Balanced flow past)
    (moved : drive flow.process move = some effect)
    (living : flow.alive = true → move.isExited = false) :
    Balanced (flow.proceed move effect.1) (past ++ effect.2.map .report) := by
  have kept : ∀ fd, ((flow.proceed move effect.1).channels fd).unread =
      (flow.channels fd).unread := fun _ => rfl
  refine ⟨?_, ?_, ?_, ?_, ?_⟩
  · rw [reported_append, reported_reports]
    exact balanced.process.next trivial moved
  · intro alive
    cases move with
    | start => exact alive
    | exited => exact absurd (living alive) (by simp [Move.isExited])
    | setTimeout | kill | tick | complete =>
        have running := running_of_drive moved (balanced.alive alive) (living alive)
        exact running.resolve_right (by simp)
  · intro fd reading
    simp only [Flow.proceed, Bool.and_eq_true] at reading
    exact reading.1
  · intro fd
    rw [written_append, delivered_append, written_reports, delivered_reports, kept,
      List.append_nil, List.append_nil]
    exact balanced.balance fd
  · rw [historically_reports, balanced.complete, balanced.delivered_iff, reported_append,
      reported_reports, exits_append, ← or_imp]
    simp only [kept, ne_eq, List.append_eq_nil_iff, not_and_or]

/-- `OnRead` calls one of the callbacks at most, and hands on what has been taken out of the
pipe. -/
theorem onRead_eq (fd : Descriptor) (nread : Int) (channel : Channel) :
    ∃ record : Option Record, onRead fd nread channel.unread = record.toList ∧
      reported record.toList = [] ∧ (∀ other, written other record.toList = []) ∧
      (∀ other, other ≠ fd → delivered other record.toList = []) ∧
      channel.unread = delivered fd record.toList ++ (channel.consume nread).unread := by
  unfold onRead Channel.consume
  rcases Int.lt_trichotomy nread 0 with negative | rfl | positive
  · rw [if_pos negative, if_neg (fun later : 0 < nread => by omega)]
    split
    · exact ⟨some (.unreadable fd nread), rfl, rfl, fun _ => rfl, fun _ _ => rfl, rfl⟩
    · exact ⟨none, rfl, rfl, fun _ => rfl, fun _ _ => rfl, rfl⟩
  · exact ⟨some (.unreadable fd 0), rfl, rfl, fun _ => rfl, fun _ _ => rfl, rfl⟩
  · rw [if_neg (fun earlier => by omega), if_pos positive, if_neg (by omega)]
    refine ⟨some (.data fd (channel.unread.take nread.toNat)), rfl, rfl, fun _ => rfl, ?_, ?_⟩
    · intro other different
      simp [delivered, Ne.symm different]
    · simp [delivered]

/-- A notification about a pipe of a running child. -/
theorem notify {record : Option Record} (balanced : Balanced flow past)
    (running : flow.process.running = true) (process : following.process = flow.process)
    (silent : reported record.toList = [])
    (balance : ∀ fd, (flow.channels fd).unread ++ written fd record.toList =
      delivered fd record.toList ++ (following.channels fd).unread) :
    Balanced following (past ++ record.toList) where
  process := by
    rw [reported_append, silent, List.append_nil, process]
    exact balanced.process
  alive := fun _ => process ▸ running
  reading := fun _ _ => process ▸ running
  balance := by
    intro fd
    rw [written_append, delivered_append, balanced.balance fd, List.append_assoc, balance fd,
      List.append_assoc]
  complete := by
    have none := (balanced.unreported running).1
    have complete : Historically Complete past := balanced.complete.2 fun some => absurd none some
    rw [reported_append, silent, List.append_nil]
    constructor
    · exact fun _ some => absurd none some
    · intro _
      cases record with
      | none => simpa using complete
      | some record =>
          refine historically_snoc.2 ⟨complete, ?_⟩
          cases record with
          | report report => simp [reported] at silent
          | wrote | data => exact none
          | unreadable => trivial

theorem step {label : Transfer} (balanced : Balanced flow past)
    (moved : transfer flow label = some (following, out)) :
    Balanced following (past ++ out) := by
  cases label with
  | move move =>
      simp only [transfer] at moved
      split at moved
      · cases moved
      · rename_i living
        obtain ⟨effect, driven, same⟩ := Option.map_eq_some_iff.1 moved
        obtain ⟨rfl, rfl⟩ := Prod.mk.inj same
        refine balanced.move driven fun alive => ?_
        rw [Bool.eq_false_iff]
        exact fun exited => living ⟨exited, alive⟩
  | write fd bytes =>
      simp only [transfer] at moved
      split at moved
      · rename_i writable
        obtain ⟨rfl, rfl⟩ := Prod.mk.inj (Option.some.inj moved)
        refine @notify _ _ _ (some (.wrote fd bytes)) balanced (balanced.alive writable.1) rfl rfl ?_
        intro other
        by_cases same : other = fd
        · simp [same, written, delivered, Flow.setChannel]
        · simp [same, Ne.symm same, written, delivered, Flow.setChannel]
      · cases moved
  | close fd =>
      simp only [transfer] at moved
      split at moved
      · rename_i alive
        obtain ⟨rfl, rfl⟩ := Prod.mk.inj (Option.some.inj moved)
        refine @notify _ _ _ none balanced (balanced.alive alive) rfl rfl ?_
        intro other
        by_cases same : other = fd <;> simp [same, written, delivered, Flow.setChannel]
      · cases moved
  | ended =>
      simp only [transfer] at moved
      split at moved
      · rename_i alive
        obtain ⟨rfl, rfl⟩ := Prod.mk.inj (Option.some.inj moved)
        exact @notify _ _ _ none balanced (balanced.alive alive) rfl rfl (by simp [written, delivered])
      · cases moved
  | read fd nread =>
      simp only [transfer] at moved
      split at moved
      · rename_i readable
        obtain ⟨rfl, rfl⟩ := Prod.mk.inj (Option.some.inj moved)
        have reading : (flow.channels fd).reading = true := by
          simp only [Flow.readable, decide_eq_true_eq] at readable
          exact readable.1
        obtain ⟨record, same, silent, unwritten, others, taken⟩ :=
          onRead_eq fd nread (flow.channels fd)
        rw [same]
        refine @notify _ (flow.setChannel fd _) _ _ balanced (balanced.reading fd reading) rfl
          silent ?_
        intro other
        rw [unwritten, List.append_nil]
        by_cases mine : other = fd
        · subst mine
          simpa [Flow.setChannel] using taken
        · simp [Flow.setChannel, mine, others other mine]
      · cases moved

theorem unread_of_move {move : Move} (moved : transfer flow (.move move) = some (following, out))
    (fd : Descriptor) : (following.channels fd).unread = (flow.channels fd).unread := by
  simp only [transfer] at moved
  split at moved
  · cases moved
  · obtain ⟨effect, _, same⟩ := Option.map_eq_some_iff.1 moved
    obtain ⟨rfl, -⟩ := Prod.mk.inj same
    rfl

/-- Nothing is written to or read from the pipes of a process that is not running. -/
theorem unread_kept {label : Transfer} (balanced : Balanced flow past)
    (moved : transfer flow label = some (following, out))
    (stopped : flow.process.running = false) (fd : Descriptor) :
    (following.channels fd).unread = (flow.channels fd).unread := by
  have dead : ¬flow.alive = true := by
    intro alive
    rw [balanced.alive alive] at stopped
    cases stopped
  cases label with
  | move move => exact unread_of_move moved fd
  | write | close | ended => simp [transfer, dead] at moved
  | read fd nread =>
      simp only [transfer] at moved
      split at moved
      · rename_i readable
        simp only [Flow.readable, decide_eq_true_eq] at readable
        rw [balanced.reading fd readable.1] at stopped
        cases stopped
      · cases moved

/-- A child stops running when its exit is notified. -/
theorem exited_of_stopping {label : Transfer} (balanced : Balanced flow past)
    (moved : transfer flow label = some (following, out))
    (running : flow.process.running = true) (stopped : following.process.running = false) :
    ∃ code signal, label = .move (.exited code signal) := by
  cases label with
  | move move =>
      simp only [transfer] at moved
      split at moved
      · cases moved
      · obtain ⟨effect, driven, same⟩ := Option.map_eq_some_iff.1 moved
        obtain ⟨rfl, -⟩ := Prod.mk.inj same
        cases move with
        | exited code signal => exact ⟨code, signal, rfl⟩
        | start outcome =>
            obtain ⟨-, -, -, started, -⟩ := balanced.course.living running
            simp [drive, act, Process.step, started] at driven
        | setTimeout | kill | tick | complete =>
            have goes := (running_of_drive driven running rfl).resolve_right (by simp)
            exact absurd (goes.symm.trans stopped) (by simp)
  | write | close | ended | read =>
      simp only [transfer] at moved
      split at moved
      · obtain ⟨rfl, -⟩ := Prod.mk.inj (Option.some.inj moved)
        exact absurd (running.symm.trans stopped) (by simp)
      · cases moved

theorem of_reaches {flow : Flow} {past : List Record}
    (reached : Machine.Reaches transfer Machine.always Flow.initial flow past) :
    Balanced flow past := by
  refine reached.invariant Balanced .initial ?_
  intro flow following past out label _ balanced _ moved
  exact balanced.step moved

end Balanced

/-- When every exit is notified after the pipes have been read empty, nothing is left in the
pipes of a process that is not running. -/
theorem nothing_left {flow : Flow} {past : List Record}
    (reached : Machine.Reaches transfer drained Flow.initial flow past)
    (stopped : flow.process.running = false) (fd : Descriptor) :
    (flow.channels fd).unread = [] := by
  revert stopped fd
  refine reached.invariant
    (fun flow _ => flow.process.running = false → ∀ fd, (flow.channels fd).unread = []) ?_ ?_
  · exact fun _ _ => rfl
  · intro flow following past out label reached empty allowed moved stopped fd
    have balanced : Balanced flow past := .of_reaches (reached.mono fun _ _ _ => trivial)
    cases running : flow.process.running with
    | false => rw [balanced.unread_kept moved running, empty running]
    | true =>
        obtain ⟨code, signal, rfl⟩ := balanced.exited_of_stopping moved running stopped
        rw [Balanced.unread_of_move moved]
        exact allowed fd

/-- What is unread after a termination has been recorded stays unread. -/
theorem unread_after {flow final : Flow} {past later : List Record}
    (reached : Machine.Reaches transfer Machine.always Flow.initial flow past)
    (recorded : recordings (reported past) ≠ [])
    (after : Machine.Reaches transfer Machine.always flow final later) (fd : Descriptor) :
    (final.channels fd).unread = (flow.channels fd).unread := by
  induction after with
  | start => rfl
  | next earlier _ moved ih =>
      have balanced := Balanced.of_reaches (reached.trans earlier)
      have stopped := balanced.stopped (.inr (by
        rw [reported_append, recordings_append]
        simp [recorded]))
      rw [balanced.unread_kept moved stopped, ih]

theorem recorded_of_exited {flow notified : Flow} {past out : List Record} {code signal : Int}
    (exited : transfer flow (.move (.exited code signal)) = some (notified, out)) :
    recordings (reported (past ++ out)) ≠ [] := by
  simp only [transfer] at exited
  split at exited
  · cases exited
  · obtain ⟨effect, driven, same⟩ := Option.map_eq_some_iff.1 exited
    obtain ⟨result, -, rfl⟩ := Option.map_eq_some_iff.1 driven
    obtain ⟨-, rfl⟩ := Prod.mk.inj same
    rw [reported_append, reported_reports, recordings_append]
    simp [termination, recordings]

/-- All of the output of a child is delivered, in order and before `on_exit_` is called, in
a run in which the exit is notified after the pipes have been read empty; what is unread
at the notification of an exit is never delivered. -/
theorem output_delivered (flow : Flow) (past : List Record) :
    (Machine.Reaches transfer drained Flow.initial flow past → Historically Complete past) ∧
    ∀ (notified final : Flow) (out later : List Record) (code signal : Int),
      Machine.Reaches transfer Machine.always Flow.initial flow past →
      transfer flow (.move (.exited code signal)) = some (notified, out) →
      Machine.Reaches transfer Machine.always notified final later →
      exits (reported later) ≠ [] →
      (Historically Complete (past ++ (out ++ later)) ↔ ∀ fd, (flow.channels fd).unread = []) := by
  constructor
  · intro reached
    have balanced : Balanced flow past :=
      Balanced.of_reaches (reached.mono fun _ _ _ => trivial)
    exact balanced.complete.2 fun ended => nothing_left reached (balanced.stopped (.inl ended))
  · intro notified final out later code signal reached exited after ended
    have there : Machine.Reaches transfer Machine.always Flow.initial notified (past ++ out) :=
      reached.next trivial exited
    have balanced : Balanced final (past ++ (out ++ later)) := by
      rw [← List.append_assoc]
      exact .of_reaches (there.trans after)
    have unread : ∀ fd, (final.channels fd).unread = (flow.channels fd).unread := by
      intro fd
      rw [unread_after there (recorded_of_exited exited) after,
        Balanced.unread_of_move exited]
    have gone : exits (reported (past ++ (out ++ later))) ≠ [] := by
      rw [reported_append, reported_append, exits_append, exits_append]
      simp [ended]
    rw [balanced.complete]
    simp only [unread, gone, ne_eq, not_false_eq_true, forall_const]

/-- The reports of a start and of an exit with status 0. -/
def opened : List Record :=
  (List.finRange 3).map fun index => .report (.event (.initialised index))

def ended : List Record :=
  [.report (.recorded 0 0), .report (.event (.exit 0 0)), .report (.event (.deleted pipes))]

/-- What a child writes is read in two parts, the second one after the child has ended. -/
theorem output_delivered_read : ∃ flow past,
    Machine.Reaches transfer drained Flow.initial flow past ∧ exits (reported past) = [(0, 0)] ∧
      written .stdout past = [97, 98] ∧ Historically Complete past := by
  let reads : List Record := [.wrote .stdout [97, 98], .data .stdout [97], .data .stdout [98]]
  obtain ⟨flow, reached, -⟩ := Machine.exists_reaches transfer drained Flow.initial
    [.move (.start {}), .write .stdout [97, 98], .read .stdout 1, .ended, .read .stdout 1,
      .read .stdout uvEof, .move (.exited 0 0), .move .complete]
    (opened ++ reads ++ ended)
    (fun _ => true) (by decide)
  exact ⟨flow, _, reached, rfl, rfl, (output_delivered flow _).1 reached⟩

/-- A child writes and ends; the exit is notified before the pipe is read. -/
theorem output_lost : ∃ flow past,
    Machine.Reaches transfer Machine.always Flow.initial flow past ∧
      exits (reported past) = [(0, 0)] ∧
      written .stdout past = [97] ∧ delivered .stdout past = [] := by
  obtain ⟨flow, reached, -⟩ := Machine.exists_reaches transfer Machine.always Flow.initial
    [.move (.start {}), .write .stdout [97], .ended, .move (.exited 0 0), .move .complete]
    (opened ++ [.wrote .stdout [97]] ++ ended)
    (fun _ => true) (by decide)
  exact ⟨flow, _, reached, rfl, rfl, rfl⟩

end Nexer.Process
