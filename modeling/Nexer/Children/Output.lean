import Nexer.Children.Expected

/-!
# What the children write

The listeners of `OnProcessData` are handed what each child has written to each descriptor,
in order and nothing else, as far as it has been read.
-/

namespace Nexer.Children

open Nexer.Transition
open Nexer.Manager (Pid endings)

variable {α : Type}

/-- The bytes that the listeners of `OnProcessData` have been called with. -/
def handed (pid : Pid) (fd : Nat) (past : List (Manager.Event α)) : Bytes :=
  past.flatMap fun
    | .processData other descriptor bytes => if other = pid ∧ descriptor = fd then bytes else []
    | _ => []

/-- The exit callback of libuv comes when the pipes of the child have been read empty. -/
def drained (state : State α) : Label α → Prop
  | .exited pid _ => ∀ fd, ((state.children pid).channels fd).unread = []
  | _ => True

instance : ∀ (state : State α) (label : Label α), Decidable (drained state label)
  | state, .exited pid _ =>
      inferInstanceAs (Decidable (∀ fd, ((state.children pid).channels fd).unread = []))
  | _, .manager _ | _, .start _ | _, .child _ _ => .isTrue trivial

theorem number_injective {fd other : Process.Descriptor} (same : number fd = number other) :
    fd = other := by
  cases fd <;> cases other <;> simp_all [number]

variable [DecidableEq α] {config : α → Manager.AppConfig α}
variable {state following : State α} {label : Label α} {past out : List (Event α)} {pid : Pid}
variable {manager next : Manager.State α} {heard : Manager.Label α}
variable {events : List (Manager.Event α)}

omit [DecidableEq α] in
theorem handed_append (fd : Nat) (more : List (Manager.Event α)) :
    handed pid fd (events ++ more) = handed pid fd events ++ handed pid fd more :=
  List.flatMap_append

/-- Data is handed on when it is read. -/
theorem read_of_data (move : Manager.Move config manager heard next events) {other : Pid}
    {fd : Nat} {bytes : Bytes} (data : .processData other fd bytes ∈ events) :
    ∃ nread buffer, heard = .read other fd nread buffer := by
  cases move
  case readData =>
    simp only [List.mem_singleton, Manager.Event.processData.injEq] at data
    obtain ⟨rfl, rfl, -⟩ := data
    exact ⟨_, _, rfl⟩
  case errorChecker =>
    rcases List.mem_cons.mp data with same | member
    · cases same
    · split at member <;> simp at member
  case queueMore | queueFirst =>
    rcases List.mem_cons.mp data with same | member
    · cases same
    · cases Manager.traversalFault_fault member
  case clearCallbacks => cases Manager.traversalFault_fault data
  case startedClear | tickIdle =>
    rw [Manager.closeTimer_snd] at data
    split at data <;> simp at data
  all_goals simp at data

/-- Only what is read is handed on. -/
theorem handed_of_move (moved : Manager.step config manager heard = some (next, events)) (fd : Nat)
    (other : ∀ nread buffer, heard ≠ .read pid fd nread buffer) : handed pid fd events = [] := by
  rw [handed, List.flatMap_eq_nil_iff]
  intro event member
  cases event with
  | processData of descriptor bytes =>
      obtain ⟨nread, buffer, read⟩ := read_of_data (Manager.move_of_step moved) member
      refine if_neg ?_
      rintro ⟨rfl, rfl⟩
      exact other nread buffer read
  | _ => rfl

/-- What is read is handed on as the process hands it on. -/
theorem handed_of_read {other : Pid} {fd target : Process.Descriptor} {nread : Int} {buffer : Bytes}
    (moved : Manager.step config manager (.read other (number fd) nread buffer) =
      some (next, events)) :
    handed pid (number target) events =
      if pid = other then Process.delivered target (Process.onRead fd nread buffer) else [] := by
  have same : (other = pid ∧ number fd = number target) ↔ pid = other ∧ fd = target :=
    ⟨fun same => ⟨same.1.symm, number_injective same.2⟩, fun same => ⟨same.1.symm, same.2 ▸ rfl⟩⟩
  cases Manager.move_of_step moved with
  | readError idle live running failed =>
      have failed : nread ≤ 0 ∧ nread ≠ Process.uvEof := failed
      simp [handed, Process.onRead, failed, Process.delivered]
  | readData idle live running received =>
      have fine : ¬(nread ≤ 0 ∧ nread ≠ Process.uvEof) := fun failed => by omega
      simp only [handed, Process.onRead, if_neg fine, if_pos received, Process.delivered,
        List.flatMap_cons, List.flatMap_nil, List.append_nil, same]
      exact ite_and _ _ _ _
  | readEnd =>
      simp [handed, Process.onRead, Process.delivered, Manager.uvEof, Process.uvEof]

theorem records_of_read {flow after : Process.Flow} {records : List Process.Record}
    {fd : Process.Descriptor} {nread : Int}
    (moved : Process.transfer flow (.read fd nread) = some (after, records)) :
    records = Process.onRead fd nread (flow.channels fd).unread := by
  simp only [Process.transfer, Option.ite_none_right_eq_some, Option.some.injEq] at moved
  exact (Prod.mk.inj moved.2).2.symm

/-- Nothing is handed on but what is read. -/
theorem delivered_of_other {flow after : Process.Flow} {records : List Process.Record}
    {transfer : Process.Transfer} (moved : Process.transfer flow transfer = some (after, records))
    (other : ∀ fd nread, transfer ≠ .read fd nread) (fd : Process.Descriptor) :
    Process.delivered fd records = [] := by
  cases transfer with
  | move move =>
      obtain ⟨told, rfl⟩ := Process.reports_of_transfer moved
      exact Process.delivered_reports told
  | read from_ nread => exact absurd rfl (other from_ nread)
  | write | close | ended =>
      simp only [Process.transfer, Option.ite_none_right_eq_some, Option.some.injEq] at moved
      obtain ⟨-, same⟩ := moved
      obtain ⟨-, rfl⟩ := Prod.mk.inj same
      rfl

/-- A step hands on what the process hands on. -/
theorem handed_of_step (stepped : step config state label = some (following, out))
    (fd : Process.Descriptor) :
    handed pid (number fd) (reports out) = Process.delivered fd (recordsOf pid out) := by
  have unread {records : List Process.Record} (silent : Process.delivered fd records = [])
      (other : Pid) : Process.delivered fd (if pid = other then records else []) = [] := by
    split
    · exact silent
    · rfl
  cases steps_of_step stepped with
  | manager heard manager events owned moved =>
      rw [reports_inl, recordsOf_inl]
      refine handed_of_move moved _ ?_
      rintro nread buffer rfl
      cases owned
  | start other role rest outcome flow records manager events pending launched moved =>
      obtain ⟨told, rfl⟩ := Process.reports_of_launch launched
      rw [reports_both, recordsOf_both, unread (Process.delivered_reports told)]
      exact handed_of_move moved _ (by simp)
  | unheard other transfer flow records permitted quiet moved =>
      rw [reports_inr, recordsOf_inr, unread (delivered_of_other moved ?_ fd)]
      · rfl
      · rintro fd nread rfl
        cases quiet
  | heard other transfer heard flow records manager events permitted noticed moved took =>
      rw [reports_both, recordsOf_both]
      by_cases read : ∃ fd nread, transfer = .read fd nread
      · obtain ⟨source, nread, rfl⟩ := read
        obtain rfl := Option.some.inj noticed
        rw [records_of_read moved, handed_of_read took]
        split
        · rfl
        · rfl
      · rw [unread (delivered_of_other moved (fun fd nread same => read ⟨fd, nread, same⟩) fd)]
        refine handed_of_move took _ ?_
        rintro nread buffer rfl
        cases transfer with
        | read source nread => exact read ⟨source, nread, rfl⟩
        | write | close | ended => cases noticed
        | move move => cases move <;> simp [notice] at noticed
  | exited other termination flow records manager events moved took =>
      obtain ⟨told, rfl⟩ := Process.reports_of_transfer moved
      rw [reports_both, recordsOf_both, unread (Process.delivered_reports told)]
      exact handed_of_move took _ (by simp)

theorem handed_eq {guard : State α → Label α → Prop}
    (reached : Machine.Reaches (step config) guard (.initial α) state past)
    (fd : Process.Descriptor) :
    handed pid (number fd) (reports past) = Process.delivered fd (recordsOf pid past) := by
  induction reached with
  | start => rfl
  | next _ _ stepped ih =>
      rw [reports_append, recordsOf_append, handed_append, Process.delivered_append, ih,
        handed_of_step stepped]

theorem drained_of_permitted {transfer : Process.Transfer} {idle : Bool} (flow : Process.Flow)
    (permitted : permitted idle transfer) : Process.drained flow transfer := by
  cases transfer with
  | move move =>
      cases move with
      | exited => cases permitted
      | setTimeout | start | kill | tick | complete => trivial
  | write | close | ended | read => trivial

/-- The processes of a run in which each exit is notified late enough. -/
theorem child_drained (reached : Machine.Reaches (step config) drained (.initial α) state past)
    (pid : Pid) : Machine.Reaches Process.transfer Process.drained .initial (state.children pid)
      (recordsOf pid past) := by
  induction reached with
  | start => exact .start
  | @next state following past out label before allowed stepped ih =>
      rw [recordsOf_append]
      have moves {other : Pid} {transfer : Process.Transfer} {flow : Process.Flow}
          {records : List Process.Record}
          (read : Process.drained (state.children other) transfer)
          (moved : Process.transfer (state.children other) transfer = some (flow, records)) :
          Machine.Reaches Process.transfer Process.drained .initial
            (Function.update state.children other flow pid)
            (recordsOf pid past ++ if pid = other then records else []) := by
        by_cases same : pid = other
        · subst same
          rw [Function.update_self, if_pos rfl]
          exact ih.next read moved
        · rw [Function.update_of_ne same, if_neg same, List.append_nil]
          exact ih
      cases steps_of_step stepped with
      | manager heard manager events owned moved =>
          rw [recordsOf_inl, List.append_nil]
          exact ih
      | start other role rest outcome flow records manager events pending launched moved =>
          rw [recordsOf_both]
          by_cases same : pid = other
          · subst same
            obtain ⟨standing, stands, kin⟩ := (agrees_of_reaches before pid).kin
            obtain ⟨next, -, advance⟩ :=
              Manager.advance_of_move (Manager.move_of_step moved) stands
            obtain ⟨rfl, -⟩ := stands.of_head pending (if_pos rfl)
            rw [if_pos rfl]
            show Machine.Reaches _ _ _ (Function.update state.children pid flow pid) _
            rw [Function.update_self]
            exact (kin.launched launched advance ⟨role, rest, pending⟩).1.reached
          · rw [if_neg same, List.append_nil]
            show Machine.Reaches _ _ _ (Function.update state.children other flow pid) _
            rw [Function.update_of_ne same]
            exact ih
      | unheard other transfer flow records permitted quiet moved =>
          rw [recordsOf_inr]
          exact moves (drained_of_permitted _ permitted) moved
      | heard other transfer heard flow records manager events permitted noticed moved took =>
          rw [recordsOf_both]
          exact moves (drained_of_permitted _ permitted) moved
      | exited other termination flow records manager events moved took =>
          have read : Process.drained (state.children other)
            (.move (.exited termination.code termination.signal)) := allowed
          rw [recordsOf_both]
          exact moves read moved

/-- What has been handed on is what the child has written, but for what is unread.  Where each
exit is notified after the pipes have been read empty, all of it has been handed on when the
exit closure runs. -/
theorem output_handed_on (state : State α) (past : List (Event α)) (pid : Pid)
    (fd : Process.Descriptor) :
    (Machine.Reaches (step config) Machine.always (.initial α) state past →
      Process.written fd (recordsOf pid past) =
        handed pid (number fd) (reports past) ++ ((state.children pid).channels fd).unread) ∧
    (Machine.Reaches (step config) drained (.initial α) state past →
      endings pid (reports past) ≠ [] →
      handed pid (number fd) (reports past) = Process.written fd (recordsOf pid past)) := by
  refine ⟨fun reached => ?_, fun reached ended => ?_⟩
  · rw [handed_eq reached]
    exact (agrees_of_reaches reached pid).balanced.balance fd
  · have agrees := agrees_of_reaches reached pid
    have stopped : (state.children pid).process.running = false := by
      obtain ⟨standing, -, kin⟩ := agrees.kin
      rcases kin.accounts agrees.balanced with ⟨silent, -⟩ | ⟨-, ending, -, exits, -⟩
      · exact absurd silent ended
      · exact agrees.balanced.stopped (.inl (by simp [exits]))
    have empty := Process.nothing_left (child_drained reached pid) stopped fd
    rw [handed_eq reached, agrees.balanced.balance fd, empty, List.append_nil]

/-- What the child of a run writes is read before it is killed, and handed on. -/
theorem output_handed_on_run : ∃ state past,
    Machine.Reaches (step timedApp) drained (.initial Unit) state past ∧
      endings 0 (reports past) ≠ [] ∧ handed 0 1 (reports past) = [104, 105] := by
  obtain ⟨state, reached, checked⟩ := Machine.exists_reaches (step timedApp) drained
    (.initial Unit) (begun ++ timedOut) (begunEvents ++ timedOutEvents) (fun _ => true) (by decide)
  have ended : endings 0 (reports (begunEvents ++ timedOutEvents)) ≠ [] := by decide
  have handed := (output_handed_on state _ 0 .stdout).2 reached ended
  exact ⟨state, _, reached, ended, handed.trans (by decide)⟩

end Nexer.Children
