import Nexer.TcpClient.Once

/-!
# The answer of a connect with retries

Until its timer closes, a call of `Connect` has not answered.  The step that closes the
timer answers, and no other one does.
-/

namespace Nexer.TcpClient.Retry

open Nexer.Transition

variable {timeout : Nat} {state following : State} {past out : List Event}

/-- The clients with which `then` is called. -/
def answersIn (out : List Event) : List (Option Nat) :=
  out.filterMap fun
    | .answered client => some client
    | _ => none

theorem mem_answersIn {client : Option Nat} : client ∈ answersIn out ↔ .answered client ∈ out := by
  simp only [answersIn, List.mem_filterMap]
  constructor
  · rintro ⟨event, member, found⟩
    split at found
    · obtain rfl := Option.some.inj found
      exact member
    · cases found
  · exact fun member => ⟨_, member, rfl⟩

@[simp] theorem answersIn_append : answersIn (past ++ out) = answersIn past ++ answersIn out :=
  List.filterMap_append

theorem sound_of_reaches {guard : State → Label → Prop}
    (reached : Machine.Reaches (step timeout) guard .initial state past) :
    Sound timeout state past :=
  reached.invariant (Sound timeout) sound_initial fun _ sound _ moved => sound.step moved

/-- What has answered has called `then` once. -/
theorem Sound.answersIn_length (sound : Sound timeout state past) :
    (answersIn past).length = if state.timer = .opened then 0 else 1 := by
  have unanswered := sound.answered_iff
  have once : (answersIn past).length ≤ 1 := by
    have proper := sound.proper
    clear sound unanswered
    induction past using List.reverseRecOn with
    | nil => exact Nat.zero_le 1
    | append_singleton before event ih =>
        obtain ⟨earlier, last⟩ := historically_snoc.mp proper
        rw [answersIn_append, List.length_append]
        have unanswered (client : Option Nat) (same : event = .answered client) :
            answersIn before = [] := by
          subst same
          rw [List.eq_nil_iff_forall_not_mem]
          intro other member
          cases client with
          | none => exact last.2 other (mem_answersIn.mp member)
          | some attempt => exact last.2 other (mem_answersIn.mp member)
        cases event with
        | answered client =>
            rw [unanswered client rfl]
            exact Nat.le_refl 1
        | _ => simpa [answersIn] using ih earlier
  split
  · next open_ =>
    rw [List.length_eq_zero_iff, List.eq_nil_iff_forall_not_mem]
    intro client member
    exact unanswered.mp ⟨client, mem_answersIn.mp member⟩ open_
  · next closed =>
    obtain ⟨client, member⟩ := unanswered.mpr closed
    exact Nat.le_antisymm once (List.length_pos_of_mem (mem_answersIn.mpr member))

/-- A step answers if and only if it closes the timer. -/
theorem answersIn_of_step (reached : Machine.Reaches (step timeout) Machine.always .initial state past)
    {label : Label} (moved : step timeout state label = some (following, out)) :
    (answersIn out = [] ∧ (following.timer = .opened ↔ state.timer = .opened)) ∨
      ∃ client, answersIn out = [client] ∧ state.timer = .opened ∧ following.timer ≠ .opened := by
  have before := (sound_of_reaches reached).answersIn_length
  have after := (sound_of_reaches (reached.next trivial moved)).answersIn_length
  rw [answersIn_append, List.length_append, before] at after
  by_cases opened : state.timer = .opened <;> by_cases kept : following.timer = .opened <;>
    simp only [opened, kept, if_true, if_false] at after
  · exact .inl ⟨by simpa using after, by simp [opened, kept]⟩
  · obtain ⟨client, single⟩ := List.length_eq_one_iff.mp (by simpa using after)
    exact .inr ⟨client, single, opened, kept⟩
  · omega
  · exact .inl ⟨by simpa using after, by simp [opened, kept]⟩

end Nexer.TcpClient.Retry
