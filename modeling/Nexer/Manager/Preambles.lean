import Nexer.Manager.Rounds
import Nexer.Transition.History
import Mathlib.Data.List.Perm.Subperm

/-!
# Preambles gate the start

The closures of a round share the counters of their app with the closures of
every other round.  As long as only closures of the latest round are invoked,
`pending_preamble` is the number of closures of that round still outstanding, the
continuation of `Start` is invoked once, after the last of them, and a main
process is spawned only when all of them have reported success.  After two
overlapping calls of `Start` none of this holds.
-/

namespace Nexer.Manager

open Nexer.Transition

variable {α : Type} [DecidableEq α] {config : α → AppConfig α}
variable {state following : State α} {label : Label α} {past out : List (Event α)}

/-- The answers of one round with an error other than 0. -/
def failures (app : α) (round : Nat) (past : List (Event α)) : Nat :=
  past.countP fun
    | .answered _ waiter _ error => waiter.callback = .preamble app round ∧ error ≠ 0
    | _ => false

/-- Every preamble has answered the closures of the round, with error 0. -/
def Passed (config : α → AppConfig α) (past : List (Event α)) (app : α) (round : Nat) : Prop :=
  (responders app round past).Perm (config app).preamble ∧ failures app round past = 0

/-- The answers of the latest round that are still to come. -/
def outstanding (config : α → AppConfig α) (state : State α) (past : List (Event α))
    (app : α) : List α :=
  if (state.apps app).rounds = 0 then []
  else (config app).preamble.diff (responders app (state.apps app).rounds past)

def Call.continues (app : α) (round : Nat) : Call α → Bool
  | .prepared other earlier _ => other = app ∧ earlier = round
  | _ => false

def Event.continues (app : α) (round : Nat) : Event α → Bool
  | .prepared other earlier _ => other = app ∧ earlier = round
  | _ => false

/-- How often the continuation of one `Start` has been invoked or is about to be. -/
def continued (state : State α) (past : List (Event α)) (app : α) (round : Nat) : Nat :=
  state.todo.countP (Call.continues app round) + past.countP (Event.continues app round)

/-- A main process is spawned by a `Start` whose preambles have all succeeded. -/
def Gate (config : α → AppConfig α) (before : List (Event α)) : Event α → Prop
  | .spawned _ (.main app round) => Passed config before app round
  | _ => True

/-- No closure is invoked after a later `Start` of its app. -/
def currentAnswers (state : State α) : Label α → Prop
  | .call =>
      match state.todo with
      | .answer _ (⟨_, .preamble app round⟩ :: _) _ :: _ => round = (state.apps app).rounds
      | _ => True
  | _ => True

def gatesStarts (state : State α) (label : Label α) : Prop :=
  currentAnswers state label ∧ outsideTraversals state label

instance : ∀ (state : State α) (label : Label α), Decidable (currentAnswers state label)
  | { todo := [], .. }, .call => .isTrue trivial
  | { todo := call :: _, .. }, .call =>
      match call with
      | .answer _ (⟨_, .preamble _ round⟩ :: _) _ => inferInstanceAs (Decidable (round = _))
      | .answer _ (⟨_, .caller _⟩ :: _) _ | .answer _ [] _
      | .require .. | .check .. | .checked .. | .start .. | .prepared .. | .processStart ..
      | .onProcessStart .. | .endCheck .. | .onError .. | .onProcessExit .. | .kill ..
      | .onExit .. | .clearCallbacks .. | .setChecking .. => .isTrue trivial
  | _, .clock _ | _, .spawn _ | _, .require .. | _, .read .. | _, .exited ..
  | _, .closed _ | _, .timeout _ | _, .tick _ | _, .timerClosed _ => .isTrue trivial

instance (state : State α) (label : Label α) : Decidable (gatesStarts state label) :=
  inferInstanceAs (Decidable (_ ∧ _))

@[simp] theorem failures_append (app : α) (round : Nat) (past out : List (Event α)) :
    failures app round (past ++ out) = failures app round past + failures app round out :=
  List.countP_append

theorem failures_le (app : α) (round : Nat) (past : List (Event α)) :
    failures app round past ≤ (responders app round past).length := by
  rw [responders, failures, List.length_filterMap_eq_countP]
  refine List.countP_mono_left fun event _ failed => ?_
  cases event <;> simp_all

/-- No preamble answers a round more often than it is listed. -/
theorem responders_subperm (rounds : Rounds config state past) (inOrder : InOrder state past)
    (app : α) (round : Nat) : (responders app round past).Subperm (config app).preamble := by
  rw [List.subperm_ext_iff]
  intro lower _
  have issued := rounds.issued app round lower
  rw [Manager.issued, inOrder lower, List.countP_append] at issued
  rw [count_responders]
  split at issued <;> omega

/-- What a step can do to the latest round of an app: nothing, open the next one, or
answer one of its closures. -/
theorem round_of_move (move : Move config state label following out)
    (guarded : currentAnswers state label) (app : α) :
    ((∀ rest, label.inner → state.todo ≠ .start app :: rest) ∧
      (∀ lower ticket round others error rest, label.inner →
        state.todo ≠ .answer lower (⟨ticket, .preamble app round⟩ :: others) error :: rest) ∧
      (following.apps app).rounds = (state.apps app).rounds ∧
      (following.apps app).pendingPreamble = (state.apps app).pendingPreamble ∧
      (following.apps app).errorPreamble = (state.apps app).errorPreamble ∧
      ∀ round, responders app round out = []) ∨
    (∃ rest, label.inner ∧ state.todo = .start app :: rest ∧
      (following.apps app).rounds = (state.apps app).rounds + 1 ∧
      (following.apps app).pendingPreamble = (config app).preamble.length ∧
      (following.apps app).errorPreamble = 0 ∧ ∀ round, responders app round out = []) ∨
    (∃ lower ticket others error rest process, label.inner ∧
      state.todo =
        .answer lower (⟨ticket, .preamble app (state.apps app).rounds⟩ :: others) error :: rest ∧
      (following.apps app).rounds = (state.apps app).rounds ∧
      (following.apps app).pendingPreamble = (state.apps app).pendingPreamble - 1 ∧
      (following.apps app).errorPreamble =
        (state.apps app).errorPreamble + (if error ≠ 0 then 1 else 0) ∧
      out = [.answered lower ⟨ticket, .preamble app (state.apps app).rounds⟩ process error]) := by
  have silent (other : ∀ lower ticket round others error rest, label.inner →
      state.todo ≠ .answer lower (⟨ticket, .preamble app round⟩ :: others) error :: rest) :
      ∀ round, responders app round out = [] := by
    intro round
    rcases responders_of_move move app round with none | ⟨_, _, _, _, _, inner, pending, _⟩
    · exact none
    · exact absurd pending (other _ _ _ _ _ _ inner)
  by_cases inner : label.inner
  · rcases preamble_of_move move app with ⟨same, count, errors⟩ |
      ⟨rest, pending, more, count, errors⟩ |
      ⟨lower, ticket, round, others, error, rest, pending, same, count, errors⟩
    · have unanswered : ∀ lower ticket round others error rest, label.inner →
          state.todo ≠ .answer lower (⟨ticket, .preamble app round⟩ :: others) error :: rest := by
        intro _ _ _ _ _ _ _ pending
        have counted := counted_of_answer move inner pending
        omega
      refine .inl ⟨fun rest _ pending => ?_, unanswered, same, count, errors, silent unanswered⟩
      have opened := (opened_of_start move inner pending app 0).1
      omega
    · refine .inr (.inl ⟨rest, inner, pending, more, count, errors, silent ?_⟩)
      intro _ _ _ _ _ _ _ top
      cases pending.symm.trans top
    · obtain rfl := call_of_inner move inner pending (by simp)
      obtain rfl : round = (state.apps app).rounds := by
        simpa [currentAnswers, pending] using guarded
      exact .inr (.inr ⟨lower, ticket, others, error, rest, _, rfl, pending, same, count, errors,
        out_of_answer move rfl pending⟩)
  · have same := apps_outer move (by simpa using inner)
    refine .inl ⟨by simp [inner], by simp [inner], by rw [same], by rw [same], by rw [same],
      silent (by simp [inner])⟩

/-- The calls that go on after a round know that it has passed. -/
def Call.passes (config : α → AppConfig α) (past : List (Event α)) : Call α → Prop
  | .prepared app round error => error = 0 → Passed config past app round
  | .processStart _ (.main app round) => Passed config past app round
  | _ => True

structure Gated (config : α → AppConfig α) (state : State α) (past : List (Event α)) :
    Prop where
  unstarted : ∀ app, (state.apps app).rounds = 0 → (state.apps app).pendingPreamble = 0
  counter : ∀ app, 1 ≤ (state.apps app).rounds → (state.apps app).pendingPreamble +
    (responders app (state.apps app).rounds past).length = (config app).preamble.length
  errors : ∀ app, (state.apps app).errorPreamble = failures app (state.apps app).rounds past
  continuation : ∀ app round, continued state past app round =
    if (1 ≤ round ∧ round ≤ (state.apps app).rounds) ∧
      (responders app round past).length = (config app).preamble.length then 1 else 0
  passes : ∀ call ∈ state.todo, call.passes config past

theorem gated_initial : Gated config (State.initial α) [] where
  unstarted := by simp [State.initial]
  counter := by simp [State.initial]
  errors := by simp [State.initial, failures]
  continuation := by
    intro app round
    rw [if_neg fun bounds => Nat.not_succ_le_zero 0 (Nat.le_trans bounds.1.1 bounds.1.2)]
    rfl
  passes := by simp [State.initial]

/-- A round that has passed has no closures left that could be answered. -/
theorem Passed.append {round : Nat}
    (bound : (responders app round (past ++ out)).Subperm (config app).preamble)
    (passed : Passed config past app round) : Passed config (past ++ out) app round := by
  have full := passed.1.length_eq
  have fits := bound.length_le
  rw [responders_append, List.length_append] at fits
  have none_more : responders app round out = [] :=
    List.length_eq_zero_iff.mp (by omega)
  have few := failures_le app round out
  rw [none_more] at few
  refine ⟨?_, ?_⟩
  · rw [responders_append, none_more, List.append_nil]
    exact passed.1
  · rw [failures_append, passed.2]
    simpa using few

namespace Gated

theorem counter_of_move (move : Move config state label following out)
    (guarded : currentAnswers state label) (rounds : Rounds config state past)
    (gated : Gated config state past) :
    ∀ app, 1 ≤ (following.apps app).rounds → (following.apps app).pendingPreamble +
      (responders app (following.apps app).rounds (past ++ out)).length =
        (config app).preamble.length := by
  intro app begun
  rw [responders_append]
  rcases round_of_move move guarded app with ⟨_, _, same, count, _, silent⟩ |
    ⟨_, _, _, more, count, _, silent⟩ | ⟨_, _, _, _, _, _, _, _, same, count, _, rfl⟩
  · rw [same, count, silent, List.append_nil]
    exact gated.counter app (same ▸ begun)
  · rw [more, count, silent, rounds.unopened app _ (Nat.lt_succ_self _)]
    simp
  · have before := gated.counter app (same ▸ begun)
    rw [same, count, responders_answered, List.length_append, List.length_singleton]
    omega

theorem errors_of_move (move : Move config state label following out)
    (guarded : currentAnswers state label) (rounds : Rounds config state past)
    (gated : Gated config state past) :
    ∀ app, (following.apps app).errorPreamble =
      failures app (following.apps app).rounds (past ++ out) := by
  intro app
  have silent_failures (round : Nat) (silent : responders app round out = []) :
      failures app round out = 0 := by
    simpa [silent] using failures_le app round out
  rw [failures_append]
  rcases round_of_move move guarded app with ⟨_, _, same, _, errors, silent⟩ |
    ⟨_, _, _, more, _, errors, silent⟩ | ⟨_, _, _, error, _, _, _, _, same, _, errors, rfl⟩
  · rw [same, errors, silent_failures _ (silent _), gated.errors app, Nat.add_zero]
  · have unopened := failures_le app ((state.apps app).rounds + 1) past
    rw [rounds.unopened app _ (Nat.lt_succ_self _)] at unopened
    have none_failed : failures app ((state.apps app).rounds + 1) past = 0 := by
      simpa using unopened
    rw [more, errors, silent_failures _ (silent _), none_failed]
    rfl
  · rw [same, errors, gated.errors app]
    by_cases failed : error = 0 <;> simp [failures, failed]

theorem unstarted_of_move (move : Move config state label following out)
    (guarded : currentAnswers state label) (sound : Sound config state)
    (gated : Gated config state past) :
    ∀ app, (following.apps app).rounds = 0 → (following.apps app).pendingPreamble = 0 := by
  intro app none
  rcases round_of_move move guarded app with ⟨_, _, same, count, _⟩ | ⟨_, _, _, more, _⟩ |
    ⟨_, _, _, _, _, _, _, pending, same, _⟩
  · exact count.trans (gated.unstarted app (same ▸ none))
  · omega
  · have begun : 1 ≤ (state.apps app).rounds := (sound.ordered_of_answer pending).2.1
    omega

end Gated

/-- A step that neither opens a round of the app nor answers a closure of it makes no
call of a continuation of its `Start`. -/
theorem continued_kept (move : Move config state label following out) {app : α}
    (started : ∀ rest, label.inner → state.todo ≠ .start app :: rest)
    (answered : ∀ lower ticket round others error rest, label.inner →
      state.todo ≠ .answer lower (⟨ticket, .preamble app round⟩ :: others) error :: rest)
    (round : Nat) :
    continued following (past ++ out) app round = continued state past app round := by
  simp only [continued, List.countP_append]
  by_cases prepared : ∃ error rest, state.todo = .prepared app round error :: rest
  · obtain ⟨error, rest, pending⟩ := prepared
    cases move
    case clock => simp
    case preparedClear top _ | preparedStart top =>
      cases pending.symm.trans top
      simp [pending, Call.continues, Event.continues]
      omega
    all_goals
      first
      | cases pending.symm.trans ‹state.todo = []›
      | cases pending.symm.trans ‹state.todo = _ :: _›
  · have silent : out.countP (Event.continues app round) = 0 := by
      rw [List.countP_eq_zero]
      intro event member continues
      cases event <;> simp only [Event.continues, Bool.false_eq_true] at continues
      obtain ⟨rfl, rfl⟩ : _ = app ∧ _ = round := by simpa using continues
      obtain ⟨rest, pending⟩ := reported_of_move move _ member
      exact prepared ⟨_, rest, pending⟩
    have todo : following.todo.countP (Call.continues app round) =
        state.todo.countP (Call.continues app round) := by
      rcases todo_of_move move with ⟨_, same⟩ | ⟨head, rest, calls, inner, pending, after, made⟩ |
        ⟨calls, idle, after, delivered⟩
      · rw [same]
      · have other : head.continues app round = false := by
          cases head <;> simp only [Call.continues, decide_eq_false_iff_not]
          rintro ⟨rfl, rfl⟩
          exact prepared ⟨_, rest, pending⟩
        have none_made : calls.countP (Call.continues app round) = 0 := by
          cases made
          case ready upper _ _ _ =>
            have outside : upper ≠ app := by
              rintro rfl
              exact started _ inner pending
            simp [Call.continues, outside]
          case last upper _ _ _ _ _ _ =>
            have outside : upper ≠ app := by
              rintro rfl
              exact answered _ _ _ _ _ _ inner pending
            simp [Call.continues, outside]
          case preambles =>
            rw [List.countP_eq_zero]
            intro call member
            obtain ⟨_, _, rfl⟩ := List.mem_map.mp member
            exact Bool.false_ne_true
          all_goals simp [Call.continues]
        simp [after, pending, none_made, other, List.countP_append]
      · rw [after, idle]
        cases delivered <;> simp [Call.continues]
    omega

theorem continued_of_start (move : Move config state label following out) (inner : label.inner)
    {app : α} {rest : List (Call α)} (head : state.todo = .start app :: rest) (round : Nat) :
    continued following (past ++ out) app round = continued state past app round +
      if (config app).preamble.length = 0 ∧ round = (state.apps app).rounds + 1 then 1 else 0 := by
  cases move
  case startReady top alone =>
    cases head.symm.trans top
    by_cases same : round = (state.apps app).rounds + 1
    · simp [continued, head, Call.continues, Event.continues, alone, same]
      omega
    · simp [continued, head, Call.continues, Event.continues, alone, same, Ne.symm same]
  case startWaiting top preceded =>
    cases head.symm.trans top
    have none_made : ((config app).preamble.map fun other => Call.require other
        (.preamble app ((state.apps app).rounds + 1))).countP (Call.continues app round) = 0 := by
      rw [List.countP_eq_zero]
      intro call member
      obtain ⟨_, _, rfl⟩ := List.mem_map.mp member
      exact Bool.false_ne_true
    simp [continued, head, Call.continues, Event.continues, preceded, none_made]
  all_goals try cases inner
  all_goals cases head.symm.trans ‹state.todo = _ :: _›

theorem continued_of_answer (move : Move config state label following out) (inner : label.inner)
    {app lower : α} {ticket current : Nat} {others : List (Waiter α)} {error : Int}
    {rest : List (Call α)}
    (head : state.todo = .answer lower (⟨ticket, .preamble app current⟩ :: others) error :: rest)
    (round : Nat) :
    continued following (past ++ out) app round = continued state past app round +
      if (state.apps app).pendingPreamble = 1 ∧ round = current then 1 else 0 := by
  cases move
  case answerCount top more =>
    cases head.symm.trans top
    simp [continued, head, Call.continues, Event.continues, more]
  case answerLast top last =>
    cases head.symm.trans top
    by_cases same : round = current
    · subst same
      simp [continued, head, Call.continues, Event.continues, last]
      omega
    · simp [continued, head, Call.continues, Event.continues, last, same, Ne.symm same]
  all_goals try cases inner
  all_goals cases head.symm.trans ‹state.todo = _ :: _›

namespace Gated

theorem continuation_of_move (move : Move config state label following out)
    (guarded : currentAnswers state label) (sound : Sound config state)
    (rounds : Rounds config state past) (gated : Gated config state past)
    (bound : ∀ app round, (responders app round (past ++ out)).Subperm (config app).preamble) :
    ∀ app round, continued following (past ++ out) app round =
      if (1 ≤ round ∧ round ≤ (following.apps app).rounds) ∧
        (responders app round (past ++ out)).length = (config app).preamble.length
      then 1 else 0 := by
  intro app round
  have before := gated.continuation app round
  have fits := (bound app round).length_le
  rw [responders_append] at fits ⊢
  rcases round_of_move move guarded app with ⟨started, answered, same, _, _, silent⟩ |
    ⟨rest, inner, pending, more, _, _, silent⟩ |
    ⟨lower, ticket, others, error, rest, process, inner, pending, same, _, _, rfl⟩
  · rw [continued_kept move started answered, before, same, silent, List.append_nil]
  · have unopened : round = (state.apps app).rounds + 1 →
        (responders app round past).length = 0 := by
      rintro rfl
      rw [rounds.unopened app _ (Nat.lt_succ_self _), List.length_nil]
    rw [continued_of_start move inner pending, before, more, silent, List.append_nil]
    split_ifs <;> omega
  · rw [continued_of_answer move inner pending, before, same]
    by_cases latest : round = (state.apps app).rounds
    · subst latest
      have begun : 1 ≤ (state.apps app).rounds := (sound.ordered_of_answer pending).2.1
      have counter := gated.counter app begun
      rw [responders_answered, List.length_append, List.length_singleton] at fits ⊢
      split_ifs <;> omega
    · have other : responders app round
          [.answered lower ⟨ticket, .preamble app (state.apps app).rounds⟩ process error] = [] := by
        simp [responders, Ne.symm latest]
      simp [other, latest]

/-- The last answer of a round tells whether the round has passed. -/
theorem passed_of_last (move : Move config state label following out)
    (guarded : currentAnswers state label) (sound : Sound config state)
    (rounds : Rounds config state past) (gated : Gated config state past)
    (bound : ∀ app round, (responders app round (past ++ out)).Subperm (config app).preamble)
    (inner : label.inner) {app lower : α} {ticket round : Nat} {others : List (Waiter α)}
    {error : Int} {rest : List (Call α)}
    (pending : state.todo = .answer lower (⟨ticket, .preamble app round⟩ :: others) error :: rest)
    (done : (following.apps app).pendingPreamble = 0)
    (clean : (following.apps app).errorPreamble = 0) :
    Passed config (past ++ out) app round := by
  have latest : (following.apps app).rounds = round := by
    rcases round_of_move move guarded app with ⟨_, answered, _⟩ | ⟨_, _, top, _⟩ |
      ⟨_, _, _, _, _, _, _, top, same, _⟩
    · exact absurd pending (answered _ _ _ _ _ _ inner)
    · cases pending.symm.trans top
    · obtain ⟨_, ⟨⟨_, rfl⟩, _⟩, _⟩ := by simpa using (List.cons.inj (pending.symm.trans top)).1
      exact same
  have begun : 1 ≤ round := (sound.ordered_of_answer pending).2.1
  have counter := gated.counter_of_move move guarded rounds app (by omega)
  have errors := gated.errors_of_move move guarded rounds app
  rw [latest] at counter errors
  exact ⟨(bound app round).perm_of_length_le (by omega), by omega⟩

theorem passes_append (bound : ∀ app round, (responders app round (past ++ out)).Subperm
    (config app).preamble) {call : Call α} (passes : call.passes config past) :
    call.passes config (past ++ out) := by
  cases call with
  | prepared app round error => exact fun zero => (passes zero).append (bound app round)
  | processStart pid role =>
      cases role with
      | main app round => exact passes.append (bound app round)
      | checker => trivial
  | _ => trivial

theorem passes_of_makes (move : Move config state label following out)
    (guarded : currentAnswers state label) (sound : Sound config state)
    (rounds : Rounds config state past) (gated : Gated config state past)
    (bound : ∀ app round, (responders app round (past ++ out)).Subperm (config app).preamble)
    (inner : label.inner) {head : Call α} {rest calls : List (Call α)}
    (pending : state.todo = head :: rest) (made : Makes config state label following head calls)
    (before : head.passes config past) : ∀ call ∈ calls, call.passes config (past ++ out) := by
  intro call member
  cases made
  case ready app alone _ _ =>
    obtain rfl := List.mem_singleton.mp member
    intro _
    have none := (bound app ((state.apps app).rounds + 1)).length_le
    rw [alone, List.length_nil, Nat.le_zero, List.length_eq_zero_iff] at none
    have few := failures_le app ((state.apps app).rounds + 1) (past ++ out)
    rw [none] at few
    exact ⟨by rw [none, alone], by simpa using few⟩
  case main app round _ _ _ =>
    simp only [List.mem_cons, List.not_mem_nil, or_false] at member
    rcases member with rfl | rfl
    · exact (before rfl).append (bound app round)
    · trivial
  case last app upper ticket round others error last done =>
    simp only [List.mem_cons, List.not_mem_nil, or_false] at member
    rcases member with rfl | rfl
    · exact gated.passed_of_last move guarded sound rounds bound inner pending done
    · trivial
  case preambles =>
    obtain ⟨_, _, rfl⟩ := List.mem_map.mp member
    trivial
  case nothing => cases member
  case checker | pipe | spawn | unread | startedClear =>
    simp only [List.mem_cons, List.not_mem_nil, or_false] at member
    rcases member with rfl | rfl | rfl <;> trivial
  all_goals
    obtain rfl := List.mem_singleton.mp member
    trivial

theorem passes_of_move (move : Move config state label following out)
    (guarded : currentAnswers state label) (sound : Sound config state)
    (rounds : Rounds config state past) (gated : Gated config state past)
    (bound : ∀ app round, (responders app round (past ++ out)).Subperm (config app).preamble) :
    ∀ call ∈ following.todo, call.passes config (past ++ out) := by
  intro call member
  rcases todo_of_move move with ⟨_, same⟩ | ⟨head, rest, calls, inner, pending, after, made⟩ |
    ⟨calls, idle, after, delivered⟩
  · exact passes_append bound (gated.passes call (same ▸ member))
  · rw [after, List.mem_append] at member
    rcases member with member | member
    · exact gated.passes_of_makes move guarded sound rounds bound inner pending made
        (gated.passes head (mem_todo_of_top pending)) call member
    · exact passes_append bound (gated.passes call (by simp [pending, member]))
  · rw [after] at member
    cases delivered <;> simp only [List.mem_cons, List.not_mem_nil, or_false] at member
    case check => rcases member with rfl | rfl <;> trivial
    all_goals subst member; trivial

end Gated

/-- What is said of every event is kept when a step reports a spawned process. -/
theorem gate_of_move (move : Move config state label following out)
    (gated : Gated config state past) (gate : Historically (Gate config) past) :
    Historically (Gate config) (past ++ out) := by
  refine gate.append fun before event after split => ?_
  have member : event ∈ out := by simp [split]
  have reported := reported_of_move move event member
  cases event with
  | spawned pid role =>
      cases role with
      | main app round =>
          obtain ⟨result, rest, rfl, _, _, pending⟩ := reported
          rcases out_of_spawn move pending with ⟨_, _, rfl, _⟩ | ⟨_, rfl, _⟩
          · rcases List.append_eq_singleton_iff.mp split.symm with ⟨rfl, _⟩ | ⟨_, none⟩
            · rw [List.append_nil]
              exact gated.passes _ (mem_todo_of_top pending)
            · cases none
          · simp at member
      | checker => trivial
  | _ => trivial

theorem gated_of_reaches
    (reached : Machine.Reaches (step config) gatesStarts (State.initial α) state past) :
    Gated config state past ∧ Historically (Gate config) past := by
  refine reached.invariant (fun state past => Gated config state past ∧
    Historically (Gate config) past) ⟨gated_initial, historically_nil⟩ ?_
  rintro state following past out label reached ⟨gated, gate⟩ guarded moved
  have move := move_of_step moved
  have sound := sound_of_reaches reached
  have rounds := rounds_of_reaches reached
  have next := reached.next guarded moved
  have bound := responders_subperm (rounds_of_reaches next)
    (inOrder_of_reaches (fun allowed _ => allowed.2) next)
  exact ⟨{
    unstarted := gated.unstarted_of_move move guarded.1 sound
    counter := gated.counter_of_move move guarded.1 rounds
    errors := gated.errors_of_move move guarded.1 rounds
    continuation := gated.continuation_of_move move guarded.1 sound rounds bound
    passes := gated.passes_of_move move guarded.1 sound rounds bound }, gate_of_move move gated gate⟩

/--
In every state `pending_preamble` is the number of closures of the latest `Start`
that are outstanding; the continuation of each `Start` has been called once if all
its preambles have answered and never otherwise; and every main process was spawned
by a `Start` whose preambles had all answered with error 0.
-/
theorem preambles_gate_start
    (reached : Machine.Reaches (step config) gatesStarts (State.initial α) state past) :
    (∀ app, (state.apps app).pendingPreamble = (outstanding config state past app).length) ∧
      (∀ app round, continued state past app round =
        if (1 ≤ round ∧ round ≤ (state.apps app).rounds) ∧
          (responders app round past).Perm (config app).preamble then 1 else 0) ∧
      Historically (Gate config) past := by
  obtain ⟨gated, gate⟩ := gated_of_reaches reached
  have bound := responders_subperm (rounds_of_reaches reached)
    (inOrder_of_reaches (fun allowed _ => allowed.2) reached)
  refine ⟨fun app => ?_, fun app round => ?_, gate⟩
  · unfold outstanding
    split
    · next none => simpa using gated.unstarted app none
    · next some =>
      have counter := gated.counter app (Nat.pos_of_ne_zero some)
      have split := (List.subperm_append_diff_self_of_count_le
        (List.subperm_ext_iff.mp (bound app (state.apps app).rounds))).length_eq
      rw [List.length_append] at split
      omega
  · rw [gated.continuation app round]
    have complete : (responders app round past).length = (config app).preamble.length ↔
        (responders app round past).Perm (config app).preamble :=
      ⟨fun same => (bound app round).perm_of_length_le (Nat.le_of_eq same.symm), List.Perm.length_eq⟩
    simp only [complete]

/-- The condition cannot be weakened: the first closure that is invoked after a later
`Start` of its app leaves the counter wrong. -/
theorem miscounted_of_stale
    (reached : Machine.Reaches (step config) gatesStarts (State.initial α) state past)
    (moved : step config state label = some (following, out))
    (stale : ¬ currentAnswers state label) :
    ∃ app, (following.apps app).pendingPreamble ≠
      (outstanding config following (past ++ out) app).length := by
  have move := move_of_step moved
  have old : ∃ lower ticket app round others error rest, label = .call ∧
      state.todo = .answer lower (⟨ticket, .preamble app round⟩ :: others) error :: rest ∧
      round ≠ (state.apps app).rounds := by
    unfold currentAnswers at stale
    split at stale
    · split at stale
      · exact ⟨_, _, _, _, _, _, _, rfl, ‹_›, stale⟩
      · exact absurd trivial stale
    · exact absurd trivial stale
  obtain ⟨lower, ticket, app, round, others, error, rest, rfl, pending, old⟩ := old
  have counted := counted_of_answer move rfl pending
  have same : (following.apps app).rounds = (state.apps app).rounds := by
    rcases preamble_of_move move app with ⟨same, _⟩ | ⟨_, top, _⟩ | ⟨_, _, _, _, _, _, _, same, _⟩
    · exact same
    · cases pending.symm.trans top
    · exact same
  have unchanged : outstanding config following (past ++ out) app =
      outstanding config state past app := by
    have silent : responders app (state.apps app).rounds out = [] := by
      simp [out_of_answer move rfl pending, responders, old]
    rw [outstanding, outstanding, same, responders_append, silent, List.append_nil]
  refine ⟨app, ?_⟩
  rw [counted, unchanged, (preambles_gate_start reached).1 app]
  omega

section Runs

/-- App 0 has two preambles, and all three apps have checkers. -/
def twicePrecededApp : Fin 3 → AppConfig (Fin 3) := fun app =>
  { command := { file := "run" }, checker := some { file := "check" },
    preamble := if app.val = 0 then (List.finRange 3).tail else [] }

/-- The checker of its preamble succeeds, and the main process of app 0 is spawned. -/
theorem preambles_gate_start_run :
    ∃ past : List (Event (Fin 2)), .spawned 1 (.main 0 1) ∈ past ∧
      Historically (Gate precededApp) past := by
  obtain ⟨state, reached, _⟩ := Machine.exists_reaches
    (step precededApp) gatesStarts (State.initial (Fin 2))
    [.require 0 7, .call, .call, .call, .call, .call, .call, .spawn {}, .call, .call,
      .exited 0 .success, .closed 0, .call, .call, .call, .call, .call, .spawn {}]
    [.queued 0 ⟨0, .caller 7⟩, .start 0 1, .queued 1 ⟨1, .preamble 0 1⟩,
      .spawned 0 (.checker 1 (.required 1)), .processStart 0,
      .ended 0 (.checker 1 (.required 1)) .success, .processExit 0 0 0,
      .answered 1 ⟨1, .preamble 0 1⟩ none 0, .prepared 0 1 0, .spawned 1 (.main 0 1)]
    (fun _ => true) (by decide)
  exact ⟨_, by simp, (preambles_gate_start reached).2.2⟩

/-- The checker of app 0 cannot be spawned, and both its error and its exit callback
call `Start`.  Then one preamble reports success, and the main process is spawned. -/
theorem start_ungated :
    ∃ state past, Machine.Reaches (step twicePrecededApp) Machine.always
      (State.initial (Fin 3)) state past ∧ ¬ Historically (Gate twicePrecededApp) past := by
  let before : List (Event (Fin 3)) :=
    [.queued 0 ⟨0, .caller 7⟩, .unspawned 0 (.checker 0 (.required 0)),
      .processError 0 noEntry, .start 0 1, .queued 1 ⟨1, .preamble 0 1⟩,
      .spawned 1 (.checker 1 (.required 1)), .processStart 1, .queued 2 ⟨2, .preamble 0 1⟩,
      .spawned 2 (.checker 2 (.required 2)), .processStart 2, .processStart 0,
      .ended 0 (.checker 0 (.required 0)) .unstarted, .processExit 0 (-1) (-1), .start 0 2,
      .queued 1 ⟨3, .preamble 0 2⟩, .queued 2 ⟨4, .preamble 0 2⟩,
      .ended 1 (.checker 1 (.required 1)) .success, .processExit 1 0 0,
      .answered 1 ⟨1, .preamble 0 1⟩ none 0, .answered 1 ⟨3, .preamble 0 2⟩ none 0,
      .prepared 0 2 0]
  obtain ⟨state, reached, _⟩ := Machine.exists_reaches
    (step twicePrecededApp) Machine.always (State.initial (Fin 3))
    [.require 0 7, .call, .call, .spawn { spawn := noEntry }, .call, .call, .call, .call,
      .call, .spawn {}, .call, .call, .call, .call, .spawn {}, .call, .call, .call, .call,
      .call, .closed 0, .call, .call, .call, .call, .call, .exited 1 .success, .closed 1,
      .call, .call, .call, .call, .call, .call, .spawn {}]
    (before ++ [.spawned 3 (.main 0 2)]) (fun _ => true) (by decide)
  refine ⟨state, _, reached, fun gate => ?_⟩
  have passed : Passed twicePrecededApp before 0 2 := gate before (.spawned 3 (.main 0 2)) [] rfl
  exact absurd passed.1.length_eq (by decide)

end Runs

end Nexer.Manager
