import Nexer.Http.Connection
import Nexer.Http.Scanner
import Nexer.Transition.History

/-!
# A response in flight

`uv_write` holds pointers into the three buffers of a response.  They are cleared by the
next read and written to by the next request, whether or not the callback of the write
has run.  When it always has, the buffers are not touched in between.
-/

namespace Nexer.Http

open Nexer.Transition

variable {parser : Parser}

/-- How many writes have been handed over. -/
def writes (past : List Event) : Nat :=
  past.countP fun event => event matches .write _

/-- How many of them have been reported. -/
def completions (past : List Event) : Nat :=
  past.countP fun event => event matches .written _ _

/-- A buffer is only touched when all writes have been reported. -/
def Untouched (before : List Event) (event : Event) : Prop :=
  ∀ part, event = .touched part → writes before = completions before

/-- What the next bytes are parsed with. -/
def State.entry (state : State parser) : parser.State :=
  if state.request.complete then parser.init else state.request.parser

/-- No read arrives while a response is being written, and none completes two requests. -/
def Quiet (state : State parser) : Label → Prop
  | .read bytes =>
      state.flights = [] ∧ (parser.execute state.entry bytes).2.1.count .messageComplete ≤ 1
  | _ => True

instance : ∀ (state : State parser) label, Decidable (Quiet state label)
  | _, .read _ => inferInstanceAs (Decidable (_ ∧ _))
  | _, .eof | _, .readError | _, .written _ | _, .closed => .isTrue trivial

variable {statusName : Nat → Bytes} {handler : Option Handler}
variable {state : State parser} {past out later : List Event}

@[simp] theorem writes_append : writes (past ++ out) = writes past + writes out :=
  List.countP_append

@[simp] theorem completions_append : completions (past ++ out) = completions past + completions out :=
  List.countP_append

/-- The events of a step: buffers are touched first, and writes handed over afterwards. -/
def Ordered (out : List Event) : Prop :=
  ∃ first last, out = first ++ last ∧ (writes first = 0 ∧ completions first = 0) ∧
    ∀ part, .touched part ∉ last

theorem ordered_of_untouched (untouched : ∀ part, .touched part ∉ out) : Ordered out :=
  ⟨[], out, rfl, ⟨rfl, rfl⟩, untouched⟩

theorem Ordered.append (ordered : Ordered out) (untouched : ∀ part, .touched part ∉ later) :
    Ordered (out ++ later) := by
  obtain ⟨first, last, rfl, quiet, none⟩ := ordered
  exact ⟨first, last ++ later, List.append_assoc .., quiet, fun part => by simp [none, untouched]⟩

/-- After all writes have been reported, ordered events touch nothing in flight. -/
theorem Ordered.untouched (ordered : Ordered out) (settled : writes past = completions past) :
    ∀ before event after, out = before ++ event :: after → Untouched (past ++ before) event := by
  obtain ⟨first, last, rfl, ⟨unwritten, unreported⟩, none⟩ := ordered
  rintro before _ after split part rfl
  obtain ⟨rest, rfl⟩ : before <+: first := by
    rcases List.append_eq_append_iff.mp split with ⟨middle, -, tail⟩ | ⟨middle, front, -⟩
    · exact absurd (by simp [tail]) (none part)
    · exact ⟨middle, front.symm⟩
  rw [writes_append] at unwritten
  rw [completions_append] at unreported
  rw [writes_append, completions_append]
  omega

/-- Neither writes nor their callbacks. -/
structure Silent (state : State parser) (effect : Effect parser) : Prop where
  writes : writes effect.2 = 0
  completions : completions effect.2 = 0
  flights : effect.1.flights = state.flights

/-- What a step does to the writes in flight, if it touches the buffers first. -/
structure Counts (state : State parser) (effect : Effect parser) : Prop where
  ordered : Ordered effect.2
  balanced : writes effect.2 + state.flights.length =
    completions effect.2 + effect.1.flights.length

section Compose

variable {effect : Effect parser} {next : State parser → Effect parser}

theorem Silent.andThen (silent : Silent state effect) (counts : Counts effect.1 (next effect.1)) :
    Counts state (effect.andThen next) := by
  obtain ⟨first, last, split, ⟨unwritten, unreported⟩, none⟩ := counts.ordered
  refine ⟨⟨effect.2 ++ first, last, by simp [Reaction.andThen, split], ?_, none⟩, ?_⟩
  · simp [silent.writes, silent.completions, unwritten, unreported]
  · have balanced := counts.balanced
    simp only [Reaction.andThen, writes_append, completions_append, silent.writes,
      silent.completions, silent.flights] at balanced ⊢
    omega

theorem Counts.andThen (counts : Counts state effect)
    (untouched : ∀ part, .touched part ∉ (next effect.1).2)
    (balanced : writes (next effect.1).2 + effect.1.flights.length =
      completions (next effect.1).2 + (next effect.1).1.flights.length) :
    Counts state (effect.andThen next) := by
  refine ⟨counts.ordered.append untouched, ?_⟩
  have before := counts.balanced
  simp only [Reaction.andThen, writes_append, completions_append]
  omega

end Compose

theorem close_plain : (∀ part, .touched part ∉ (close state).2) ∧
    writes (close state).2 + state.flights.length =
      completions (close state).2 + (close state).1.flights.length := by
  unfold close
  split <;> simp [writes, completions]

theorem counts_write : Counts state (write state) := by
  unfold write
  dsimp only
  split
  · exact ⟨ordered_of_untouched (by simp), by simp [writes, completions, Nat.add_comm]⟩
  · exact ⟨ordered_of_untouched close_plain.1, close_plain.2⟩

/-- The function of `OnRequest` writes to the buffers and then hands them over. -/
theorem counts_onRequestComplete : Counts state (onRequestComplete statusName handler state) := by
  unfold onRequestComplete
  split
  · exact ⟨ordered_of_untouched (by simp), rfl⟩
  · refine Silent.andThen ⟨?_, ?_, rfl⟩ counts_write
    · simp [writes, List.countP_eq_zero]
    · simp [completions, List.countP_eq_zero]

section Callbacks

variable {callbacks : List Callback}

/-- The callbacks before the end of a message only fill the request. -/
theorem onCallback_incomplete {callback : Callback} (incomplete : callback ≠ .messageComplete) :
    (onCallback statusName handler state callback).2 = [] ∧
      (onCallback statusName handler state callback).1.flights = state.flights := by
  cases callback with
  | messageComplete => exact absurd rfl incomplete
  | _ => exact ⟨rfl, rfl⟩

theorem onCallbacks_incomplete (incomplete : callbacks.count .messageComplete = 0) :
    (onCallbacks statusName handler callbacks state).2 = [] ∧
      (onCallbacks statusName handler callbacks state).1.flights = state.flights := by
  induction callbacks generalizing state with
  | nil => exact ⟨rfl, rfl⟩
  | cons callback rest ih =>
      have apart : callback ≠ .messageComplete := by
        rintro rfl
        simp at incomplete
      have first : (onCallback statusName handler state callback).2 = [] ∧
          (onCallback statusName handler state callback).1.flights = state.flights :=
        onCallback_incomplete apart
      obtain ⟨silent, kept⟩ := @ih (onCallback statusName handler state callback).1
        (by simpa [apart] using incomplete)
      simp only [onCallbacks, Reaction.andThen]
      exact ⟨by rw [first.1, silent]; rfl, kept.trans first.2⟩

theorem counts_onCallbacks (once : callbacks.count .messageComplete ≤ 1) :
    Counts state (onCallbacks statusName handler callbacks state) := by
  induction callbacks generalizing state with
  | nil => exact ⟨ordered_of_untouched (by simp [onCallbacks]), rfl⟩
  | cons callback rest ih =>
      by_cases complete : callback = .messageComplete
      · subst complete
        have last (state : State parser) : (onCallbacks statusName handler rest state).2 = [] ∧
            (onCallbacks statusName handler rest state).1.flights = state.flights :=
          onCallbacks_incomplete (by simpa using once)
        have answered : Counts { state with request := { state.request with complete := true } }
            (onCallback statusName handler state .messageComplete) := counts_onRequestComplete
        have first : Counts state (onCallback statusName handler state .messageComplete) :=
          ⟨answered.ordered, answered.balanced⟩
        refine first.andThen (by simp [last]) ?_
        rw [(last _).1, (last _).2]
        rfl
      · have silent : (onCallback statusName handler state callback).2 = [] ∧
            (onCallback statusName handler state callback).1.flights = state.flights :=
          onCallback_incomplete complete
        refine Silent.andThen ⟨by simp [silent, writes], by simp [silent, completions], silent.2⟩ ?_
        exact ih (by simpa [complete] using once)

end Callbacks

theorem counts_onData {bytes : Bytes}
    (once : (parser.execute state.entry bytes).2.1.count .messageComplete ≤ 1) :
    Counts state (onData statusName handler bytes state) := by
  have parsed {ready : State parser} (entry : ready.request.parser = state.entry) :
      Counts ready (parse statusName handler bytes ready) := by
    unfold parse
    rw [entry]
    generalize parser.execute state.entry bytes = result at once
    obtain ⟨next, callbacks, error⟩ := result
    have first : Counts ready (onCallbacks statusName handler callbacks
        { ready with request := { ready.request with parser := next } }) :=
      have filled := counts_onCallbacks once
      ⟨filled.ordered, filled.balanced⟩
    refine first.andThen ?_ ?_
    · split
      · exact close_plain.1
      · simp
    · split
      · exact close_plain.2
      · rfl
  unfold onData
  split
  · next complete =>
    refine Silent.andThen ⟨rfl, rfl, rfl⟩ (parsed ?_)
    simp [State.entry, complete, reset, Request.reset]
  · next incomplete =>
    refine Silent.andThen ⟨rfl, rfl, rfl⟩ (parsed ?_)
    simp [State.entry, incomplete]

/-- Every step under the condition. -/
theorem counts_of_step {label : Label} {effect : Effect parser} (quiet : Quiet state label)
    (moved : step parser statusName handler state label = some effect) :
    ((∀ part, .touched part ∉ effect.2) ∨ state.flights = [] ∧ Ordered effect.2) ∧
      writes effect.2 + state.flights.length =
        completions effect.2 + effect.1.flights.length := by
  cases label with
  | read bytes =>
      simp only [step] at moved
      split at moved
      · obtain rfl := Option.some.inj moved
        have counts : Counts state (Reaction.andThen (state, [.read bytes])
            (onData statusName handler bytes)) :=
          Silent.andThen ⟨rfl, rfl, rfl⟩ (counts_onData quiet.2)
        exact ⟨.inr ⟨quiet.1, counts.ordered⟩, counts.balanced⟩
      · cases moved
  | eof | readError =>
      simp only [step] at moved
      split at moved
      · obtain rfl := Option.some.inj moved
        exact ⟨.inl close_plain.1, close_plain.2⟩
      · cases moved
  | written status =>
      simp only [step] at moved
      split at moved
      · cases moved
      · next flight rest flights =>
        split at moved
        · obtain rfl := Option.some.inj moved
          simp only [Reaction.andThen, flights]
          split
          · obtain ⟨untouched, balanced⟩ := @close_plain parser { state with flights := rest }
            refine ⟨.inl (by simpa using untouched), ?_⟩
            rw [writes_append, completions_append]
            simp only [writes, completions, List.countP_singleton, List.length_cons] at balanced ⊢
            simp only [Bool.false_eq_true, if_false, if_true]
            omega
          · refine ⟨.inl (by simp), ?_⟩
            simp [writes, completions, Nat.add_comm]
        · cases moved
  | closed =>
      simp only [step] at moved
      split at moved
      · obtain rfl := Option.some.inj moved
        exact ⟨.inl (by simp), rfl⟩
      · cases moved

/-- From the call of `Write` to its callback, no buffer of the response is cleared or
written to. -/
theorem untouched_in_flight
    (reached : Machine.Reaches (step parser statusName handler) Quiet (.initial parser) state past) :
    Historically Untouched past ∧ writes past = completions past + state.flights.length := by
  refine reached.invariant
    (fun state past => Historically Untouched past ∧ writes past = completions past + state.flights.length)
    ⟨historically_nil, rfl⟩ ?_
  rintro state following past out label - ⟨holds, counted⟩ quiet moved
  obtain ⟨touched, balanced⟩ := counts_of_step quiet moved
  dsimp only at touched balanced
  refine ⟨holds.append ?_, by rw [writes_append, completions_append]; omega⟩
  rcases touched with untouched | ⟨settled, ordered⟩
  · rintro before event after rfl part rfl
    exact absurd (by simp) (untouched part)
  · exact ordered.untouched (by simp [counted, settled])

/-- The next request is read when the response has been written. -/
theorem untouched_in_flight_run :
    ∃ state past, Machine.Reaches (step scanner (fun _ => []) (some fun _ => {})) Quiet
        (.initial scanner) state past ∧
      .written 0 (ascii "HTTP/1.1 501 \r\nConnection: Keep-Alive\r\nContent-Length: 0\r\n\r\n") ∈ past ∧
      Historically Untouched past := by
  obtain ⟨state, reached, -⟩ := Machine.exists_reaches
    (step scanner (fun _ => []) (some fun _ => {})) Quiet (.initial scanner)
    [.read (ascii "GET / HTTP/1.1\r\n\r\n"), .written 0, .read [], .read (ascii "GET")]
    [.read (ascii "GET / HTTP/1.1\r\n\r\n"),
      .request { url := ascii "/", parsed := { path := ascii "/" }, headers := [], body := [] },
      .touched .startLine, .touched .head,
      .write (ascii "HTTP/1.1 501 \r\nConnection: Keep-Alive\r\nContent-Length: 0\r\n\r\n"),
      .written 0 (ascii "HTTP/1.1 501 \r\nConnection: Keep-Alive\r\nContent-Length: 0\r\n\r\n"),
      .read [], .touched .startLine, .touched .head, .touched .body, .read (ascii "GET")]
    (fun _ => true) (by decide)
  exact ⟨state, _, reached, by simp, (untouched_in_flight reached).1⟩

/-- An empty read arrives while the response is being written. -/
theorem touched_in_flight :
    ∃ state past, Machine.Reaches (step scanner (fun _ => []) (some fun _ => {})) Machine.always
        (.initial scanner) state past ∧
      ¬ Historically Untouched past := by
  obtain ⟨state, reached, -⟩ := Machine.exists_reaches
    (step scanner (fun _ => []) (some fun _ => {})) Machine.always (.initial scanner)
    [.read (ascii "GET / HTTP/1.1\r\n\r\n"), .read []]
    [.read (ascii "GET / HTTP/1.1\r\n\r\n"),
      .request { url := ascii "/", parsed := { path := ascii "/" }, headers := [], body := [] },
      .touched .startLine, .touched .head,
      .write (ascii "HTTP/1.1 501 \r\nConnection: Keep-Alive\r\nContent-Length: 0\r\n\r\n"),
      .read [], .touched .startLine, .touched .head, .touched .body]
    (fun _ => true) (by decide)
  refine ⟨state, _, reached, fun holds => ?_⟩
  exact nomatch holds [_, _, _, _, _, _] _ _ rfl .startLine rfl

end Nexer.Http
