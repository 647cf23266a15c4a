import Nexer.Http.Spelling

/-!
# Reads and the callbacks they bring

The parser reports a message piece by piece, whatever reads it arrives in.  A read
goes on with a request where the last one stopped, and the one that completes it has
the function of `OnRequest` called and its response written.
-/

namespace Nexer.Http

open Nexer.Transition

/-- A request with its bytes. -/
abbrev Wire := Bytes × Message

/-- Successive calls of `llhttp_execute`, all of their callbacks and whether none failed. -/
def Parser.feed (parser : Parser) : parser.State → List Bytes → parser.State × List Callback × Bool
  | state, [] => (state, [], true)
  | state, chunk :: rest =>
      let result := parser.execute state chunk
      let later := parser.feed result.1 rest
      (later.1, result.2.1 ++ later.2.1, (result.2.2 == 0) && later.2.2)

/-- llhttp on a request: no part of it fails, it is complete at its last byte, and its
callbacks spell it, in whatever chunks it comes. -/
structure Reports (parser : Parser) (wire : Wire) : Prop where
  accepted : ∀ chunks : List Bytes, chunks.flatten <+: wire.1 →
    (parser.feed parser.init chunks).2.2 = true
  incomplete : ∀ chunks : List Bytes, chunks.flatten <+: wire.1 → chunks.flatten ≠ wire.1 →
    .messageComplete ∉ (parser.feed parser.init chunks).2.1
  spelled : ∀ chunks : List Bytes, chunks.flatten = wire.1 →
    ∃ spelling : Spelling, spelling.message = wire.2 ∧
      (parser.feed parser.init chunks).2.1 = spelling.callbacks

/-- llhttp on all requests of a connection, and on reads that bring nothing. -/
structure Contract (parser : Parser) (wires : List Wire) : Prop where
  reports : ∀ wire ∈ wires, Reports parser wire
  idle : ∀ chunks : List Bytes, chunks.flatten = [] →
    (parser.feed parser.init chunks).2.2 = true ∧
      .messageComplete ∉ (parser.feed parser.init chunks).2.1

section Projections

variable (past : List Event)

def readsOf : List Bytes :=
  past.filterMap fun
    | .read bytes => some bytes
    | _ => none

def requestsOf : List Received :=
  past.filterMap fun
    | .request received => some received
    | _ => none

/-- The responses handed to `Write`. -/
def responsesOf : List Bytes :=
  past.filterMap fun
    | .write bytes => some bytes
    | _ => none

/-- What the buffers held when the writes were reported. -/
def writtenOf : List Bytes :=
  past.filterMap fun
    | .written _ bytes => some bytes
    | _ => none

end Projections

variable {parser : Parser} {statusName : Nat → Bytes} {handler : Handler}
variable {state : State parser} {callbacks : List Callback} {chunks : List Bytes} {chunk : Bytes}

theorem feed_concat (entry : parser.State) :
    parser.feed entry (chunks ++ [chunk]) =
      ((parser.execute (parser.feed entry chunks).1 chunk).1,
        (parser.feed entry chunks).2.1 ++ (parser.execute (parser.feed entry chunks).1 chunk).2.1,
        (parser.feed entry chunks).2.2 &&
          (parser.execute (parser.feed entry chunks).1 chunk).2.2 == 0) := by
  induction chunks generalizing entry with
  | nil => simp [Parser.feed]
  | cons first rest ih => simp [Parser.feed, ih, Bool.and_assoc]

/-- The callbacks do not read the state of the parser. -/
theorem fill_entry (request : Request parser) (entry : parser.State) (callback : Callback) :
    ({ request with parser := entry } : Request parser).fill callback =
      { request.fill callback with parser := entry } := by
  cases callback <;> simp only [Request.fill, Request.onUrl, Request.onHeaderField,
    Request.onHeaderValue, Request.onHeadersComplete, Request.onBody] <;> split_ifs <;> rfl

theorem foldl_fill_entry (request : Request parser) (entry : parser.State) :
    callbacks.foldl Request.fill { request with parser := entry } =
      { callbacks.foldl Request.fill request with parser := entry } := by
  induction callbacks generalizing request with
  | nil => rfl
  | cons callback rest ih => rw [List.foldl_cons, fill_entry, ih, List.foldl_cons]

theorem foldl_fill_complete (request : Request parser) :
    (callbacks.foldl Request.fill request).complete = request.complete := by
  induction callbacks generalizing request with
  | nil => rfl
  | cons callback rest ih =>
      rw [List.foldl_cons, ih]
      cases callback <;> simp only [Request.fill, Request.onUrl, Request.onHeaderField,
        Request.onHeaderValue, Request.onHeadersComplete, Request.onBody] <;> split_ifs <;> rfl

theorem onCallback_eq {callback : Callback} {handler : Option Handler}
    (other : ¬ .messageComplete = callback) (state : State parser) :
    onCallback statusName handler state callback =
      ({ state with request := state.request.fill callback }, []) := by
  cases callback with
  | messageComplete => exact absurd rfl other
  | _ => rfl

/-- Before the message is complete the callbacks only fill the request. -/
theorem onCallbacks_eq {handler : Option Handler} (incomplete : .messageComplete ∉ callbacks)
    (state : State parser) :
    onCallbacks statusName handler callbacks state =
      ({ state with request := callbacks.foldl Request.fill state.request }, []) := by
  induction callbacks generalizing state with
  | nil => rfl
  | cons callback rest ih =>
      simp only [List.mem_cons, not_or] at incomplete
      have first := @onCallback_eq _ statusName callback handler incomplete.1 state
      simp only [onCallbacks, Reaction.andThen, first, ih incomplete.2, List.foldl_cons]
      rfl

theorem onCallbacks_concat {handler : Option Handler} (incomplete : .messageComplete ∉ callbacks)
    (state : State parser) :
    onCallbacks statusName handler (callbacks ++ [.messageComplete]) state =
      onRequestComplete statusName handler
        { state with
          request := { callbacks.foldl Request.fill state.request with complete := true } } := by
  induction callbacks generalizing state with
  | nil => simp [onCallbacks, Reaction.andThen, onCallback]
  | cons callback rest ih =>
      simp only [List.mem_cons, not_or] at incomplete
      have first := @onCallback_eq _ statusName callback handler incomplete.1 state
      simp only [List.cons_append, onCallbacks, Reaction.andThen, first, ih incomplete.2,
        List.foldl_cons, List.nil_append]

/-- What a request has been filled with by some reads since the last one was complete. -/
def filled (parser : Parser) (chunks : List Bytes) : Request parser :=
  { (parser.feed parser.init chunks).2.1.foldl Request.fill (.initial parser) with
    parser := (parser.feed parser.init chunks).1 }

/-- The request that the next read goes on with. -/
def State.ready (state : State parser) : Request parser :=
  if state.request.complete then state.request.reset else state.request

theorem filled_concat : filled parser (chunks ++ [chunk]) =
    { (parser.execute (filled parser chunks).parser chunk).2.1.foldl Request.fill
        (filled parser chunks) with
      parser := (parser.execute (filled parser chunks).parser chunk).1 } := by
  simp only [filled, feed_concat, List.foldl_append, foldl_fill_entry]

theorem filled_incomplete : (filled parser chunks).complete = false := by
  simp [filled, foldl_fill_complete, Request.initial]

/-- A read that does not complete the request. -/
theorem onData_partway {handler : Option Handler} (ready : state.ready = filled parser chunks)
    (accepted : (parser.feed parser.init (chunks ++ [chunk])).2.2 = true)
    (incomplete : .messageComplete ∉ (parser.feed parser.init (chunks ++ [chunk])).2.1) :
    onData statusName handler chunk state =
      ({ state with request := filled parser (chunks ++ [chunk]) },
        if state.request.complete then [.touched .startLine, .touched .head, .touched .body]
        else []) := by
  have parsed (before : State parser) (here : before.request = filled parser chunks) :
      parse statusName handler chunk before =
        ({ before with request := filled parser (chunks ++ [chunk]) }, []) := by
    rw [feed_concat] at accepted incomplete
    simp only [List.mem_append, not_or] at incomplete
    simp only [Bool.and_eq_true, beq_iff_eq] at accepted
    have entry : before.request.parser = (parser.feed parser.init chunks).1 := by
      rw [here, filled]
    unfold parse
    rw [filled_concat, entry, ← here]
    simp only [onCallbacks_eq incomplete.2, Reaction.andThen, accepted.2, foldl_fill_entry]
    simp [entry]
  unfold State.ready at ready
  unfold onData
  split at ready
  · next complete =>
    have done := parsed { state with request := state.request.reset } ready
    simp [complete, Reaction.andThen, reset, done]
  · next fresh => simp [fresh, Reaction.andThen, parsed state ready]

theorem messageComplete_not_mem_opening (spelling : Spelling) :
    .messageComplete ∉ spelling.opening := by
  simp [Spelling.opening, Spelling.header]

/-- The last chunk of a message brings its last callback. -/
theorem exists_last {first later : List Callback} {spelling : Spelling}
    (spelled : first ++ later = spelling.callbacks) (incomplete : .messageComplete ∉ first) :
    ∃ middle, later = middle ++ [.messageComplete] ∧ spelling.opening = first ++ middle := by
  rcases List.append_eq_append_iff.mp spelled with ⟨middle, front, back⟩ | ⟨middle, front, back⟩
  · exact ⟨middle, back, front⟩
  · cases middle with
    | nil => exact ⟨[], by simpa using back.symm, by simpa using front.symm⟩
    | cons callback rest =>
        obtain ⟨rfl, -⟩ := List.cons.inj back
        exact absurd (by simp [front]) incomplete

/-- What the server does when a request is complete. -/
structure Answers (statusName : Nat → Bytes) (handler : Handler) (message : Message)
    (effect : Effect parser) : Prop where
  client : effect.1.client = .opened
  flight : ∃ flight, effect.1.flights = [flight] ∧
    effect.1.request.response.held flight = (handler message.received).encode statusName
  complete : effect.1.request.complete = true
  fresh : effect.1.request.reset = .initial parser
  requests : requestsOf effect.2 = [message.received]
  responses : responsesOf effect.2 = [(handler message.received).encode statusName]
  written : writtenOf effect.2 = []

theorem Response.held_whole (response : Response) :
    response.held ⟨response.startLine.bytes.length, response.head.bytes.length,
      response.body.bytes.length⟩ =
      response.startLine.bytes ++ response.head.bytes ++ response.body.bytes := by
  simp [Response.held]

/-- The buffers are touched once for each header and piece. -/
theorem projections_touched {α : Type} (pieces : List α) (part : Part) :
    readsOf (pieces.map fun _ => .touched part) = [] ∧
      requestsOf (pieces.map fun _ => .touched part) = [] ∧
      responsesOf (pieces.map fun _ => .touched part) = [] ∧
      writtenOf (pieces.map fun _ => .touched part) = [] := by
  induction pieces with
  | nil => exact ⟨rfl, rfl, rfl, rfl⟩
  | cons piece rest ih => exact ih

section Append

variable (past out : List Event)

@[simp] theorem readsOf_append : readsOf (past ++ out) = readsOf past ++ readsOf out :=
  List.filterMap_append ..

@[simp] theorem requestsOf_append : requestsOf (past ++ out) = requestsOf past ++ requestsOf out :=
  List.filterMap_append ..

@[simp] theorem responsesOf_append :
    responsesOf (past ++ out) = responsesOf past ++ responsesOf out :=
  List.filterMap_append ..

@[simp] theorem writtenOf_append : writtenOf (past ++ out) = writtenOf past ++ writtenOf out :=
  List.filterMap_append ..

end Append

section Reads

variable {handler : Option Handler}

theorem readsOf_close : readsOf (close state).2 = [] := by
  unfold close
  split <;> rfl

theorem readsOf_onRequestComplete :
    readsOf (onRequestComplete statusName handler state).2 = [] := by
  unfold onRequestComplete
  split
  · rfl
  · next handler =>
    have headed := projections_touched (handler state.request.received).headers .head
    have bodied := projections_touched (handler state.request.received).body .body
    simp only [Reaction.andThen, readsOf_append]
    rw [← List.singleton_append (x := Event.request state.request.received)]
    simp only [readsOf_append, headed.1, bodied.1]
    unfold write
    split
    · rfl
    · rw [readsOf_close]
      rfl

theorem readsOf_onCallbacks : readsOf (onCallbacks statusName handler callbacks state).2 = [] := by
  induction callbacks generalizing state with
  | nil => rfl
  | cons callback rest ih =>
      simp only [onCallbacks, Reaction.andThen, readsOf_append, ih, List.append_nil]
      cases callback with
      | messageComplete => exact readsOf_onRequestComplete
      | _ => rfl

/-- The closure of `OnData` reads nothing by itself. -/
theorem readsOf_onData : readsOf (onData statusName handler chunk state).2 = [] := by
  have parsed (before : State parser) : readsOf (parse statusName handler chunk before).2 = [] := by
    unfold parse
    simp only [Reaction.andThen, readsOf_append, readsOf_onCallbacks, List.nil_append]
    split
    · exact readsOf_close
    · rfl
  unfold onData
  simp only [Reaction.andThen, readsOf_append, parsed, List.append_nil]
  split <;> rfl

end Reads

theorem answers_onRequestComplete {message : Message} (opened : state.client = .opened)
    (idle : state.flights = []) (bounded : (handler message.received).Bounded statusName)
    (shown : state.request.received = message.received) (fresh : state.request.response = {})
    (complete : state.request.complete = true) (good : state.request.body.bad = false) :
    Answers statusName handler message
      (onRequestComplete statusName (some handler) state) := by
  have answered := Response.answer_eq bounded
  rw [← fresh] at answered
  have headed := projections_touched (handler message.received).headers .head
  have bodied := projections_touched (handler message.received).body .body
  unfold onRequestComplete write
  simp only [shown, Reaction.andThen, opened, if_true, idle, Response.held_whole]
  generalize state.request.response.answer statusName (handler message.received) = response
    at answered
  have encoded : response.startLine.bytes ++ response.head.bytes ++ response.body.bytes =
      (handler message.received).encode statusName := by rw [answered, Reply.encode]
  refine ⟨rfl, ⟨_, rfl, ?_⟩, complete, ?_, ?_, ?_, ?_⟩
  · exact (Response.held_whole response).trans encoded
  · simp [answered, Request.reset, Request.initial, Response.reset, Contents.clear, good]
  all_goals
    rw [encoded, ← List.singleton_append (x := Event.request message.received)]
  · simp only [requestsOf_append, headed.2.1, bodied.2.1]
    rfl
  · simp only [responsesOf_append, headed.2.2.1, bodied.2.2.1]
    rfl
  · simp only [writtenOf_append, headed.2.2.2, bodied.2.2.2]
    rfl

/-- A read that completes the request. -/
theorem answers_onData {spelling : Spelling} (opened : state.client = .opened)
    (idle : state.flights = []) (ready : state.ready = filled parser chunks)
    (accepted : (parser.feed parser.init (chunks ++ [chunk])).2.2 = true)
    (incomplete : .messageComplete ∉ (parser.feed parser.init chunks).2.1)
    (spelled : (parser.feed parser.init (chunks ++ [chunk])).2.1 = spelling.callbacks)
    (named : spelling.message.Named) (plain : spelling.message.Plain)
    (bounded : (handler spelling.message.received).Bounded statusName) :
    Answers statusName handler spelling.message
      (onData statusName (some handler) chunk state) := by
  rw [feed_concat] at accepted spelled
  simp only [Bool.and_eq_true, beq_iff_eq] at accepted
  obtain ⟨middle, last, opening⟩ := exists_last spelled incomplete
  obtain ⟨headerField, whole⟩ := @foldl_opening parser spelling named plain
  have missing : .messageComplete ∉ middle := by
    have := messageComplete_not_mem_opening spelling
    simp only [opening, List.mem_append, not_or] at this
    exact this.2
  have parsed (before : State parser) (here : before.request = filled parser chunks)
      (client : before.client = .opened) (flights : before.flights = []) :
      Answers statusName handler spelling.message
        (parse statusName (some handler) chunk before) := by
    have entry : before.request.parser = (parser.feed parser.init chunks).1 := by
      rw [here, filled]
    generalize completed : { middle.foldl Request.fill
        { before.request with parser := (parser.execute before.request.parser chunk).1 } with
      complete := true } = request
    have built : request = { spelling.opening.foldl Request.fill (Request.initial parser) with
        parser := (parser.execute before.request.parser chunk).1, complete := true } := by
      rw [← completed, here, opening, List.foldl_append, foldl_fill_entry]
      simp only [filled, foldl_fill_entry]
    have answers : Answers statusName handler spelling.message
        (onRequestComplete statusName (some handler) { before with request }) := by
      refine answers_onRequestComplete client flights bounded ?_ ?_ ?_ ?_
      all_goals simp only [built, whole]
      · rfl
      · rfl
    have same : parse statusName (some handler) chunk before =
        onRequestComplete statusName (some handler) { before with request } := by
      rw [← completed]
      unfold parse
      simp only [entry, last, accepted.2, onCallbacks_concat missing, Reaction.andThen]
      simp
    rw [same]
    exact answers
  unfold State.ready at ready
  unfold onData
  split at ready
  · next complete =>
    have answers := parsed { state with request := state.request.reset } ready opened idle
    rw [if_pos complete]
    exact ⟨answers.client, answers.flight, answers.complete, answers.fresh, answers.requests,
      answers.responses, answers.written⟩
  · next fresh =>
    have answers := parsed state ready opened idle
    rw [if_neg fresh]
    exact answers

end Nexer.Http
