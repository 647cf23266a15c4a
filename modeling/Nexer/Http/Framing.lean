import Nexer.Http.Scanner
import Nexer.Http.Feeding

/-!
# Requests do not depend on how they are read

When every read belongs to one request, and arrives when nothing is being written, the
server sees each request once and answers it with its own response.
-/

namespace Nexer.Http

open Nexer.Transition

/-- No read holds bytes of two requests: each request is made of some reads, the last one
of which is not empty. -/
inductive Aligned : List Bytes → List Bytes → Prop where
  | rest (reads : List Bytes) (empty : ∀ read ∈ reads, read = []) : Aligned reads []
  | request (chunks : List Bytes) (last : Bytes) (full : last ≠ []) {reads parts : List Bytes}
      (others : Aligned reads parts) :
      Aligned (chunks ++ last :: reads) ((chunks ++ [last]).flatten :: parts)

/-- Reads arrive when nothing is being written, and nothing fails. -/
def Orderly {parser : Parser} (state : State parser) : Label → Prop
  | .read _ => state.flights = []
  | .written status => status = 0
  | .eof | .readError | .closed => False

instance {parser : Parser} : ∀ (state : State parser) label, Decidable (Orderly state label)
  | state, .read _ => inferInstanceAs (Decidable (state.flights = []))
  | _, .written status => inferInstanceAs (Decidable (status = 0))
  | _, .eof | _, .readError | _, .closed => .isFalse id

variable {parser : Parser} {statusName : Nat → Bytes} {handler : Handler}
variable {state : State parser} {chunks : List Bytes} {chunk : Bytes}

/-- The bytes read since the last complete request are a proper part of the next one. -/
def Incomplete (chunks : List Bytes) : List Wire → Prop
  | [] => chunks.flatten = []
  | wire :: _ => chunks.flatten <+: wire.1 ∧ chunks.flatten ≠ wire.1

/-- Where a connection stands when the reads so far, with some to come, are aligned. -/
structure Standing (statusName : Nat → Bytes) (handler : Handler) (done todo : List Wire)
    (chunks : List Bytes) (state : State parser) (past : List Event) : Prop where
  incomplete : Incomplete chunks todo
  ready : state.ready = filled parser chunks
  client : state.client = .opened
  requests : requestsOf past = done.map fun wire => wire.2.received
  responses : responsesOf past =
    done.map fun wire => (handler wire.2.received).encode statusName
  written : state.flights = [] ∧ writtenOf past = responsesOf past ∨
    ∃ flight, state.flights = [flight] ∧
      responsesOf past = writtenOf past ++ [state.request.response.held flight]

/-- The invariant of a connection. -/
def Progress (statusName : Nat → Bytes) (handler : Handler) (wires : List Wire)
    (state : State parser) (past : List Event) : Prop :=
  ∀ later, Aligned (readsOf past ++ later) (wires.map Prod.fst) →
    ∃ done todo chunks, wires = done ++ todo ∧ Aligned (chunks ++ later) (todo.map Prod.fst) ∧
      Standing statusName handler done todo chunks state past

variable {wires done todo : List Wire} {past : List Event} {later : List Bytes}

/-- What an incomplete request makes of the next read. -/
theorem aligned_cases (aligned : Aligned (chunks ++ chunk :: later) (todo.map Prod.fst))
    (incomplete : Incomplete chunks todo) :
    Incomplete (chunks ++ [chunk]) todo ∧
        Aligned (chunks ++ [chunk] ++ later) (todo.map Prod.fst) ∨
      ∃ wire rest, todo = wire :: rest ∧ (chunks ++ [chunk]).flatten = wire.1 ∧
        Aligned later (rest.map Prod.fst) := by
  generalize whole : chunks ++ chunk :: later = reads, wires : todo.map Prod.fst = parts at aligned
  have moved : chunks ++ [chunk] ++ later = chunks ++ chunk :: later := by simp
  cases aligned with
  | rest _ empty =>
      obtain rfl := List.map_eq_nil_iff.mp wires
      obtain rfl := empty chunk (by simp [← whole])
      refine .inl ⟨?_, by rw [moved, whole]; exact .rest _ empty⟩
      simpa [Incomplete] using incomplete
  | request first last full others =>
      obtain ⟨wire, rest, rfl, part, tail⟩ := List.map_eq_cons_iff.mp wires
      subst tail
      simp only [Incomplete, part] at incomplete
      -- The read is inside the request or its last one, since the request was incomplete.
      rcases List.append_eq_append_iff.mp whole with ⟨more, inside, split⟩ | ⟨more, outside, split⟩
      · cases more with
        | nil =>
            obtain ⟨rfl, rfl⟩ := List.cons.inj split
            exact .inr ⟨wire, rest, rfl, by simp [part, inside], others⟩
        | cons next more =>
            obtain ⟨rfl, rfl⟩ := List.cons.inj split
            refine .inl ⟨⟨?_, fun equal => ?_⟩, ?_⟩
            · rw [part, inside]
              exact ⟨more.flatten ++ last, by simp⟩
            · rw [part, inside] at equal
              simp [full] at equal
            · rw [moved, whole]
              exact .request first last full others
      · cases more with
        | nil =>
            obtain ⟨rfl, rfl⟩ := List.cons.inj split
            exact .inr ⟨wire, rest, rfl, by simp [part, outside], others⟩
        | cons next more =>
            obtain ⟨rfl, -⟩ := List.cons.inj split
            obtain ⟨⟨suffix, longer⟩, apart⟩ := incomplete
            refine absurd ?_ apart
            rw [outside] at longer ⊢
            have lengths := congrArg List.length longer
            simp only [List.flatten_append, List.flatten_cons, List.length_append, List.flatten_nil,
              List.append_nil] at lengths ⊢
            have none : more.flatten = [] := List.eq_nil_of_length_eq_zero (by omega)
            rw [none, List.append_nil]

/-- No request is empty. -/
theorem incomplete_nil (aligned : Aligned later (todo.map Prod.fst)) : Incomplete [] todo := by
  cases todo with
  | nil => rfl
  | cons wire rest =>
      refine ⟨List.nil_prefix, fun empty => ?_⟩
      generalize wires : (wire :: rest).map Prod.fst = parts at aligned
      cases aligned with
      | rest => cases wires
      | request first last full =>
          rw [List.map_cons, List.cons.injEq, ← empty] at wires
          simp [full] at wires

/-- Without further reads, nothing is left to be read. -/
theorem todo_eq_nil (aligned : Aligned chunks (todo.map Prod.fst))
    (incomplete : Incomplete chunks todo) : todo = [] := by
  cases todo with
  | nil => rfl
  | cons wire rest =>
      obtain ⟨before, apart⟩ := incomplete
      generalize wires : (wire :: rest).map Prod.fst = parts at aligned
      cases aligned with
      | rest => cases wires
      | request first last full =>
          rw [List.map_cons, List.cons.injEq] at wires
          have shorter := before.length_le
          refine absurd (before.eq_of_length_le ?_) apart
          rw [wires.1]
          simp only [List.flatten_append, List.flatten_cons, List.length_append, List.flatten_nil,
            List.length_nil]
          omega

theorem Contract.partway (contract : Contract parser wires) (within : ∀ wire ∈ todo, wire ∈ wires)
    (incomplete : Incomplete chunks todo) :
    (parser.feed parser.init chunks).2.2 = true ∧
      .messageComplete ∉ (parser.feed parser.init chunks).2.1 := by
  cases todo with
  | nil => exact contract.idle chunks incomplete
  | cons wire rest =>
      have reports := contract.reports wire (within wire (by simp))
      exact ⟨reports.accepted chunks incomplete.1,
        reports.incomplete chunks incomplete.1 incomplete.2⟩

/-- The requests that the server serves as it should. -/
structure Served (parser : Parser) (statusName : Nat → Bytes) (handler : Handler)
    (wires : List Wire) : Prop where
  contract : Contract parser wires
  named : ∀ wire ∈ wires, wire.2.Named
  plain : ∀ wire ∈ wires, wire.2.Plain
  bounded : ∀ wire ∈ wires, (handler wire.2.received).Bounded statusName

namespace Standing

theorem initial : Standing statusName handler [] [] [] (State.initial parser) [] where
  incomplete := rfl
  ready := rfl
  client := rfl
  requests := rfl
  responses := rfl
  written := .inl ⟨rfl, rfl⟩

/-- A read that is not the last one of its request. -/
theorem partway (standing : Standing statusName handler done todo chunks state past)
    (contract : Contract parser wires) (within : ∀ wire ∈ todo, wire ∈ wires)
    (idle : state.flights = []) (incomplete : Incomplete (chunks ++ [chunk]) todo) :
    Standing statusName handler done todo (chunks ++ [chunk])
        (onData statusName (some handler) chunk state).1
        (past ++ .read chunk :: (onData statusName (some handler) chunk state).2) := by
  obtain ⟨accepted, missing⟩ := contract.partway within incomplete
  rw [onData_partway standing.ready accepted missing]
  have handed : writtenOf past = responsesOf past := by
    rcases standing.written with ⟨-, same⟩ | ⟨flight, busy, -⟩
    · exact same
    · exact nomatch busy.symm.trans idle
  have silent (complete : Bool) : ∀ out : List Event,
      out = .read chunk :: (if complete then [.touched .startLine, .touched .head, .touched .body]
        else []) → requestsOf out = [] ∧ responsesOf out = [] ∧ writtenOf out = [] := by
    rintro _ rfl
    cases complete <;> exact ⟨rfl, rfl, rfl⟩
  obtain ⟨requests, responses, written⟩ := silent state.request.complete _ rfl
  refine ⟨incomplete, ?_, standing.client, ?_, ?_, .inl ⟨idle, ?_⟩⟩
  · simp [State.ready, filled_incomplete]
  · rw [requestsOf_append, requests, List.append_nil, standing.requests]
  · rw [responsesOf_append, responses, List.append_nil, standing.responses]
  · rw [writtenOf_append, responsesOf_append, written, responses, handed]

/-- The last read of a request. -/
theorem complete {wire : Wire} (standing : Standing statusName handler done (wire :: todo) chunks state past)
    (served : Served parser statusName handler wires) (within : wire ∈ wires)
    (idle : state.flights = []) (whole : (chunks ++ [chunk]).flatten = wire.1)
    (next : Incomplete [] todo) :
    Standing statusName handler (done ++ [wire]) todo []
        (onData statusName (some handler) chunk state).1
        (past ++ .read chunk :: (onData statusName (some handler) chunk state).2) := by
  have reports := served.contract.reports wire within
  obtain ⟨spelling, message, spelled⟩ := reports.spelled _ whole
  have missing := reports.incomplete chunks standing.incomplete.1 standing.incomplete.2
  have accepted := reports.accepted (chunks ++ [chunk]) (whole ▸ List.prefix_rfl)
  have answers : Answers statusName handler wire.2 (onData statusName (some handler) chunk state) := by
    rw [← message]
    refine answers_onData standing.client idle standing.ready accepted missing spelled ?_ ?_ ?_
    all_goals rw [message]
    · exact served.named wire within
    · exact served.plain wire within
    · exact served.bounded wire within
  have handed : writtenOf past = responsesOf past := by
    rcases standing.written with ⟨-, same⟩ | ⟨flight, busy, -⟩
    · exact same
    · exact nomatch busy.symm.trans idle
  obtain ⟨flight, flights, held⟩ := answers.flight
  rw [← List.singleton_append (x := Event.read chunk)]
  refine ⟨next, ?_, answers.client, ?_, ?_, .inr ⟨flight, flights, ?_⟩⟩
  · simp only [State.ready, answers.complete, if_true, answers.fresh]
    rfl
  · simp only [requestsOf_append, answers.requests, standing.requests, List.map_append]
    rfl
  · simp only [responsesOf_append, answers.responses, standing.responses, List.map_append]
    rfl
  · simp only [responsesOf_append, writtenOf_append, answers.responses, answers.written, handed, held]
    simp [responsesOf, writtenOf]

/-- The callback of a write. -/
theorem wrote {flight : Flight} {rest : List Flight}
    (standing : Standing statusName handler done todo chunks state past)
    (flights : state.flights = flight :: rest) :
    Standing statusName handler done todo chunks { state with flights := rest }
      (past ++ [.written 0 (state.request.response.held flight)]) := by
  rcases standing.written with ⟨idle, -⟩ | ⟨only, busy, handed⟩
  · exact nomatch flights.symm.trans idle
  · obtain ⟨rfl, rfl⟩ := List.cons.inj (flights.symm.trans busy)
    refine ⟨standing.incomplete, standing.ready, standing.client, ?_, ?_, .inl ⟨rfl, ?_⟩⟩
    · simpa [requestsOf] using standing.requests
    · simpa [responsesOf] using standing.responses
    · rw [writtenOf_append, responsesOf_append, handed]
      simp [writtenOf, responsesOf]

end Standing

theorem progress_initial : Progress statusName handler wires (State.initial parser) [] :=
  fun _ aligned => ⟨[], wires, [], rfl, aligned,
    { Standing.initial with incomplete := incomplete_nil aligned }⟩

/-- Every step under the condition. -/
theorem Progress.step {following : State parser} {out : List Event} {label : Label}
    (progress : Progress statusName handler wires state past)
    (served : Served parser statusName handler wires) (orderly : Orderly state label)
    (moved : Http.step parser statusName (some handler) state label = some (following, out)) :
    Progress statusName handler wires following (past ++ out) := by
  intro later aligned
  cases label with
  | read bytes =>
      simp only [Http.step] at moved
      split at moved
      · obtain ⟨rfl, rfl⟩ := Prod.mk.inj (Option.some.inj moved)
        simp only [readsOf_append, readsOf_onData, List.append_nil] at aligned
        obtain ⟨done, todo, chunks, split, tail, standing⟩ :=
          progress (bytes :: later) (by simpa [readsOf] using aligned)
        have within : ∀ wire ∈ todo, wire ∈ wires := by simp +contextual [split]
        rcases aligned_cases tail standing.incomplete with ⟨incomplete, on⟩ |
            ⟨wire, rest, rfl, whole, on⟩
        · exact ⟨done, todo, chunks ++ [bytes], split, on,
            standing.partway served.contract within orderly incomplete⟩
        · exact ⟨done ++ [wire], rest, [], by simp [split], on,
            standing.complete served (within wire (by simp)) orderly whole (incomplete_nil on)⟩
      · cases moved
  | written status =>
      obtain rfl : status = 0 := orderly
      simp only [Http.step] at moved
      split at moved
      · cases moved
      · next flight rest flights =>
        split at moved
        · obtain ⟨rfl, rfl⟩ := Prod.mk.inj (Option.some.inj moved)
          obtain ⟨done, todo, chunks, split, tail, standing⟩ := progress later (by
            simpa [Reaction.andThen, readsOf] using aligned)
          exact ⟨done, todo, chunks, split, tail, by
            simpa [Reaction.andThen] using standing.wrote flights⟩
        · cases moved
  | eof | readError | closed => exact orderly.elim

/-- Each request is handled once, in order, and the responses follow each other, however
the bytes are cut into reads that belong to one request each. -/
theorem requests_framed (served : Served parser statusName handler wires)
    (reached : Machine.Reaches (step parser statusName (some handler)) Orderly (.initial parser)
      state past)
    (aligned : Aligned (readsOf past) (wires.map Prod.fst)) :
    requestsOf past = wires.map (fun wire => wire.2.received) ∧
      (responsesOf past).flatten =
        (wires.map fun wire => (handler wire.2.received).encode statusName).flatten ∧
      (state.flights = [] → writtenOf past = responsesOf past) := by
  have progress : Progress statusName handler wires state past :=
    reached.invariant (Progress statusName handler wires) progress_initial
      fun _ progress orderly moved => progress.step served orderly moved
  obtain ⟨done, todo, chunks, rfl, tail, standing⟩ := progress [] (by simpa using aligned)
  obtain rfl := todo_eq_nil (by simpa using tail) standing.incomplete
  rw [List.append_nil, standing.requests, standing.responses]
  refine ⟨rfl, rfl, fun idle => ?_⟩
  rcases standing.written with ⟨-, same⟩ | ⟨flight, busy, -⟩
  · rw [same, standing.responses]
  · exact nomatch busy.symm.trans idle

section Scan

open Scanner

theorem scanAll_append (first second : Bytes) (place : Place) :
    scanAll (first ++ second) place =
      ((scanAll second (scanAll first place).1).1,
        (scanAll first place).2 ++ (scanAll second (scanAll first place).1).2) := by
  induction first generalizing place with
  | nil => rfl
  | cons byte rest ih => simp [scanAll, ih]

theorem scanAll_failed (bytes : Bytes) : (scanAll bytes .failed).1 = .failed := by
  induction bytes with
  | nil => rfl
  | cons byte rest ih => exact ih

/-- The scanner does not see the ends of the chunks. -/
theorem feed_scanner (place : Place) (chunks : List Bytes) :
    (scanner.feed place chunks).2.1 = (scanAll chunks.flatten place).2 ∧
      ((scanAll chunks.flatten place).1 ≠ .failed → (scanner.feed place chunks).2.2 = true) := by
  induction chunks generalizing place with
  | nil => exact ⟨rfl, fun _ => rfl⟩
  | cons chunk rest ih =>
      obtain ⟨callbacks, accepted⟩ := ih (scanAll chunk place).1
      rw [List.flatten_cons, scanAll_append]
      refine ⟨congrArg ((scanAll chunk place).2 ++ ·) callbacks, fun fine => ?_⟩
      have later : (scanner.feed (scanAll chunk place).1 rest).2.2 = true := accepted fine
      have here : (scanAll chunk place).1 ≠ .failed := by
        intro failed
        rw [failed, scanAll_failed] at fine
        exact fine rfl
      simp only [Parser.feed, Bool.and_eq_true, beq_iff_eq]
      exact ⟨if_neg here, later⟩

/-- A request that the scanner accepts byte by byte. -/
theorem reports_scanner {bytes : Bytes} {message : Message} (spelling : Spelling)
    (spells : spelling.message = message)
    (partway : ∀ length < bytes.length, (scanAll (bytes.take length) .method).1 ≠ .failed ∧
      .messageComplete ∉ (scanAll (bytes.take length) .method).2)
    (whole : scanAll bytes .method = (.method, spelling.callbacks)) :
    Reports scanner (bytes, message) := by
  have inside {chunks : List Bytes} (part : chunks.flatten <+: bytes)
      (proper : chunks.flatten ≠ bytes) := partway chunks.flatten.length (by
    refine Nat.lt_of_le_of_ne part.length_le fun same => proper ?_
    exact part.eq_of_length same)
  constructor
  · intro chunks part
    by_cases same : chunks.flatten = bytes
    · exact (feed_scanner .method chunks).2 (by simp [same, whole])
    · have here := inside part same
      rw [← List.prefix_iff_eq_take.mp part] at here
      exact (feed_scanner .method chunks).2 here.1
  · intro chunks part proper
    have here := inside part proper
    rw [← List.prefix_iff_eq_take.mp part] at here
    rw [show scanner.init = .method from rfl, (feed_scanner .method chunks).1]
    exact here.2
  · intro chunks same
    refine ⟨spelling, spells, (feed_scanner .method chunks).1.trans ?_⟩
    rw [show chunks.flatten = bytes from same, whole]

theorem contract_scanner {wires : List Wire} (reports : ∀ wire ∈ wires, Reports scanner wire) :
    Contract scanner wires where
  reports := reports
  idle := by
    intro chunks empty
    obtain ⟨callbacks, accepted⟩ := feed_scanner .method chunks
    rw [empty] at callbacks accepted
    exact ⟨accepted nofun, callbacks ▸ nofun⟩

/-- `GET /` without headers. -/
def rootWire : Wire :=
  (ascii "GET / HTTP/1.1\r\n\r\n", { url := ascii "/", headers := [], body := [] })

theorem served_rootWire (wires : List Wire) (all : ∀ wire ∈ wires, wire = rootWire) :
    Served scanner (fun _ => []) (fun _ => {}) wires := by
  refine ⟨contract_scanner fun wire member => ?_, fun wire member => ?_, fun wire member => ?_,
    fun wire member => ?_⟩
  all_goals obtain rfl := all wire member
  · exact reports_scanner ⟨[ascii "/"], [], []⟩ rfl (by decide) (by decide)
  · decide
  · decide
  · decide

end Scan

/-- Two requests in four reads, the second of which is empty. -/
theorem requests_framed_run :
    ∃ state past, Machine.Reaches (step scanner (fun _ => []) (some fun _ => {})) Orderly
        (.initial scanner) state past ∧
      requestsOf past = [rootWire, rootWire].map fun wire => wire.2.received := by
  obtain ⟨state, reached, -⟩ := Machine.exists_reaches
    (step scanner (fun _ => []) (some fun _ => {})) Orderly (.initial scanner)
    [.read (ascii "GET / HT"), .read [], .read (ascii "TP/1.1\r\n\r\n"), .written 0,
      .read (ascii "GET / HTTP/1.1\r\n\r\n")]
    [.read (ascii "GET / HT"), .read [], .read (ascii "TP/1.1\r\n\r\n"),
      .request rootWire.2.received, .touched .startLine, .touched .head,
      .write (Reply.encode (fun _ => []) {}), .written 0 (Reply.encode (fun _ => []) {}),
      .read (ascii "GET / HTTP/1.1\r\n\r\n"), .touched .startLine, .touched .head, .touched .body,
      .request rootWire.2.received, .touched .startLine, .touched .head,
      .write (Reply.encode (fun _ => []) {})]
    (fun _ => true) (by decide)
  refine ⟨state, _, reached, (requests_framed (served_rootWire _ (by simp)) reached ?_).1⟩
  exact .request [ascii "GET / HT", []] (ascii "TP/1.1\r\n\r\n") (by decide)
    (.request [] (ascii "GET / HTTP/1.1\r\n\r\n") (by decide) (.rest [] (by simp)))

set_option maxRecDepth 4096 in
/-- Two requests in one read: the second one gets the URLs of both, and the response to
it repeats the first one. -/
theorem requests_confused :
    Served scanner (fun _ => []) (fun _ => {}) [rootWire, rootWire] ∧
      ∃ state past, Machine.Reaches (step scanner (fun _ => []) (some fun _ => {})) Orderly
          (.initial scanner) state past ∧
        (readsOf past).flatten = ([rootWire, rootWire].map Prod.fst).flatten ∧
        requestsOf past ≠ [rootWire, rootWire].map fun wire => wire.2.received := by
  obtain ⟨state, reached, -⟩ := Machine.exists_reaches
    (step scanner (fun _ => []) (some fun _ => {})) Orderly (.initial scanner)
    [.read (rootWire.1 ++ rootWire.1)]
    [.read (rootWire.1 ++ rootWire.1), .request rootWire.2.received, .touched .startLine,
      .touched .head, .write (Reply.encode (fun _ => []) {}),
      .request { url := ascii "//", parsed := { path := ascii "//" }, headers := [], body := [] },
      .touched .startLine, .touched .head,
      .write (ascii "HTTP/1.1 501 \r\nHTTP/1.1 501 \r\n" ++
        ascii "Connection: Keep-Alive\r\nContent-Length: 0\r\n\r\n" ++
        ascii "Connection: Keep-Alive\r\nContent-Length: 0\r\n\r\n")]
    (fun _ => true) (by decide)
  exact ⟨served_rootWire _ (by simp), state, _, reached, by decide, by decide⟩

end Nexer.Http
