import Nexer.StringBuffer.Refinement

/-!
# The HTTP client

libcurl hands the header lines and the parts of the body of a response to two callbacks, which
append them to the two string buffers of the response.
-/

namespace Nexer.HttpClient

open Nexer.StringBuffer

/-- What a callback gets: a pointer with the bytes that can be read there, and the two factors of
the length. -/
structure Data where
  data : Source
  size : UInt64
  nmesb : UInt64
  inside : (size * nmesb).toNat ≤ data.bytes.length

namespace Data

def n (data : Data) : UInt64 := data.size * data.nmesb

/-- What libcurl delivers. -/
def bytes (data : Data) : Bytes := data.data.bytes.take data.n.toNat

/-- What `StringBuffer::Write` appends. -/
def appended (data : Data) : Bytes := written data.data data.n

end Data

inductive Delivery where
  | header (line : Data)
  | content (chunk : Data)

structure Response where
  status : Int := 501
  head : MyBuf := {}
  body : MyBuf := {}

/-- `http_content_callback` -/
def contentCallback (heap : Heap) (data : Data) (sb : MyBuf) : MyBuf × UInt64 :=
  ((sb.write heap data.appended).1, data.n)

/-- `std::ostream::clear`, which sets the state of the stream and leaves its buffer alone. -/
def clear (sb : MyBuf) : MyBuf := sb

/-- `n > 4` and the first bytes are `HTTP/`. -/
def isStatusLine (data : Data) : Bool :=
  4 < data.n && data.data.bytes.take 5 == ascii "HTTP/"

/-- `http_header_callback` -/
def headerCallback (heap : Heap) (data : Data) (sb : MyBuf) : MyBuf × UInt64 :=
  let sb := if isStatusLine data then clear sb else sb
  ((sb.write heap data.appended).1, data.n)

/-- `curl_easy_perform` goes on, as the callbacks return the length that they got. -/
def deliver (headHeap bodyHeap : Heap) (res : Response) : Delivery → Response
  | .header line => { res with head := (headerCallback headHeap line res.head).1 }
  | .content chunk => { res with body := (contentCallback bodyHeap chunk res.body).1 }

/-- `HttpClient::Get`, where libcurl makes these deliveries, ends with `err` and reports `rc`. -/
def get (headHeap bodyHeap : Heap) (deliveries : List Delivery) (err rc : Int) : Response :=
  let res := deliveries.foldl (deliver headHeap bodyHeap) {}
  { res with status := if err = 0 then rc else err }

def Delivery.line? : Delivery → Option Data
  | .header line => some line
  | .content _ => none

def Delivery.chunk? : Delivery → Option Data
  | .header _ => none
  | .content chunk => some chunk

def lines (deliveries : List Delivery) : List Data := deliveries.filterMap Delivery.line?

def chunks (deliveries : List Delivery) : List Data := deliveries.filterMap Delivery.chunk?

/-- A line that begins with `HTTP/`. -/
def BeginsBlock (line : Data) : Prop := ascii "HTTP/" <+: line.bytes

instance (line : Data) : Decidable (BeginsBlock line) :=
  inferInstanceAs (Decidable (ascii "HTTP/" <+: line.bytes))

/-- The lines from the last one on that begins with `HTTP/`. -/
def lastBlock : List Data → List Data
  | [] => []
  | line :: rest => if ∃ other ∈ rest, BeginsBlock other then lastBlock rest else line :: rest

/-- The lines before that. -/
def earlier : List Data → List Data
  | [] => []
  | line :: rest => if ∃ other ∈ rest, BeginsBlock other then line :: earlier rest else []

def concat (parts : List Data) : Bytes := (parts.map Data.bytes).flatten

/-- The response has the chunks and the lines of the last block. -/
def Exact (res : Response) (deliveries : List Delivery) : Prop :=
  res.body.contents = concat (chunks deliveries) ∧
    res.head.contents = concat (lastBlock (lines deliveries))

/-- What is appended in order, as far as there is room. -/
def appendAll (heap : Heap) (sb : MyBuf) (parts : List Data) : MyBuf :=
  parts.foldl (fun sb part => (sb.write heap part.appended).1) sb

/-- Every part that is not empty finds room. -/
def Accepted (heap : Heap) : MyBuf → List Data → Prop
  | _, [] => True
  | sb, part :: rest =>
      (part.appended ≠ [] → Room heap sb (sb.size + part.appended.length + 1)) ∧
        Accepted heap (sb.write heap part.appended).1 rest

/-- No NUL-terminated string stands where an empty line or chunk does. -/
def Honest (parts : List Data) : Prop :=
  ∀ part ∈ parts, part.n = 0 → part.appended = []

/-- The lines of earlier blocks leave nothing, and no empty line or chunk does. -/
def Clean (deliveries : List Delivery) : Prop :=
  (∀ line ∈ earlier (lines deliveries), line.appended = []) ∧ Honest (lines deliveries) ∧
    Honest (chunks deliveries)

/-- What `Write` appends of these parts. -/
def kept (parts : List Data) : Bytes := (parts.map Data.appended).flatten

variable {heap headHeap bodyHeap : Heap} {sb : MyBuf} {content : Bytes} {parts : List Data}
variable {part line : Data} {deliveries : List Delivery}

theorem lines_split (all : List Data) : earlier all ++ lastBlock all = all := by
  induction all with
  | nil => rfl
  | cons line rest ih =>
      unfold earlier lastBlock
      split
      · rw [List.cons_append, ih]
      · rfl

namespace Data

theorem bytes_of_zero (empty : part.n = 0) : part.bytes = [] := by
  rw [bytes, empty]
  rfl

theorem appended_of_ne (some : part.n ≠ 0) : part.appended = part.bytes :=
  if_neg some

theorem length_le : part.bytes.length ≤ part.appended.length := by
  by_cases empty : part.n = 0
  · rw [bytes_of_zero empty]
    exact Nat.zero_le _
  · rw [appended_of_ne empty]

theorem length_eq_iff :
    part.appended.length = part.bytes.length ↔ (part.n = 0 → part.appended = []) := by
  by_cases empty : part.n = 0
  · simp [bytes_of_zero empty, empty]
  · simp [appended_of_ne empty, empty]

end Data

theorem concat_length_le : (concat parts).length ≤ (kept parts).length := by
  induction parts with
  | nil => exact Nat.le_refl _
  | cons part rest ih =>
      simp only [concat, kept, List.map_cons, List.flatten_cons, List.length_append] at ih ⊢
      exact Nat.add_le_add Data.length_le ih

/-- Only strings in the place of empty parts make what is kept longer. -/
theorem length_eq_iff : (kept parts).length = (concat parts).length ↔ Honest parts := by
  induction parts with
  | nil => simp [kept, concat, Honest]
  | cons part rest ih =>
      have first := @Data.length_le part
      have more := @concat_length_le rest
      simp only [concat, kept, Honest, List.map_cons, List.flatten_cons, List.length_append,
        List.forall_mem_cons] at ih more ⊢
      rw [← Data.length_eq_iff, ← ih]
      omega

theorem kept_eq (honest : Honest parts) : kept parts = concat parts := by
  rw [kept, concat]
  congr 1
  refine List.map_congr_left fun part member => ?_
  by_cases empty : part.n = 0
  · rw [honest part member empty, Data.bytes_of_zero empty]
  · exact Data.appended_of_ne empty

/-- What the calls of `Write` make of a buffer. -/
theorem appendAll_holds (heap : Heap) (parts : List Data) (holds : Holds sb content) :
    ∃ added, Holds (appendAll heap sb parts) (content ++ added) ∧
      (Accepted heap sb parts → added = kept parts) ∧
        added.length ≤ (kept parts).length ∧
          (added.length = (kept parts).length → Accepted heap sb parts) := by
  induction parts generalizing sb content with
  | nil => exact ⟨[], by simpa [appendAll] using holds, fun _ => rfl, Nat.le_refl _, fun _ => trivial⟩
  | cons part rest ih =>
      have short := written_length part.data part.n
      have total : (kept (part :: rest)).length = part.appended.length + (kept rest).length := by
        simp [kept]
      rw [Accepted, Keeps.size holds]
      by_cases room : Room heap sb (content.length + part.appended.length + 1)
      · obtain ⟨next, wrote, yields⟩ := holds.write short room
        obtain ⟨added, after, accepted, less, same⟩ := ih yields.holds
        have here : (sb.write heap part.appended).1 = next := congrArg Prod.fst wrote
        refine ⟨part.appended ++ added, ?_, ?_, ?_, ?_⟩
        · rw [← List.append_assoc, appendAll, List.foldl_cons, here]
          exact after
        · rw [here]
          rintro ⟨-, others⟩
          rw [accepted others]
          rfl
        · rw [total, List.length_append]
          exact Nat.add_le_add_left less _
        · rw [total, List.length_append, here]
          exact fun equal => ⟨fun _ => room, same (Nat.add_left_cancel equal)⟩
      · obtain ⟨next, wrote, refused⟩ := holds.write_refused short room
        obtain ⟨added, after, accepted, less, same⟩ := ih (refused.holds holds)
        have here : (sb.write heap part.appended).1 = next := congrArg Prod.fst wrote
        refine ⟨added, ?_, ?_, ?_, ?_⟩
        · rw [appendAll, List.foldl_cons, here]
          exact after
        · rw [here]
          rintro ⟨some, others⟩
          have empty : part.appended = [] := by
            by_contra present
            exact room (some present)
          rw [accepted others, kept, kept, List.map_cons, List.flatten_cons, empty]
          rfl
        · rw [total]
          exact Nat.le_trans less (Nat.le_add_left _ _)
        · rw [total, here]
          intro equal
          have empty : part.appended = [] := List.length_eq_zero_iff.1 (by omega)
          exact ⟨fun present => absurd empty present, same (by omega)⟩

theorem get_head (err rc : Int) : (get headHeap bodyHeap deliveries err rc).head =
    appendAll headHeap {} (lines deliveries) := by
  have loop : ∀ res : Response, (deliveries.foldl (deliver headHeap bodyHeap) res).head =
      appendAll headHeap res.head (lines deliveries) := by
    induction deliveries with
    | nil => exact fun _ => rfl
    | cons delivery rest ih =>
        intro res
        cases delivery with
        | header line =>
            refine (ih _).trans ?_
            simp only [deliver, headerCallback, clear, ite_self]
            rfl
        | content chunk => exact ih _
  exact loop {}

theorem get_body (err rc : Int) : (get headHeap bodyHeap deliveries err rc).body =
    appendAll bodyHeap {} (chunks deliveries) := by
  have loop : ∀ res : Response, (deliveries.foldl (deliver headHeap bodyHeap) res).body =
      appendAll bodyHeap res.body (chunks deliveries) := by
    induction deliveries with
    | nil => exact fun _ => rfl
    | cons delivery rest ih =>
        intro res
        cases delivery with
        | header line => exact ih _
        | content chunk => exact ih _
  exact loop {}

variable {old last : List Data}

theorem kept_append : kept (old ++ last) = kept old ++ kept last := by
  simp only [kept, List.map_append, List.flatten_append]

theorem kept_eq_nil : kept old = [] ↔ ∀ line ∈ old, line.appended = [] := by
  rw [kept, List.flatten_eq_nil_iff]
  exact List.forall_mem_map

/-- When nothing else is kept, a buffer has the last parts exactly if all of them were accepted. -/
theorem contents_iff_accepted (heap : Heap) (dropped : ∀ line ∈ old, line.appended = [])
    (honest : Honest last) :
    (appendAll heap {} (old ++ last)).contents = concat last ↔ Accepted heap {} (old ++ last) := by
  obtain ⟨added, after, accepted, -, all⟩ := appendAll_holds heap (old ++ last) holds_initial
  have total : kept (old ++ last) = concat last := by
    rw [kept_append, kept_eq_nil.2 dropped, kept_eq honest, List.nil_append]
  rw [total] at accepted all
  rw [after.contents, List.nil_append]
  exact ⟨fun same => all (congrArg List.length same), accepted⟩

/-- When all parts were accepted, a buffer has the last ones exactly if nothing else was kept. -/
theorem contents_iff_clean (every : Accepted heap {} (old ++ last)) :
    (appendAll heap {} (old ++ last)).contents = concat last ↔
      (∀ line ∈ old, line.appended = []) ∧ Honest last := by
  obtain ⟨added, after, accepted, -⟩ := appendAll_holds heap (old ++ last) holds_initial
  rw [after.contents, List.nil_append, accepted every, kept_append, ← kept_eq_nil]
  constructor
  · intro same
    have lengths := congrArg List.length same
    rw [List.length_append] at lengths
    have more := @concat_length_le last
    exact ⟨List.length_eq_zero_iff.1 (by omega), length_eq_iff.1 (by omega)⟩
  · rintro ⟨none, honest⟩
    rw [none, kept_eq honest, List.nil_append]

theorem honest_append (dropped : ∀ line ∈ old, line.appended = []) :
    Honest (old ++ last) ↔ Honest last := by
  refine ⟨fun honest part member => honest part (List.mem_append_right _ member), ?_⟩
  intro honest part member
  rcases List.mem_append.1 member with here | there
  · exact fun _ => dropped part here
  · exact honest part there

theorem clean_iff : Clean deliveries ↔
    ((∀ line ∈ earlier (lines deliveries), line.appended = []) ∧
      Honest (lastBlock (lines deliveries))) ∧ Honest (chunks deliveries) := by
  rw [Clean, and_assoc]
  refine and_congr_right fun dropped => and_congr_left fun _ => ?_
  conv_lhs => rw [← lines_split (lines deliveries)]
  exact honest_append dropped

/-- The response is exact when nothing was dropped and nothing else was kept; when one of the two
holds, the other one is necessary. -/
theorem get_exact (headHeap bodyHeap : Heap) (deliveries : List Delivery) (err rc : Int) :
    (Clean deliveries → (Exact (get headHeap bodyHeap deliveries err rc) deliveries ↔
      Accepted headHeap {} (lines deliveries) ∧ Accepted bodyHeap {} (chunks deliveries))) ∧
    (Accepted headHeap {} (lines deliveries) ∧ Accepted bodyHeap {} (chunks deliveries) →
      (Exact (get headHeap bodyHeap deliveries err rc) deliveries ↔ Clean deliveries)) := by
  rw [Exact, get_head, get_body, clean_iff]
  have split := lines_split (lines deliveries)
  constructor
  · rintro ⟨⟨dropped, head⟩, body⟩
    have heads := contents_iff_accepted headHeap dropped head
    have bodies := @contents_iff_accepted [] _ bodyHeap (by simp) body
    rw [split] at heads
    rw [List.nil_append] at bodies
    rw [heads, bodies, and_comm]
  · rintro ⟨head, body⟩
    have heads := @contents_iff_clean headHeap (earlier (lines deliveries))
      (lastBlock (lines deliveries)) (by rwa [split])
    have bodies := @contents_iff_clean bodyHeap [] (chunks deliveries) body
    rw [split] at heads
    rw [List.nil_append] at bodies
    rw [heads, bodies, and_comm]
    simp

/-- Without failures of `realloc`, less than the limit is always accepted. -/
theorem accepted_of_granting (granting : ∀ call, (heap call).isSome) (holds : Holds sb content)
    (below : content.length + (kept parts).length < maxSize) : Accepted heap sb parts := by
  induction parts generalizing sb content with
  | nil => trivial
  | cons part rest ih =>
      rw [kept, List.map_cons, List.flatten_cons, List.length_append, ← kept] at below
      have room : Room heap sb (content.length + part.appended.length + 1) :=
        .inr (granted_of_granting granting _ (by omega))
      obtain ⟨next, wrote, yields⟩ := holds.write (written_length part.data part.n) room
      have here : (sb.write heap part.appended).1 = next := congrArg Prod.fst wrote
      refine ⟨fun _ => by rwa [Keeps.size holds], ?_⟩
      rw [here]
      refine ih yields.holds ?_
      rw [← Data.appended, List.length_append]
      omega

/-- A line of its own memory. -/
def wholeLine (text : Bytes) (small : text.length < 2 ^ 63) : Data where
  data := ⟨text, small⟩
  size := 1
  nmesb := UInt64.ofNat text.length
  inside := by
    rw [UInt64.one_mul, UInt64.toNat_ofNat']
    exact Nat.mod_le _ _

/-- One header block and a body in two chunks. -/
def delivered : List Delivery :=
  [.header (wholeLine (ascii "HTTP/1.1 200 OK\r\n") (by decide)),
    .header (wholeLine (ascii "Content-Length: 9\r\n") (by decide)),
    .content (wholeLine (ascii "nexer") (by decide)), .content (wholeLine (ascii " up\n") (by decide))]

/-- All of it is accepted, so the response is exact. -/
theorem get_exact_delivered :
    Exact (get plenty plenty delivered 0 200) delivered ∧
      (get plenty plenty delivered 0 200).body.contents = ascii "nexer up\n" := by
  have clean : Clean delivered := by
    unfold Clean Honest
    decide
  have head : Accepted plenty {} (lines delivered) :=
    accepted_of_granting (fun _ => rfl) holds_initial (by decide)
  have body : Accepted plenty {} (chunks delivered) :=
    accepted_of_granting (fun _ => rfl) holds_initial (by decide)
  have whole := ((get_exact plenty plenty delivered 0 200).1 clean).2 ⟨head, body⟩
  exact ⟨whole, whole.1.trans (by decide)⟩

/-- Two header blocks, as for a redirect. -/
def redirected : List Delivery :=
  [.header (wholeLine (ascii "HTTP/1.1 302 Found\r\n") (by decide)),
    .header (wholeLine (ascii "HTTP/1.1 200 OK\r\n") (by decide))]

/-- The lines of the first block stay in the head. -/
theorem get_redirected : ¬ ∀ (headHeap bodyHeap : Heap) (deliveries : List Delivery) (err rc : Int),
    Exact (get headHeap bodyHeap deliveries err rc) deliveries := by
  intro claim
  have head := (claim plenty plenty redirected 0 200).2
  have accepted : Accepted plenty {} (lines redirected) :=
    accepted_of_granting (fun _ => rfl) holds_initial (by decide)
  obtain ⟨added, after, same, -⟩ := appendAll_holds plenty (lines redirected) holds_initial
  rw [get_head, after.contents, same accepted] at head
  exact absurd head (by decide)

end Nexer.HttpClient
