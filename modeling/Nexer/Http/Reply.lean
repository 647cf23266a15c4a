import Nexer.Http.Connection

/-!
# The encoding of a response

The function of `OnRequest` fills three empty buffers.  Unless one of them reaches the
limit, they hold the start line, the head and the body of the response.
-/

namespace Nexer.Http

namespace Contents

variable {contents : Contents} {bytes : Bytes} {pieces : List Bytes}

/-- All pieces are inserted if they fit together. -/
theorem foldl_insert (good : contents.bad = false)
    (fits : contents.bytes.length + pieces.flatten.length + 1 ≤ limit) :
    pieces.foldl insert contents = { contents with bytes := contents.bytes ++ pieces.flatten } := by
  induction pieces generalizing contents with
  | nil => simp
  | cons piece rest ih =>
      simp only [List.flatten_cons, List.length_append] at fits
      have room : contents.Fits piece := by
        unfold Fits
        omega
      have first : contents.insert piece = { contents with bytes := contents.bytes ++ piece } := by
        simp [insert, good, room]
      have later := @ih { contents with bytes := contents.bytes ++ piece } good
        (by simp only [List.length_append]; omega)
      rw [List.foldl_cons, first, later]
      simp

theorem foldl_write (fits : contents.bytes.length + pieces.flatten.length + 1 ≤ limit) :
    pieces.foldl write contents = { contents with bytes := contents.bytes ++ pieces.flatten } := by
  induction pieces generalizing contents with
  | nil => simp
  | cons piece rest ih =>
      simp only [List.flatten_cons, List.length_append] at fits
      have room : contents.Fits piece := by
        unfold Fits
        omega
      have later := @ih { contents with bytes := contents.bytes ++ piece }
        (by simp only [List.length_append]; omega)
      rw [List.foldl_cons, write, if_pos room, later]
      simp

end Contents

namespace Reply

variable (statusName : Nat → Bytes) (reply : Reply)

/-- `End` without a status leaves the one of the constructor. -/
def code : Nat := if reply.status > 0 then reply.status else 501

def startLinePieces : List Bytes :=
  [ascii "HTTP/1.1 ", decimal reply.code, ascii " ", statusName reply.code, ascii "\r\n"]

def headerPieces : List Bytes :=
  reply.headers.flatMap fun header => [header.1, ascii ": ", header.2, ascii "\r\n"]

def headPieces : List Bytes :=
  reply.headerPieces ++ [ascii "Connection: Keep-Alive\r\n", ascii "Content-Length: ",
    decimal reply.body.flatten.length, ascii "\r\n\r\n"]

/-- The status line, the headers, the length of the body, a blank line and the body. -/
def encode : Bytes :=
  (reply.startLinePieces statusName).flatten ++ reply.headPieces.flatten ++ reply.body.flatten

/-- No buffer reaches the limit. -/
def Bounded : Prop :=
  (reply.startLinePieces statusName).flatten.length + 1 ≤ Contents.limit ∧
    reply.headPieces.flatten.length + 1 ≤ Contents.limit ∧
    reply.body.flatten.length + 1 ≤ Contents.limit

instance : Decidable (reply.Bounded statusName) := inferInstanceAs (Decidable (_ ∧ _))

end Reply

namespace Response

variable {statusName : Nat → Bytes} {reply : Reply} {response : Response}

theorem foldl_setHeader (headers : List (Bytes × Bytes)) (response : Response) :
    headers.foldl (fun response header => response.setHeader header.1 header.2) response =
      { response with
        head := (headers.flatMap fun header =>
          [header.1, ascii ": ", header.2, ascii "\r\n"]).foldl Contents.insert response.head } := by
  induction headers generalizing response with
  | nil => rfl
  | cons header rest ih =>
      rw [List.foldl_cons, ih, List.flatMap_cons, List.foldl_append]
      rfl

theorem foldl_writeBody (pieces : List Bytes) (response : Response) :
    pieces.foldl writeBody response =
      { response with body := pieces.foldl Contents.insert response.body } := by
  induction pieces generalizing response with
  | nil => rfl
  | cons piece rest ih =>
      rw [List.foldl_cons, ih]
      rfl

/-- A bounded reply to a fresh response. -/
theorem answer_eq (bounded : reply.Bounded statusName) :
    Response.answer {} statusName reply =
      { status := reply.code
        startLine := { bytes := (reply.startLinePieces statusName).flatten }
        head := { bytes := reply.headPieces.flatten }
        body := { bytes := reply.body.flatten } } := by
  obtain ⟨startLine, head, body⟩ := bounded
  have headers : reply.headerPieces.foldl Contents.insert {} =
      { bytes := reply.headerPieces.flatten } := by
    rw [Contents.foldl_insert rfl]
    · rfl
    · simp only [Reply.headPieces, List.flatten_append, List.length_append] at head
      simp only [List.length_nil]
      omega
  have bodied : reply.body.foldl Contents.insert {} = { bytes := reply.body.flatten } := by
    rw [Contents.foldl_insert rfl (by simpa using body)]
    rfl
  have headed : (reply.headPieces.foldl Contents.insert {}) = { bytes := reply.headPieces.flatten } := by
    rw [Contents.foldl_insert rfl (by simpa using head)]
    rfl
  have started : (reply.startLinePieces statusName).foldl Contents.insert {} =
      { bytes := (reply.startLinePieces statusName).flatten } := by
    rw [Contents.foldl_insert rfl (by simpa using startLine)]
    rfl
  rw [Reply.headPieces, List.foldl_append, headers] at headed
  simp only [List.foldl_cons, List.foldl_nil, Reply.startLinePieces] at headed started
  rw [Reply.headerPieces] at headed headers
  simp only [Response.answer, foldl_setHeader, foldl_writeBody, finish, headers, bodied]
  rw [headed]
  simp only [Reply.startLinePieces, Reply.headPieces, Reply.headerPieces, Reply.code] at started ⊢
  rw [started]

end Response

end Nexer.Http
