import Nexer.Http.Reply

/-!
# Messages and their callbacks

llhttp reports the parts of a message in order, each in any number of pieces.  The
callbacks put the pieces together again.  A header name begins when the value before
it has brought a byte, so that only the last value can be empty.
-/

namespace Nexer.Http

structure Message where
  url : Bytes
  headers : List (Bytes × Bytes)
  body : Bytes
  deriving DecidableEq

/-- The pieces in which the parts of a message are reported. -/
structure Spelling where
  url : List Bytes
  headers : List (List Bytes × List Bytes)
  body : List Bytes

namespace Spelling

variable (spelling : Spelling)

def message : Message where
  url := spelling.url.flatten
  headers := spelling.headers.map fun header => (header.1.flatten, header.2.flatten)
  body := spelling.body.flatten

def header (header : List Bytes × List Bytes) : List Callback :=
  header.1.map .headerField ++ header.2.map .headerValue

/-- All callbacks before the last one. -/
def opening : List Callback :=
  spelling.url.map .url ++ spelling.headers.flatMap Spelling.header ++ [.headersComplete] ++
    spelling.body.map .body

def callbacks : List Callback := spelling.opening ++ [.messageComplete]

end Spelling

/-- What the function of `OnRequest` should be shown of a message. -/
def Message.received (message : Message) : Received where
  url := message.url
  parsed := .parse message.url
  headers := message.headers.map fun header => { key := header.1, value := header.2 }
  body := message.body

/-- No header with an empty value is followed by another one, and the body stays below
the limit of its buffer. -/
def Message.Plain (message : Message) : Prop :=
  (∀ header ∈ message.headers.dropLast, header.2 ≠ []) ∧ message.body.length + 1 ≤ Contents.limit

instance (message : Message) : Decidable message.Plain := inferInstanceAs (Decidable (_ ∧ _))

/-- Header names are not empty. -/
def Message.Named (message : Message) : Prop := ∀ header ∈ message.headers, header.1 ≠ []

instance (message : Message) : Decidable message.Named :=
  inferInstanceAs (Decidable (∀ header ∈ message.headers, header.1 ≠ []))

variable {parser : Parser}

/-- The effect of a callback on the request; a complete message is handled elsewhere. -/
def Request.fill (request : Request parser) : Callback → Request parser
  | .url bytes => request.onUrl bytes
  | .headerField bytes => request.onHeaderField bytes
  | .headerValue bytes => request.onHeaderValue bytes
  | .headersComplete => request.onHeadersComplete
  | .body bytes => request.onBody bytes
  | .messageComplete => request

section Fill

variable {request : Request parser} {pieces : List Bytes} {earlier : List Header} {header : Header}

theorem foldl_url : (pieces.map Callback.url).foldl Request.fill request =
    { request with urlString := request.urlString ++ pieces.flatten } := by
  induction pieces generalizing request with
  | nil => simp
  | cons piece rest ih =>
      rw [List.map_cons, List.foldl_cons, ih]
      cases piece <;> simp [Request.fill, Request.onUrl]

theorem foldl_body (fits : request.body.bytes.length + pieces.flatten.length + 1 ≤ Contents.limit) :
    (pieces.map Callback.body).foldl Request.fill request =
      { request with
        body := { request.body with bytes := request.body.bytes ++ pieces.flatten } } := by
  rw [← Contents.foldl_write fits]
  clear fits
  induction pieces generalizing request with
  | nil => rfl
  | cons piece rest ih =>
      rw [List.map_cons, List.foldl_cons, ih]
      cases piece with
      | nil =>
          have same : request.body.write [] = request.body := by simp [Contents.write]
          simp [Request.fill, Request.onBody, same]
      | cons => rfl

/-- More of the last name. -/
theorem foldl_headerField (headers : request.headers = earlier ++ [header])
    (begun : request.headerField = true) :
    (pieces.map Callback.headerField).foldl Request.fill request =
      { request with
        headers := earlier ++ [{ header with key := header.key ++ pieces.flatten }] } := by
  induction pieces generalizing request header with
  | nil => simp [← headers]
  | cons piece rest ih =>
      rw [List.map_cons, List.foldl_cons]
      cases piece with
      | nil =>
          have same : request.fill (.headerField []) = request := by
            simp [Request.fill, Request.onHeaderField]
          rw [same, ih headers begun]
          simp
      | cons byte bytes =>
          have longer : request.fill (.headerField (byte :: bytes)) =
              { request with
                headers := earlier ++ [{ header with key := header.key ++ byte :: bytes }] } := by
            simp [Request.fill, Request.onHeaderField, begun, headers, List.modifyLast_concat]
          have later := @ih { request with
              headers := earlier ++ [{ header with key := header.key ++ byte :: bytes }] } _ rfl begun
          rw [longer, later]
          simp

/-- A name after a value. -/
theorem foldl_newField (ended : request.headerField = false) (named : pieces.flatten ≠ []) :
    (pieces.map Callback.headerField).foldl Request.fill request =
      { request with
        headers := request.headers ++ [{ key := pieces.flatten }], headerField := true } := by
  induction pieces with
  | nil => exact absurd rfl named
  | cons piece rest ih =>
      rw [List.map_cons, List.foldl_cons]
      cases piece with
      | nil =>
          have same : request.fill (.headerField []) = request := by
            simp [Request.fill, Request.onHeaderField]
          rw [same, ih (by simpa using named)]
          simp
      | cons byte bytes =>
          have begun : request.fill (.headerField (byte :: bytes)) =
              { request with
                headers := request.headers ++ [{ key := byte :: bytes }], headerField := true } := by
            simp [Request.fill, Request.onHeaderField, ended]
          have later := @foldl_headerField parser { request with
              headers := request.headers ++ [{ key := byte :: bytes }], headerField := true }
            rest _ _ rfl rfl
          rw [begun, later]
          simp

/-- The value of the last name. -/
theorem foldl_headerValue (headers : request.headers = earlier ++ [header]) :
    (pieces.map Callback.headerValue).foldl Request.fill request =
      { request with
        headers := earlier ++ [{ header with value := header.value ++ pieces.flatten }]
        headerField := request.headerField && pieces.flatten.isEmpty } := by
  induction pieces generalizing request header with
  | nil => simp [← headers]
  | cons piece rest ih =>
      rw [List.map_cons, List.foldl_cons]
      cases piece with
      | nil =>
          have same : request.fill (.headerValue []) = request := by
            simp [Request.fill, Request.onHeaderValue]
          rw [same, ih headers]
          simp
      | cons byte bytes =>
          have longer : request.fill (.headerValue (byte :: bytes)) =
              { request with
                headers := earlier ++ [{ header with value := header.value ++ byte :: bytes }]
                headerField := false } := by
            simp [Request.fill, Request.onHeaderValue, headers, List.modifyLast_concat]
          have later := @ih { request with
              headers := earlier ++ [{ header with value := header.value ++ byte :: bytes }]
              headerField := false } _ rfl
          rw [longer, later]
          simp

theorem foldl_header {pair : List Bytes × List Bytes} (ended : request.headerField = false)
    (named : pair.1.flatten ≠ []) :
    (Spelling.header pair).foldl Request.fill request =
      { request with
        headers := request.headers ++ [{ key := pair.1.flatten, value := pair.2.flatten }]
        headerField := pair.2.flatten.isEmpty } := by
  have valued := @foldl_headerValue parser { request with
      headers := request.headers ++ [{ key := pair.1.flatten }], headerField := true }
    pair.2 _ _ rfl
  rw [Spelling.header, List.foldl_append, foldl_newField ended named, valued]
  simp

/-- Each value but the last one ends its name. -/
theorem foldl_headers {pairs : List (List Bytes × List Bytes)}
    (ended : request.headerField = false) (named : ∀ pair ∈ pairs, pair.1.flatten ≠ [])
    (valued : ∀ pair ∈ pairs.dropLast, pair.2.flatten ≠ []) :
    ∃ headerField, (pairs.flatMap Spelling.header).foldl Request.fill request =
      { request with
        headers := request.headers ++
          pairs.map fun pair => { key := pair.1.flatten, value := pair.2.flatten }
        headerField } := by
  induction pairs generalizing request with
  | nil => exact ⟨request.headerField, by simp⟩
  | cons pair rest ih =>
      rw [List.flatMap_cons, List.foldl_append, foldl_header ended (named pair (by simp))]
      cases rest with
      | nil => exact ⟨pair.2.flatten.isEmpty, by simp⟩
      | cons next others =>
          have last : pair.2.flatten.isEmpty = false := by
            simpa using valued pair (by simp)
          obtain ⟨headerField, filled⟩ := @ih { request with
              headers := request.headers ++ [{ key := pair.1.flatten, value := pair.2.flatten }]
              headerField := pair.2.flatten.isEmpty } last
            (fun pair member => named pair (List.mem_cons_of_mem _ member))
            (fun pair member => valued pair (by simp [member]))
          exact ⟨headerField, by rw [filled]; simp⟩

/-- The callbacks put a plain message together again. -/
theorem foldl_opening {spelling : Spelling} (named : spelling.message.Named)
    (plain : spelling.message.Plain) :
    ∃ headerField, spelling.opening.foldl Request.fill (Request.initial parser) =
      { Request.initial parser with
        headerField
        headers := spelling.message.received.headers
        body := { bytes := spelling.message.body }
        urlString := spelling.message.url
        url := .parse spelling.message.url } := by
  have names : ∀ pair ∈ spelling.headers, pair.1.flatten ≠ [] := fun pair member =>
    named (pair.1.flatten, pair.2.flatten) (List.mem_map_of_mem member)
  have values : ∀ pair ∈ spelling.headers.dropLast, pair.2.flatten ≠ [] := by
    intro pair member
    refine plain.1 (pair.1.flatten, pair.2.flatten) ?_
    rw [Spelling.message, ← List.map_dropLast]
    exact List.mem_map_of_mem member
  obtain ⟨headerField, headed⟩ := @foldl_headers parser
    { Request.initial parser with urlString := spelling.url.flatten } _ rfl names values
  have bodied (request : Request parser) (empty : request.body = {}) := @foldl_body parser request
    spelling.body (by simpa [empty, Spelling.message] using plain.2)
  refine ⟨headerField, ?_⟩
  rw [Spelling.opening, List.foldl_append, List.foldl_append, List.foldl_append, foldl_url]
  simp only [Request.initial, List.nil_append] at headed ⊢
  rw [headed, bodied _ rfl]
  simp [Request.fill, Request.onHeadersComplete, Spelling.message, Message.received]

end Fill

end Nexer.Http
