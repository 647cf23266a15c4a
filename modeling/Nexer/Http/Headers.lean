import Nexer.Http.Spelling

/-!
# Assembling the headers

A name begins a new header only when the value before it has brought a byte.  So
the headers of a message come out as they were sent just when no empty value is
followed by another header.
-/

namespace Nexer.Http

variable {parser : Parser}

/-- The header that a pair of lists of pieces spells. -/
def Spelling.spelled (pair : List Bytes × List Bytes) : Header where
  key := pair.1.flatten
  value := pair.2.flatten

/-- A name that comes while the last one is still open is added to it. -/
theorem foldl_header_open {request : Request parser} {earlier : List Header} {header : Header}
    (headers : request.headers = earlier ++ [header]) (begun : request.headerField = true)
    (pair : List Bytes × List Bytes) :
    (Spelling.header pair).foldl Request.fill request =
      { request with
        headers := earlier ++
          [⟨header.key ++ pair.1.flatten, header.value ++ pair.2.flatten⟩]
        headerField := pair.2.flatten.isEmpty } := by
  have named := @foldl_headerField _ _ pair.1 _ _ headers begun
  have valued := @foldl_headerValue parser
    { request with headers := earlier ++ [{ header with key := header.key ++ pair.1.flatten }] }
    pair.2 _ _ rfl
  rw [Spelling.header, List.foldl_append, named, valued]
  simp [begun]

/-- What one header does to the number of headers. -/
theorem foldl_header_length {request : Request parser} {pair : List Bytes × List Bytes}
    (named : pair.1.flatten ≠ []) (present : request.headerField = true → request.headers ≠ []) :
    ((Spelling.header pair).foldl Request.fill request).headers.length =
        request.headers.length + (if request.headerField then 0 else 1) ∧
      ((Spelling.header pair).foldl Request.fill request).headerField =
        pair.2.flatten.isEmpty ∧
      ((Spelling.header pair).foldl Request.fill request).headers ≠ [] := by
  cases begun : request.headerField with
  | false =>
      rw [foldl_header begun named]
      simp
  | true =>
      obtain ⟨earlier, header, headers⟩ :
          ∃ earlier header, request.headers = earlier ++ [header] :=
        ⟨_, _, (List.dropLast_concat_getLast (present begun)).symm⟩
      rw [foldl_header_open headers begun]
      simp [headers]

/-- No more headers come out than were sent, and fewer if the first name is added to an
open one or an empty value is followed by another header. -/
theorem foldl_headers_length {pairs : List (List Bytes × List Bytes)} {request : Request parser}
    (named : ∀ pair ∈ pairs, pair.1.flatten ≠ [])
    (present : request.headerField = true → request.headers ≠ []) :
    ((pairs.flatMap Spelling.header).foldl Request.fill request).headers.length ≤
        request.headers.length + pairs.length ∧
      ((request.headerField = true ∧ pairs ≠ [] ∨ ∃ pair ∈ pairs.dropLast, pair.2.flatten = []) →
        ((pairs.flatMap Spelling.header).foldl Request.fill request).headers.length <
          request.headers.length + pairs.length) := by
  induction pairs generalizing request with
  | nil => simp
  | cons pair rest ih =>
      obtain ⟨length, field, nonempty⟩ := foldl_header_length (named pair (.head _)) present
      rw [List.flatMap_cons, List.foldl_append, List.length_cons]
      generalize (Spelling.header pair).foldl Request.fill request = next at length field nonempty ⊢
      obtain ⟨bound, strict⟩ := @ih next (fun pair member => named pair (.tail _ member))
        fun _ => nonempty
      refine ⟨by split at length <;> omega, ?_⟩
      rintro (⟨begun, -⟩ | ⟨header, member, empty⟩)
      · rw [if_pos begun] at length
        omega
      · cases rest with
        | nil => cases member
        | cons second others =>
            have fewer : ((List.flatMap Spelling.header (second :: others)).foldl Request.fill
                next).headers.length < next.headers.length + (second :: others).length := by
              apply strict
              rw [List.dropLast_cons_cons] at member
              rcases List.mem_cons.1 member with rfl | later
              · exact .inl ⟨by rw [field, empty]; rfl, by simp⟩
              · exact .inr ⟨header, later, empty⟩
            split at length <;> omega

/-- The headers come out as they were sent just when no empty value is followed by
another header. -/
theorem headers_exact_iff (request : Request parser) (pairs : List (List Bytes × List Bytes))
    (named : ∀ pair ∈ pairs, pair.1.flatten ≠ []) :
    ((pairs.flatMap Spelling.header).foldl Request.fill request.reset).headers =
        pairs.map Spelling.spelled ↔
      ∀ pair ∈ pairs.dropLast, pair.2.flatten ≠ [] := by
  constructor
  · intro exact pair member empty
    obtain ⟨-, strict⟩ := @foldl_headers_length _ _ request.reset named
      (by simp [Request.reset])
    have fewer := strict (.inr ⟨pair, member, empty⟩)
    rw [exact, List.length_map] at fewer
    simp [Request.reset] at fewer
  · intro valued
    obtain ⟨headerField, filled⟩ := @foldl_headers _ request.reset _ rfl named valued
    rw [filled]
    rfl

/-- Two headers of which the second one has no value. -/
theorem headers_exact_last_empty :
    (([([[97], [98]], [[99]]), ([[100]], [[]])].flatMap Spelling.header).foldl Request.fill
        (Request.initial ⟨Unit, (), fun _ _ => ((), [], 0)⟩).reset).headers =
      [⟨[97, 98], [99]⟩, ⟨[100], []⟩] :=
  (headers_exact_iff _ [([[97], [98]], [[99]]), ([[100]], [[]])] (by decide)).2 (by decide)

/-- `a:` and `b: c` come out as `ab: c`. -/
theorem headers_merged :
    (([([[97]], []), ([[98]], [[99]])].flatMap Spelling.header).foldl Request.fill
        (Request.initial ⟨Unit, (), fun _ _ => ((), [], 0)⟩).reset).headers = [⟨[97, 98], [99]⟩] ∧
      [([[97]], []), ([[98]], [[99]])].map Spelling.spelled ≠ [⟨[97, 98], [99]⟩] := by
  decide

end Nexer.Http
