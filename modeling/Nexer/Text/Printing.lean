import Nexer.Text.Delimiters

/-!
# Printing a URL and reading it back

`ParseUrl` clears the object that it is given and appends to its fields.  It
inverts printing on every URL whose fields are free of the delimiters that end
them, and it produces no other URLs.
-/

namespace Nexer.Url

/-- `clear`. -/
def clear (url : Url) : Url :=
  { url with scheme := [], host := [], port := [], path := [], query := [], fragment := [] }

/-- `ParseUrl`, which appends to the fields of a cleared object. -/
def parseUrl (url : Url) (text : Bytes) : Url :=
  let cleared := url.clear
  let parsed := parse text
  { scheme := cleared.scheme ++ parsed.scheme
    host := cleared.host ++ parsed.host
    port := cleared.port ++ parsed.port
    path := cleared.path ++ parsed.path
    query := cleared.query ++ parsed.query
    fragment := cleared.fragment ++ parsed.fragment }

theorem parseUrl_eq (url : Url) (text : Bytes) : parseUrl url text = parse text := rfl

/-- A part that is left out when it is empty. -/
def marked (mark : UInt8) (text : Bytes) : Bytes := if text = [] then [] else mark :: text

def print (url : Url) : Bytes :=
  url.scheme ++ separator ++ (url.host ++ (marked colon url.port ++
    (url.path ++ (marked question url.query ++ marked hash url.fragment))))

/-- The fields are free of the delimiters that end them. -/
structure Delimited (url : Url) : Prop where
  scheme : ¬separator <:+: url.scheme
  host : ∀ byte ∈ url.host, byte ∉ [colon, slash, question, hash]
  port : ∀ byte ∈ url.port, byte ∉ [slash, question, hash]
  path : ∀ byte ∈ url.path, byte ∉ [question, hash]
  rooted : ∀ byte ∈ url.path.head?, byte = slash
  /-- Only a path is followed by a query or a fragment. -/
  pathless : url.path = [] → url.query = [] ∧ url.fragment = []
  query : ∀ byte ∈ url.query, byte ∉ [hash]
  noNul : ∀ field ∈ [url.scheme, url.host, url.port, url.path, url.query, url.fragment], 0 ∉ field

theorem marked_append_head {mark : UInt8} {text rest : Bytes} {delimiters : List UInt8}
    (known : mark ∈ delimiters) (stops : ∀ byte ∈ rest.head?, byte ∈ delimiters) :
    ∀ byte ∈ (marked mark text ++ rest).head?, byte ∈ delimiters := by
  intro byte found
  unfold marked at found
  split at found
  · exact stops byte found
  · cases found
    exact known

theorem parseMarked_marked {mark : UInt8} {delimiters : List UInt8} {text rest : Bytes}
    (free : ∀ byte ∈ text, byte ∉ delimiters) (stops : ∀ byte ∈ rest.head?, byte ∈ delimiters)
    (other : mark ∉ delimiters) :
    parseMarked mark delimiters (marked mark text ++ rest) = (text, rest) := by
  unfold marked
  split
  · rename_i empty
    subst empty
    cases rest with
    | nil => rfl
    | cons byte tail =>
        have different : byte ≠ mark := by
          rintro rfl
          exact other (stops byte rfl)
        exact if_neg different
  · exact (if_pos rfl).trans (upTo_append free stops)

/-- The authority is read up to the path. -/
theorem parseAuthority_print {scheme host port rest : Bytes} (apart : ¬separator <:+: scheme)
    (hostFree : ∀ byte ∈ host, byte ∉ [colon, slash, question, hash])
    (portFree : ∀ byte ∈ port, byte ∉ [slash, question, hash])
    (stops : ∀ byte ∈ rest.head?, byte ∈ [slash, question, hash]) :
    parseAuthority (scheme ++ separator ++ (host ++ (marked colon port ++ rest))) =
      (scheme, host, port, rest) := by
  have hostStops : ∀ byte ∈ (marked colon port ++ rest).head?,
      byte ∈ [colon, slash, question, hash] :=
    marked_append_head (.head _) fun byte found => .tail _ (stops byte found)
  unfold parseAuthority
  rw [strstr_append apart]
  simp only [upTo_append hostFree hostStops]
  by_cases empty : port = []
  · subst empty
    cases rest with
    | nil => rfl
    | cons byte tail =>
        have other : byte ≠ colon := by
          rintro rfl
          simpa [slash, colon, question, hash] using stops colon rfl
        exact if_neg other
  · simp only [marked, if_neg empty, List.cons_append, if_true, upTo_append portFree stops]

/-- A string without NUL is read whole. -/
theorem zero_not_mem_print {url : Url} (delimited : url.Delimited) : 0 ∉ print url := by
  have clean := delimited.noNul
  simp only [List.mem_cons, List.not_mem_nil, or_false, forall_eq_or_imp, forall_eq] at clean
  obtain ⟨scheme, host, port, path, query, fragment⟩ := clean
  have markedClean : ∀ mark text, (0 : UInt8) ≠ mark → 0 ∉ text → 0 ∉ marked mark text := by
    intro mark text nonzero absent
    unfold marked
    split
    · exact List.not_mem_nil
    · exact List.not_mem_cons_of_ne_of_not_mem nonzero absent
  simp only [print, List.mem_append, not_or]
  refine ⟨⟨scheme, by decide⟩, host, ?_, path, ?_, ?_⟩
  · exact markedClean colon url.port (by decide) port
  · exact markedClean question url.query (by decide) query
  · exact markedClean hash url.fragment (by decide) fragment

theorem parse_print {url : Url} (delimited : url.Delimited) : parse (print url) = url := by
  have fragmentStops : ∀ byte ∈ (marked hash url.fragment).head?, byte ∈ [hash] := by
    simpa using @marked_append_head hash url.fragment [] [hash] (List.mem_singleton_self hash)
      (by simp)
  have queryStops : ∀ byte ∈ (marked question url.query ++ marked hash url.fragment).head?,
      byte ∈ [question, hash] :=
    marked_append_head (.head _) fun byte found => .tail _ (fragmentStops byte found)
  have pathStops : ∀ byte ∈ (url.path ++ (marked question url.query ++
      marked hash url.fragment)).head?, byte = slash := by
    intro byte found
    cases start : url.path with
    | nil =>
        obtain ⟨query, fragment⟩ := delimited.pathless start
        simp [start, query, fragment, marked] at found
    | cons first rest =>
        rw [start] at found
        exact delimited.rooted byte (by rw [start]; exact found)
  have authorityStops : ∀ byte ∈ (url.path ++ (marked question url.query ++
      marked hash url.fragment)).head?, byte ∈ [slash, question, hash] :=
    fun byte found => by simp [pathStops byte found]
  have authority :=
    parseAuthority_print delimited.scheme delimited.host delimited.port authorityStops
  have noRoot : ¬(url.path ++ (marked question url.query ++
      marked hash url.fragment)).head?.any (· ≠ slash) = true := by
    generalize (url.path ++ (marked question url.query ++ marked hash url.fragment)).head? = start
      at pathStops ⊢
    cases start with
    | none => simp
    | some byte => simpa using pathStops byte rfl
  have query := parseMarked_marked delimited.query fragmentStops
    (show question ∉ [hash] by decide)
  have fragment : parseMarked hash [] (marked hash url.fragment ++ []) = (url.fragment, []) :=
    parseMarked_marked (by simp) (by simp) (by simp)
  rw [List.append_nil] at fragment
  unfold parse
  rw [cString_eq (zero_not_mem_print delimited)]
  unfold print
  simp only [authority, if_neg noRoot, upTo_append delimited.path queryStops, query, fragment,
    List.nil_append]

theorem zero_not_mem_cString (text : Bytes) : 0 ∉ cString text := by
  intro found
  simpa using List.mem_takeWhile_imp found

theorem upTo_subset (delimiters : List UInt8) (bytes : Bytes) :
    (upTo delimiters bytes).1 ⊆ bytes ∧ (upTo delimiters bytes).2 ⊆ bytes := by
  have whole := upTo_append_upTo delimiters bytes
  constructor
  · exact fun byte found => whole ▸ List.mem_append_left _ found
  · exact fun byte found => whole ▸ List.mem_append_right _ found

theorem parseMarked_subset (mark : UInt8) (delimiters : List UInt8) (bytes : Bytes) :
    (parseMarked mark delimiters bytes).1 ⊆ bytes ∧
      (parseMarked mark delimiters bytes).2 ⊆ bytes := by
  cases bytes with
  | nil => exact ⟨List.Subset.refl _, List.Subset.refl _⟩
  | cons byte rest =>
      by_cases same : byte = mark
      · obtain ⟨read, left⟩ := upTo_subset delimiters rest
        rw [parseMarked, if_pos same]
        exact ⟨fun _ found => .tail _ (read found), fun _ found => .tail _ (left found)⟩
      · rw [parseMarked, if_neg same]
        exact ⟨List.nil_subset _, List.Subset.refl _⟩

theorem parseMarked_fst_free (mark : UInt8) (delimiters : List UInt8) (bytes : Bytes) :
    ∀ byte ∈ (parseMarked mark delimiters bytes).1, byte ∉ delimiters := by
  cases bytes with
  | nil => simp [parseMarked]
  | cons byte rest =>
      by_cases same : byte = mark
      · rw [parseMarked, if_pos same]
        exact upTo_fst_free delimiters rest
      · simp [parseMarked, same]

/-- The parts of the authority, whatever the string is. -/
structure AuthorityOf (bytes scheme host port rest : Bytes) : Prop where
  schemeApart : ¬separator <:+: scheme
  hostFree : ∀ byte ∈ host, byte ∉ [colon, slash, question, hash]
  portFree : ∀ byte ∈ port, byte ∉ [slash, question, hash]
  schemeSubset : scheme ⊆ bytes
  hostSubset : host ⊆ bytes
  portSubset : port ⊆ bytes
  restSubset : rest ⊆ bytes

theorem parseAuthority_spec (bytes : Bytes) :
    AuthorityOf bytes (parseAuthority bytes).1 (parseAuthority bytes).2.1
      (parseAuthority bytes).2.2.1 (parseAuthority bytes).2.2.2 := by
  have noScheme : ¬separator <:+: [] := by simp [separator]
  unfold parseAuthority
  cases found : strstr bytes with
  | none => exact ⟨noScheme, by simp, by simp, by simp, by simp, by simp, List.Subset.refl _⟩
  | some parts =>
      obtain ⟨scheme, rest⟩ := parts
      obtain ⟨split, apart⟩ := strstr_eq_some found
      have schemeSubset : scheme ⊆ bytes := by
        rw [split, List.append_assoc]
        exact List.subset_append_left _ _
      have restSubset : rest ⊆ bytes := by
        rw [split]
        exact List.subset_append_right _ _
      have hostFree := upTo_fst_free [colon, slash, question, hash] rest
      obtain ⟨hostSubset, leftSubset⟩ := upTo_subset [colon, slash, question, hash] rest
      simp only
      generalize upTo [colon, slash, question, hash] rest = read at hostFree hostSubset leftSubset ⊢
      obtain ⟨host, left⟩ := read
      have hostSubset' := List.Subset.trans hostSubset restSubset
      cases left with
      | nil => exact ⟨apart, hostFree, by simp, schemeSubset, hostSubset', by simp, by simp⟩
      | cons byte after =>
          have leftSubset' := List.Subset.trans leftSubset restSubset
          simp only
          split
          · obtain ⟨portSubset, lastSubset⟩ := upTo_subset [slash, question, hash] after
            have afterSubset : after ⊆ bytes := fun _ found => leftSubset' (.tail _ found)
            exact ⟨apart, hostFree, upTo_fst_free _ _, schemeSubset, hostSubset',
              List.Subset.trans portSubset afterSubset, List.Subset.trans lastSubset afterSubset⟩
          · exact ⟨apart, hostFree, by simp, schemeSubset, hostSubset', by simp, leftSubset'⟩

/-- The path of a string that starts with `/` or with a delimiter, or is empty. -/
theorem path_spec (rest : Bytes) :
    (∀ byte ∈ ((if rest.head?.any (· ≠ slash) then [slash] else []) ++
      (upTo [question, hash] rest).1).head?, byte = slash) ∧
    ((if rest.head?.any (· ≠ slash) then [slash] else []) ++
      (upTo [question, hash] rest).1 = [] → rest = []) := by
  cases rest with
  | nil => simp [upTo_eq]
  | cons first tail =>
      by_cases rooted : first = slash
      · subst rooted
        simp [upTo_eq, slash, question, hash]
      · simp [rooted]

/-- What `ParseUrl` produces is delimited, for every string. -/
theorem parse_delimited (text : Bytes) : (parse text).Delimited := by
  have authority := parseAuthority_spec (cString text)
  have noNul := zero_not_mem_cString text
  unfold parse
  generalize cString text = bytes at authority noNul ⊢
  generalize parseAuthority bytes = parts at authority ⊢
  obtain ⟨scheme, host, port, rest⟩ := parts
  obtain ⟨rooted, pathless⟩ := path_spec rest
  obtain ⟨pathSubset, leftSubset⟩ := upTo_subset [question, hash] rest
  have pathFree := upTo_fst_free [question, hash] rest
  have queryFree := parseMarked_fst_free question [hash] (upTo [question, hash] rest).2
  obtain ⟨querySubset, lastSubset⟩ :=
    parseMarked_subset question [hash] (upTo [question, hash] rest).2
  obtain ⟨fragmentSubset, -⟩ :=
    parseMarked_subset hash [] (parseMarked question [hash] (upTo [question, hash] rest).2).2
  have restClean : 0 ∉ rest := fun found => noNul (authority.restSubset found)
  have leftClean : 0 ∉ (upTo [question, hash] rest).2 := fun found => restClean (leftSubset found)
  refine ⟨authority.schemeApart, authority.hostFree, authority.portFree, ?_, rooted, ?_, queryFree, ?_⟩
  · intro byte found
    rcases List.mem_append.1 found with root | read
    · split at root
      · rw [List.mem_singleton.1 root]
        decide
      · cases root
    · exact pathFree byte read
  · intro empty
    rw [pathless empty]
    exact ⟨rfl, rfl⟩
  · simp only [List.mem_cons, List.not_mem_nil, or_false, forall_eq_or_imp, forall_eq]
    refine ⟨fun found => noNul (authority.schemeSubset found),
      fun found => noNul (authority.hostSubset found),
      fun found => noNul (authority.portSubset found), ?_,
      fun found => leftClean (querySubset found),
      fun found => leftClean (lastSubset (fragmentSubset found))⟩
    intro found
    rcases List.mem_append.1 found with root | read
    · split at root
      · exact absurd (List.mem_singleton.1 root) (by decide)
      · cases root
    · exact restClean (pathSubset read)

/-- `ParseUrl` inverts printing whatever the object held, and only produces URLs that
can be printed. -/
theorem parseUrl_inverts_print :
    (∀ before url : Url, url.Delimited → parseUrl before (print url) = url) ∧
      ∀ (before : Url) (text : Bytes), (parseUrl before text).Delimited := by
  constructor
  · intro before url delimited
    rw [parseUrl_eq, parse_print delimited]
  · intro before text
    rw [parseUrl_eq]
    exact parse_delimited text

/-- A query with another separator in it. -/
def nested : Url where
  scheme := [104]
  host := [97]
  port := [56, 48]
  path := [slash]
  query := [117] ++ separator
  fragment := separator

theorem nested_delimited : nested.Delimited where
  scheme := by decide
  host := by simp [nested, colon, slash, question, hash]
  port := by simp [nested, slash, question, hash]
  path := by simp [nested, slash, question, hash]
  rooted := by simp [nested]
  pathless := by simp [nested]
  query := by simp [nested, separator, colon, slash, hash]
  noNul := by simp [nested, separator, colon, slash]

theorem parseUrl_inverts_print_nested :
    parseUrl nested (print nested) = nested ∧ (parseUrl {} [slash]).Delimited := by
  constructor
  · exact parseUrl_inverts_print.1 nested nested nested_delimited
  · exact parseUrl_inverts_print.2 {} [slash]

end Nexer.Url
