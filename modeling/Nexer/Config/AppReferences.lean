import Nexer.Config.Described

/-!
# Mentions of apps and their definitions

In an accepted tree that defines every name at most once, a name stands for one app, wherever
it is mentioned, and every app carries the definition that the tree describes, exactly if no
command in the tree has a directory.
-/

namespace Nexer.Config

section Entered

theorem settle_defines (app : App Symbol Command) (l : Ledger) :
    ((l.settle app).1, app) ∈ (l.settle app).2.definitions := by
  unfold Ledger.settle
  split <;> simp [Ledger.define]

theorem settle_grows (app : App Symbol Command) (l : Ledger) {definition : Definition}
    (found : definition ∈ l.definitions) : definition ∈ (l.settle app).2.definitions := by
  unfold Ledger.settle
  split <;> simp [Ledger.define, Ledger.mention, found]

mutual

/-- What has been entered is kept. -/
theorem enter_grows : ∀ (ref : AppRef) (l : Ledger) (definition : Definition),
    definition ∈ l.definitions → definition ∈ (ref.enter l).2.definitions
  | .mention name, l, definition, found => by
      simpa [AppRef.enter, Ledger.getApp, Ledger.mention] using found
  | .inline name command checker maxStartTime preamble tags, l, definition, found => by
      rw [AppRef.enter]
      exact settle_grows _ _ (enterAll_grows preamble l definition found)

theorem enterAll_grows : ∀ (refs : List AppRef) (l : Ledger) (definition : Definition),
    definition ∈ l.definitions → definition ∈ (enterAll refs l).2.definitions
  | [], _, _, found => found
  | ref :: refs, l, definition, found =>
      enterAll_grows refs _ definition (enter_grows ref l definition found)

end

end Entered

section Carried

variable {dump : Json → String} {one two : Int32 → Json → Command}
variable {config : Config AppId Registry} {parts parts' : List Part}
variable {address address' : Symbol → AppId}

/-- What a ledger has defined is defined in the parts. -/
def Ledger.Among (l : Ledger) (parts : List Part) : Prop :=
  ∀ definition ∈ l.definitions, definition ∈ definitionsIn parts

/-- An app that is described in two ways and stands at one address. -/
def Common (dump : Json → String) (one two : Int32 → Json → Command) (parts parts' : List Part)
    (address address' : Symbol → AppId) (value : Json) : Prop :=
  ∃ l l', ((value.ref dump one).enter l).2.Among parts ∧
    ((value.ref dump two).enter l').2.Among parts' ∧
    address ((value.ref dump one).enter l).1 = address' ((value.ref dump two).enter l').1

/-- Preambles that stand at the same addresses do so element by element. -/
theorem common_of_preamble {items : List Json} {l l' : Ledger}
    (among : (enterAll (items.map (Json.ref dump one)) l).2.Among parts)
    (among' : (enterAll (items.map (Json.ref dump two)) l').2.Among parts')
    (same : (enterAll (items.map (Json.ref dump one)) l).1.map address =
      (enterAll (items.map (Json.ref dump two)) l').1.map address') :
    ∀ item ∈ items, Common dump one two parts parts' address address' item := by
  induction items generalizing l l' with
  | nil => simp
  | cons item rest ih =>
      obtain ⟨here, others⟩ := List.cons_eq_cons.1 same
      rintro other (_ | ⟨_, later⟩)
      · exact ⟨l, l', fun _ found => among _ (enterAll_grows (rest.map _) _ _ found),
          fun _ found => among' _ (enterAll_grows (rest.map _) _ _ found), here⟩
      · exact ih among among' others other later

theorem Registry.Carries.unique {registry : Registry} {checker : Option CommandId}
    {command command' : Option Command} (carries : registry.Carries checker command)
    (carries' : registry.Carries checker command') : command = command' := by
  cases carries with
  | none => cases carries'; rfl
  | some known =>
      cases carries' with
      | some known' => exact known.symm.trans known'

theorem eq_map_of_forall₂ {apps : List AppId} {symbols : List Symbol}
    (linked : List.Forall₂ (fun app symbol => app = address symbol) apps symbols) :
    apps = symbols.map address := by
  rw [← List.forall₂_eq_eq_eq, List.forall₂_map_right_iff]
  exact linked

/-- An app that carries two definitions has the same commands in both. -/
theorem commands_of_common (denotes : Denotes config parts address)
    (denotes' : Denotes config parts' address') (value : Json)
    (common : Common dump one two parts parts' address address' value) :
    ∀ entries ∈ value.inlines,
      ForCommands (fun command => ∃ timeout, one timeout command = two timeout command) entries := by
  induction value using Json.app_induction with
  | mention value other =>
      cases value with
      | object line entries => exact absurd rfl (other line entries)
      | _ => simp [Json.inlines]
  | inline line entries ih =>
      obtain ⟨l, l', among, among', same⟩ := common
      rw [ref_object, AppRef.enter] at among same
      rw [ref_object, AppRef.enter] at among' same
      obtain ⟨object, there, carried⟩ := denotes.defined _ (among _ (settle_defines _ _))
      obtain ⟨object', there', carried'⟩ := denotes'.defined _ (among' _ (settle_defines _ _))
      rw [same] at there
      cases there.symm.trans there'
      have command : ((valueAt "command" entries).map (one 0)).getD {} =
          ((valueAt "command" entries).map (two 0)).getD {} :=
        carried.command.symm.trans carried'.command
      have checker : (valueAt "checker" entries).map (one 10000) =
          (valueAt "checker" entries).map (two 10000) :=
        carried.checker.unique carried'.checker
      have preambles := common_of_preamble
        (fun definition found => among definition (settle_grows _ _ found))
        (fun definition found => among' definition (settle_grows _ _ found))
        ((eq_map_of_forall₂ carried.preamble).symm.trans (eq_map_of_forall₂ carried'.preamble))
      rw [inlines_object]
      rintro inner (_ | ⟨_, deeper⟩)
      · intro name known value found
        rcases List.mem_pair.1 known with rfl | rfl
        · rw [found] at command
          exact ⟨0, command⟩
        · rw [found] at checker
          exact ⟨10000, Option.some.inj checker⟩
      · obtain ⟨item, member, present⟩ := List.mem_flatMap.1 deeper
        exact ih item member (preambles item member) inner present

/-- Lists that are made of the same elements in the same way agree on each of them. -/
theorem exists_of_zipWith {γ : Type} {make make' : Nat → Json → γ} {items : List Json}
    {labels : List Nat} (length : labels.length = items.length)
    (same : List.zipWith make labels items = List.zipWith make' labels items) :
    ∀ item ∈ items, ∃ label, make label item = make' label item ∧
      ∀ part : Nat → Json → Part, part label item ∈ List.zipWith part labels items := by
  induction items generalizing labels with
  | nil => simp
  | cons item rest ih =>
      cases labels with
      | nil => cases length
      | cons label labels =>
          obtain ⟨here, others⟩ := List.cons_eq_cons.1 same
          rintro other (_ | ⟨_, later⟩)
          · exact ⟨label, here, fun _ => .head _⟩
          · obtain ⟨found, agree, among⟩ := ih (Nat.succ.inj length) others other later
            exact ⟨found, agree, fun part => .tail _ (among part)⟩

theorem flatMap_zipWith_singleton {γ : Type} {part : Nat → Json → Part} {get : Part → List γ}
    {make : Nat → Json → γ} (one : ∀ label item, get (part label item) = [make label item])
    (labels : List Nat) (items : List Json) :
    (List.zipWith part labels items).flatMap get = List.zipWith make labels items := by
  induction labels generalizing items with
  | nil => rfl
  | cons label labels ih => cases items <;> simp [one, ih]

/-- The parts that are described, value by value. -/
theorem partsDescribed_eq (read : Int32 → Json → Command) (entries : List (Key × Json)) :
    partsDescribed dump read entries =
      List.zipWith (fun index value => (value.proxy dump read).part index)
          (List.range (elementsAt "proxies" entries).length) (elementsAt "proxies" entries) ++
        List.zipWith (fun index value => (value.ref dump read).part index)
          (List.range (elementsAt "apps" entries).length) (elementsAt "apps" entries) := by
  simp [partsDescribed, proxyParts, entryParts, List.zipWith_map_right]

theorem among_of_part {part : Part} (member : part ∈ parts) : part.ledger.Among parts := by
  intro definition found
  exact List.mem_flatMap.2 ⟨part, List.mem_reverse.2 member, found⟩

variable {entries : List (Key × Json)}

/-- The apps of the entries, in order. -/
theorem entries_described (denotes : Denotes config (partsDescribed dump one entries) address) :
    config.entries = List.zipWith
      (fun index value => address ((value.ref dump one).enter { root := .entry index }).1)
      (List.range (elementsAt "apps" entries).length) (elementsAt "apps" entries) := by
  have none : (List.zipWith (fun index value => (value.proxy dump one).part index)
      (List.range (elementsAt "proxies" entries).length) (elementsAt "proxies" entries)).flatMap
        (·.entries) = [] := flatMap_zipWith_nil (fun _ _ => rfl) _ _
  have listed := @flatMap_zipWith_singleton _
    (fun index value => (value.ref dump one).part index) (·.entries) _ (fun _ _ => rfl)
    (List.range (elementsAt "apps" entries).length) (elementsAt "apps" entries)
  rw [denotes.entries, partsDescribed_eq, List.flatMap_append, none, List.nil_append, listed,
    List.map_zipWith]

/-- The apps of the upstreams, in order. -/
theorem upstreams_described
    (denotes : Denotes config (partsDescribed dump one entries) address) :
    config.proxies.map (·.upstream.app) = List.zipWith
      (fun index value => (enterOption (value.proxy dump one).upstream.app
        { root := .proxy index }).1.map address)
      (List.range (elementsAt "proxies" entries).length) (elementsAt "proxies" entries) := by
  have none : (List.zipWith (fun index value => (value.ref dump one).part index)
      (List.range (elementsAt "apps" entries).length) (elementsAt "apps" entries)).flatMap
        (·.proxies) = [] := flatMap_zipWith_nil (fun _ _ => rfl) _ _
  have listed := @flatMap_zipWith_singleton _
    (fun index value => (value.proxy dump one).part index) (·.proxies) _ (fun _ _ => rfl)
    (List.range (elementsAt "proxies" entries).length) (elementsAt "proxies" entries)
  have linked := denotes.proxies
  rw [partsDescribed_eq, List.flatMap_append, none, List.append_nil, listed] at linked
  have apps := linked.imp fun proxy symbols same =>
    show proxy.upstream.app = symbols.upstream.app.map address by
      have link := same.upstream.app
      generalize proxy.upstream.app = app at link
      generalize symbols.upstream.app = symbol at link
      cases link with
      | none => rfl
      | some link => exact congrArg some link
  have mapped : List.Forall₂ (· = ·) (config.proxies.map (·.upstream.app)) _ :=
    List.forall₂_map_left_iff.2 (List.forall₂_map_right_iff.2 apps)
  rw [List.forall₂_eq_eq_eq] at mapped
  rw [mapped, List.map_zipWith]
  rfl

theorem common_of_denotes (denotes : Denotes config (partsDescribed dump one entries) address)
    (denotes' : Denotes config (partsDescribed dump two entries) address') :
    ∀ value ∈ appValues entries, Common dump one two (partsDescribed dump one entries)
      (partsDescribed dump two entries) address address' value := by
  have within (read : Int32 → Json → Command) {part : Part}
      (member : part ∈ List.zipWith (fun index value => (value.proxy dump read).part index)
          (List.range (elementsAt "proxies" entries).length) (elementsAt "proxies" entries) ∨
        part ∈ List.zipWith (fun index value => (value.ref dump read).part index)
          (List.range (elementsAt "apps" entries).length) (elementsAt "apps" entries)) :
      part.ledger.Among (partsDescribed dump read entries) := by
    refine among_of_part ?_
    rw [partsDescribed_eq]
    exact List.mem_append.2 member
  intro value member
  rcases List.mem_append.1 member with proxied | listed
  · obtain ⟨proxy, present, found⟩ := List.mem_flatMap.1 proxied
    obtain ⟨upstream, there, here⟩ := Option.bind_eq_some_iff.1 (Option.mem_toList.1 found)
    have same := (upstreams_described denotes).symm.trans (upstreams_described denotes')
    obtain ⟨label, equal, among⟩ := exists_of_zipWith (by simp) same proxy present
    have ref (read : Int32 → Json → Command) :
        (proxy.proxy dump read).upstream.app = some (value.ref dump read) := by
      simp [Json.proxy, there, Json.upstream, here]
    rw [ref one, ref two] at equal
    have one_among := within one (.inl (among fun index value => (value.proxy dump one).part index))
    have two_among := within two (.inl (among fun index value => (value.proxy dump two).part index))
    simp only [Proxy.part, Proxy.enter, Upstream.enter, ref] at one_among two_among
    exact ⟨_, _, one_among, two_among, Option.some.inj equal⟩
  · have same := (entries_described denotes).symm.trans (entries_described denotes')
    obtain ⟨label, equal, among⟩ := exists_of_zipWith (by simp) same value listed
    exact ⟨_, _, within one (.inr (among fun index value => (value.ref dump one).part index)),
      within two (.inr (among fun index value => (value.ref dump two).part index)), equal⟩

end Carried

section References

variable {dump : Json → String} {entries entries' : List (Key × Json)} {line line' : Nat}

/-- The parts of an accepted document are described when the parser's commands are. -/
theorem described_of_ok {P : Json → Prop} {read : Int32 → Json → Command}
    (reads : ∀ timeout value, P value → ValidObject commandFields value → value.Unique →
      (parseCommand dump value { timeout }).target = read timeout value)
    (unique : (Json.object line entries).Unique)
    (ok : (parse dump registry (.object line entries) { store := {} }).ok = true)
    (commands : ∀ definition ∈ inlinesIn entries, ForCommands P definition) :
    documentParts dump entries = partsDescribed dump read entries ∨
      documentParts dump entries =
        entryParts ((elementsAt "apps" entries).map (Json.ref dump read)) ++
          proxyParts ((elementsAt "proxies" entries).map (Json.proxy dump read)) := by
  have valid := (parse_judged dump registry (.object line entries) { store := {} }).ok.1 ok
  refine documentParts_described valid unique fun value member => ?_
  obtain ⟨accepted, single⟩ := valid_appValues valid unique value member
  exact parseApp_entered reads value accepted single fun inner found =>
    commands inner (List.mem_flatMap.2 ⟨value, member, found⟩)

theorem unique_inlines {value : Json} (unique : value.Unique) :
    ∀ definition ∈ value.inlines, UniqueEntries definition := by
  induction value using Json.app_induction with
  | mention value other =>
      cases value with
      | object line entries => exact absurd rfl (other line entries)
      | _ => simp [Json.inlines]
  | inline line entries ih =>
      rw [inlines_object]
      rintro definition (_ | ⟨_, deeper⟩)
      · exact unique.2
      · obtain ⟨item, member, found⟩ := List.mem_flatMap.1 deeper
        exact ih item member (unique_elementsAt unique.2 item member) definition found

/-- The parser's own reading of the commands. -/
theorem documentParts_merged (unique : (Json.object line entries).Unique)
    (ok : (parse dump registry (.object line entries) { store := {} }).ok = true) :
    documentParts dump entries = partsDescribed dump (Json.merged dump) entries ∨
      documentParts dump entries =
        entryParts ((elementsAt "apps" entries).map (Json.ref dump (Json.merged dump))) ++
          proxyParts ((elementsAt "proxies" entries).map (Json.proxy dump (Json.merged dump))) :=
  @described_of_ok _ _ _ (fun _ => True) _
    (fun timeout _ _ accepted single => parseCommand_merged dump accepted single timeout) unique ok
    fun _ _ _ _ _ _ => trivial

theorem names_of_document (unique : (Json.object line entries).Unique)
    (ok : (parse dump registry (.object line entries) { store := {} }).ok = true)
    (names : (namesIn dump entries).Nodup) :
    (definedNames (definitionsIn (documentParts dump entries))).Nodup := by
  have described : (definedNames (definitionsIn
      (partsDescribed dump (Json.merged dump) entries))).Nodup :=
    (names_described entries).nodup_iff.2 names
  rcases documentParts_merged unique ok with parts | parts
  · exact parts ▸ described
  · exact parts ▸ names_swap described

/-- The apps carry what the tree describes exactly when no command has a directory. -/
theorem denotes_iff_undirected (unique : (Json.object line entries).Unique)
    (ok : (parse dump registry (.object line entries) { store := {} }).ok = true)
    (names : (namesIn dump entries).Nodup) :
    (∃ address, Denotes (parse dump registry (.object line entries) { store := {} }).target
        (partsDescribed dump (Json.command dump) entries) address) ↔
      ∀ definition ∈ inlinesIn entries, ForCommands Undirected definition := by
  constructor
  · rintro ⟨address, denotes⟩
    obtain ⟨address', denotes'⟩ := denotes_of_documentParts dump unique.1 ok
      (documentParts_merged unique ok) ((names_described entries).nodup_iff.2 names)
    have valid := (parse_judged dump registry (.object line entries) { store := {} }).ok.1 ok
    intro definition found name known command there
    obtain ⟨value, member, inner⟩ := List.mem_flatMap.1 found
    obtain ⟨timeout, same⟩ := commands_of_common denotes' denotes value
      (common_of_denotes denotes' denotes value member) definition inner name known command there
    have single := (valid_appValues valid unique value member).2
    exact undirected_of_merged dump
      (unique_valueAt (unique_inlines single definition inner) there) same
  · intro undirected
    have parts := described_of_ok (fun timeout value bare accepted single =>
      (parseCommand_merged dump accepted single timeout).trans
        (merged_eq_command dump accepted single bare timeout)) unique ok undirected
    exact denotes_of_documentParts dump unique.1 ok parts
      ((names_described entries).nodup_iff.2 names)

end References

/-- The registry is sound throughout, so that the destructor deletes each object once, and the
order of a document does not matter.  Mentions of a name and its definition are one app, which
carries the definition that the tree describes exactly if no command in it has a directory. -/
theorem app_references (dump : Json → String) :
    (∀ trees, SoundConfig (parseAll dump registry trees { store := {} }) ∧
      (parseAll dump registry.watched trees { store := ({}, []) }).store.1 =
        (parseAll dump registry trees { store := {} }).store ∧
      ∀ kept ∈ (parseAll dump registry.watched trees { store := ({}, []) }).store.2,
        kept.Sound) ∧
    ∀ (line : Nat) (entries : List (Key × Json)),
      (∀ line' entries', Shuffled entries entries' →
        (parse dump registry (.object line' entries') { store := {} }).ok =
          (parse dump registry (.object line entries) { store := {} }).ok) ∧
      ((Json.object line entries).Unique →
        (parse dump registry (.object line entries) { store := {} }).ok = true →
          (namesIn dump entries).Nodup →
            ((∃ address, Denotes
                (parse dump registry (.object line entries) { store := {} }).target
                (partsDescribed dump (Json.command dump) entries) address) ↔
              ∀ definition ∈ inlinesIn entries, ForCommands Undirected definition) ∧
            ∀ line' entries', Shuffled entries entries' → ∃ rename, SameUpTo rename
              (parse dump registry (.object line entries) { store := {} }).target
              (parse dump registry (.object line' entries') { store := {} }).target) := by
  constructor
  · intro trees
    have sound := sound_of_parses dump trees
    exact ⟨sound.1, parseAll_watched dump trees, sound.2⟩
  · intro line entries
    refine ⟨fun line' entries' shuffled => parse_ok_of_shuffled dump shuffled line line', ?_⟩
    intro unique ok names
    refine ⟨denotes_iff_undirected unique ok names, fun line' entries' shuffled => ?_⟩
    exact sameUpTo_of_shuffled unique.1 ok (names_of_document unique ok names) shuffled

section Runs

/-- The second app is mentioned by a proxy and by the first app before it is defined. -/
def mentionedFirst : List (Key × Json) :=
  [(⟨"proxies", 1⟩, .array 1 [.object 1 [(⟨"upstream", 1⟩,
      .object 1 [(⟨"app", 1⟩, .string 1 "db")])]]),
    (⟨"apps", 2⟩, .array 2 [
      .object 2 [(⟨"name", 2⟩, .string 2 "web"), (⟨"preamble", 2⟩, .array 2 [.string 2 "db"])],
      .object 3 [(⟨"name", 3⟩, .string 3 "db"), (⟨"checker", 3⟩,
        .object 3 [(⟨"file", 3⟩, .string 3 "ping")])]])]

theorem app_references_mentionedFirst :
    (∃ address, Denotes
      (parse (fun _ => "") registry (.object 0 mentionedFirst) { store := {} }).target
      (partsDescribed (fun _ => "") (Json.command fun _ => "") mentionedFirst) address) ∧
    ∃ rename, SameUpTo rename
      (parse (fun _ => "") registry (.object 0 mentionedFirst) { store := {} }).target
      (parse (fun _ => "") registry (.object 0 mentionedFirst.reverse) { store := {} }).target := by
  have unique : (Json.object 0 mentionedFirst).Unique := by
    simp [mentionedFirst, Json.Unique, UniqueItems, UniqueEntries, keys]
  have both := ((app_references fun _ => "").2 0 mentionedFirst).2 unique (by decide) (by decide)
  refine ⟨both.1.2 ?_, both.2 0 _ ⟨_, List.reverse_perm _, ?_⟩⟩
  · intro definition found name known command there
    have all : inlinesIn mentionedFirst =
        [[(⟨"name", 2⟩, .string 2 "web"), (⟨"preamble", 2⟩, .array 2 [.string 2 "db"])],
          [(⟨"name", 3⟩, .string 3 "db"), (⟨"checker", 3⟩,
            .object 3 [(⟨"file", 3⟩, .string 3 "ping")])]] := rfl
    rw [all] at found
    rcases List.mem_pair.1 found with rfl | rfl <;> rcases List.mem_pair.1 known with rfl | rfl <;>
      cases there
    rfl
  · rw [List.forall₂_same]
    exact fun entry _ => .same entry

/-- The directory of a command becomes a variable of its environment. -/
def directoryArray : List (Key × Json) :=
  [(⟨"apps", 1⟩, .array 1 [.object 1 [(⟨"name", 1⟩, .string 1 "web"), (⟨"command", 1⟩,
    .object 1 [(⟨"env", 1⟩, .array 1 [.string 1 "A=1"]),
      (⟨"cwd", 1⟩, .array 1 [.string 1 "/srv"])])]])]

theorem directory_merged :
    (Json.object 0 directoryArray).Unique ∧ (namesIn (fun _ => "") directoryArray).Nodup ∧
      (parse (fun _ => "") registry (.object 0 directoryArray) { store := {} }).ok = true ∧
      ¬∃ address, Denotes
        (parse (fun _ => "") registry (.object 0 directoryArray) { store := {} }).target
        (partsDescribed (fun _ => "") (Json.command fun _ => "") directoryArray) address := by
  have unique : (Json.object 0 directoryArray).Unique := by
    simp [directoryArray, Json.Unique, UniqueItems, UniqueEntries, keys]
  refine ⟨unique, by decide, by decide, fun denotes => ?_⟩
  have undirected := (denotes_iff_undirected unique (by decide) (by decide)).1 denotes
  have bare := undirected _ (.head _) "command" (by simp) _ rfl
  cases bare

end Runs

end Nexer.Config
