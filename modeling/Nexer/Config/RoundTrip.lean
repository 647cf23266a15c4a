import Nexer.Config.Entering
import Nexer.Config.Shuffled

/-!
# The round trip of a document

A document that a tree spells is what the parser makes of the tree, except for two slips: a
command with a working directory is not accepted, and a dummy server of type `http` becomes one
of type `tcp`.
-/

namespace Nexer.Config

def Proxy.part (index : Nat) (proxy : Proxy AppRef) : Part :=
  let entered := proxy.enter { root := .proxy index }
  { proxies := [entered.1], ledger := entered.2 }

def AppRef.part (index : Nat) (ref : AppRef) : Part :=
  let entered := ref.enter { root := .entry index }
  { entries := [entered.1], ledger := entered.2 }

def proxyParts (proxies : List (Proxy AppRef)) : List Part :=
  List.zipWith Proxy.part (List.range proxies.length) proxies

def entryParts (refs : List AppRef) : List Part :=
  List.zipWith AppRef.part (List.range refs.length) refs

/-- The parts of a document. -/
def partsIn (document : Document) : List Part :=
  proxyParts document.proxies ++ entryParts document.entries

/-- The configuration is what the document says. -/
structure Yields (config : Config AppId Registry) (document : Document) : Prop where
  admin : config.admin = document.admin
  logger : config.logger = document.logger
  dummies : config.dummies = document.dummies
  apps : ∃ address, Denotes config (partsIn document) address

section Parts

variable {dump : Json → String}

theorem readProxy_spelled {proxy : Proxy AppRef} {item : Json} (spells : SpellsProxy proxy item)
    (free : item.Free "cwd") (index : Nat) : readProxy dump index item = proxy.part index := by
  simp only [readProxy, (read_proxy dump spells _).2 free]
  rfl

theorem readApp_spelled {ref : AppRef} {item : Json} (spells : SpellsApp ref item)
    (free : item.Free "cwd") (index : Nat) : readApp dump index item = ref.part index := by
  simp only [readApp, (@read_app dump ref item spells _).2 free]
  rfl

theorem zipWith_spelled {β : Type} {spells : β → Json → Prop} {read : Nat → Json → Part}
    {part : Nat → β → Part}
    (one : ∀ field item index, spells field item → item.Free "cwd" →
      read index item = part index field) {fields : List β} {items : List Json}
    (all : List.Forall₂ spells fields items) :
    ∀ labels, FreeItems "cwd" items →
      List.zipWith read labels items = List.zipWith part labels fields := by
  induction all with
  | nil => exact fun labels _ => by simp
  | cons first _ ih =>
      intro labels free
      cases labels with
      | nil => rfl
      | cons label labels =>
          rw [List.zipWith_cons_cons, List.zipWith_cons_cons, one _ _ label first free.1,
            ih labels free.2]

/-- The parts that are read in the elements of an array. -/
def partsRead (read : Nat → Json → Part) : Json → List Part
  | .array _ items => List.zipWith read (List.range items.length) items
  | _ => []

theorem partsRead_spelled {β : Type} {spells : β → Json → Prop} {read : Nat → Json → Part}
    {part : Nat → β → Part}
    (one : ∀ field item index, spells field item → item.Free "cwd" →
      read index item = part index field) {fields : List β} {value : Json}
    (spelled : SpellsList spells fields value) (free : value.Free "cwd") :
    partsRead read value = List.zipWith part (List.range fields.length) fields := by
  obtain ⟨line, items, rfl, all⟩ := spelled
  rw [partsRead, ← all.length_eq]
  exact zipWith_spelled one all _ free

theorem partsOf_places (entry : Key × Json) :
    partsOf dump (places entry) entry =
      if entry.1.name = "proxies" then partsRead (readProxy dump) entry.2
      else if entry.1.name = "apps" then partsRead (readApp dump) entry.2 else [] := by
  obtain ⟨key, value⟩ := entry
  unfold partsOf places partsRead
  cases value <;> simp

end Parts

section Keys

variable {β : Type}

/-- What two keys contribute stands in one order or the other. -/
theorem flatMap_of_keys {f : Key × Json → List β} {name name' : String}
    {read read' : Json → List β} (apart : name ≠ name')
    (one : ∀ entry, f entry = if entry.1.name = name then read entry.2
      else if entry.1.name = name' then read' entry.2 else []) :
    ∀ entries : List (Key × Json), (keys entries).Nodup →
      entries.flatMap f = ((valueAt name entries).map read).getD [] ++
          ((valueAt name' entries).map read').getD [] ∨
        entries.flatMap f = ((valueAt name' entries).map read').getD [] ++
          ((valueAt name entries).map read).getD []
  | [], _ => by simp [valueAt]
  | entry :: rest, once => by
      obtain ⟨different, once⟩ := List.nodup_cons.1 once
      have others := flatMap_of_keys apart one rest once
      rw [List.flatMap_cons, one, valueAt_cons, valueAt_cons]
      by_cases here : entry.1.name = name
      · have absent : name ∉ keys rest := here ▸ different
        rw [valueAt_eq_none absent] at others
        left
        simpa [here, apart] using others
      by_cases there : entry.1.name = name'
      · have absent : name' ∉ keys rest := there ▸ different
        rw [valueAt_eq_none absent] at others
        right
        simpa [there, Ne.symm apart] using others
      · simpa [here, there] using others

end Keys

section Parts

variable {parts parts' : List Part}

theorem mentionedIn_append : mentionedIn (parts ++ parts') =
    mentionedIn parts' ++ mentionedIn parts := by
  simp [mentionedIn]

theorem definitionsIn_append : definitionsIn (parts ++ parts') =
    definitionsIn parts' ++ definitionsIn parts := by
  simp [definitionsIn]

theorem definedNames_append (definitions definitions' : List Definition) :
    definedNames (definitions ++ definitions') =
      definedNames definitions ++ definedNames definitions' := by
  simp [definedNames]

theorem names_swap (names : (definedNames (definitionsIn (parts ++ parts'))).Nodup) :
    (definedNames (definitionsIn (parts' ++ parts))).Nodup := by
  rw [definitionsIn_append, definedNames_append] at names ⊢
  exact List.nodup_append_comm.1 names

theorem Denotes.swap {config : Config AppId Registry} {address : Symbol → AppId}
    (denotes : Denotes config (parts' ++ parts) address)
    (proxies : parts'.flatMap (·.proxies) = []) (entries : parts.flatMap (·.entries) = []) :
    Denotes config (parts ++ parts') address := by
  have mentions : ∀ symbol, symbol ∈ mentionedIn (parts ++ parts') ↔
      symbol ∈ mentionedIn (parts' ++ parts) := by
    intro symbol
    rw [mentionedIn_append, mentionedIn_append, List.mem_append, List.mem_append, or_comm]
  have definitions : ∀ definition, definition ∈ definitionsIn (parts ++ parts') ↔
      definition ∈ definitionsIn (parts' ++ parts) := by
    intro definition
    rw [definitionsIn_append, definitionsIn_append, List.mem_append, List.mem_append, or_comm]
  exact
    { proxies := by simpa [proxies] using denotes.proxies
      entries := by simpa [entries] using denotes.entries
      apps := by simpa only [mentions] using denotes.apps
      apart := by simpa only [mentions] using denotes.apart
      appMap := by simpa only [mentions] using denotes.appMap
      listed := by simpa only [mentions, definitions] using denotes.listed
      defined := by simpa only [definitions] using denotes.defined
      undefined := by simpa only [mentions, definitions] using denotes.undefined }

theorem flatMap_zipWith_nil {β γ : Type} {part : Nat → β → Part} {get : Part → List γ}
    (none : ∀ index field, get (part index field) = []) (labels : List Nat) (fields : List β) :
    (List.zipWith part labels fields).flatMap get = [] := by
  induction labels generalizing fields with
  | nil => rfl
  | cons label labels ih =>
      cases fields with
      | nil => rfl
      | cons field fields => simp [none, ih]

end Parts

section Document

variable {document : Document} {entries : List (Key × Json)} {line : Nat}
variable (dump : Json → String)

/-- The parts of a document that is spelled. -/
theorem documentParts_spelled (spells : SpellsDocument document entries)
    (free : ∀ entry ∈ entries, entry.2.Free "cwd") :
    documentParts dump entries = partsIn document ∨
      documentParts dump entries = entryParts document.entries ++ proxyParts document.proxies := by
  have proxies : ((valueAt "proxies" entries).map (partsRead (readProxy dump))).getD [] =
      proxyParts document.proxies :=
    @Spelled.read _ _ _ _ _ _ ((spells.proxies.and free).map proxyParts)
      (fun value _ => partsRead (readProxy dump) value) fun _ spelled => by
      obtain ⟨proxies, same, spelled, free⟩ := spelled
      rw [same]
      exact partsRead_spelled (fun proxy _ index (spells : SpellsProxy proxy _) free =>
        readProxy_spelled spells free index) spelled free
  have apps : ((valueAt "apps" entries).map (partsRead (readApp dump))).getD [] =
      entryParts document.entries :=
    @Spelled.read _ _ _ _ _ _ ((spells.apps.and free).map entryParts)
      (fun value _ => partsRead (readApp dump) value) fun _ spelled => by
      obtain ⟨refs, same, spelled, free⟩ := spelled
      rw [same]
      exact partsRead_spelled (fun ref _ index (spells : SpellsApp ref _) free =>
        readApp_spelled spells free index) spelled free
  have parts := flatMap_of_keys (by decide) (@partsOf_places dump) entries spells.keyed.once
  rw [proxies, apps] at parts
  exact parts

/-- An element of an array spells one of the fields. -/
theorem exists_spelled {β : Type} {spells : β → Json → Prop} {fields : List β} {items : List Json}
    (all : List.Forall₂ spells fields items) : ∀ item ∈ items, ∃ field, spells field item := by
  induction all with
  | nil => simp
  | cons first _ ih =>
      rintro item (_ | ⟨_, later⟩)
      · exact ⟨_, first⟩
      · exact ih item later

theorem parseProxies_spelled {proxies : List (Proxy AppRef)} {value : Json}
    (spelled : SpellsList SpellsProxy proxies value) (config : Config AppId Registry) :
    (parseProxies dump registry value config).ok = true ↔ value.Free "cwd" := by
  obtain ⟨line, items, rfl, all⟩ := spelled
  let sim := Simulation.unrelated registry ledger
  rw [Json.Free, freeItems_iff]
  refine each_ok_iff items config fun item member config => ?_
  obtain ⟨proxy, spells⟩ := exists_spelled all item member
  have begun : sim.Since () (fun w => SameProxy (sim.Link w)) ({}, config.store) ({}, {}) :=
    ⟨(), trivial, trivial, rfl, rfl, rfl, rfl, .none, rfl⟩
  rw [← (read_proxy dump spells {}).1, ← (sim.parseProxy_agree dump item begun).ok]

theorem parseApps_spelled {refs : List AppRef} {value : Json}
    (spelled : SpellsList SpellsApp refs value) (config : Config AppId Registry) :
    (parseApps dump registry value config).ok = true ↔ value.Free "cwd" := by
  obtain ⟨line, items, rfl, all⟩ := spelled
  let sim := Simulation.unrelated registry ledger
  rw [Json.Free, freeItems_iff]
  refine each_ok_iff items config fun item member config => ?_
  obtain ⟨ref, spells⟩ := exists_spelled all item member
  have begun : sim.State () config.store {} := trivial
  obtain ⟨-, -, w, -, -, found⟩ := sim.parseApp_agree dump item begun
  rw [← (@read_app dump ref item spells {}).1]
  generalize parseApp dump registry item config.store = parsed at found ⊢
  generalize parseApp dump ledger item {} = parsed' at found ⊢
  obtain ⟨_, ⟨app, _⟩, _⟩ := parsed
  obtain ⟨_, ⟨app', _⟩, _⟩ := parsed'
  cases found <;> simp

/-- A spelled document is accepted where no command has a working directory. -/
theorem parse_spelled_ok (spells : SpellsDocument document entries) :
    (parse dump registry (.object line entries) { store := {} }).ok = true ↔
      (Json.object line entries).Free "cwd" := by
  rw [spells.keyed.free_iff (by decide)]
  refine each_ok_iff entries _ fun entry member config => ?_
  have once := spells.keyed.once
  have known : entry.1.name = "admin" ∨ entry.1.name = "logger" ∨ entry.1.name = "proxies" ∨
      entry.1.name = "apps" ∨ entry.1.name = "dummy" := by
    simpa using spells.keyed.known entry member
  rw [parseEntry_ok dump entry.1 entry.2 config { store := {} }]
  rcases known with key | key | key | key | key
  · obtain ⟨ok, -, free⟩ := read_admin (spells.admin.value once member key)
    simp [parseEntry, key, ok, free]
  · obtain ⟨ok, -, free⟩ := read_logger (spells.logger.value once member key)
    simp [parseEntry, key, ok, free]
  · simpa [parseEntry, key] using
      parseProxies_spelled dump (spells.proxies.value once member key) { store := {} }
  · simpa [parseEntry, key] using
      parseApps_spelled dump (spells.apps.value once member key) { store := {} }
  · obtain ⟨ok, -, free⟩ := read_dummies (spells.dummies.value once member key)
    simp [parseEntry, key, ok, free]

/-- The fields without apps: only the type of a dummy server can differ. -/
theorem plain_spelled (spells : SpellsDocument document entries)
    (ok : (parse dump registry (.object line entries) { store := {} }).ok = true) :
    plain (parse dump registry (.object line entries) { store := {} }).target =
      (document.admin, document.logger, document.dummies.map Dummy.read) := by
  have one := parseEntry_plain dump
  have once := spells.keyed.once
  refine Prod.ext ?_ (Prod.ext ?_ ?_)
  · exact spells.admin.field (fun config => config.admin)
      (fun value admin => (parseAdmin value admin).target)
      (fun entry _ config => congrArg (·.1) (one entry config))
      (fun _ spells => (read_admin spells).2.1) once ok
  · exact spells.logger.field (fun config => config.logger)
      (fun value logger => (parseLogger value logger).target)
      (fun entry _ config => congrArg (·.2.1) (one entry config))
      (fun _ spells => (read_logger spells).2.1) once ok
  · exact (spells.dummies.map (List.map Dummy.read)).field (fun config => config.dummies)
      (fun value dummies => (parseDummies value dummies).target)
      (fun entry _ config => congrArg (·.2.2) (one entry config))
      (fun _ spelled => by
        obtain ⟨dummies, same, spelled⟩ := spelled
        rw [same]
        exact (read_dummies spelled).2.1) once ok

theorem map_read_eq (dummies : List Dummy) :
    dummies.map Dummy.read = dummies ↔ ∀ dummy ∈ dummies, dummy.type ≠ .http := by
  induction dummies with
  | nil => simp
  | cons dummy rest ih =>
      obtain ⟨type, port, echo⟩ := dummy
      rw [List.map_cons, List.cons_eq_cons, List.forall_mem_cons, ih]
      cases type <;> simp [Dummy.read, setType]

/-- The parts of the document stand under their two keys, in either order. -/
theorem denotes_of_documentParts {proxies : List (Proxy AppRef)} {refs : List AppRef}
    (once : (keys entries).Nodup)
    (ok : (parse dump registry (.object line entries) { store := {} }).ok = true)
    (parts : documentParts dump entries = proxyParts proxies ++ entryParts refs ∨
      documentParts dump entries = entryParts refs ++ proxyParts proxies)
    (names : (definedNames (definitionsIn (proxyParts proxies ++ entryParts refs))).Nodup) :
    ∃ address, Denotes (parse dump registry (.object line entries) { store := {} }).target
      (proxyParts proxies ++ entryParts refs) address := by
  rcases parts with parts | parts
  · have denotes := denotes_document once ok (parts ▸ names)
    rwa [parts] at denotes
  · have denotes := denotes_document once ok (parts ▸ names_swap names)
    rw [parts] at denotes
    obtain ⟨address, denotes⟩ := denotes
    refine ⟨address, denotes.swap ?_ ?_⟩
    · exact flatMap_zipWith_nil (fun _ _ => rfl) _ _
    · exact flatMap_zipWith_nil (fun _ _ => rfl) _ _

theorem denotes_spelled (spells : SpellsDocument document entries)
    (names : (definedNames (definitionsIn (partsIn document))).Nodup)
    (ok : (parse dump registry (.object line entries) { store := {} }).ok = true) :
    ∃ address, Denotes (parse dump registry (.object line entries) { store := {} }).target
      (partsIn document) address := by
  have free := (spells.keyed.free_iff (by decide) line).1 ((parse_spelled_ok dump spells).1 ok)
  exact denotes_of_documentParts dump spells.keyed.once ok (documentParts_spelled dump spells free)
    names

/-- A tree that spells a document is parsed to that document exactly when no command in it has a
working directory and no dummy server of it is of type `http`. -/
theorem document_round_trip (spells : SpellsDocument document entries)
    (names : (definedNames (definitionsIn (partsIn document))).Nodup) :
    ((parse dump registry (.object line entries) { store := {} }).ok = true ∧
        Yields (parse dump registry (.object line entries) { store := {} }).target document) ↔
      (Json.object line entries).Free "cwd" ∧ ∀ dummy ∈ document.dummies, dummy.type ≠ .http := by
  rw [← parse_spelled_ok dump spells, ← map_read_eq]
  refine and_congr_right fun ok => ?_
  have fields := plain_spelled dump spells ok
  simp only [plain, Prod.mk.injEq] at fields
  obtain ⟨admin, logger, dummies⟩ := fields
  constructor
  · intro yields
    exact dummies.symm.trans yields.dummies
  · intro same
    exact ⟨admin, logger, dummies.trans same, denotes_spelled dump spells names ok⟩

end Document

section Runs

/-- A proxy in front of an app that is defined in `apps`. -/
def served : Document where
  proxies := [{ port := 8080, upstream := { host := "localhost", app := some (.mention "web") } }]
  entries := [.inline "web" { file := "serve" } none 0 [] []]
  store := ()

def servedTree : List (Key × Json) :=
  [(⟨"proxies", 1⟩, .array 1 [.object 1 [(⟨"listen", 1⟩, .integer 1 8080),
      (⟨"upstream", 1⟩, .object 1 [(⟨"host", 1⟩, .string 1 "localhost"),
        (⟨"app", 1⟩, .string 1 "web")])]]),
    (⟨"apps", 2⟩, .array 2 [.object 2 [(⟨"name", 2⟩, .string 2 "web"),
      (⟨"command", 2⟩, .object 2 [(⟨"file", 2⟩, .string 2 "serve")])]])]

theorem spells_served : SpellsDocument served servedTree where
  keyed := ⟨by decide, by decide⟩
  admin := rfl
  logger := rfl
  proxies := by
    refine ⟨1, _, rfl, .cons ?_ .nil⟩
    refine .object ⟨by decide, by decide⟩ ?_ ⟨1, rfl⟩
    exact .object ⟨by decide, by decide⟩ ⟨1, rfl⟩ rfl rfl ⟨_, rfl, by decide, 1, rfl⟩ rfl
  apps := by
    refine ⟨2, _, rfl, .cons ?_ .nil⟩
    refine ⟨2, _, rfl, ⟨by decide, by decide⟩, ⟨2, rfl⟩, ?_, rfl, rfl, rfl, rfl⟩
    exact .object ⟨by decide, by decide⟩ ⟨2, rfl⟩ rfl rfl rfl rfl
  dummies := rfl

theorem document_round_trip_served :
    (parse (fun _ => "") registry (.object 0 servedTree) { store := {} }).ok = true ∧
      Yields (parse (fun _ => "") registry (.object 0 servedTree) { store := {} }).target served :=
  (document_round_trip (fun _ => "") spells_served (by decide)).2
    ⟨by simp [servedTree, Json.Free, FreeItems, FreeEntries, keys], by simp [served]⟩

/-- A dummy server of type `http`. -/
def dummyDocument : Document where
  dummies := [{ type := .http }]
  store := ()

def dummyTree : List (Key × Json) :=
  [(⟨"dummy", 1⟩, .array 1 [.object 1 [(⟨"type", 1⟩, .string 1 "http")]])]

theorem spells_dummy : SpellsDocument dummyDocument dummyTree where
  keyed := ⟨by decide, by decide⟩
  admin := rfl
  logger := rfl
  proxies := rfl
  apps := rfl
  dummies := ⟨1, _, rfl, .cons (.object ⟨by decide, by decide⟩ ⟨1, rfl⟩ rfl rfl) .nil⟩

/-- An app that runs in a directory. -/
def directoryDocument : Document where
  entries := [.inline "" { cwd := "/srv" } none 0 [] []]
  store := ()

def directoryTree : List (Key × Json) :=
  [(⟨"apps", 1⟩, .array 1 [.object 1 [(⟨"command", 1⟩,
    .object 1 [(⟨"cwd", 1⟩, .string 1 "/srv")])]])]

theorem spells_directory : SpellsDocument directoryDocument directoryTree where
  keyed := ⟨by decide, by decide⟩
  admin := rfl
  logger := rfl
  proxies := rfl
  apps := by
    refine ⟨1, _, rfl, .cons ⟨1, _, rfl, ⟨by decide, by decide⟩, rfl, ?_, rfl, rfl, rfl, rfl⟩ .nil⟩
    exact .object ⟨by decide, by decide⟩ rfl rfl rfl ⟨1, rfl⟩ rfl
  dummies := rfl

/-- The one is read as another document and the other is not accepted. -/
theorem document_misread :
    (SpellsDocument dummyDocument dummyTree ∧
      (definedNames (definitionsIn (partsIn dummyDocument))).Nodup ∧
      ¬ Yields (parse (fun _ => "") registry (.object 0 dummyTree) { store := {} }).target
        dummyDocument) ∧
    SpellsDocument directoryDocument directoryTree ∧
    (definedNames (definitionsIn (partsIn directoryDocument))).Nodup ∧
    (parse (fun _ => "") registry (.object 0 directoryTree) { store := {} }).ok = false := by
  refine ⟨⟨spells_dummy, by decide, fun yields => ?_⟩, spells_directory, by decide, by decide⟩
  exact absurd yields.dummies (by decide)

end Runs

end Nexer.Config
