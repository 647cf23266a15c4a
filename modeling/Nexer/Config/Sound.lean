import Nexer.Config.Represents

/-!
# What the parser keeps true of its registry

After every operation on the registry, in any number of parses, also of trees that are
rejected: an app is listed once, pointers to apps are to listed ones, names are those
of the apps that they are mapped to, and a checker has one app.
-/

namespace Nexer.Config

/-- Apps are made and listed together, and each checker has one app. -/
structure Registry.Sound (registry : Registry) : Prop where
  once : registry.apps.Nodup
  listed : ∀ app, app ∈ registry.apps ↔ app < registry.objects.length
  preamble : ∀ (app : AppId) object, registry.objects[app]? = some object →
    ∀ preamble ∈ object.preamble, preamble ∈ registry.apps
  appMap : ∀ name app, (name, app) ∈ registry.appMap →
    ∃ object, registry.objects[app]? = some object ∧ object.name = name
  checkers : ∀ app app' checker, registry.checkerOf app = some checker →
    registry.checkerOf app' = some checker → app = app'

/-- The registry of a configuration is sound, and its destructor deletes each object once. -/
structure SoundConfig (config : Config AppId Registry) : Prop where
  registry : config.store.Sound
  upstream : ∀ proxy ∈ config.proxies, ∀ app, proxy.upstream.app = some app →
    app ∈ config.store.apps
  once : config.deleted.Nodup
  app : ∀ app, .app app ∈ config.deleted ↔ app < config.store.objects.length
  checker : ∀ checker, .command checker ∈ config.deleted ↔
    ∃ app, config.store.checkerOf app = some checker

theorem deleted_eq (config : Config AppId Registry) :
    config.deleted = config.store.apps.flatMap fun app =>
      ((config.store.checkerOf app).map Object.command).toList ++ [.app app] := rfl

theorem mem_deleted_app {config : Config AppId Registry} {app : AppId} :
    .app app ∈ config.deleted ↔ app ∈ config.store.apps := by
  simp [deleted_eq]

theorem mem_deleted_command {config : Config AppId Registry} {checker : CommandId} :
    .command checker ∈ config.deleted ↔
      ∃ app ∈ config.store.apps, config.store.checkerOf app = some checker := by
  simp [deleted_eq]

/-- An app that holds a checker is there. -/
theorem Registry.Sound.holder_listed {registry : Registry} (sound : registry.Sound) {app : AppId}
    {checker : CommandId} (held : registry.checkerOf app = some checker) :
    app ∈ registry.apps := by
  obtain ⟨object, found, -⟩ := Option.bind_eq_some_iff.1 held
  exact (sound.listed app).2 (List.getElem?_eq_some_iff.1 found).1

/-- Apps that are listed once and have checkers of their own are deleted once, with these. -/
theorem deleted_nodup {config : Config AppId Registry} (sound : config.store.Sound) :
    config.deleted.Nodup := by
  rw [deleted_eq, List.nodup_flatMap]
  constructor
  · intro app _
    cases config.store.checkerOf app <;> simp
  · apply sound.once.imp
    rintro app app' different object here there
    cases object with
    | app other =>
        have one : other = app := by simpa using here
        have two : other = app' := by simpa using there
        exact different (one.symm.trans two)
    | command checker =>
        have one : config.store.checkerOf app = some checker := by simpa using here
        have two : config.store.checkerOf app' = some checker := by simpa using there
        exact different (sound.checkers app app' checker one two)

theorem Recorded.meaning_name {mentioned : List Symbol} {definitions : List Definition}
    (recorded : Recorded mentioned definitions) (name : String) :
    (meaning definitions (.named name)).name = name := by
  unfold meaning
  cases found : definitions.lookup (.named name) with
  | none => rfl
  | some app =>
      obtain ⟨before, after, split, -⟩ := List.lookup_eq_some_iff.1 found
      exact recorded.named (.named name, app) (by simp [split]) name rfl

section Represents

variable {touched mentioned : List Symbol} {registry : Registry} {definitions : List Definition}

theorem Represents.listed (represents : Represents touched registry mentioned definitions)
    {app : AppId} {symbol : Symbol} (stands : StandsFor touched app symbol) :
    app ∈ registry.apps := by
  rw [represents.apps, List.mem_range, ← represents.count]
  exact (List.getElem?_eq_some_iff.1 stands).1

theorem Represents.sound (represents : Represents touched registry mentioned definitions) :
    registry.Sound where
  once := by
    rw [represents.apps]
    exact List.nodup_range
  listed := by simp [represents.apps]
  preamble := by
    intro app object found preamble member
    obtain ⟨symbol, stands⟩ := represents.exists_symbol (List.getElem?_eq_some_iff.1 found).1
    obtain ⟨object', found', same⟩ := represents.objects app symbol stands
    cases found.symm.trans found'
    have listed := same.preamble.imp fun _ _ there => And.intro (represents.listed there) there
    exact ((List.forall₂_and_left _ _).1 listed).1 preamble member
  appMap := by
    intro name app mapped
    obtain ⟨object, found, same⟩ := represents.objects app _ ((represents.appMap name app).1 mapped)
    exact ⟨object, found, same.name.trans (represents.recorded.meaning_name name)⟩
  checkers := represents.checkers

end Represents

section Watching

variable {π κ σ π' κ' σ' World : Type}

/-- The same store, which keeps every state that an operation has led to. -/
def Store.watched (store : Store π κ σ) : Store π κ (σ × List σ) where
  getApp name state :=
    let found := store.getApp name state.1
    (found.1, found.2, found.2 :: state.2)
  settle app state :=
    let settled := store.settle app state.1
    (settled.1, settled.2, settled.2 :: state.2)
  newCommand command state :=
    let created := store.newCommand command state.1
    (created.1, created.2, created.2 :: state.2)

theorem SameApp.eq {app app' : App π κ}
    (same : SameApp (fun p p' => p = p') (fun c c' => c = c') app app') : app = app' := by
  obtain ⟨name, command, checker, maxStartTime, preamble, tags⟩ := same
  cases app
  cases app'
  rw [List.forall₂_eq_eq_eq] at preamble
  simp_all

/-- A store and the one that keeps its states. -/
def Simulation.unwatched (store : Store π κ σ) : Simulation store.watched store Unit where
  State _ state state' := state.1 = state'
  Grows _ _ := True
  Link _ app app' := app = app'
  Held _ _ checker checker' := checker = checker'
  refl _ := trivial
  trans _ _ := trivial
  link_mono _ same := same
  held_mono _ same := same
  held_none _ := rfl
  getApp name _ same := by
    subst same
    exact ⟨(), trivial, rfl, rfl⟩
  newCommand command _ same := by
    subst same
    exact ⟨(), trivial, rfl, rfl⟩
  settle _ same draft := by
    subst same
    rw [draft.eq]
    exact ⟨(), trivial, rfl, rfl⟩

/-- What holds of every state of a simulation holds of the states that were kept. -/
def Simulation.watching {store : Store π κ σ} {store' : Store π' κ' σ'}
    (sim : Simulation store store' World) (Good : σ → Prop)
    (good : ∀ {w s s'}, sim.State w s s' → Good s) : Simulation store.watched store' World where
  State w state state' := sim.State w state.1 state' ∧ ∀ kept ∈ state.2, Good kept
  Grows := sim.Grows
  Link := sim.Link
  Held := sim.Held
  refl := sim.refl
  trans := sim.trans
  link_mono := sim.link_mono
  held_mono := sim.held_mono
  held_none := sim.held_none
  getApp name nonempty related := by
    obtain ⟨w', grows, state, link⟩ := sim.getApp name nonempty related.1
    exact ⟨w', grows, ⟨state, List.forall_mem_cons.2 ⟨good state, related.2⟩⟩, link⟩
  newCommand command grows related := by
    obtain ⟨w', later, state, held⟩ := sim.newCommand command grows related.1
    exact ⟨w', later, ⟨state, List.forall_mem_cons.2 ⟨good state, related.2⟩⟩, held⟩
  settle grows related same := by
    obtain ⟨w', later, state, link⟩ := sim.settle grows related.1 same
    exact ⟨w', later, ⟨state, List.forall_mem_cons.2 ⟨good state, related.2⟩⟩, link⟩

end Watching

variable (dump : Json → String)

/-- The configuration after some parses, of trees that are accepted or not. -/
def parseAll {π κ σ : Type} (store : Store π κ σ) (trees : List Json) (config : Config π σ) :
    Config π σ :=
  trees.foldl (fun config tree => (parse dump store tree config).target) config

theorem Simulation.parseAll_agree {π κ σ π' κ' σ' World : Type} {store : Store π κ σ}
    {store' : Store π' κ' σ'} (sim : Simulation store store' World) {base : World} :
    ∀ (trees : List Json) {config : Config π σ} {config' : Config π' σ'},
      sim.Configs base config config' →
        sim.Configs base (parseAll dump store trees config) (parseAll dump store' trees config')
  | [], _, _, related => related
  | tree :: rest, _, _, related =>
      sim.parseAll_agree rest (sim.parse_agree dump tree related).target

theorem tracks_initial (root : Root) : Tracks root [] [] ⟨[], {}⟩ {} { root } where
  current := rfl
  represents :=
    { apps := rfl
      distinct := .nil
      count := rfl
      mem := by simp
      appMap := by simp [StandsFor]
      objects := by simp [StandsFor]
      checkers := by simp [Registry.checkerOf]
      recorded := ⟨by simp, by simp, by simp, by simp, .nil⟩ }
  here := rfl
  below := by simp
  rooted := by simp

/-- A configuration with a sound registry, whose apps have symbols. -/
theorem sound_of_represents {touched mentioned : List Symbol} {definitions : List Definition}
    {config : Config AppId Registry} {proxies : List (Proxy Symbol)}
    (represents : Represents touched config.store mentioned definitions)
    (same : List.Forall₂ (SameProxy (StandsFor touched)) config.proxies proxies) :
    SoundConfig config where
  registry := represents.sound
  upstream := by
    have listed := same.imp fun proxy proxy' linked => And.intro
      (fun app (found : proxy.upstream.app = some app) => by
        have link := linked.upstream.app
        rw [found] at link
        generalize proxy'.upstream.app = symbol at link
        cases link with
        | some stands => exact represents.listed stands) linked
    exact ((List.forall₂_and_left _ _).1 listed).1
  once := deleted_nodup represents.sound
  app app := mem_deleted_app.trans (represents.sound.listed app)
  checker checker := by
    rw [mem_deleted_command]
    constructor
    · rintro ⟨app, -, held⟩
      exact ⟨app, held⟩
    · rintro ⟨app, held⟩
      exact ⟨app, represents.sound.holder_listed held, held⟩

/-- The configuration is sound after any parses, and the registry was so after every operation. -/
theorem sound_of_parses (trees : List Json) :
    SoundConfig (parseAll dump registry trees { store := {} }) ∧
      ∀ kept ∈ (parseAll dump registry.watched trees { store := ({}, []) }).store.2, kept.Sound := by
  let sim := tracking .document [] []
  have good : ∀ {stage registry ledger}, sim.State stage registry ledger → registry.Sound := by
    rintro stage registry ledger ⟨rfl, represents, -, -, -⟩
    exact represents.sound
  constructor
  · have begun : sim.Configs ⟨[], {}⟩ { store := {} } { store := { root := .document } } :=
      ⟨⟨[], {}⟩, sim.refl _, tracks_initial .document, ⟨rfl, rfl, .nil, rfl, .nil⟩⟩
    obtain ⟨stage, -, ⟨current, represents, -⟩, same⟩ := sim.parseAll_agree dump trees begun
    exact sound_of_represents (current ▸ represents) same.proxies
  · let watching := sim.watching Registry.Sound good
    have begun : watching.Configs ⟨[], {}⟩ { store := ({}, []) }
        { store := { root := .document } } :=
      ⟨⟨[], {}⟩, watching.refl _, ⟨tracks_initial .document, by simp⟩,
        ⟨rfl, rfl, .nil, rfl, .nil⟩⟩
    obtain ⟨stage, -, ⟨-, kept⟩, -⟩ := watching.parseAll_agree dump trees begun
    exact kept

/-- Keeping the states does not change what is parsed. -/
theorem parseAll_watched (trees : List Json) :
    (parseAll dump registry.watched trees { store := ({}, []) }).store.1 =
      (parseAll dump registry trees { store := {} }).store := by
  have begun : (Simulation.unwatched registry).Configs () { store := ({}, []) }
      { store := {} } := ⟨(), trivial, rfl, ⟨rfl, rfl, .nil, rfl, .nil⟩⟩
  obtain ⟨_, _, same, _⟩ := (Simulation.unwatched registry).parseAll_agree dump trees begun
  exact same

end Nexer.Config
