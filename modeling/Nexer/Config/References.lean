import Nexer.Config.Document

/-!
# Mentions and definitions

Where every name is defined at most once, the apps of a configuration are what the names in the
document stand for, and two configurations that hold the same parts differ in the addresses of
their apps only.
-/

namespace Nexer.Config

variable {touched touched' : List Symbol} {config config' : Config AppId Registry}
variable {parts parts' : List Part}

/-- The apps of the configuration are those that the parts mention, each at one address; an app
carries its definition, or nothing but its name when it has none. -/
structure Denotes (config : Config AppId Registry) (parts : List Part)
    (address : Symbol → AppId) : Prop where
  proxies : List.Forall₂ (SameProxy fun app symbol => app = address symbol) config.proxies
    (parts.flatMap (·.proxies))
  entries : config.entries = (parts.flatMap (·.entries)).map address
  apps : ∀ app, app ∈ config.store.apps ↔ ∃ symbol ∈ mentionedIn parts, address symbol = app
  apart : ∀ symbol ∈ mentionedIn parts, ∀ symbol' ∈ mentionedIn parts,
    address symbol = address symbol' → symbol = symbol'
  appMap : ∀ name app, config.store.appMap.lookup name = some app ↔
    .named name ∈ mentionedIn parts ∧ address (.named name) = app
  listed : ∀ definition ∈ definitionsIn parts, definition.1 ∈ mentionedIn parts
  defined : ∀ definition ∈ definitionsIn parts, ∃ object : App AppId CommandId,
    config.store.objects[address definition.1]? = some object ∧
      SameApp (fun app symbol => app = address symbol) config.store.Carries object definition.2
  undefined : ∀ symbol ∈ mentionedIn parts,
    (∀ definition ∈ definitionsIn parts, definition.1 ≠ symbol) →
      config.store.objects[address symbol]? = some { name := (placeholder symbol).name }

theorem StandsFor.eq_idxOf (distinct : touched.Nodup) {app : AppId} {symbol : Symbol}
    (stands : StandsFor touched app symbol) : app = touched.idxOf symbol := by
  obtain ⟨bound, here⟩ := List.getElem?_eq_some_iff.1 stands
  rw [← here, distinct.idxOf_getElem]

theorem standsFor_idxOf {symbol : Symbol} (found : symbol ∈ touched) :
    StandsFor touched (touched.idxOf symbol) symbol :=
  List.getElem?_idxOf found

/-- What carries the fields of a placeholder is the app that `GetApp` creates. -/
theorem object_of_placeholder {link : AppId → Symbol → Prop} {registry : Registry}
    {object : App AppId CommandId} {symbol : Symbol}
    (same : SameApp link registry.Carries object (placeholder symbol)) :
    object = { name := (placeholder symbol).name } := by
  obtain ⟨name, command, checker, maxStartTime, preamble, tags⟩ := same
  cases object
  cases symbol <;> cases checker <;> cases preamble <;> simp_all [placeholder]

namespace Gathered

/-- The names in the document, defined once, stand for the apps. -/
theorem denotes (gathered : Gathered touched config parts)
    (once : (definedNames (definitionsIn parts)).Nodup) :
    Denotes config parts fun symbol => touched.idxOf symbol := by
  have represents := gathered.represents
  have place : ∀ app symbol, StandsFor touched app symbol → app = touched.idxOf symbol :=
    fun _ _ stands => stands.eq_idxOf represents.distinct
  have symbols := represents.recorded.symbols_once once
  exact
    { proxies := gathered.proxies.imp fun _ _ same => same.imp place
      entries := by
        have same := gathered.entries.imp place
        rw [← List.forall₂_eq_eq_eq, List.forall₂_map_right_iff]
        exact same
      apps := by
        intro app
        constructor
        · intro member
          obtain ⟨symbol, stands⟩ :=
            represents.exists_symbol ((represents.sound.listed app).1 member)
          exact ⟨symbol, (represents.mem symbol).1 (List.mem_of_getElem? stands),
            (place app symbol stands).symm⟩
        · rintro ⟨symbol, mentioned, rfl⟩
          exact represents.listed (standsFor_idxOf ((represents.mem symbol).2 mentioned))
      apart := by
        intro symbol mentioned symbol' _ same
        exact (List.idxOf_inj ((represents.mem symbol).2 mentioned)).1 same
      appMap := by
        intro name app
        rw [represents.lookup]
        constructor
        · intro stands
          exact ⟨(represents.mem _).1 (List.mem_of_getElem? stands), (place app _ stands).symm⟩
        · rintro ⟨mentioned, rfl⟩
          exact standsFor_idxOf ((represents.mem _).2 mentioned)
      listed := represents.recorded.listed
      defined := by
        intro definition found
        have mentioned := (represents.mem _).2 (represents.recorded.listed definition found)
        obtain ⟨object, there, same⟩ := represents.objects _ _ (standsFor_idxOf mentioned)
        rw [meaning_of_mem symbols definition found] at same
        exact ⟨object, there, same.imp place fun _ _ => id⟩
      undefined := by
        intro symbol mentioned none
        obtain ⟨object, there, same⟩ :=
          represents.objects _ _ (standsFor_idxOf ((represents.mem symbol).2 mentioned))
        rw [meaning_of_not_mem none] at same
        rw [there, object_of_placeholder same] }

end Gathered

/-- Two configurations that differ in the addresses of apps and checkers and in the order of the
apps only. -/
structure SameUpTo (rename : AppId → AppId) (config config' : Config AppId Registry) : Prop where
  admin : config.admin = config'.admin
  logger : config.logger = config'.logger
  dummies : config.dummies = config'.dummies
  proxies : List.Forall₂ (SameProxy fun app app' => app' = rename app) config.proxies
    config'.proxies
  entries : config'.entries.Perm (config.entries.map rename)
  apps : config'.store.apps.Perm (config.store.apps.map rename)
  appMap : ∀ name, config'.store.appMap.lookup name =
    (config.store.appMap.lookup name).map rename
  objects : ∀ app ∈ config.store.apps, ∃ object object',
    config.store.objects[app]? = some object ∧
      config'.store.objects[rename app]? = some object' ∧
      SameApp (fun app app' => app' = rename app)
        (Option.Rel fun checker checker' => ∃ command,
          config.store.commands[checker]? = some command ∧
            config'.store.commands[checker']? = some command) object object'

/-- The address at which the app at an address in one registry is in another. -/
def moved (touched touched' : List Symbol) (app : AppId) : AppId :=
  (touched[app]?.map touched'.idxOf).getD app

theorem StandsFor.moved_eq {app : AppId} {symbol : Symbol} (stands : StandsFor touched app symbol) :
    moved touched touched' app = touched'.idxOf symbol := by
  have there : touched[app]? = some symbol := stands
  rw [moved, there]
  rfl

theorem map_moved {apps : List AppId} {symbols : List Symbol}
    (stand : List.Forall₂ (StandsFor touched) apps symbols) :
    apps.map (moved touched touched') = symbols.map touched'.idxOf := by
  rw [← List.forall₂_eq_eq_eq, List.forall₂_map_left_iff, List.forall₂_map_right_iff]
  exact stand.imp fun _ _ stands => stands.moved_eq

theorem eq_map_idxOf (distinct : touched.Nodup) {apps : List AppId} {symbols : List Symbol}
    (stand : List.Forall₂ (StandsFor touched) apps symbols) : apps = symbols.map touched.idxOf := by
  rw [← List.forall₂_eq_eq_eq, List.forall₂_map_right_iff]
  exact stand.imp fun _ _ stands => stands.eq_idxOf distinct

section Join

variable {α β γ : Type} {rel : α → γ → Prop} {rel' : β → γ → Prop} {joined : α → β → Prop}

theorem forall₂_join (join : ∀ a b c, rel a c → rel' b c → joined a b) :
    ∀ {as : List α} {bs : List β} {cs : List γ}, List.Forall₂ rel as cs →
      List.Forall₂ rel' bs cs → List.Forall₂ joined as bs
  | _, _, _, .nil, .nil => .nil
  | _, _, _, .cons one rest, .cons two rest' =>
      .cons (join _ _ _ one two) (forall₂_join join rest rest')

theorem optionRel_join (join : ∀ a b c, rel a c → rel' b c → joined a b) :
    ∀ {a : Option α} {b : Option β} {c : Option γ}, Option.Rel rel a c → Option.Rel rel' b c →
      Option.Rel joined a b
  | _, _, _, .none, .none => .none
  | _, _, _, .some one, .some two => .some (join _ _ _ one two)

end Join

theorem SameApp.join {π π' ρ κ κ' μ : Type} {link : π → ρ → Prop} {link' : π' → ρ → Prop}
    {joined : π → π' → Prop} {held : Option κ → Option μ → Prop}
    {held' : Option κ' → Option μ → Prop} {both : Option κ → Option κ' → Prop} {app : App π κ}
    {app' : App π' κ'} {common : App ρ μ} (same : SameApp link held app common)
    (same' : SameApp link' held' app' common) (links : ∀ p p' r, link p r → link' p' r → joined p p')
    (checkers : ∀ c c' m, held c m → held' c' m → both c c') : SameApp joined both app app' where
  name := same.name.trans same'.name.symm
  command := same.command.trans same'.command.symm
  checker := checkers _ _ _ same.checker same'.checker
  maxStartTime := same.maxStartTime.trans same'.maxStartTime.symm
  preamble := forall₂_join links same.preamble same'.preamble
  tags := same.tags.trans same'.tags.symm

theorem SameProxy.join {π π' ρ : Type} {link : π → ρ → Prop} {link' : π' → ρ → Prop}
    {joined : π → π' → Prop} {proxy : Proxy π} {proxy' : Proxy π'} {common : Proxy ρ}
    (same : SameProxy link proxy common) (same' : SameProxy link' proxy' common)
    (links : ∀ p p' r, link p r → link' p' r → joined p p') : SameProxy joined proxy proxy' where
  port := same.port.trans same'.port.symm
  upstream :=
    { host := same.upstream.host.trans same'.upstream.host.symm
      port := same.upstream.port.trans same'.upstream.port.symm
      connectTimeout := same.upstream.connectTimeout.trans same'.upstream.connectTimeout.symm
      app := optionRel_join links same.upstream.app same'.upstream.app
      tags := same.upstream.tags.trans same'.upstream.tags.symm }

section Both

variable {mentioned mentioned' : List Symbol} {registry registry' : Registry}
  {definitions definitions' : List Definition}

theorem meaning_perm
    (once : definitions.Pairwise fun later earlier => later.1 ≠ earlier.1)
    (once' : definitions'.Pairwise fun later earlier => later.1 ≠ earlier.1)
    (perm : definitions'.Perm definitions) (symbol : Symbol) :
    meaning definitions' symbol = meaning definitions symbol := by
  by_cases defined : ∃ definition ∈ definitions, definition.1 = symbol
  · obtain ⟨definition, found, rfl⟩ := defined
    rw [meaning_of_mem once definition found,
      meaning_of_mem once' definition (perm.mem_iff.2 found)]
  · have none : ∀ definition ∈ definitions, definition.1 ≠ symbol :=
      fun definition found same => defined ⟨definition, found, same⟩
    rw [meaning_of_not_mem none,
      meaning_of_not_mem fun definition found => none definition (perm.mem_iff.1 found)]

namespace Represents

/-- The apps in the order in which they were touched. -/
theorem stand (represents : Represents touched registry mentioned definitions) :
    List.Forall₂ (StandsFor touched) registry.apps touched := by
  rw [represents.apps, List.forall₂_iff_get]
  refine ⟨by rw [List.length_range, represents.count], fun index bound bound' => ?_⟩
  simp [StandsFor]

theorem lookup_moved (one : Represents touched registry mentioned definitions)
    (two : Represents touched' registry' mentioned' definitions')
    (same : ∀ symbol, symbol ∈ touched ↔ symbol ∈ touched') (name : String) :
    registry'.appMap.lookup name =
      (registry.appMap.lookup name).map (moved touched touched') := by
  cases found : registry.appMap.lookup name with
  | some app =>
      have stands := (one.lookup name app).1 found
      rw [Option.map_some, stands.moved_eq, two.lookup]
      exact standsFor_idxOf ((same _).1 (List.mem_of_getElem? stands))
  | none =>
      cases found' : registry'.appMap.lookup name with
      | none => rfl
      | some app =>
          have stands := (two.lookup name app).1 found'
          have there := (same _).2 (List.mem_of_getElem? stands)
          rw [(one.lookup name _).2 (standsFor_idxOf there)] at found
          cases found

end Represents

end Both

namespace Gathered

/-- Two configurations that hold the same parts, in different orders. -/
theorem sameUpTo (one : Gathered touched config parts) (two : Gathered touched' config' parts')
    (perm : parts'.Perm parts) (once : (definedNames (definitionsIn parts)).Nodup)
    (proxies : parts'.flatMap (·.proxies) = parts.flatMap (·.proxies))
    (admin : config.admin = config'.admin) (logger : config.logger = config'.logger)
    (dummies : config.dummies = config'.dummies) :
    SameUpTo (moved touched touched') config config' := by
  have mentions : ∀ symbol, symbol ∈ touched ↔ symbol ∈ touched' := by
    intro symbol
    rw [one.represents.mem, two.represents.mem]
    simp only [mentionedIn, List.mem_flatMap, List.mem_reverse, perm.mem_iff]
  have order : touched'.Perm touched :=
    (List.perm_ext_iff_of_nodup two.represents.distinct one.represents.distinct).2
      fun symbol => (mentions symbol).symm
  have definitions : (definitionsIn parts').Perm (definitionsIn parts) := by
    apply List.Perm.flatMap_right
    exact (List.reverse_perm parts').trans (perm.trans (List.reverse_perm parts).symm)
  have once' : (definedNames (definitionsIn parts')).Nodup :=
    ((definitions.map _).filter _).nodup_iff.2 once
  have same := meaning_perm (one.represents.recorded.symbols_once once)
    (two.represents.recorded.symbols_once once') definitions
  have move : ∀ app app' symbol, StandsFor touched app symbol → StandsFor touched' app' symbol →
      app' = moved touched touched' app := fun _ _ _ stands stands' =>
    (stands'.eq_idxOf two.represents.distinct).trans stands.moved_eq.symm
  exact
    { admin
      logger
      dummies
      proxies := forall₂_join (fun _ _ _ here there => here.join there move) one.proxies
        (proxies ▸ two.proxies)
      entries := by
        rw [map_moved one.entries, eq_map_idxOf two.represents.distinct two.entries]
        exact (perm.flatMap_right _).map _
      apps := by
        rw [map_moved one.represents.stand, eq_map_idxOf two.represents.distinct two.represents.stand]
        exact order.map _
      appMap := fun name => one.represents.lookup_moved two.represents mentions name
      objects := by
        intro app member
        obtain ⟨symbol, stands⟩ :=
          one.represents.exists_symbol ((one.represents.sound.listed app).1 member)
        have there := standsFor_idxOf ((mentions symbol).1 (List.mem_of_getElem? stands))
        obtain ⟨object, found, here⟩ := one.represents.objects app symbol stands
        obtain ⟨object', found', here'⟩ := two.represents.objects _ symbol there
        rw [same symbol] at here'
        refine ⟨object, object', found, stands.moved_eq ▸ found', here.join here' move ?_⟩
        exact fun _ _ _ carried carried' =>
          optionRel_join (fun _ _ command known known' => ⟨command, known, known'⟩) carried carried' }

end Gathered

end Nexer.Config
