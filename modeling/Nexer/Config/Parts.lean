import Nexer.Config.Loops
import Nexer.Config.Sound

/-!
# The parts of a document

An element of `proxies` or of `apps` is read by itself, with the names that it mentions and
defines.  Whatever has been parsed before it, the registry of the program after it represents
what has been read in all parts.
-/

namespace Nexer.Config

/-- What is read in one part. -/
structure Part where
  proxies : List (Proxy Symbol) := []
  entries : List Symbol := []
  ledger : Ledger

theorem SameProxy.imp {π π' : Type} {link link' : π → π' → Prop} {proxy : Proxy π}
    {proxy' : Proxy π'} (same : SameProxy link proxy proxy')
    (links : ∀ p p', link p p' → link' p p') : SameProxy link' proxy proxy' :=
  ⟨same.port, { same.upstream with app := optionRel_imp links same.upstream.app }⟩

variable (dump : Json → String)

def readProxy (index : Nat) (item : Json) : Part :=
  let parsed := parseProxy dump ledger item ({}, { root := .proxy index })
  { proxies := [parsed.target.1], ledger := parsed.target.2 }

def readApp (index : Nat) (item : Json) : Part :=
  let parsed := parseApp dump ledger item { root := .entry index }
  { entries := parsed.target.1.toList, ledger := parsed.target.2 }

/-- What the parts mention and define, the latest first. -/
def mentionedIn (parts : List Part) : List Symbol :=
  parts.reverse.flatMap (·.ledger.mentioned)

def definitionsIn (parts : List Part) : List Definition :=
  parts.reverse.flatMap (·.ledger.definitions)

/-- The configuration holds what has been read in the parts. -/
structure Gathered (touched : List Symbol) (config : Config AppId Registry) (parts : List Part) :
    Prop where
  represents : Represents touched config.store (mentionedIn parts) (definitionsIn parts)
  rooted : ∀ root index, .unnamed root index ∈ touched → ∃ part ∈ parts, part.ledger.root = root
  proxies : List.Forall₂ (SameProxy (StandsFor touched)) config.proxies (parts.flatMap (·.proxies))
  entries : List.Forall₂ (StandsFor touched) config.entries (parts.flatMap (·.entries))

theorem forall₂_toList {α β : Type} {rel : α → β → Prop} {one : Option α} {two : Option β}
    (related : Option.Rel rel one two) : List.Forall₂ rel one.toList two.toList := by
  cases related with
  | some link => exact .cons link .nil
  | none => exact .nil

namespace Gathered

variable {touched : List Symbol} {config : Config AppId Registry} {parts : List Part}
variable {dump}

theorem initial : Gathered [] { store := {} } [] where
  represents := (tracks_initial .document).represents
  rooted := by simp
  proxies := .nil
  entries := .nil

/-- A part with a new root begins with an empty ledger. -/
theorem tracks (gathered : Gathered touched config parts) {root : Root}
    (fresh : ∀ part ∈ parts, part.ledger.root ≠ root) :
    Tracks root (mentionedIn parts) (definitionsIn parts) ⟨touched, config.store⟩ config.store
      { root } where
  current := rfl
  represents := gathered.represents
  here := rfl
  below := by
    intro index found
    obtain ⟨part, member, same⟩ := gathered.rooted root index found
    exact absurd same (fresh part member)
  rooted := by simp

/-- The end of a part. -/
theorem of_tracks (gathered : Gathered touched config parts) {root : Root} {stage : Stage}
    {config' : Config AppId Registry} {part : Part}
    (tracks : Tracks root (mentionedIn parts) (definitionsIn parts) stage config'.store part.ledger)
    (proxies : List.Forall₂ (SameProxy (StandsFor stage.touched)) config'.proxies
      ((parts ++ [part]).flatMap (·.proxies)))
    (entries : List.Forall₂ (StandsFor stage.touched) config'.entries
      ((parts ++ [part]).flatMap (·.entries))) :
    Gathered stage.touched config' (parts ++ [part]) where
  represents := by
    rw [tracks.current]
    simpa [mentionedIn, definitionsIn] using tracks.represents
  rooted := by
    intro root' index found
    rcases List.mem_append.1 ((tracks.represents.mem _).1 found) with here | before
    · exact ⟨part, by simp, tracks.here.trans (tracks.rooted root' index here).symm⟩
    · obtain ⟨part', member, same⟩ :=
        gathered.rooted root' index ((gathered.represents.mem _).2 before)
      exact ⟨part', by simp [member], same⟩
  proxies := proxies
  entries := entries

/-- What was related stays related. -/
theorem later (gathered : Gathered touched config parts) {stage : Stage}
    (grows : Stage.Grows ⟨touched, config.store⟩ stage) :
    List.Forall₂ (SameProxy (StandsFor stage.touched)) config.proxies
        (parts.flatMap (·.proxies)) ∧
      List.Forall₂ (StandsFor stage.touched) config.entries (parts.flatMap (·.entries)) := by
  have stands : ∀ app symbol, StandsFor touched app symbol → StandsFor stage.touched app symbol :=
    fun _ _ there => getElem?_of_grown grows.touched there
  exact ⟨gathered.proxies.imp fun _ _ same => same.imp stands, gathered.entries.imp stands⟩

/-- An element of `proxies` adds the part that it is read as. -/
theorem proxy (gathered : Gathered touched config parts) {index : Nat}
    (fresh : ∀ part ∈ parts, part.ledger.root ≠ .proxy index) (item : Json) :
    ∃ touched', Gathered touched'
      { config with
        proxies := config.proxies ++
          [(parseProxy dump registry item ({}, config.store)).target.1]
        store := (parseProxy dump registry item ({}, config.store)).target.2 }
      (parts ++ [readProxy dump index item]) := by
  let sim := tracking (.proxy index) (mentionedIn parts) (definitionsIn parts)
  have begun : sim.Since ⟨touched, config.store⟩ (fun w => SameProxy (sim.Link w))
      ({}, config.store) ({}, { root := .proxy index }) :=
    ⟨_, sim.refl _, gathered.tracks fresh, rfl, rfl, rfl, rfl, .none, rfl⟩
  obtain ⟨-, -, stage, grows, tracks, same⟩ := sim.parseProxy_agree dump item begun
  obtain ⟨proxies, entries⟩ := gathered.later grows
  refine ⟨stage.touched, gathered.of_tracks tracks ?_ ?_⟩
  · rw [List.flatMap_append]
    exact List.rel_append proxies (.cons same .nil)
  · simpa [readProxy] using entries

/-- So does an element of `apps`. -/
theorem entry (gathered : Gathered touched config parts) {index : Nat}
    (fresh : ∀ part ∈ parts, part.ledger.root ≠ .entry index) (item : Json) :
    ∃ touched', Gathered touched'
      { config with
        entries := config.entries ++
          (parseApp dump registry item config.store).target.1.toList
        store := (parseApp dump registry item config.store).target.2 }
      (parts ++ [readApp dump index item]) := by
  let sim := tracking (.entry index) (mentionedIn parts) (definitionsIn parts)
  obtain ⟨-, -, stage, grows, tracks, same⟩ := sim.parseApp_agree dump item (gathered.tracks fresh)
  obtain ⟨proxies, entries⟩ := gathered.later grows
  refine ⟨stage.touched, gathered.of_tracks tracks ?_ ?_⟩
  · simpa [readApp] using proxies
  · rw [List.flatMap_append]
    refine List.rel_append entries ?_
    have found : List.Forall₂ (StandsFor stage.touched)
        (parseApp dump registry item config.store).target.1.toList
        (parseApp dump ledger item { root := .entry index }).target.1.toList :=
      forall₂_toList same
    simpa [readApp] using found

end Gathered

theorem readProxy_root (index : Nat) (item : Json) :
    (readProxy dump index item).ledger.root = .proxy index := by
  let sim := tracking (.proxy index) [] []
  have begun : sim.Since ⟨[], {}⟩ (fun w => SameProxy (sim.Link w)) ({}, {})
      ({}, { root := .proxy index }) :=
    ⟨_, sim.refl _, tracks_initial (.proxy index), rfl, rfl, rfl, rfl, .none, rfl⟩
  obtain ⟨-, -, stage, -, tracks, -⟩ := sim.parseProxy_agree dump item begun
  exact tracks.here

theorem readApp_root (index : Nat) (item : Json) :
    (readApp dump index item).ledger.root = .entry index := by
  obtain ⟨-, -, stage, -, tracks, -⟩ := (tracking (.entry index) [] []).parseApp_agree dump item
    (tracks_initial (.entry index))
  exact tracks.here

section Loops

variable {dump} {read : Nat → Json → Part} {label : Nat → Root}
variable {step : Json → Config AppId Registry → Outcome (Config AppId Registry)}

/-- A loop over elements that are read as parts with roots of their own. -/
theorem gathered_each (rooted : ∀ index item, (read index item).ledger.root = label index)
    (apart : ∀ index index', label index = label index' → index = index')
    (one : ∀ {touched config parts} index item, Gathered touched config parts →
      (∀ part ∈ parts, part.ledger.root ≠ label index) → (step item config).ok = true →
        ∃ touched', Gathered touched' (step item config).target (parts ++ [read index item])) :
    ∀ (labels : List Nat) (items : List Json) {touched config parts},
      labels.length = items.length → labels.Nodup →
      (∀ index ∈ labels, ∀ part ∈ parts, part.ledger.root ≠ label index) →
      Gathered touched config parts → (each step items config).ok = true →
        ∃ touched', Gathered touched' (each step items config).target
          (parts ++ List.zipWith read labels items)
  | [], [], touched, config, parts, _, _, _, gathered, _ => by
      exact ⟨touched, by simpa [each] using gathered⟩
  | [], _ :: _, _, _, _, length, _, _, _, _ => by cases length
  | _ :: _, [], _, _, _, length, _, _, _, _ => by cases length
  | index :: labels, item :: items, touched, config, parts, length, once, fresh, gathered, ok => by
      obtain ⟨here, rest, same⟩ := each_cons_ok ok
      obtain ⟨different, once⟩ := List.nodup_cons.1 once
      obtain ⟨touched', added⟩ := one index item gathered (fresh index (.head _)) here
      have left : ∀ other ∈ labels, ∀ part ∈ parts ++ [read index item],
          part.ledger.root ≠ label other := by
        intro other member part found
        rcases List.mem_append.1 found with before | now
        · exact fresh other (.tail _ member) part before
        · rw [List.mem_singleton.1 now, rooted]
          exact fun same => different (apart _ _ same ▸ member)
      obtain ⟨touched', all⟩ := gathered_each rooted apart one labels items (Nat.succ.inj length)
        once left added rest
      rw [same]
      exact ⟨touched', by simpa using all⟩

end Loops

end Nexer.Config
