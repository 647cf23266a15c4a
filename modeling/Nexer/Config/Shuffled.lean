import Nexer.Config.References

/-!
# The order of a document

The keys of a document and the elements of `apps` may stand in any order: a document is accepted
in all of them or in none, and the configurations differ in the order of the apps only.
-/

namespace Nexer.Config

/-- The same entry, but for the order of the elements of `apps`. -/
inductive Reordered : Key × Json → Key × Json → Prop where
  | same (entry : Key × Json) : Reordered entry entry
  | apps {key : Key} {line line' : Nat} {items items' : List Json} (named : key.name = "apps")
      (perm : items'.Perm items) : Reordered (key, .array line items) (key, .array line' items')

/-- The entries in another order, with the elements of `apps` in another order. -/
def Shuffled (entries entries' : List (Key × Json)) : Prop :=
  ∃ middle, middle.Perm entries ∧ List.Forall₂ Reordered middle entries'

section Accepted

/-- Any two states of two stores. -/
def Simulation.unrelated {π κ σ π' κ' σ' : Type} (store : Store π κ σ) (store' : Store π' κ' σ') :
    Simulation store store' Unit where
  State _ _ _ := True
  Grows _ _ := True
  Link _ _ _ := True
  Held _ _ _ _ := True
  refl _ := trivial
  trans _ _ := trivial
  link_mono _ _ := trivial
  held_mono _ _ := trivial
  held_none _ := trivial
  getApp _ _ _ := ⟨(), trivial, trivial, trivial⟩
  newCommand _ _ _ := ⟨(), trivial, trivial, trivial⟩
  settle _ _ _ := ⟨(), trivial, trivial, trivial⟩

variable {τ ι : Type}

theorem parseAdmin_ok (value : Json) (admin admin' : Admin) :
    Agree (fun _ _ => True) (parseAdmin value admin) (parseAdmin value admin') := by
  refine parseObject_agree (fun key value t t' _ => ?_) "admin" value trivial
  split
  · exact parseField_agree trivial fun _ => trivial
  · exact unknownKey_agree trivial

theorem parseLogger_ok (value : Json) (logger logger' : Logger) :
    Agree (fun _ _ => True) (parseLogger value logger) (parseLogger value logger') := by
  refine parseObject_agree (fun key value t t' _ => ?_) "logger" value trivial
  unfold parseLoggerEntry
  split
  · exact parseField_agree trivial fun _ => trivial
  · split
    · cases parseString value with
      | none => exact ⟨rfl, rfl, trivial⟩
      | some name =>
          dsimp only
          cases parseLevel name <;> exact ⟨rfl, rfl, trivial⟩
    · exact unknownKey_agree trivial

theorem parseDummies_ok (value : Json) (dummies dummies' : List Dummy) :
    Agree (fun _ _ => True) (parseDummies value dummies) (parseDummies value dummies') := by
  unfold parseDummies
  refine parseArray_agree (fun item t t' _ => ?_) "dummies" value trivial
  exact ⟨rfl, rfl, trivial⟩

variable (dump : Json → String)

theorem parseProxies_ok (value : Json) (config config' : Config AppId Registry) :
    Agree (fun _ _ => True) (parseProxies dump registry value config)
      (parseProxies dump registry value config') := by
  let sim := Simulation.unrelated registry registry
  unfold parseProxies
  refine parseArray_agree (fun item config config' _ => ?_) "proxies" value trivial
  have begun : sim.Since () (fun w => SameProxy (sim.Link w)) ({}, config.store)
      ({}, config'.store) := ⟨(), trivial, trivial, rfl, rfl, rfl, rfl, .none, rfl⟩
  have same := sim.parseProxy_agree dump item begun
  exact ⟨same.ok, same.errors, trivial⟩

/-- The elements of `apps` are accepted in any order. -/
theorem parseApps_ok_perm {items items' : List Json} (perm : items'.Perm items) (line line' : Nat)
    (config config' : Config AppId Registry) :
    (parseApps dump registry (.array line items) config).ok =
      (parseApps dump registry (.array line' items') config').ok := by
  let sim := Simulation.unrelated registry registry
  unfold parseApps parseArray
  refine each_ok_perm (fun item config config' => ?_) perm config config'
  have begun : sim.State () config.store config'.store := trivial
  obtain ⟨-, -, w, grows, stored, found⟩ := sim.parseApp_agree dump item begun
  generalize parseApp dump registry item config.store = first at found ⊢
  generalize parseApp dump registry item config'.store = first' at found ⊢
  obtain ⟨_, ⟨app, _⟩, _⟩ := first
  obtain ⟨_, ⟨app', _⟩, _⟩ := first'
  cases found with
  | none => rfl
  | some link => rfl

theorem parseApps_ok (value : Json) (config config' : Config AppId Registry) :
    (parseApps dump registry value config).ok = (parseApps dump registry value config').ok := by
  cases value with
  | array line items => exact parseApps_ok_perm dump (.refl items) line line config config'
  | _ => rfl

/-- Whether an entry is accepted does not depend on what has been parsed before. -/
theorem parseEntry_ok (key : Key) (value : Json) (config config' : Config AppId Registry) :
    (parseEntry dump registry key value config).ok =
      (parseEntry dump registry key value config').ok := by
  unfold parseEntry
  by_cases admin : key.name = "admin"
  · simp only [if_pos admin]
    exact (parseAdmin_ok value _ _).ok
  simp only [if_neg admin]
  by_cases logger : key.name = "logger"
  · simp only [if_pos logger]
    exact (parseLogger_ok value _ _).ok
  simp only [if_neg logger]
  by_cases proxies : key.name = "proxies"
  · simp only [if_pos proxies]
    exact (parseProxies_ok dump value config config').ok
  simp only [if_neg proxies]
  by_cases apps : key.name = "apps"
  · simp only [if_pos apps]
    exact parseApps_ok dump value config config'
  simp only [if_neg apps]
  by_cases dummy : key.name = "dummy"
  · simp only [if_pos dummy]
    exact (parseDummies_ok value _ _).ok
  simp only [if_neg dummy]

/-- An entry is accepted. -/
def accepts (entry : Key × Json) : Bool :=
  (parseEntry dump registry entry.1 entry.2 { store := {} }).ok

theorem accepts_of_reordered {entry entry' : Key × Json} (reordered : Reordered entry entry') :
    accepts dump entry = accepts dump entry' := by
  cases reordered with
  | same => rfl
  | @apps key line line' items items' named perm =>
      unfold accepts parseEntry
      simp only [named, String.reduceEq, if_false, if_true]
      exact parseApps_ok_perm dump perm line line' _ _

/-- A document is accepted in any order of its entries and apps, or in none. -/
theorem parse_ok_of_shuffled {entries entries' : List (Key × Json)}
    (shuffled : Shuffled entries entries') (line line' : Nat) :
    (parse dump registry (.object line' entries') { store := {} }).ok =
      (parse dump registry (.object line entries) { store := {} }).ok := by
  obtain ⟨middle, perm, reordered⟩ := shuffled
  have one : ∀ (entry : Key × Json) (config : Config AppId Registry),
      (parseEntry dump registry entry.1 entry.2 config).ok = accepts dump entry :=
    fun entry config => parseEntry_ok dump entry.1 entry.2 config _
  have same : (∀ entry ∈ entries', accepts dump entry = true) ↔
      ∀ entry ∈ middle, accepts dump entry = true := by
    clear perm
    induction reordered with
    | nil => rfl
    | cons first _ ih =>
        rw [List.forall_mem_cons, List.forall_mem_cons, ih, accepts_of_reordered dump first]
  have loop : ∀ (line : Nat) (entries : List (Key × Json)),
      (parse dump registry (.object line entries) { store := {} }).ok = true ↔
        ∀ entry ∈ entries, accepts dump entry = true :=
    fun line entries => each_ok_iff entries _ fun entry _ config =>
      Bool.eq_iff_iff.1 (one entry config)
  rw [Bool.eq_iff_iff, loop, loop, same]
  simp only [perm.mem_iff]

end Accepted

section Keys

variable {entries entries' : List (Key × Json)}

theorem keys_of_reordered (reordered : List.Forall₂ Reordered entries entries') :
    keys entries' = keys entries := by
  induction reordered with
  | nil => rfl
  | cons first _ ih => cases first <;> exact congrArg (List.cons _) ih

theorem keys_nodup_of_shuffled (shuffled : Shuffled entries entries')
    (once : (keys entries).Nodup) : (keys entries').Nodup := by
  obtain ⟨middle, perm, reordered⟩ := shuffled
  rw [keys_of_reordered reordered]
  exact (perm.map _).nodup_iff.2 once

theorem valueAt_of_shuffled (shuffled : Shuffled entries entries') (once : (keys entries).Nodup)
    {name : String} (other : name ≠ "apps") : valueAt name entries' = valueAt name entries := by
  have once' := keys_nodup_of_shuffled shuffled once
  obtain ⟨middle, perm, reordered⟩ := shuffled
  have same : ∀ key value, key.name = name →
      ((key, value) ∈ entries' ↔ (key, value) ∈ middle) := by
    intro key value named
    clear once' perm
    induction reordered with
    | nil => rfl
    | cons first _ ih =>
        rw [List.mem_cons, List.mem_cons, ih]
        cases first with
        | same => rfl
        | apps here =>
            have apart : ∀ {key' value'}, key'.name = "apps" → (key, value) ≠ (key', value') := by
              rintro key' value' apps ⟨⟩
              exact other (named.symm.trans apps)
            simp only [apart here, false_or]
  apply Option.ext
  intro value
  rw [valueAt_eq_some once', valueAt_eq_some once]
  refine exists_congr fun key => and_congr_right fun named => ?_
  rw [same key value named, perm.mem_iff]

end Keys

section Labels

/-- Elements take their labels along. -/
theorem exists_labels {items items' : List Json} (perm : items'.Perm items) :
    ∀ labels : List Nat, labels.length = items.length → ∃ labels', labels'.Perm labels ∧
      labels'.length = items'.length ∧ ∀ read : Nat → Json → Part,
        (List.zipWith read labels' items').Perm (List.zipWith read labels items) := by
  induction perm with
  | nil =>
      intro labels length
      exact ⟨labels, .refl _, length, fun _ => .refl _⟩
  | cons item _ ih =>
      intro labels length
      cases labels with
      | nil => cases length
      | cons label rest =>
          obtain ⟨labels', perm, length', zipped⟩ := ih rest (Nat.succ.inj length)
          exact ⟨label :: labels', perm.cons _, congrArg Nat.succ length', fun read =>
            (zipped read).cons _⟩
  | swap one two items =>
      intro labels length
      rcases labels with _ | ⟨first, _ | ⟨second, rest⟩⟩
      · cases length
      · cases length
      · exact ⟨second :: first :: rest, .swap _ _ _, length, fun _ => .swap _ _ _⟩
  | trans _ _ ih ih' =>
      intro labels length
      obtain ⟨labels', perm, length', zipped⟩ := ih' labels length
      obtain ⟨labels'', perm', length'', zipped'⟩ := ih labels' length'
      exact ⟨labels'', perm'.trans perm, length'', fun read => (zipped' read).trans (zipped read)⟩

variable {dump : Json → String}

theorem reads_of_reordered {entry entry' : Key × Json} (reordered : Reordered entry entry') :
    ∃ parts, Reads dump entry' parts ∧ parts.Perm (partsOf dump (places entry) entry) := by
  cases reordered with
  | same => exact ⟨_, ⟨places entry, labelled_places entry, rfl⟩, .refl _⟩
  | @apps key line line' items items' named perm =>
      obtain ⟨labels, order, length, zipped⟩ :=
        exists_labels perm (List.range items.length) (by simp)
      refine ⟨_, ⟨labels, ⟨order.nodup_iff.2 List.nodup_range, ?_⟩, rfl⟩, ?_⟩
      · rintro line'' items'' - ⟨⟩
        exact length
      · simpa [partsOf, places, named] using zipped (readApp dump)

theorem reads_of_reordereds {entries entries' : List (Key × Json)}
    (reordered : List.Forall₂ Reordered entries entries') :
    ∃ read, List.Forall₂ (Reads dump) entries' read ∧
      read.flatten.Perm (documentParts dump entries) := by
  induction reordered with
  | nil => exact ⟨[], .nil, .refl _⟩
  | cons first _ ih =>
      obtain ⟨read, reads, perm⟩ := ih
      obtain ⟨parts, here, order⟩ := @reads_of_reordered dump _ _ first
      exact ⟨parts :: read, .cons here reads, order.append perm⟩

variable (dump) in
/-- The proxies in the value of `proxies`. -/
def proxiesIn (value : Json) : List (Proxy Symbol) :=
  (partsOf dump [] (⟨"proxies", 0⟩, value)).flatMap (·.proxies)

theorem proxies_of_partsOf (labels : List Nat) (entry : Key × Json) :
    (partsOf dump labels entry).flatMap (·.proxies) =
      if entry.1.name = "proxies" then proxiesIn dump entry.2 else [] := by
  obtain ⟨key, value⟩ := entry
  unfold proxiesIn partsOf
  by_cases proxies : key.name = "proxies"
  · simp only [proxies, if_true]
  · by_cases apps : key.name = "apps"
    · cases value with
      | array line items =>
          simp only [apps, String.reduceEq, if_false, if_true, List.flatMap_eq_nil_iff]
          exact @forall_zipWith _ (fun part => part.proxies = []) (fun _ _ => rfl) labels items
      | _ => simp [apps]
    · cases value <;> simp [proxies, apps]

/-- The proxies of a document are those under one key. -/
theorem proxies_of_reads {entries : List (Key × Json)} {read : List (List Part)}
    (reads : List.Forall₂ (Reads dump) entries read) (once : (keys entries).Nodup) :
    read.flatten.flatMap (·.proxies) =
      ((valueAt "proxies" entries).map (proxiesIn dump)).getD [] := by
  have all : read.flatten.flatMap (·.proxies) = entries.flatMap fun entry =>
      if entry.1.name = "proxies" then proxiesIn dump entry.2 else [] := by
    clear once
    induction reads with
    | nil => rfl
    | cons first _ ih =>
        obtain ⟨labels, -, rfl⟩ := first
        rw [List.flatten_cons, List.flatMap_append, List.flatMap_cons, ih, proxies_of_partsOf]
  rw [all]
  exact flatMap_of_key (fun _ => rfl) entries once

end Labels

section Fields

variable {τ ι β : Type} (dump : Json → String)

/-- What no app is part of. -/
def plain {π σ : Type} (config : Config π σ) : Admin × Logger × List Dummy :=
  (config.admin, config.logger, config.dummies)

theorem parseProxies_plain (value : Json) (config : Config AppId Registry) :
    plain (parseProxies dump registry value config).target = plain config := by
  cases value with
  | array line items => exact each_keeps (fun _ _ => rfl) items config
  | _ => rfl

theorem parseApps_plain (value : Json) (config : Config AppId Registry) :
    plain (parseApps dump registry value config).target = plain config := by
  cases value with
  | array line items =>
      refine each_keeps (fun item config => ?_) items config
      generalize parseApp dump registry item config.store = parsed
      obtain ⟨_, ⟨app, _⟩, _⟩ := parsed
      cases app <;> rfl
  | _ => rfl

/-- The entries that write each of these. -/
theorem parseEntry_plain (entry : Key × Json) (config : Config AppId Registry) :
    plain (parseEntry dump registry entry.1 entry.2 config).target =
      (if entry.1.name = "admin" then (parseAdmin entry.2 config.admin).target else config.admin,
        if entry.1.name = "logger" then (parseLogger entry.2 config.logger).target
          else config.logger,
        if entry.1.name = "dummy" then (parseDummies entry.2 config.dummies).target
          else config.dummies) := by
  unfold parseEntry
  by_cases admin : entry.1.name = "admin"
  · simp [plain, admin]
  by_cases logger : entry.1.name = "logger"
  · simp [plain, logger]
  by_cases proxies : entry.1.name = "proxies"
  · simp only [proxies, String.reduceEq, if_false, if_true]
    exact parseProxies_plain dump entry.2 config
  by_cases apps : entry.1.name = "apps"
  · simp only [apps, String.reduceEq, if_false, if_true]
    exact parseApps_plain dump entry.2 config
  by_cases dummy : entry.1.name = "dummy"
  · simp [plain, dummy]
  · simp [plain, admin, logger, proxies, apps, dummy]

theorem plain_of_shuffled {entries entries' : List (Key × Json)}
    (shuffled : Shuffled entries entries') (once : (keys entries).Nodup) {line line' : Nat}
    (ok : (parse dump registry (.object line entries) { store := {} }).ok = true)
    (ok' : (parse dump registry (.object line' entries') { store := {} }).ok = true) :
    plain (parse dump registry (.object line' entries') { store := {} }).target =
      plain (parse dump registry (.object line entries) { store := {} }).target := by
  have once' := keys_nodup_of_shuffled shuffled once
  have written : ∀ {β : Type} (field : Admin × Logger × List Dummy → β) (name : String)
      (read : Json → β → β), name ≠ "apps" →
      (∀ (entry : Key × Json) (config : Config AppId Registry),
        field (plain (parseEntry dump registry entry.1 entry.2 config).target) =
          if entry.1.name = name then read entry.2 (field (plain config))
            else field (plain config)) →
      field (plain (parse dump registry (.object line' entries') { store := {} }).target) =
        field (plain (parse dump registry (.object line entries) { store := {} }).target) := by
    intro β field name read other one
    have here := @each_field _ _ _ (fun config => field (plain config)) name read entries _ (fun entry _ => one entry) once ok
    have there := @each_field _ _ _ (fun config => field (plain config)) name read entries' _ (fun entry _ => one entry) once' ok'
    rw [valueAt_of_shuffled shuffled once other] at there
    exact there.trans here.symm
  refine Prod.ext ?_ (Prod.ext ?_ ?_)
  · exact written (·.1) "admin" (fun value admin => (parseAdmin value admin).target) (by decide)
      fun entry config => by rw [parseEntry_plain]; rfl
  · exact written (·.2.1) "logger" (fun value logger => (parseLogger value logger).target)
      (by decide) fun entry config => by rw [parseEntry_plain]; rfl
  · exact written (·.2.2) "dummy" (fun value dummies => (parseDummies value dummies).target)
      (by decide) fun entry config => by rw [parseEntry_plain]; rfl

end Fields

/-- The apps of a document with different keys that defines each name at most once. -/
theorem denotes_document {dump : Json → String} {entries : List (Key × Json)} {line : Nat}
    (once : (keys entries).Nodup)
    (ok : (parse dump registry (.object line entries) { store := {} }).ok = true)
    (names : (definedNames (definitionsIn (documentParts dump entries))).Nodup) :
    ∃ address, Denotes (parse dump registry (.object line entries) { store := {} }).target
      (documentParts dump entries) address := by
  obtain ⟨touched, gathered⟩ := gathered_document (reads_places entries) once ok
  exact ⟨_, gathered.denotes names⟩

/-- Such a document in another order. -/
theorem sameUpTo_of_shuffled {dump : Json → String} {entries entries' : List (Key × Json)}
    {line line' : Nat} (once : (keys entries).Nodup)
    (ok : (parse dump registry (.object line entries) { store := {} }).ok = true)
    (names : (definedNames (definitionsIn (documentParts dump entries))).Nodup)
    (shuffled : Shuffled entries entries') :
    ∃ rename, SameUpTo rename (parse dump registry (.object line entries) { store := {} }).target
      (parse dump registry (.object line' entries') { store := {} }).target := by
  have once' := keys_nodup_of_shuffled shuffled once
  have ok' := (parse_ok_of_shuffled dump shuffled line line').trans ok
  have fields := plain_of_shuffled dump shuffled once ok ok'
  obtain ⟨middle, perm, reordered⟩ := id shuffled
  obtain ⟨read, reads, order⟩ := @reads_of_reordereds dump _ _ reordered
  have parts : read.flatten.Perm (documentParts dump entries) :=
    order.trans (perm.map _).flatten
  obtain ⟨touched, one⟩ := gathered_document (reads_places entries) once ok
  obtain ⟨touched', two⟩ := gathered_document reads once' ok'
  have proxies : read.flatten.flatMap (·.proxies) =
      (documentParts dump entries).flatMap (·.proxies) := by
    have here := proxies_of_reads (@reads_places dump entries) once
    have there := proxies_of_reads reads once'
    rw [valueAt_of_shuffled shuffled once (by decide)] at there
    exact there.trans here.symm
  simp only [plain, Prod.mk.injEq] at fields
  exact ⟨_, one.sameUpTo two parts names proxies fields.1.symm fields.2.1.symm fields.2.2.symm⟩

end Nexer.Config
