import Nexer.Config.Ledger
import Nexer.Config.Reading

/-!
# Entering apps in a ledger

The apps of a document are entered in the order in which the parser settles them, and the parser
at the ledger reads what a tree spells as that.
-/

namespace Nexer.Config

attribute [ext] App Upstream Proxy

mutual

/-- A preamble is entered before the app that has it. -/
def AppRef.enter : AppRef → Ledger → Symbol × Ledger
  | .mention name, ledger => ledger.getApp name
  | .inline name command checker maxStartTime preamble tags, ledger =>
      let entered := enterAll preamble ledger
      entered.2.settle { name, command, checker, maxStartTime, preamble := entered.1, tags }

def enterAll : List AppRef → Ledger → List Symbol × Ledger
  | [], ledger => ([], ledger)
  | ref :: refs, ledger =>
      let first := ref.enter ledger
      let others := enterAll refs first.2
      (first.1 :: others.1, others.2)

end

def enterOption : Option AppRef → Ledger → Option Symbol × Ledger
  | none, ledger => (none, ledger)
  | some ref, ledger => (some (ref.enter ledger).1, (ref.enter ledger).2)

def Upstream.enter (upstream : Upstream AppRef) (ledger : Ledger) : Upstream Symbol × Ledger :=
  let entered := enterOption upstream.app ledger
  ({ host := upstream.host
     port := upstream.port
     connectTimeout := upstream.connectTimeout
     app := entered.1
     tags := upstream.tags }, entered.2)

def Proxy.enter (proxy : Proxy AppRef) (ledger : Ledger) : Proxy Symbol × Ledger :=
  let entered := proxy.upstream.enter ledger
  ({ port := proxy.port, upstream := entered.1 }, entered.2)

section Apps

variable {π κ σ : Type} (dump : Json → String)

/-- The step of the loop over the keys of an app. -/
def parseAppKey (store : Store π κ σ) (entry : Key × Json) (target : App π κ × σ) :
    Outcome (App π κ × σ) :=
  if entry.1.name = "preamble" then parsePreamble dump store entry.2 target
  else parseAppEntry dump store entry.1 entry.2 target

theorem parseAppObject_eq_each (store : Store π κ σ) : ∀ (entries : List (Key × Json))
    (target : App π κ × σ),
    parseAppObject dump store entries target = each (parseAppKey dump store) entries target
  | [], target => by rw [parseAppObject, each]
  | (key, value) :: rest, target => by
      rw [parseAppObject, each, parseAppKey]
      simp only [parseAppObject_eq_each store rest]

/-- Preambles that are read as the references they spell. -/
def ReadsPreambles (refs : List AppRef) : Prop :=
  ∀ items, SpellsApps refs items → ∀ app l,
    ((parsePreambles dump ledger items (app, l)).ok = true ↔ FreeItems "cwd" items) ∧
      (FreeItems "cwd" items → (parsePreambles dump ledger items (app, l)).target =
        ({ app with preamble := app.preamble ++ (enterAll refs l).1 }, (enterAll refs l).2))

/-- An app that is read as the reference it spells. -/
def ReadsApp (ref : AppRef) (value : Json) : Prop :=
  ∀ l, ((parseApp dump ledger value l).target.1.isSome = true ↔ value.Free "cwd") ∧
    (value.Free "cwd" → (parseApp dump ledger value l).target =
      (some (ref.enter l).1, (ref.enter l).2))

/-- Each key of an app writes its own field; the preamble writes the ledger too. -/
theorem parseAppKey_target {entry : Key × Json} {entered : Ledger → List Symbol × Ledger}
    (preamble : entry.1.name = "preamble" → ∀ app l,
      (parsePreamble dump ledger entry.2 (app, l)).target =
        ({ app with preamble := app.preamble ++ (entered l).1 }, (entered l).2))
    (app : App Symbol Command) (l : Ledger) :
    (parseAppKey dump ledger entry (app, l)).target =
      ({ name := if entry.1.name = "name" then forceString dump entry.2 else app.name
         command := if entry.1.name = "command" then
             (parseCommand dump entry.2 app.command).target else app.command
         checker := if entry.1.name = "checker" then
             some (parseCommand dump entry.2 { timeout := 10000 }).target else app.checker
         maxStartTime := if entry.1.name = "max_start_time" then
             (parseInt entry.2).getD app.maxStartTime else app.maxStartTime
         preamble := if entry.1.name = "preamble" then app.preamble ++ (entered l).1
           else app.preamble
         tags := if entry.1.name = "tags" then app.tags ++ textsOf dump entry.2 else app.tags },
        if entry.1.name = "preamble" then (entered l).2 else l) := by
  unfold parseAppKey
  by_cases before : entry.1.name = "preamble"
  · simp [before, preamble before]
  rw [if_neg before]
  unfold parseAppEntry
  by_cases name : entry.1.name = "name"
  · simp [name]
  by_cases command : entry.1.name = "command"
  · simp [command]
  by_cases checker : entry.1.name = "checker"
  · simp [checker, ledger]
  by_cases time : entry.1.name = "max_start_time"
  · cases parsed : parseInt entry.2 <;> simp [time, parsed]
  by_cases tags : entry.1.name = "tags"
  · simp [tags]
  · simp [before, name, command, checker, time, tags, unknownKey]

variable {name : String} {command : Command} {checker : Option Command} {maxStartTime : Int32}
variable {preamble : List AppRef} {tags : List String} {dump}

/-- The keys of an app are accepted unless they bring a command with a working directory. -/
theorem accepted_inline (reads : ReadsPreambles dump preamble) {line : Nat}
    {entries : List (Key × Json)}
    (spells : SpellsApp (.inline name command checker maxStartTime preamble tags)
      (.object line entries)) : ∀ entry ∈ entries, ∀ target,
      (parseAppKey dump ledger entry target).ok = true ↔ entry.2.Free "cwd" := by
  rw [SpellsApp] at spells
  obtain ⟨_, _, ⟨⟩, keyed, named, commanded, checked, timed, preceded, tagged⟩ := spells
  change Spelled (fun preamble value => ∃ line items, value = .array line items ∧
    SpellsApps preamble items) entries "preamble" [] preamble at preceded
  have known : ∀ entry ∈ entries, entry.1.name = "name" ∨ entry.1.name = "command" ∨
      entry.1.name = "checker" ∨ entry.1.name = "max_start_time" ∨ entry.1.name = "preamble" ∨
        entry.1.name = "tags" := by
    simpa using keyed.known
  rintro entry member ⟨app, l⟩
  rcases known entry member with key | key | key | key | key | key
  · have free := (named.value keyed.once member key).free "cwd"
    simp [parseAppKey, parseAppEntry, key, free]
  · have read := (read_command dump (commanded.value keyed.once member key)).1 app.command
    simpa [parseAppKey, parseAppEntry, key] using read
  · obtain ⟨found, -, spells⟩ := checked.value keyed.once member key
    have read := (read_command dump spells).1 { timeout := 10000 }
    simpa [parseAppKey, parseAppEntry, key] using read
  · have spells := timed.value keyed.once member key
    simp [parseAppKey, parseAppEntry, key, spells.parse, spells.free "cwd"]
  · obtain ⟨line, items, array, all⟩ := preceded.value keyed.once member key
    have read := (reads items all app l).1
    simpa [parseAppKey, parsePreamble, key, array, Json.Free] using read
  · have spells := tagged.value keyed.once member key
    have array := type_of_spellsList spells
    simp [parseAppKey, parseAppEntry, key, array, free_of_spellsStrings spells "cwd"]

/-- An app is read when its preamble is and no command in it has a working directory. -/
theorem read_inline (reads : ReadsPreambles dump preamble) {value : Json}
    (spells : SpellsApp (.inline name command checker maxStartTime preamble tags) value) :
    ReadsApp dump (.inline name command checker maxStartTime preamble tags) value := by
  have whole := spells
  rw [SpellsApp] at spells
  obtain ⟨line, entries, rfl, keyed, named, commanded, checked, timed, preceded, tagged⟩ := spells
  change Spelled (fun preamble value => ∃ line items, value = .array line items ∧
    SpellsApps preamble items) entries "preamble" [] preamble at preceded
  have accepted := accepted_inline reads whole
  intro l
  have ok : (parseAppObject dump ledger entries ({}, l)).ok = true ↔
      (Json.object line entries).Free "cwd" := by
    rw [parseAppObject_eq_each, keyed.free_iff (by decide)]
    exact each_ok_iff entries _ accepted
  have parsed : (Json.object line entries).Free "cwd" →
      (parseAppObject dump ledger entries ({}, l)).target =
        ({ name, command, checker, maxStartTime, preamble := (enterAll preamble l).1, tags },
          (enterAll preamble l).2) := by
    intro free
    have all := (keyed.free_iff (by decide) line).1 free
    have read := ok.2 free
    rw [parseAppObject_eq_each] at read ⊢
    have target : ∀ entry ∈ entries, ∀ target : App Symbol Command × Ledger, _ :=
      fun entry member target => @parseAppKey_target dump entry (enterAll preamble)
        (by
          intro key app l
          obtain ⟨line, items, array, spells⟩ := preceded.value keyed.once member key
          have here := all entry member
          rw [array, Json.Free] at here
          rw [array, parsePreamble]
          exact (reads items spells app l).2 here) target.1 target.2
    have entered : ((each (parseAppKey dump ledger) entries ({}, l)).target.1.preamble,
        (each (parseAppKey dump ledger) entries ({}, l)).target.2) = enterAll preamble l :=
      (preceded.map fun refs => enterAll refs l).field (fun t => (t.1.preamble, t.2))
      (fun _ old => (old.1 ++ (enterAll preamble old.2).1, (enterAll preamble old.2).2))
      (fun entry member t => by
        rw [target entry member t]
        by_cases key : entry.1.name = "preamble" <;> simp [key])
      (fun _ _ => rfl) keyed.once read
    have entered_ledger := congrArg Prod.snd entered
    refine Prod.ext (App.ext ?_ ?_ ?_ ?_ (congrArg Prod.fst entered) ?_) entered_ledger
    · exact named.field (fun t => t.1.name) (fun value _ => forceString dump value)
        (fun entry member t => by rw [target entry member t])
        (fun _ spells => by rw [forceString, spells.parse]; rfl) keyed.once read
    · exact (commanded.and all).field (fun t => t.1.command)
        (fun value old => (parseCommand dump value old).target)
        (fun entry member t => by rw [target entry member t])
        (fun _ spells => (read_command dump spells.1).2 spells.2) keyed.once read
    · exact (checked.and all).field (fun t => t.1.checker)
        (fun value _ => some (parseCommand dump value { timeout := 10000 }).target)
        (fun entry member t => by rw [target entry member t])
        (fun _ spells => by
          obtain ⟨⟨found, rfl, spells⟩, free⟩ := spells
          exact congrArg some ((read_command dump spells).2 free)) keyed.once read
    · exact timed.field (fun t => t.1.maxStartTime) (fun value old => (parseInt value).getD old)
        (fun entry member t => by rw [target entry member t])
        (fun _ spells => by rw [spells.parse]; rfl) keyed.once read
    · exact tagged.field (fun t => t.1.tags) (fun value old => old ++ textsOf dump value)
        (fun entry member t => by rw [target entry member t])
        (fun _ spells => textsOf_spelled spells) keyed.once read
  rw [parseApp, ← ok]
  constructor
  · cases (parseAppObject dump ledger entries ({}, l)).ok <;> simp
  · intro accepted
    rw [if_pos accepted, parsed (ok.1 accepted)]
    rfl

mutual

/-- A reference is read when no command in it has a working directory. -/
theorem read_app : ∀ (ref : AppRef) (value : Json), SpellsApp ref value → ReadsApp dump ref value
  | .mention name, value, spells => by
      rw [SpellsApp] at spells
      obtain ⟨nonempty, line, rfl⟩ := spells
      intro l
      simp [parseApp, nonempty, Json.Free, AppRef.enter, ledger]
  | .inline name command checker maxStartTime preamble tags, value, spells =>
      read_inline (read_preambles preamble) spells

theorem read_preambles : ∀ refs : List AppRef, ReadsPreambles dump refs
  | [], items, spells, app, l => by
      rw [SpellsApps] at spells
      subst spells
      simp [parsePreambles, FreeItems, enterAll]
  | ref :: refs, items, spells, app, l => by
      rw [SpellsApps] at spells
      obtain ⟨first, rest, rfl, here, later⟩ := spells
      obtain ⟨found, target⟩ := read_app ref first here l
      rw [parsePreambles, FreeItems]
      by_cases free : first.Free "cwd"
      · rw [target free]
        obtain ⟨ok, others⟩ := read_preambles refs rest later
          { app with preamble := app.preamble ++ [(ref.enter l).1] } (ref.enter l).2
        refine ⟨?_, fun all => ?_⟩
        · simpa [Outcome.logged, free] using ok
        · simpa [Outcome.logged, enterAll] using others all.2
      · have missing : (parseApp dump ledger first l).target.1 = none := by
          simpa [free] using found
        generalize parseApp dump ledger first l = parsed at missing
        obtain ⟨_, ⟨_, state⟩, _⟩ := parsed
        subst missing
        simp [free]

end

end Apps

section Proxies

variable (dump : Json → String)

theorem parseUpstreamEntry_target (key : Key) (value : Json) (upstream : Upstream Symbol)
    (l : Ledger) : (parseUpstreamEntry dump ledger key value (upstream, l)).target =
      ({ host := if key.name = "host" then (parseString value).getD upstream.host
           else upstream.host
         port := if key.name = "port" then (parseInt value).getD upstream.port else upstream.port
         connectTimeout := if key.name = "connect_timeout" then
             (parseInt value).getD upstream.connectTimeout else upstream.connectTimeout
         app := if key.name = "app" then (parseApp dump ledger value l).target.1 else upstream.app
         tags := if key.name = "tags" then upstream.tags ++ textsOf dump value
           else upstream.tags },
        if key.name = "app" then (parseApp dump ledger value l).target.2 else l) := by
  unfold parseUpstreamEntry
  by_cases host : key.name = "host"
  · cases parsed : parseString value <;> simp [host, parsed]
  by_cases port : key.name = "port"
  · cases parsed : parseInt value <;> simp [port, parsed]
  by_cases timeout : key.name = "connect_timeout"
  · cases parsed : parseInt value <;> simp [timeout, parsed]
  by_cases app : key.name = "app"
  · simp only [app, String.reduceEq, if_false, if_true]
    split <;> rfl
  by_cases tags : key.name = "tags"
  · simp [tags]
  · simp [host, port, timeout, app, tags, unknownKey]

/-- The keys of an upstream are accepted unless they bring a command with a working directory. -/
theorem accepted_upstream {upstream : Upstream AppRef} {line : Nat} {entries : List (Key × Json)}
    (spells : SpellsUpstream upstream (.object line entries)) : ∀ entry ∈ entries, ∀ target,
      (parseUpstreamEntry dump ledger entry.1 entry.2 target).ok = true ↔ entry.2.Free "cwd" := by
  cases spells with
  | object keyed host port connectTimeout app tags =>
      have known : ∀ entry ∈ entries, entry.1.name = "host" ∨ entry.1.name = "port" ∨
          entry.1.name = "connect_timeout" ∨ entry.1.name = "app" ∨ entry.1.name = "tags" := by
        simpa using keyed.known
      rintro entry member ⟨start, l⟩
      rcases known entry member with key | key | key | key | key
      · have spells := host.value keyed.once member key
        simp [parseUpstreamEntry, key, spells.parse, spells.free "cwd"]
      · have spells := port.value keyed.once member key
        simp [parseUpstreamEntry, key, spells.parse, spells.free "cwd"]
      · have spells := connectTimeout.value keyed.once member key
        simp [parseUpstreamEntry, key, spells.parse, spells.free "cwd"]
      · obtain ⟨ref, -, spells⟩ := app.value keyed.once member key
        rw [← (@read_app dump ref entry.2 spells l).1]
        simp only [parseUpstreamEntry, key, String.reduceEq, if_false, if_true]
        split <;> simp_all
      · have spells := tags.value keyed.once member key
        have array := type_of_spellsList spells
        simp [parseUpstreamEntry, key, array, free_of_spellsStrings spells "cwd"]

theorem read_upstream {upstream : Upstream AppRef} {value : Json}
    (spells : SpellsUpstream upstream value) :
    (∀ start, (parseUpstream dump ledger value start).ok = true ↔ value.Free "cwd") ∧
      ∀ l, value.Free "cwd" →
        (parseUpstream dump ledger value ({}, l)).target = upstream.enter l := by
  have whole := spells
  cases spells with
  | @object line entries upstream keyed host port connectTimeout app tags =>
      have accepted := accepted_upstream dump whole
      have ok : ∀ start, (parseUpstream dump ledger (.object line entries) start).ok = true ↔
          (Json.object line entries).Free "cwd" := by
        intro start
        rw [keyed.free_iff (by decide)]
        exact each_ok_iff entries start accepted
      refine ⟨ok, fun l free => ?_⟩
      have all := (keyed.free_iff (by decide) line).1 free
      have read := (ok ({}, l)).2 free
      have target : ∀ entry ∈ entries, ∀ target : Upstream Symbol × Ledger, _ :=
        fun entry (_ : entry ∈ entries) target =>
          parseUpstreamEntry_target dump entry.1 entry.2 target.1 target.2
      have entered : ((parseUpstream dump ledger (.object line entries) ({}, l)).target.1.app,
          (parseUpstream dump ledger (.object line entries) ({}, l)).target.2) =
            enterOption upstream.app l :=
        ((app.and all).map fun ref => enterOption ref l).field (fun t => (t.1.app, t.2))
          (fun value old => (parseApp dump ledger value old.2).target)
          (fun entry member t => by
            rw [target entry member t]
            by_cases key : entry.1.name = "app" <;> simp [key])
          (fun _ spells => by
            obtain ⟨ref, same, ⟨found, rfl, spells⟩, free⟩ := spells
            rw [same]
            exact (@read_app dump found _ spells l).2 free) keyed.once read
      have entered_ledger := congrArg Prod.snd entered
      refine Prod.ext (Upstream.ext ?_ ?_ ?_ (congrArg Prod.fst entered) ?_) entered_ledger
      · exact host.field (fun t => t.1.host) (fun value old => (parseString value).getD old)
          (fun entry member t => by rw [target entry member t])
          (fun _ spells => by rw [spells.parse]; rfl) keyed.once read
      · exact port.field (fun t => t.1.port) (fun value old => (parseInt value).getD old)
          (fun entry member t => by rw [target entry member t])
          (fun _ spells => by rw [spells.parse]; rfl) keyed.once read
      · exact connectTimeout.field (fun t => t.1.connectTimeout)
          (fun value old => (parseInt value).getD old)
          (fun entry member t => by rw [target entry member t])
          (fun _ spells => by rw [spells.parse]; rfl) keyed.once read
      · exact tags.field (fun t => t.1.tags) (fun value old => old ++ textsOf dump value)
          (fun entry member t => by rw [target entry member t])
          (fun _ spells => textsOf_spelled spells) keyed.once read

theorem parseProxyEntry_target (key : Key) (value : Json) (proxy : Proxy Symbol) (l : Ledger) :
    (parseProxyEntry dump ledger key value (proxy, l)).target =
      ({ port := if key.name = "listen" then (parseInt value).getD proxy.port else proxy.port
         upstream := if key.name = "upstream" then
             (parseUpstream dump ledger value (proxy.upstream, l)).target.1 else proxy.upstream },
        if key.name = "upstream" then
          (parseUpstream dump ledger value (proxy.upstream, l)).target.2 else l) := by
  unfold parseProxyEntry
  by_cases upstream : key.name = "upstream"
  · simp [upstream]
  by_cases port : key.name = "listen"
  · cases parsed : parseInt value <;> simp [port, parsed]
  · simp [upstream, port, unknownKey]

theorem read_proxy {proxy : Proxy AppRef} {value : Json} (spells : SpellsProxy proxy value)
    (l : Ledger) :
    ((parseProxy dump ledger value ({}, l)).ok = true ↔ value.Free "cwd") ∧
      (value.Free "cwd" → (parseProxy dump ledger value ({}, l)).target = proxy.enter l) := by
  cases spells with
  | @object line entries proxy keyed upstream port =>
      have known : ∀ entry ∈ entries, entry.1.name = "upstream" ∨ entry.1.name = "listen" := by
        simpa using keyed.known
      have accepted : ∀ entry ∈ entries, ∀ target,
          (parseProxyEntry dump ledger entry.1 entry.2 target).ok = true ↔
            entry.2.Free "cwd" := by
        rintro entry member ⟨start, l⟩
        rcases known entry member with key | key
        · have read := (read_upstream dump (upstream.value keyed.once member key)).1
            (start.upstream, l)
          simpa [parseProxyEntry, key] using read
        · have spells := port.value keyed.once member key
          simp [parseProxyEntry, key, spells.parse, spells.free "cwd"]
      have ok : (parseProxy dump ledger (.object line entries) ({}, l)).ok = true ↔
          (Json.object line entries).Free "cwd" := by
        rw [keyed.free_iff (by decide)]
        exact each_ok_iff entries ({}, l) accepted
      refine ⟨ok, fun free => ?_⟩
      have all := (keyed.free_iff (by decide) line).1 free
      have read := ok.2 free
      have target : ∀ entry ∈ entries, ∀ target : Proxy Symbol × Ledger, _ :=
        fun entry (_ : entry ∈ entries) target =>
          parseProxyEntry_target dump entry.1 entry.2 target.1 target.2
      have entered : ((parseProxy dump ledger (.object line entries) ({}, l)).target.1.upstream,
          (parseProxy dump ledger (.object line entries) ({}, l)).target.2) =
            proxy.upstream.enter l :=
        ((upstream.and all).map fun upstream => upstream.enter l).field
          (fun t => (t.1.upstream, t.2))
          (fun value old => (parseUpstream dump ledger value old).target)
          (fun entry member t => by
            rw [target entry member t]
            by_cases key : entry.1.name = "upstream" <;> simp [key])
          (fun _ spells => by
            obtain ⟨found, same, spells, free⟩ := spells
            rw [same]
            exact (read_upstream dump spells).2 l free) keyed.once read
      have read_port := port.field (fun t : Proxy Symbol × Ledger => t.1.port)
        (fun value old => (parseInt value).getD old)
        (fun entry member t => by rw [target entry member t])
        (fun _ spells => by rw [spells.parse]; rfl) keyed.once read
      have entered_ledger := congrArg Prod.snd entered
      refine Prod.ext ?_ entered_ledger
      exact Proxy.ext read_port (congrArg Prod.fst entered)

end Proxies

end Nexer.Config
