import Nexer.Config.Errors
import Nexer.Config.RoundTrip
import Nexer.Config.Tree

/-!
# What the parser makes of a tree

The parser at the ledger enters the apps that an accepted tree describes, whatever its values
are, if the commands are taken as the parser takes them: it adds a directory, which has to be an
array, to the environment.
-/

namespace Nexer.Config

section Values

variable {dump : Json → String}

theorem forceString_eq (value : Json) : forceString dump value = value.text dump := by
  cases value <;> rfl

theorem textsOf_eq (value : Json) : textsOf dump value = value.elements.map (Json.text dump) := by
  cases value with
  | array line items => exact List.map_congr_left fun item _ => forceString_eq item
  | _ => rfl

theorem parseString_eq (value : Json) : parseString value = value.asString := by
  cases value <;> rfl

theorem parseInt_eq (value : Json) : parseInt value = value.asInteger := by
  cases value <;> rfl

theorem uniqueEntries_iff {entries : List (Key × Json)} :
    UniqueEntries entries ↔ ∀ entry ∈ entries, entry.2.Unique := by
  induction entries with
  | nil => simp [UniqueEntries]
  | cons entry rest ih =>
      obtain ⟨key, value⟩ := entry
      simp [UniqueEntries, ih]

theorem uniqueItems_iff {items : List Json} : UniqueItems items ↔ ∀ value ∈ items, value.Unique := by
  induction items with
  | nil => simp [UniqueItems]
  | cons value rest ih => simp [UniqueItems, ih]

theorem unique_valueAt {entries : List (Key × Json)} (unique : UniqueEntries entries) {name : String}
    {value : Json} (found : valueAt name entries = some value) : value.Unique := by
  obtain ⟨entry, member, rfl⟩ := mem_of_valueAt found
  exact uniqueEntries_iff.1 unique entry member

theorem unique_elementsAt {entries : List (Key × Json)} (unique : UniqueEntries entries)
    {name : String} : ∀ item ∈ elementsAt name entries, item.Unique := by
  intro item member
  unfold elementsAt at member
  cases found : valueAt name entries with
  | none => simp [found] at member
  | some value =>
      have here := unique_valueAt unique found
      cases value with
      | array line items =>
          refine uniqueItems_iff.1 here item ?_
          simpa [found, Json.elements] using member
      | _ => simp [found, Json.elements] at member

end Values

section Schema

variable {fields : List (String × (Json → Prop))} {value : Json} {name : String}

/-- The value under a key of an accepted object is accepted. -/
theorem valid_valueAt (valid : ValidObject fields value) (unique : value.Unique) {here : Json}
    (found : valueAt name value.members = some here) :
    (∃ field ∈ fields, field.1 = name ∧ field.2 here) ∧ here.Unique := by
  cases value with
  | object line entries =>
      refine ⟨?_, unique_valueAt unique.2 found⟩
      obtain ⟨key, rfl, member⟩ := (valueAt_eq_some unique.1 here).1 found
      exact valid _ member
  | _ => cases valid

/-- So are the elements of an array. -/
theorem valid_elementsAt {accepts : Json → Prop} (valid : ValidObject fields value)
    (unique : value.Unique)
    (array : ∀ field ∈ fields, field.1 = name → field.2 = ValidArray accepts) :
    ∀ item ∈ elementsAt name value.members, accepts item ∧ item.Unique := by
  intro item member
  unfold elementsAt at member
  cases found : valueAt name value.members with
  | none => simp [found] at member
  | some here =>
      obtain ⟨⟨field, known, named, accepted⟩, single⟩ := valid_valueAt valid unique found
      rw [array field known named] at accepted
      cases here with
      | array line items =>
          have there : item ∈ items := by simpa [found, Json.elements] using member
          exact ⟨accepted item there, uniqueItems_iff.1 single item there⟩
      | _ => cases accepted

end Schema

section Loops

variable {τ β : Type} {parse : Key × Json → τ → Outcome τ} {entries : List (Key × Json)}
variable {target : τ} {name : String} {dump : Json → String}

/-- A field that one key sets. -/
theorem each_fieldAt {read : Json → Option β} (field : τ → β)
    (one : ∀ entry ∈ entries, ∀ target, field (parse entry target).target =
      if entry.1.name = name then (read entry.2).getD (field target) else field target)
    (once : (keys entries).Nodup) (ok : (each parse entries target).ok = true) :
    field (each parse entries target).target = fieldAt read name (field target) entries := by
  rw [@each_field _ _ _ field name (fun value old => (read value).getD old) entries target one
    once ok, fieldAt]
  cases valueAt name entries <;> rfl

/-- A list of texts that one key appends to. -/
theorem each_textsAt (field : τ → List String)
    (one : ∀ entry ∈ entries, ∀ target, field (parse entry target).target =
      if entry.1.name = name then field target ++ textsOf dump entry.2 else field target)
    (once : (keys entries).Nodup) (ok : (each parse entries target).ok = true)
    (empty : field target = []) :
    field (each parse entries target).target = textsAt dump name entries := by
  rw [@each_field _ _ _ field name (fun value old => old ++ textsOf dump value) entries target one
    once ok, empty, textsAt, elementsAt]
  cases valueAt name entries <;> simp [textsOf_eq]

/-- A list that all entries may append to. -/
theorem each_gathers {add : Key × Json → List β} (field : τ → List β)
    (one : ∀ entry ∈ entries, ∀ target,
      field (parse entry target).target = field target ++ add entry)
    (ok : (each parse entries target).ok = true) :
    field (each parse entries target).target = field target ++ entries.flatMap add := by
  induction entries generalizing target with
  | nil => simp [each]
  | cons entry rest ih =>
      obtain ⟨-, later, same⟩ := each_cons_ok ok
      rw [same, ih (fun other member => one other (.tail _ member)) later, one entry (.head _),
        List.flatMap_cons, List.append_assoc]

end Loops

section Commands

variable (dump : Json → String)

/-- The environment with the directory, in the order of the keys. -/
def mergedEnv (entries : List (Key × Json)) : List String :=
  entries.flatMap fun entry =>
    if entry.1.name = "env" ∨ entry.1.name = "cwd" then entry.2.elements.map (Json.text dump)
    else []

/-- The command that the parser makes of a value. -/
def Json.merged (timeout : Int32) (value : Json) : Command :=
  { value.command dump timeout with env := mergedEnv dump value.members, cwd := "" }

theorem parseCommand_merged {value : Json} (valid : ValidObject commandFields value)
    (unique : value.Unique) (timeout : Int32) :
    (parseCommand dump value { timeout }).target = value.merged dump timeout := by
  have ok := (parseCommand_judged dump value { timeout }).ok.2 valid
  cases value with
  | object line entries =>
      have once := unique.1
      have target : ∀ entry ∈ entries, ∀ target, _ := fun entry (_ : entry ∈ entries) target =>
        parseCommandEntry_target dump entry.1 entry.2 target
      apply Command.ext
      · exact each_fieldAt Command.file (fun entry member t =>
          (congrArg Command.file (target entry member t)).trans (by rw [parseString_eq])) once ok
      · exact each_textsAt Command.args (fun entry member t =>
          congrArg Command.args (target entry member t)) once ok rfl
      · refine (each_gathers Command.env (fun entry member t =>
          (congrArg Command.env (target entry member t)).trans ?_) ok).trans (List.nil_append _)
        rw [textsOf_eq, apply_ite (t.env ++ ·), List.append_nil]
      · exact @each_keeps _ _ _ _ Command.cwd
          (fun entry t => by rw [parseCommandEntry_target]) entries _
      · exact each_fieldAt Command.timeout (fun entry member t =>
          (congrArg Command.timeout (target entry member t)).trans (by rw [parseInt_eq])) once ok
  | _ => cases valid

/-- The command has no directory, or an empty one. -/
def Undirected (command : Json) : Prop :=
  elementsAt "cwd" command.members = []

theorem map_textsAt (name : String) (entries : List (Key × Json)) :
    ((valueAt name entries).map fun value => value.elements.map (Json.text dump)).getD [] =
      textsAt dump name entries := by
  rw [textsAt, elementsAt]
  cases valueAt name entries <;> rfl

theorem mergedEnv_cases {entries : List (Key × Json)} (once : (keys entries).Nodup) :
    mergedEnv dump entries = textsAt dump "env" entries ++ textsAt dump "cwd" entries ∨
      mergedEnv dump entries = textsAt dump "cwd" entries ++ textsAt dump "env" entries := by
  have apart : "env" ≠ "cwd" := by decide
  let texts (value : Json) := value.elements.map (Json.text dump)
  have one (entry : Key × Json) :
      (if entry.1.name = "env" ∨ entry.1.name = "cwd" then texts entry.2 else []) =
        if entry.1.name = "env" then texts entry.2
        else if entry.1.name = "cwd" then texts entry.2 else [] := by
    split <;> split <;> simp_all
  simpa only [mergedEnv, texts, map_textsAt] using flatMap_of_keys apart one entries once

/-- Without a directory the parser takes a command as it is described. -/
theorem merged_eq_command {value : Json} (valid : ValidObject commandFields value)
    (unique : value.Unique) (undirected : Undirected value) (timeout : Int32) :
    value.merged dump timeout = value.command dump timeout := by
  cases value with
  | object line entries =>
      have none : textsAt dump "cwd" entries = [] :=
        congrArg (List.map (Json.text dump)) undirected
      refine Command.ext rfl rfl ?_ ?_ rfl
      · have both := mergedEnv_cases dump unique.1
        rw [none, List.append_nil, List.nil_append, or_self] at both
        exact both
      · -- a text would not have been accepted
        change "" = fieldAt Json.asString "cwd" "" entries
        unfold fieldAt
        cases found : valueAt "cwd" entries with
        | none => rfl
        | some directory =>
            obtain ⟨key, named, member⟩ := (valueAt_eq_some unique.1 directory).1 found
            obtain ⟨field, known, same, accepted⟩ := valid _ member
            rw [named] at same
            cases directory with
            | string _ text =>
                simp only [commandFields, List.mem_cons, List.not_mem_nil, or_false] at known
                rcases known with rfl | rfl | rfl | rfl | rfl <;>
                  simp_all [OfType, Json.type]
            | _ => rfl
  | _ => cases valid

/-- With a directory it does not. -/
theorem undirected_of_merged {value : Json} (unique : value.Unique) {timeout : Int32}
    (same : value.merged dump timeout = value.command dump timeout) : Undirected value := by
  cases value with
  | object line entries =>
      have env : mergedEnv dump entries = textsAt dump "env" entries := congrArg Command.env same
      have none : textsAt dump "cwd" entries = [] := by
        obtain both | both := mergedEnv_cases dump unique.1
        · exact List.append_cancel_left ((both.symm.trans env).trans (List.append_nil _).symm)
        · exact List.append_cancel_right ((both.symm.trans env).trans (List.nil_append _).symm)
      exact List.map_eq_nil_iff.1 none
  | _ => rfl

end Commands

section Apps

variable (dump : Json → String) (read : Int32 → Json → Command)

/-- A condition on the commands of a definition. -/
def ForCommands (P : Json → Prop) (entries : List (Key × Json)) : Prop :=
  ∀ name ∈ ["command", "checker"], ∀ value, valueAt name entries = some value → P value

theorem ref_object (line : Nat) (entries : List (Key × Json)) :
    (Json.object line entries).ref dump read =
      .inline (nameAt dump entries) (((valueAt "command" entries).map (read 0)).getD {})
        ((valueAt "checker" entries).map (read 10000))
        (fieldAt Json.asInteger "max_start_time" 0 entries)
        ((elementsAt "preamble" entries).map (Json.ref dump read)) (textsAt dump "tags" entries) := by
  rw [Json.ref, preambleRefs_eq]

theorem inlines_object (line : Nat) (entries : List (Key × Json)) :
    (Json.object line entries).inlines =
      entries :: (elementsAt "preamble" entries).flatMap Json.inlines := by
  rw [Json.inlines, preambleInlines_eq]

theorem validApps_iff {items : List Json} : ValidApps items ↔ ∀ value ∈ items, ValidApp value := by
  induction items with
  | nil => simp [ValidApps]
  | cons value rest ih => simp [ValidApps, ih]

theorem validAppEntries_iff {entries : List (Key × Json)} : ValidAppEntries entries ↔
    ∀ entry ∈ entries, if entry.1.name = "preamble" then ValidPreamble entry.2
      else ∃ field ∈ appFields, field.1 = entry.1.name ∧ field.2 entry.2 := by
  induction entries with
  | nil => simp [ValidAppEntries]
  | cons entry rest ih =>
      obtain ⟨key, value⟩ := entry
      simp [ValidAppEntries, ih]

/-- What `ParseApp` makes of a value at the ledger. -/
def EntersApp (value : Json) : Prop :=
  ∀ l, (parseApp dump ledger value l).target =
    (some ((value.ref dump read).enter l).1, ((value.ref dump read).enter l).2)

variable {dump read}

theorem parsePreambles_entered {items : List Json} (all : ∀ item ∈ items, EntersApp dump read item)
    (app : App Symbol Command) (l : Ledger) :
    (parsePreambles dump ledger items (app, l)).target =
      ({ app with preamble := app.preamble ++ (enterAll (items.map (Json.ref dump read)) l).1 },
        (enterAll (items.map (Json.ref dump read)) l).2) := by
  induction items generalizing app l with
  | nil => simp [parsePreambles, enterAll]
  | cons item rest ih =>
      rw [parsePreambles, all item (.head _) l]
      simp [Outcome.logged, enterAll, ih fun other member => all other (.tail _ member)]

/-- The commands of an accepted definition are accepted. -/
theorem valid_command {line : Nat} {entries : List (Key × Json)} (valid : ValidAppEntries entries)
    (unique : (Json.object line entries).Unique) :
    ForCommands (fun value => ValidObject commandFields value ∧ value.Unique) entries := by
  intro name known value found
  refine ⟨?_, unique_valueAt unique.2 found⟩
  obtain ⟨key, rfl, member⟩ := (valueAt_eq_some unique.1 value).1 found
  have accepted := validAppEntries_iff.1 valid _ member
  rcases List.mem_pair.1 known with named | named <;> simpa [named, appFields] using accepted

/-- So are the apps in its preamble. -/
theorem valid_preamble {line : Nat} {entries : List (Key × Json)} (valid : ValidAppEntries entries)
    (unique : (Json.object line entries).Unique) :
    ∀ item ∈ elementsAt "preamble" entries, ValidApp item := by
  intro item member
  unfold elementsAt at member
  cases found : valueAt "preamble" entries with
  | none => simp [found] at member
  | some value =>
      obtain ⟨key, named, present⟩ := (valueAt_eq_some unique.1 value).1 found
      have accepted := validAppEntries_iff.1 valid _ present
      rw [if_pos named] at accepted
      cases value with
      | array line items =>
          refine validApps_iff.1 accepted item ?_
          simpa [found, Json.elements] using member
      | _ => cases accepted

/-- The preamble of an accepted definition is entered where it stands. -/
theorem parsePreamble_entered {line : Nat} {entries : List (Key × Json)} {entry : Key × Json}
    (valid : ValidAppEntries entries) (unique : (Json.object line entries).Unique)
    (all : ∀ item ∈ elementsAt "preamble" entries, EntersApp dump read item)
    (member : entry ∈ entries) (key : entry.1.name = "preamble") (app : App Symbol Command)
    (l : Ledger) :
    (parsePreamble dump ledger entry.2 (app, l)).target =
      ({ app with preamble := app.preamble ++
          (enterAll ((elementsAt "preamble" entries).map (Json.ref dump read)) l).1 },
        (enterAll ((elementsAt "preamble" entries).map (Json.ref dump read)) l).2) := by
  have found : valueAt "preamble" entries = some entry.2 :=
    (valueAt_eq_some unique.1 _).2 ⟨entry.1, key, member⟩
  have here := validAppEntries_iff.1 valid entry member
  rw [if_pos key] at here
  rw [elementsAt, found] at all ⊢
  cases value : entry.2 with
  | array line items =>
      rw [value] at all
      exact parsePreambles_entered all app l
  | _ => simp [value, ValidPreamble] at here

/-- Its commands are read as the accepted ones are. -/
theorem parseCommand_entered {P : Json → Prop} {line : Nat} {entries : List (Key × Json)}
    (reads : ∀ timeout value, P value → ValidObject commandFields value → value.Unique →
      (parseCommand dump value { timeout }).target = read timeout value)
    (valid : ValidAppEntries entries) (unique : (Json.object line entries).Unique)
    (commands : ForCommands P entries) (timeout : Int32) :
    ForCommands (fun value => (parseCommand dump value { timeout }).target = read timeout value)
      entries := by
  intro name known value found
  obtain ⟨accepted, single⟩ := valid_command valid unique name known value found
  exact reads timeout value (commands name known value found) accepted single

/-- A definition is entered after its preamble. -/
theorem entersApp_object {P : Json → Prop} {line : Nat} {entries : List (Key × Json)}
    (reads : ∀ timeout value, P value → ValidObject commandFields value → value.Unique →
      (parseCommand dump value { timeout }).target = read timeout value)
    (valid : ValidAppEntries entries) (unique : (Json.object line entries).Unique)
    (commands : ForCommands P entries)
    (all : ∀ item ∈ elementsAt "preamble" entries, EntersApp dump read item) :
    EntersApp dump read (.object line entries) := by
  intro l
  have once := unique.1
  have ok := (parseAppObject_judged dump ledger entries ({}, l)).ok.2 valid
  rw [ref_object, AppRef.enter, parseApp, if_pos ok]
  rw [parseAppObject_eq_each] at ok ⊢
  -- what each key writes
  have target : ∀ entry ∈ entries, ∀ target : App Symbol Command × Ledger, _ :=
    fun entry member target => @parseAppKey_target dump entry _
      (parsePreamble_entered valid unique all member) target.1 target.2
  have described := parseCommand_entered reads valid unique commands
  have entered : ((each (parseAppKey dump ledger) entries ({}, l)).target.1.preamble,
      (each (parseAppKey dump ledger) entries ({}, l)).target.2) =
        enterAll ((elementsAt "preamble" entries).map (Json.ref dump read)) l := by
    rw [@each_field _ _ _ (fun t : App Symbol Command × Ledger => (t.1.preamble, t.2)) "preamble"
      (fun _ old =>
        (old.1 ++ (enterAll ((elementsAt "preamble" entries).map (Json.ref dump read)) old.2).1,
          (enterAll ((elementsAt "preamble" entries).map (Json.ref dump read)) old.2).2))
      entries ({}, l) (fun entry member t => by
        rw [target entry member t]
        by_cases key : entry.1.name = "preamble" <;> simp [key]) once ok]
    cases found : valueAt "preamble" entries with
    | none => simp [elementsAt, found, enterAll]
    | some value => simp
  have app : (each (parseAppKey dump ledger) entries ({}, l)).target.1 =
      { name := nameAt dump entries
        command := ((valueAt "command" entries).map (read 0)).getD {}
        checker := (valueAt "checker" entries).map (read 10000)
        maxStartTime := fieldAt Json.asInteger "max_start_time" 0 entries
        preamble := (enterAll ((elementsAt "preamble" entries).map (Json.ref dump read)) l).1
        tags := textsAt dump "tags" entries } := by
    refine App.ext ?_ ?_ ?_ ?_ (congrArg Prod.fst entered) ?_
    · rw [@each_field _ _ _ (fun t : App Symbol Command × Ledger => t.1.name) "name"
        (fun value _ => forceString dump value) entries ({}, l)
        (fun entry member t => by rw [target entry member t]) once ok, nameAt]
      simp only [forceString_eq]
    · rw [@each_field _ _ _ (fun t : App Symbol Command × Ledger => t.1.command) "command"
        (fun value old => (parseCommand dump value old).target) entries ({}, l)
        (fun entry member t => by rw [target entry member t]) once ok]
      cases found : valueAt "command" entries with
      | none => rfl
      | some value => exact described 0 "command" (by simp) value found
    · rw [@each_field _ _ _ (fun t : App Symbol Command × Ledger => t.1.checker) "checker"
        (fun value _ => some (parseCommand dump value { timeout := 10000 }).target) entries ({}, l)
        (fun entry member t => by rw [target entry member t]) once ok]
      cases found : valueAt "checker" entries with
      | none => rfl
      | some value => exact congrArg some (described 10000 "checker" (by simp) value found)
    · exact each_fieldAt (fun t : App Symbol Command × Ledger => t.1.maxStartTime)
        (fun entry member t => by rw [target entry member t, parseInt_eq]) once ok
    · exact each_textsAt (fun t : App Symbol Command × Ledger => t.1.tags)
        (fun entry member t => by rw [target entry member t]) once ok rfl
  rw [app, congrArg Prod.snd entered]
  rfl

/-- An accepted app is entered as it is described, if its commands are read as described. -/
theorem parseApp_entered {P : Json → Prop}
    (reads : ∀ timeout value, P value → ValidObject commandFields value → value.Unique →
      (parseCommand dump value { timeout }).target = read timeout value) (value : Json)
    (valid : ValidApp value) (unique : value.Unique)
    (commands : ∀ entries ∈ value.inlines, ForCommands P entries) : EntersApp dump read value := by
  induction value using Json.app_induction with
  | mention value other =>
      intro l
      cases value with
      | string line name =>
          have named : name ≠ "" := valid
          simp [parseApp, named, Json.ref, AppRef.enter, ledger]
      | object line entries => exact absurd rfl (other line entries)
      | _ => cases valid
  | inline line entries ih =>
      rw [inlines_object] at commands
      refine entersApp_object reads valid unique (commands entries (.head _)) fun item member => ?_
      refine ih item member (valid_preamble valid unique item member)
        (unique_elementsAt unique.2 item member) fun inner found => ?_
      exact commands inner (.tail _ (List.mem_flatMap.2 ⟨item, member, found⟩))

end Apps

section Proxies

variable {dump : Json → String} {read : Int32 → Json → Command}

theorem parseUpstream_entered {value : Json} (valid : ValidObject upstreamFields value)
    (unique : value.Unique)
    (app : ∀ app, valueAt "app" value.members = some app → EntersApp dump read app) (l : Ledger) :
    (parseUpstream dump ledger value ({}, l)).target = (value.upstream dump read).enter l := by
  cases value with
  | object line entries =>
      have once := unique.1
      have ok : (each (fun entry => parseUpstreamEntry dump ledger entry.1 entry.2) entries
          (({}, l) : Upstream Symbol × Ledger)).ok = true :=
        (parseUpstream_judged dump ledger (.object line entries) ({}, l)).ok.2 valid
      have target : ∀ entry ∈ entries, ∀ target : Upstream Symbol × Ledger, _ :=
        fun entry (_ : entry ∈ entries) target =>
          parseUpstreamEntry_target dump entry.1 entry.2 target.1 target.2
      have entered : ((parseUpstream dump ledger (.object line entries) ({}, l)).target.1.app,
          (parseUpstream dump ledger (.object line entries) ({}, l)).target.2) =
            enterOption ((valueAt "app" entries).map (Json.ref dump read)) l := by
        refine (@each_field _ _ _ (fun t : Upstream Symbol × Ledger => (t.1.app, t.2)) "app"
          (fun value old => (parseApp dump ledger value old.2).target)
          entries ({}, l) (fun entry member t => by
            rw [target entry member t]
            by_cases key : entry.1.name = "app" <;> simp [key]) once ok).trans ?_
        cases found : valueAt "app" entries with
        | none => rfl
        | some value => exact app value found l
      have entered_ledger := congrArg Prod.snd entered
      refine Prod.ext (Upstream.ext ?_ ?_ ?_ (congrArg Prod.fst entered) ?_) entered_ledger
      · exact each_fieldAt (fun t : Upstream Symbol × Ledger => t.1.host)
          (fun entry member t => by rw [target entry member t, parseString_eq]) once ok
      · exact each_fieldAt (fun t : Upstream Symbol × Ledger => t.1.port)
          (fun entry member t => by rw [target entry member t, parseInt_eq]) once ok
      · exact each_fieldAt (fun t : Upstream Symbol × Ledger => t.1.connectTimeout)
          (fun entry member t => by rw [target entry member t, parseInt_eq]) once ok
      · exact each_textsAt (fun t : Upstream Symbol × Ledger => t.1.tags)
          (fun entry member t => by rw [target entry member t]) once ok rfl
  | _ => cases valid

theorem parseProxy_entered {value : Json} (valid : ValidObject proxyFields value)
    (unique : value.Unique)
    (app : ∀ upstream, valueAt "upstream" value.members = some upstream →
      ∀ app, valueAt "app" upstream.members = some app → EntersApp dump read app) (l : Ledger) :
    (parseProxy dump ledger value ({}, l)).target = (value.proxy dump read).enter l := by
  cases value with
  | object line entries =>
      have once := unique.1
      have ok : (each (fun entry => parseProxyEntry dump ledger entry.1 entry.2) entries
          (({}, l) : Proxy Symbol × Ledger)).ok = true :=
        (parseProxy_judged dump ledger (.object line entries) ({}, l)).ok.2 valid
      have target : ∀ entry ∈ entries, ∀ target : Proxy Symbol × Ledger, _ :=
        fun entry (_ : entry ∈ entries) target =>
          parseProxyEntry_target dump entry.1 entry.2 target.1 target.2
      have entered : ((parseProxy dump ledger (.object line entries) ({}, l)).target.1.upstream,
          (parseProxy dump ledger (.object line entries) ({}, l)).target.2) =
            (((valueAt "upstream" entries).map (Json.upstream dump read)).getD {}).enter l := by
        refine (@each_field _ _ _ (fun t : Proxy Symbol × Ledger => (t.1.upstream, t.2)) "upstream"
          (fun value old => (parseUpstream dump ledger value old).target)
          entries ({}, l) (fun entry member t => by
            rw [target entry member t]
            by_cases key : entry.1.name = "upstream" <;> simp [key]) once ok).trans ?_
        cases found : valueAt "upstream" entries with
        | none => rfl
        | some upstream =>
            obtain ⟨accepted, single⟩ := valid_valueAt valid unique found
            exact parseUpstream_entered (by simpa [proxyFields] using accepted) single
              (app upstream found) l
      have entered_ledger := congrArg Prod.snd entered
      refine Prod.ext (Proxy.ext ?_ (congrArg Prod.fst entered)) entered_ledger
      exact each_fieldAt (fun t : Proxy Symbol × Ledger => t.1.port)
        (fun entry member t => by rw [target entry member t, parseInt_eq]) once ok
  | _ => cases valid

end Proxies

section Document

variable (dump : Json → String) (read : Int32 → Json → Command)

/-- The parts of a document as they are described. -/
def partsDescribed (entries : List (Key × Json)) : List Part :=
  proxyParts ((elementsAt "proxies" entries).map (Json.proxy dump read)) ++
    entryParts ((elementsAt "apps" entries).map (Json.ref dump read))

variable {dump read} {entries : List (Key × Json)} {line : Nat}

theorem zipWith_entered {β : Type} {reading : Nat → Json → Part} {part : Nat → β → Part}
    {field : Json → β} {items : List Json}
    (one : ∀ item ∈ items, ∀ index, reading index item = part index (field item)) :
    ∀ labels : List Nat,
      List.zipWith reading labels items = List.zipWith part labels (items.map field) := by
  induction items with
  | nil => intro labels; simp
  | cons item rest ih =>
      intro labels
      cases labels with
      | nil => rfl
      | cons label labels =>
          rw [List.map_cons, List.zipWith_cons_cons, List.zipWith_cons_cons, one item (.head _),
            ih (fun other member => one other (.tail _ member))]

/-- The parts that are read under a key. -/
theorem partsRead_entered {β : Type} {reading : Nat → Json → Part} {part : Nat → β → Part}
    {field : Json → β} {name : String}
    (one : ∀ item ∈ elementsAt name entries, ∀ index,
      reading index item = part index (field item)) :
    ((valueAt name entries).map (partsRead reading)).getD [] =
      List.zipWith part (List.range ((elementsAt name entries).map field).length)
        ((elementsAt name entries).map field) := by
  rw [← zipWith_entered one, List.length_map, elementsAt]
  cases valueAt name entries with
  | none => rfl
  | some value => cases value <;> rfl

/-- The apps in an accepted document are accepted. -/
theorem valid_appValues (valid : ValidObject documentFields (.object line entries))
    (unique : (Json.object line entries).Unique) :
    ∀ value ∈ appValues entries, ValidApp value ∧ value.Unique := by
  intro value member
  rcases List.mem_append.1 member with proxied | listed
  · obtain ⟨proxy, among, found⟩ := List.mem_flatMap.1 proxied
    obtain ⟨upstream, there, here⟩ := Option.bind_eq_some_iff.1 (Option.mem_toList.1 found)
    obtain ⟨accepted, single⟩ := @valid_elementsAt _ _ _ (ValidObject proxyFields) valid unique
      (by simp [documentFields]) proxy among
    obtain ⟨accepted, single⟩ := valid_valueAt accepted single there
    have good : ValidObject upstreamFields upstream := by simpa [proxyFields] using accepted
    obtain ⟨accepted, single⟩ := valid_valueAt good single here
    exact ⟨by simpa [upstreamFields] using accepted, single⟩
  · exact valid_elementsAt valid unique (by simp [documentFields]) value listed

/-- The parser at the ledger reads the parts that are described. -/
theorem documentParts_described (valid : ValidObject documentFields (.object line entries))
    (unique : (Json.object line entries).Unique)
    (enters : ∀ value ∈ appValues entries, EntersApp dump read value) :
    documentParts dump entries = partsDescribed dump read entries ∨
      documentParts dump entries =
        entryParts ((elementsAt "apps" entries).map (Json.ref dump read)) ++
          proxyParts ((elementsAt "proxies" entries).map (Json.proxy dump read)) := by
  have proxies : ((valueAt "proxies" entries).map (partsRead (readProxy dump))).getD [] =
      proxyParts ((elementsAt "proxies" entries).map (Json.proxy dump read)) := by
    refine partsRead_entered fun proxy member index => ?_
    obtain ⟨accepted, single⟩ := @valid_elementsAt _ _ _ (ValidObject proxyFields) valid unique
      (by simp [documentFields]) proxy member
    simp only [readProxy, Proxy.part]
    rw [parseProxy_entered accepted single fun upstream there app here => ?_]
    refine enters app (List.mem_append_left _ (List.mem_flatMap.2 ⟨proxy, member, ?_⟩))
    simp [there, here]
  have apps : ((valueAt "apps" entries).map (partsRead (readApp dump))).getD [] =
      entryParts ((elementsAt "apps" entries).map (Json.ref dump read)) := by
    refine partsRead_entered fun value member index => ?_
    simp only [readApp, AppRef.part, enters value (List.mem_append_right _ member) _]
    rfl
  have parts := flatMap_of_keys (by decide) (@partsOf_places dump) entries unique.1
  rw [proxies, apps] at parts
  exact parts

theorem settle_names (app : App Symbol Command) (l : Ledger) :
    definedNames (l.settle app).2.definitions =
      [app.name].filter (· ≠ "") ++ definedNames l.definitions := by
  unfold Ledger.settle
  split
  · next named => simp [definedNames, Ledger.define, Ledger.mention, named]
  · next unnamed => simp [definedNames, Ledger.define, Ledger.mention, not_not.1 unnamed]

/-- The names that are entered are those that are defined. -/
theorem enter_names (value : Json) (l : Ledger) :
    (definedNames ((value.ref dump read).enter l).2.definitions).Perm
      ((value.inlines.map (nameAt dump)).filter (· ≠ "") ++ definedNames l.definitions) := by
  induction value using Json.app_induction generalizing l with
  | mention value other =>
      cases value with
      | object line entries => exact absurd rfl (other line entries)
      | _ => exact .refl _
  | inline line entries ih =>
      have before : ∀ (items : List Json) l,
          (∀ item ∈ items, item ∈ elementsAt "preamble" entries) →
          (definedNames (enterAll (items.map (Json.ref dump read)) l).2.definitions).Perm
            (((items.flatMap Json.inlines).map (nameAt dump)).filter (· ≠ "") ++
              definedNames l.definitions) := by
        intro items
        induction items with
        | nil => exact fun l _ => .refl _
        | cons item rest later =>
            intro l all
            refine (later _ fun other member => all other (.tail _ member)).trans ?_
            refine ((ih item (all item (.head _)) l).append_left _).trans ?_
            rw [List.flatMap_cons, List.map_append, List.filter_append, List.append_assoc]
            exact List.perm_append_comm_assoc _ _ _
      have entered := (before _ l fun _ => id).append_left ([nameAt dump entries].filter (· ≠ ""))
      rw [← List.append_assoc, ← List.filter_append] at entered
      rw [ref_object, inlines_object, AppRef.enter, settle_names]
      exact entered

/-- The names in parts that are entered one by one. -/
theorem names_of_zipWith {β : Type} {part : Nat → β → Part} {field : Json → β}
    {names : Json → List String} {items : List Json}
    (one : ∀ item ∈ items, ∀ index,
      (definedNames (part index (field item)).ledger.definitions).Perm (names item)) :
    ∀ labels : List Nat, labels.length = items.length →
      ((List.zipWith part labels (items.map field)).flatMap
        (definedNames ·.ledger.definitions)).Perm (items.flatMap names) := by
  induction items with
  | nil => simp
  | cons item rest ih =>
      intro labels length
      cases labels with
      | nil => cases length
      | cons label labels =>
          rw [List.map_cons, List.zipWith_cons_cons, List.flatMap_cons, List.flatMap_cons]
          exact (one item (.head _) label).append
            (ih (fun other member => one other (.tail _ member)) labels (Nat.succ.inj length))

theorem definedNames_definitionsIn (parts : List Part) :
    (definedNames (definitionsIn parts)).Perm
      (parts.flatMap (definedNames ·.ledger.definitions)) := by
  have all : definedNames (definitionsIn parts) =
      parts.reverse.flatMap (definedNames ·.ledger.definitions) := by
    simp [definedNames, definitionsIn, List.map_flatMap, List.filter_flatMap]
  rw [all]
  exact (List.reverse_perm parts).flatMap_right _

theorem names_described (entries : List (Key × Json)) :
    (definedNames (definitionsIn (partsDescribed dump read entries))).Perm
      (namesIn dump entries) := by
  refine (definedNames_definitionsIn _).trans ?_
  rw [partsDescribed, List.flatMap_append, namesIn, inlinesIn, appValues, List.flatMap_append,
    List.map_append, List.filter_append]
  refine .append ?_ ?_
  · simp only [List.flatMap_assoc, List.map_flatMap, List.filter_flatMap]
    refine names_of_zipWith (fun proxy _ index => ?_) _ (by simp)
    simp only [Proxy.part, Proxy.enter, Upstream.enter, Json.proxy]
    cases there : valueAt "upstream" proxy.members with
    | none => simp [enterOption, definedNames]
    | some upstream =>
        simp only [Option.map_some, Option.getD_some, Option.bind_some, Json.upstream]
        cases here : valueAt "app" upstream.members with
        | none => simp [enterOption, definedNames]
        | some app =>
            simpa [enterOption, definedNames] using enter_names app { root := .proxy index }
  · simp only [List.map_flatMap, List.filter_flatMap]
    refine names_of_zipWith (fun value _ index => ?_) _ (by simp)
    simpa [AppRef.part, definedNames] using enter_names value { root := .entry index }

end Document

end Nexer.Config
