import Mathlib.Data.List.Nodup
import Nexer.Config.Ledger
import Nexer.Config.Simulation

/-!
# The registry and the names

A registry represents what has been mentioned and defined: each symbol is one
app, at the place in which it was first touched, and the app carries the latest
definition of its symbol.  Each operation of the store keeps this.
-/

namespace Nexer.Config

/-- The checker that an app holds. -/
def Registry.checkerOf (registry : Registry) (app : AppId) : Option CommandId :=
  registry.objects[app]?.bind (·.checker)

/-- A checker is the pointer to this command. -/
def Registry.Carries (registry : Registry) : Option CommandId → Option Command → Prop :=
  Option.Rel fun checker command => registry.commands[checker]? = some command

/-- The app at an address is the one of a symbol. -/
def StandsFor (touched : List Symbol) (app : AppId) (symbol : Symbol) : Prop :=
  touched[app]? = some symbol

structure Represents (touched : List Symbol) (registry : Registry) (mentioned : List Symbol)
    (definitions : List Definition) : Prop where
  apps : registry.apps = List.range registry.objects.length
  distinct : touched.Nodup
  count : touched.length = registry.objects.length
  mem : ∀ symbol, symbol ∈ touched ↔ symbol ∈ mentioned
  appMap : ∀ name app, (name, app) ∈ registry.appMap ↔ StandsFor touched app (.named name)
  objects : ∀ app symbol, StandsFor touched app symbol → ∃ object,
    registry.objects[app]? = some object ∧
      SameApp (StandsFor touched) registry.Carries object (meaning definitions symbol)
  checkers : ∀ app app' checker, registry.checkerOf app = some checker →
    registry.checkerOf app' = some checker → app = app'
  recorded : Recorded mentioned definitions

/-- What a step of the store adds: at most one symbol, and the checker of one app. -/
structure Added (touched : List Symbol) (registry : Registry) (symbol : Symbol)
    (checker : Option CommandId) (touched' : List Symbol) (registry' : Registry) : Prop where
  grown : touched <+: touched'
  only : ∀ symbol' ∈ touched', symbol' ∈ touched ∨ symbol' = symbol
  commands : registry'.commands = registry.commands
  checkers : ∀ app id, registry'.checkerOf app = some id →
    checker = some id ∨ registry.checkerOf app = some id

/-- A named symbol does not bring an unnamed one with it. -/
theorem Added.of_named {touched touched' : List Symbol} {registry registry' : Registry}
    {name : String} {checker : Option CommandId} {root : Root} {index : Nat}
    (added : Added touched registry (.named name) checker touched' registry')
    (found : .unnamed root index ∈ touched') : .unnamed root index ∈ touched := by
  rcases added.only _ found with earlier | same
  · exact earlier
  · cases same

theorem SameApp.imp {π κ π' κ' : Type} {link link' : π → π' → Prop}
    {held held' : Option κ → Option κ' → Prop} {app : App π κ} {app' : App π' κ'}
    (same : SameApp link held app app') (links : ∀ p p', link p p' → link' p p')
    (checkers : ∀ c c', held c c' → held' c c') : SameApp link' held' app app' :=
  { same with
    checker := checkers _ _ same.checker
    preamble := same.preamble.imp links }

theorem optionRel_imp {α β : Type} {rel rel' : α → β → Prop} (imp : ∀ a b, rel a b → rel' a b) :
    ∀ {one : Option α} {two : Option β}, Option.Rel rel one two → Option.Rel rel' one two
  | _, _, .none => .none
  | _, _, .some related => .some (imp _ _ related)

theorem getElem?_of_grown {α : Type} {earlier later : List α} (grown : earlier <+: later)
    {index : Nat} {value : α} (found : earlier[index]? = some value) :
    later[index]? = some value := by
  obtain ⟨rest, rfl⟩ := grown
  have bound : index < earlier.length := (List.getElem?_eq_some_iff.1 found).1
  rw [List.getElem?_append_left bound, found]

theorem getElem?_concat_eq_some {α : Type} (values : List α) (last value : α) (index : Nat) :
    (values ++ [last])[index]? = some value ↔
      values[index]? = some value ∨ last = value ∧ index = values.length := by
  rw [List.getElem?_append, List.getElem?_singleton]
  by_cases below : index < values.length
  · rw [if_pos below]
    constructor
    · exact .inl
    · rintro (found | ⟨-, rfl⟩)
      · exact found
      · omega
  · rw [if_neg below, List.getElem?_eq_none (Nat.not_lt.1 below)]
    by_cases same : index = values.length
    · simp [same]
    · have beyond : index - values.length ≠ 0 := by omega
      simp [same, beyond]

theorem Registry.Carries.mono {registry registry' : Registry}
    (grown : registry.commands <+: registry'.commands) {checker : Option CommandId}
    {command : Option Command} (carries : registry.Carries checker command) :
    registry'.Carries checker command :=
  optionRel_imp (fun _ _ found => getElem?_of_grown grown found) carries

theorem Registry.checkerOf_assign {registry : Registry} {app app' : AppId}
    {tmp : App AppId CommandId} {checker : CommandId}
    (held : (registry.assign app tmp).checkerOf app' = some checker) :
    app' = app ∧ tmp.checker = some checker ∨ registry.checkerOf app' = some checker := by
  obtain ⟨object, found, holds⟩ := Option.bind_eq_some_iff.1 held
  simp only [Registry.assign, List.getElem?_set] at found
  split at found
  · rename_i here
    split at found
    · cases found
      exact .inl ⟨here.symm, holds⟩
    · cases found
  · exact .inr (Option.bind_eq_some_iff.2 ⟨object, found, holds⟩)

/-- A new app without a checker. -/
theorem Registry.checkerOf_newApp {registry : Registry} {name : String} {app : AppId}
    {checker : CommandId}
    (held : (registry.newApp { name }).2.checkerOf app = some checker) :
    registry.checkerOf app = some checker := by
  obtain ⟨object, found, holds⟩ := Option.bind_eq_some_iff.1 held
  rcases (getElem?_concat_eq_some _ _ object app).1 found with earlier | ⟨rfl, -⟩
  · exact Option.bind_eq_some_iff.2 ⟨object, earlier, holds⟩
  · cases holds

namespace Represents

variable {touched mentioned : List Symbol} {registry : Registry} {definitions : List Definition}

/-- A symbol has one place. -/
theorem place_unique (represents : Represents touched registry mentioned definitions)
    {app app' : AppId} {symbol : Symbol} (stands : StandsFor touched app symbol)
    (stands' : StandsFor touched app' symbol) : app = app' := by
  have bound : app < touched.length := (List.getElem?_eq_some_iff.1 stands).1
  exact (List.getElem?_inj bound represents.distinct).1 (stands.trans stands'.symm)

theorem lookup (represents : Represents touched registry mentioned definitions) (name : String)
    (app : AppId) :
    registry.appMap.lookup name = some app ↔ StandsFor touched app (.named name) := by
  have sound : ∀ app, registry.appMap.lookup name = some app →
      StandsFor touched app (.named name) := by
    intro app found
    obtain ⟨before, after, split, -⟩ := List.lookup_eq_some_iff.1 found
    apply (represents.appMap name app).1
    rw [split]
    exact List.mem_append_right _ (.head _)
  constructor
  · exact sound app
  · intro stands
    have mapped := (represents.appMap name app).2 stands
    have found : (registry.appMap.lookup name).isSome :=
      List.lookup_isSome_iff.2 ⟨_, mapped, beq_self_eq_true name⟩
    obtain ⟨app', located⟩ := Option.isSome_iff_exists.1 found
    rw [located, represents.place_unique (sound app' located) stands]

/-- Every address below the number of apps has a symbol. -/
theorem exists_symbol (represents : Represents touched registry mentioned definitions) {app : AppId}
    (bound : app < registry.objects.length) : ∃ symbol, StandsFor touched app symbol :=
  ⟨_, List.getElem?_eq_getElem (represents.count.symm ▸ bound)⟩

theorem checker_lt (represents : Represents touched registry mentioned definitions) {app : AppId}
    {checker : CommandId} (held : registry.checkerOf app = some checker) :
    checker < registry.commands.length := by
  obtain ⟨object, found, holds⟩ := Option.bind_eq_some_iff.1 held
  obtain ⟨symbol, stands⟩ := represents.exists_symbol (List.getElem?_eq_some_iff.1 found).1
  obtain ⟨object', found', same⟩ := represents.objects app symbol stands
  cases found.symm.trans found'
  have carries := same.checker
  rw [holds] at carries
  generalize (meaning definitions symbol).checker = command at carries
  cases carries with
  | some known => exact (List.getElem?_eq_some_iff.1 known).1

/-- Another mention of what has been mentioned. -/
theorem mention (represents : Represents touched registry mentioned definitions)
    {symbol : Symbol} (seen : symbol ∈ touched) :
    Represents touched registry (symbol :: mentioned) definitions :=
  { represents with
    mem := by
      intro symbol'
      rw [represents.mem, List.mem_cons]
      constructor
      · exact .inr
      · rintro (rfl | earlier)
        · exact (represents.mem _).1 seen
        · exact earlier
    recorded := represents.recorded.mention fun empty =>
      represents.recorded.nonempty (empty ▸ (represents.mem symbol).1 seen) }

/-- A symbol that is mentioned for the first time. -/
theorem newApp (represents : Represents touched registry mentioned definitions)
    {symbol : Symbol} (unseen : symbol ∉ touched) (nonempty : symbol ≠ .named "")
    {appMap : List (String × AppId)}
    (mapped : ∀ name app, (name, app) ∈ appMap ↔
      (name, app) ∈ registry.appMap ∨ symbol = .named name ∧ app = registry.objects.length) :
    Represents (touched ++ [symbol])
      { (registry.newApp { name := (placeholder symbol).name }).2 with appMap }
      (symbol :: mentioned) definitions where
  apps := by
    simp only [Registry.newApp, represents.apps, List.length_append, List.length_singleton,
      List.range_succ]
  distinct := List.nodup_append.2
    ⟨represents.distinct, List.nodup_singleton _, by
      intro seen found symbol' here same
      rw [List.mem_singleton.1 here] at same
      exact unseen (same ▸ found)⟩
  count := by
    simp only [Registry.newApp, List.length_append, List.length_singleton, represents.count]
  mem := by
    intro symbol'
    rw [List.mem_append, List.mem_singleton, List.mem_cons, represents.mem]
    exact or_comm
  appMap := by
    intro name app
    rw [mapped, represents.appMap, ← represents.count]
    exact (getElem?_concat_eq_some touched symbol (.named name) app).symm
  objects := by
    intro app symbol' stands
    rcases (getElem?_concat_eq_some touched symbol symbol' app).1 stands with
      earlier | ⟨rfl, last⟩
    · obtain ⟨object, found, same⟩ := represents.objects app symbol' earlier
      refine ⟨object, ?_, same.imp ?_ fun _ _ carries => carries⟩
      · exact getElem?_of_grown (List.prefix_append _ _) found
      · exact fun _ _ there => getElem?_of_grown (List.prefix_append _ _) there
    · refine ⟨{ name := (placeholder symbol).name }, ?_, ?_⟩
      · apply (getElem?_concat_eq_some _ _ _ app).2
        exact .inr ⟨rfl, last.trans represents.count⟩
      · have undefined : ∀ definition ∈ definitions, definition.1 ≠ symbol := by
          rintro definition found rfl
          exact unseen ((represents.mem _).2 (represents.recorded.listed definition found))
        rw [meaning_of_not_mem undefined]
        cases symbol with
        | named name => exact ⟨rfl, rfl, .none, rfl, .nil, rfl⟩
        | unnamed root index => exact ⟨rfl, rfl, .none, rfl, .nil, rfl⟩
  checkers := by
    intro app app' checker held held'
    apply represents.checkers app app' checker
    · exact Registry.checkerOf_newApp held
    · exact Registry.checkerOf_newApp held'
  recorded := represents.recorded.mention nonempty

/-- The definition of a symbol is moved to its app. -/
theorem assign (represents : Represents touched registry mentioned definitions) {app : AppId}
    {symbol : Symbol} (stands : StandsFor touched app symbol) {tmp : App AppId CommandId}
    {definition : App Symbol Command}
    (same : SameApp (StandsFor touched) registry.Carries tmp definition)
    (unheld : ∀ checker, tmp.checker = some checker → ∀ app, registry.checkerOf app ≠ some checker)
    (recorded : Recorded mentioned ((symbol, definition) :: definitions)) :
    Represents touched (registry.assign app tmp) mentioned ((symbol, definition) :: definitions)
      where
  apps := by simpa only [Registry.assign, List.length_set] using represents.apps
  distinct := represents.distinct
  count := by simpa only [Registry.assign, List.length_set] using represents.count
  mem := represents.mem
  appMap := represents.appMap
  objects := by
    intro app' symbol' stands'
    rw [meaning_cons]
    by_cases here : app = app'
    · subst here
      obtain ⟨object, found, -⟩ := represents.objects app symbol stands
      have bound : app < registry.objects.length := (List.getElem?_eq_some_iff.1 found).1
      have only : symbol' = symbol := Option.some.inj (stands'.symm.trans stands)
      rw [if_pos only]
      exact ⟨tmp, List.getElem?_set_self bound, same⟩
    · have other : symbol' ≠ symbol := by
        rintro rfl
        exact here (represents.place_unique stands stands')
      obtain ⟨object, found, kept⟩ := represents.objects app' symbol' stands'
      rw [if_neg other]
      exact ⟨object, (List.getElem?_set_ne here).trans found, kept⟩
  checkers := by
    intro app₁ app₂ checker held held'
    rcases Registry.checkerOf_assign held with ⟨rfl, here⟩ | there
    · rcases Registry.checkerOf_assign held' with ⟨rfl, -⟩ | there'
      · rfl
      · exact absurd there' (unheld checker here _)
    · rcases Registry.checkerOf_assign held' with ⟨rfl, here'⟩ | there'
      · exact absurd there (unheld checker here' _)
      · exact represents.checkers app₁ app₂ checker there there'
  recorded := recorded

theorem newCommand (represents : Represents touched registry mentioned definitions)
    (command : Command) :
    Represents touched (registry.newCommand command).2 mentioned definitions :=
  { represents with
    objects := by
      intro app symbol stands
      obtain ⟨object, found, same⟩ := represents.objects app symbol stands
      refine ⟨object, found, same.imp (fun _ _ there => there) fun _ _ carries => ?_⟩
      have grown : registry.commands <+: (registry.newCommand command).2.commands :=
        List.prefix_append _ _
      exact carries.mono grown }

/-- All that `GetApp` does, for a name. -/
theorem getApp (represents : Represents touched registry mentioned definitions) {name : String}
    (nonempty : name ≠ "") :
    ∃ touched', Added touched registry (.named name) none touched' (registry.getApp name).2 ∧
      Represents touched' (registry.getApp name).2 (.named name :: mentioned) definitions ∧
      StandsFor touched' (registry.getApp name).1 (.named name) := by
  unfold Registry.getApp
  simp only [if_pos nonempty]
  cases found : registry.appMap.lookup name with
  | some app =>
      have stands := (represents.lookup name app).1 found
      refine ⟨touched, ⟨List.prefix_rfl, fun _ => .inl, rfl, fun _ _ => .inr⟩,
        represents.mention ?_, stands⟩
      exact List.mem_of_getElem? stands
  | none =>
      have unseen : Symbol.named name ∉ touched := by
        intro seen
        obtain ⟨app, stands⟩ := List.getElem?_of_mem seen
        rw [(represents.lookup name app).2 stands] at found
        cases found
      refine ⟨touched ++ [.named name], ⟨List.prefix_append _ _, ?_, rfl, ?_⟩, ?_, ?_⟩
      · intro symbol found
        simpa only [List.mem_append, List.mem_singleton] using found
      · exact fun _ _ held => .inr (Registry.checkerOf_newApp held)
      · apply represents.newApp unseen (by simpa using nonempty)
        intro name' app
        simp only [Registry.newApp, List.mem_cons, Prod.mk.injEq, Symbol.named.injEq]
        rw [or_comm, @eq_comm _ name]
      · exact (getElem?_concat_eq_some _ _ _ _).2 (.inr ⟨rfl, represents.count.symm⟩)

/-- All that the end of `ParseApp` does for an app with a name. -/
theorem settle_named (represents : Represents touched registry mentioned definitions)
    {tmp : App AppId CommandId} {definition : App Symbol Command} (named : definition.name ≠ "")
    (same : SameApp (StandsFor touched) registry.Carries tmp definition)
    (unheld : ∀ checker, tmp.checker = some checker → ∀ app, registry.checkerOf app ≠ some checker) :
    ∃ touched', Added touched registry (.named definition.name) tmp.checker touched'
        (registry.settle tmp).2 ∧
      Represents touched' (registry.settle tmp).2 (.named definition.name :: mentioned)
        ((.named definition.name, definition) :: definitions) ∧
      StandsFor touched' (registry.settle tmp).1 (.named definition.name) := by
  obtain ⟨touched', ⟨grown, only, commands, checkers⟩, located, stands⟩ := represents.getApp named
  unfold Registry.settle
  simp only [same.name, if_pos named]
  refine ⟨touched', ⟨grown, only, commands, ?_⟩, ?_, stands⟩
  · intro app id held
    rcases Registry.checkerOf_assign held with ⟨-, here⟩ | there
    · exact .inl here
    · exact .inr ((checkers app id there).resolve_left (by simp))
  · apply located.assign stands
    · refine same.imp (fun _ _ there => getElem?_of_grown grown there) fun _ _ carries => ?_
      exact carries.mono (commands ▸ List.prefix_rfl)
    · intro checker holds app held
      exact unheld checker holds app ((checkers app checker held).resolve_left (by simp))
    · apply located.recorded.define (.head _)
      · rintro name ⟨⟩
        rfl
      · rintro root index ⟨⟩
      · exact fun empty => absurd empty named

theorem newApp_eq_assign (registry : Registry) (tmp : App AppId CommandId) :
    registry.newApp tmp = ((registry.newApp {}).1,
      (registry.newApp {}).2.assign (registry.newApp {}).1 tmp) := by
  simp [Registry.newApp, Registry.assign]

/-- All that it does for an app without a name. -/
theorem settle_unnamed (represents : Represents touched registry mentioned definitions)
    {tmp : App AppId CommandId} {definition : App Symbol Command} {root : Root} {index : Nat}
    (unnamed : definition.name = "")
    (same : SameApp (StandsFor touched) registry.Carries tmp definition)
    (unheld : ∀ checker, tmp.checker = some checker → ∀ app, registry.checkerOf app ≠ some checker)
    (unseen : Symbol.unnamed root index ∉ touched) :
    ∃ touched', Added touched registry (.unnamed root index) tmp.checker touched'
        (registry.settle tmp).2 ∧
      Represents touched' (registry.settle tmp).2 (.unnamed root index :: mentioned)
        ((.unnamed root index, definition) :: definitions) ∧
      StandsFor touched' (registry.settle tmp).1 (.unnamed root index) := by
  have empty : ¬tmp.name ≠ "" := by simpa only [same.name, ne_eq, not_not] using unnamed
  have nameless : Symbol.unnamed root index ≠ .named "" := by simp
  have unmapped : ∀ name app, (name, app) ∈ registry.appMap ↔ (name, app) ∈ registry.appMap ∨
      Symbol.unnamed root index = .named name ∧ app = registry.objects.length := by simp
  have created := represents.newApp unseen nameless unmapped
  have stands : StandsFor (touched ++ [.unnamed root index]) registry.objects.length
      (.unnamed root index) :=
    (getElem?_concat_eq_some _ _ _ _).2 (.inr ⟨rfl, represents.count.symm⟩)
  unfold Registry.settle
  simp only [if_neg empty]
  rw [newApp_eq_assign]
  refine ⟨_, ⟨List.prefix_append _ _, ?_, rfl, ?_⟩, ?_, stands⟩
  · intro symbol found
    simpa only [List.mem_append, List.mem_singleton] using found
  · intro app id held
    rcases Registry.checkerOf_assign held with ⟨-, here⟩ | there
    · exact .inl here
    · exact .inr (Registry.checkerOf_newApp there)
  · apply created.assign stands
    · exact same.imp (fun _ _ there => getElem?_of_grown (List.prefix_append _ _) there)
        fun _ _ carries => carries
    · exact fun checker holds app held =>
        unheld checker holds app (Registry.checkerOf_newApp held)
    · apply created.recorded.define (.head _)
      · rintro name ⟨⟩
      · exact fun _ _ _ => unnamed
      · intro _ earlier found defined
        apply unseen
        rw [← defined, represents.mem]
        exact represents.recorded.listed earlier found

end Represents

/-- The registry at some time, with the symbols of its apps. -/
structure Stage where
  touched : List Symbol
  registry : Registry

/-- Apps and commands are only added, and an app may only take a checker that is new. -/
structure Stage.Grows (earlier later : Stage) : Prop where
  touched : earlier.touched <+: later.touched
  commands : earlier.registry.commands <+: later.registry.commands
  checkers : ∀ app checker, later.registry.checkerOf app = some checker →
    (∃ app', earlier.registry.checkerOf app' = some checker) ∨
      earlier.registry.commands.length ≤ checker

/-- The registry and a ledger that was opened where these mentions and definitions
had been recorded. -/
structure Tracks (root : Root) (mentioned : List Symbol) (definitions : List Definition)
    (stage : Stage) (registry : Registry) (ledger : Ledger) : Prop where
  current : registry = stage.registry
  represents : Represents stage.touched stage.registry (ledger.mentioned ++ mentioned)
    (ledger.definitions ++ definitions)
  here : ledger.root = root
  /-- The numbers from `next` on are free. -/
  below : ∀ index, .unnamed root index ∈ stage.touched → index < ledger.next
  rooted : ∀ root' index, .unnamed root' index ∈ ledger.mentioned → root' = root

/-- A checker that was allocated after `base` and that no app holds. -/
def Stage.Pending (base stage : Stage) : Option CommandId → Option Command → Prop :=
  Option.Rel fun checker command => stage.registry.commands[checker]? = some command ∧
    base.registry.commands.length ≤ checker ∧
    ∀ app, stage.registry.checkerOf app ≠ some checker

namespace Stage

theorem Grows.refl (stage : Stage) : stage.Grows stage :=
  ⟨List.prefix_rfl, List.prefix_rfl, fun app _ held => .inl ⟨app, held⟩⟩

theorem Grows.trans {one two three : Stage} (first : one.Grows two) (second : two.Grows three) :
    one.Grows three where
  touched := first.touched.trans second.touched
  commands := first.commands.trans second.commands
  checkers := by
    intro app checker held
    rcases second.checkers app checker held with ⟨app', earlier⟩ | new
    · exact first.checkers app' checker earlier
    · exact .inr (Nat.le_trans first.commands.length_le new)

/-- What was pending stays so. -/
theorem Grows.pending {base one two : Stage} (grows : one.Grows two) {checker : Option CommandId}
    {command : Option Command} (pending : base.Pending one checker command) :
    base.Pending two checker command := by
  refine optionRel_imp ?_ pending
  rintro checker command ⟨found, allocated, unheld⟩
  refine ⟨getElem?_of_grown grows.commands found, allocated, fun app held => ?_⟩
  rcases grows.checkers app checker held with ⟨app', earlier⟩ | new
  · exact unheld app' earlier
  · have bound := (List.getElem?_eq_some_iff.1 found).1
    exact absurd new (Nat.not_le.2 bound)

theorem grows_of_added {base stage : Stage} {symbol : Symbol} {checker : Option CommandId}
    {command : Option Command} {touched' : List Symbol} {registry' : Registry}
    (added : Added stage.touched stage.registry symbol checker touched' registry')
    (grows : base.Grows stage) (pending : base.Pending stage checker command) :
    base.Grows ⟨touched', registry'⟩ where
  touched := grows.touched.trans added.grown
  commands := added.commands ▸ grows.commands
  checkers := by
    intro app id held
    rcases added.checkers app id held with rfl | earlier
    · cases pending with
      | some known => exact .inr known.2.1
    · exact grows.checkers app id earlier

end Stage

namespace Tracks

variable {root : Root} {mentioned : List Symbol} {definitions : List Definition} {base stage : Stage}
  {registry : Registry} {ledger : Ledger}

theorem getApp (tracks : Tracks root mentioned definitions stage registry ledger) (name : String)
    (nonempty : name ≠ "") : ∃ stage', stage.Grows stage' ∧
      Tracks root mentioned definitions stage' (registry.getApp name).2 (ledger.getApp name).2 ∧
      StandsFor stage'.touched (registry.getApp name).1 (ledger.getApp name).1 := by
  obtain ⟨rfl, represents, rooted, below, numbers⟩ := tracks
  obtain ⟨touched', added, located, stands⟩ := represents.getApp nonempty
  refine ⟨⟨touched', (stage.registry.getApp name).2⟩, ?_, ?_, stands⟩
  · exact Stage.grows_of_added added (.refl stage) .none
  · refine ⟨rfl, located, rooted, ?_, ?_⟩
    · exact fun index found => below index (added.of_named found)
    · rintro root' index (_ | ⟨_, earlier⟩)
      exact numbers root' index earlier

theorem newCommand (tracks : Tracks root mentioned definitions stage registry ledger)
    (command : Command) (grows : base.Grows stage) : ∃ stage', stage.Grows stage' ∧
      Tracks root mentioned definitions stage' (registry.newCommand command).2 ledger ∧
      base.Pending stage' (some (registry.newCommand command).1) (some command) := by
  obtain ⟨rfl, represents, rooted, below, numbers⟩ := tracks
  refine ⟨⟨stage.touched, (stage.registry.newCommand command).2⟩, ?_, ?_, ?_⟩
  · exact ⟨List.prefix_rfl, List.prefix_append _ _, fun app _ held => .inl ⟨app, held⟩⟩
  · exact ⟨rfl, represents.newCommand command, rooted, below, numbers⟩
  · refine .some ⟨List.getElem?_concat_length .., grows.commands.length_le, fun app held => ?_⟩
    exact absurd (represents.checker_lt held) (Nat.lt_irrefl _)

theorem settle (tracks : Tracks root mentioned definitions stage registry ledger)
    {tmp : App AppId CommandId} {definition : App Symbol Command} (grows : base.Grows stage)
    (same : SameApp (StandsFor stage.touched) (base.Pending stage) tmp definition) :
    ∃ stage', base.Grows stage' ∧
      Tracks root mentioned definitions stage' (registry.settle tmp).2
        (ledger.settle definition).2 ∧
      StandsFor stage'.touched (registry.settle tmp).1 (ledger.settle definition).1 := by
  obtain ⟨rfl, represents, rooted, below, numbers⟩ := tracks
  have carried : SameApp (StandsFor stage.touched) stage.registry.Carries tmp definition :=
    same.imp (fun _ _ => id) fun _ _ pending => optionRel_imp (fun _ _ known => known.1) pending
  have unheld : ∀ checker, tmp.checker = some checker →
      ∀ app, stage.registry.checkerOf app ≠ some checker := by
    intro checker holds
    have pending := same.checker
    rw [holds] at pending
    generalize definition.checker = command at pending
    cases pending with
    | some known => exact known.2.2
  unfold Ledger.settle
  by_cases named : definition.name ≠ ""
  · simp only [if_pos named]
    obtain ⟨touched', added, located, stands⟩ := represents.settle_named named carried unheld
    refine ⟨⟨touched', (stage.registry.settle tmp).2⟩, ?_, ?_, stands⟩
    · exact Stage.grows_of_added added grows same.checker
    · refine ⟨rfl, located, rooted, ?_, ?_⟩
      · exact fun index found => below index (added.of_named found)
      · rintro root' index (_ | ⟨_, earlier⟩)
        exact numbers root' index earlier
  · simp only [if_neg named]
    have unseen : Symbol.unnamed ledger.root ledger.next ∉ stage.touched := by
      intro seen
      rw [rooted] at seen
      exact absurd (below _ seen) (Nat.lt_irrefl _)
    obtain ⟨touched', added, located, stands⟩ :=
      represents.settle_unnamed (not_not.1 named) carried unheld unseen
    refine ⟨⟨touched', (stage.registry.settle tmp).2⟩, ?_, ?_, stands⟩
    · exact Stage.grows_of_added added grows same.checker
    · refine ⟨rfl, located, rooted, ?_, ?_⟩
      · intro index found
        rcases added.only _ found with earlier | same
        · exact Nat.lt_succ_of_lt (below index earlier)
        · cases same
          exact Nat.lt_succ_self _
      · rintro root' index (_ | ⟨_, earlier⟩)
        · exact rooted
        · exact numbers root' index earlier

end Tracks

/-- The program's store in step with the names. -/
def tracking (root : Root) (mentioned : List Symbol) (definitions : List Definition) :
    Simulation registry ledger Stage where
  State := Tracks root mentioned definitions
  Grows := Stage.Grows
  Link stage := StandsFor stage.touched
  Held := Stage.Pending
  refl := .refl
  trans := .trans
  link_mono grows stands := getElem?_of_grown grows.touched stands
  held_mono grows pending := grows.pending pending
  held_none _ := .none
  getApp name nonempty tracks := tracks.getApp name nonempty
  newCommand command grows tracks := tracks.newCommand command grows
  settle grows tracks same := tracks.settle grows same

end Nexer.Config
