import Nexer.Config.Records

/-!
# Apps by name

A store without a heap.  An app with a name is that name, an app without one is
the number of its definition.  A ledger keeps what has been mentioned and every
definition that was read, the latest first.
-/

namespace Nexer.Config

/-- The part of a document that unnamed apps are numbered in. -/
inductive Root where
  | document
  | proxy (index : Nat)
  | entry (index : Nat)
  deriving DecidableEq

inductive Symbol where
  | named (name : String)
  | unnamed (root : Root) (index : Nat)
  deriving DecidableEq

abbrev Definition := Symbol × App Symbol Command

structure Ledger where
  root : Root := .document
  next : Nat := 0
  mentioned : List Symbol := []
  definitions : List Definition := []

namespace Ledger

def mention (symbol : Symbol) (ledger : Ledger) : Ledger :=
  { ledger with mentioned := symbol :: ledger.mentioned }

def define (symbol : Symbol) (app : App Symbol Command) (ledger : Ledger) : Ledger :=
  { ledger with definitions := (symbol, app) :: ledger.definitions }

def getApp (name : String) (ledger : Ledger) : Symbol × Ledger :=
  (.named name, ledger.mention (.named name))

def settle (app : App Symbol Command) (ledger : Ledger) : Symbol × Ledger :=
  if app.name ≠ "" then
    (.named app.name, (ledger.mention (.named app.name)).define (.named app.name) app)
  else
    let symbol := .unnamed ledger.root ledger.next
    (symbol, { (ledger.mention symbol).define symbol app with next := ledger.next + 1 })

end Ledger

/-- The store that hands out names. -/
def ledger : Store Symbol Command Ledger where
  getApp := Ledger.getApp
  settle := Ledger.settle
  newCommand command ledger := (command, ledger)

/-- The app that `GetApp` creates. -/
def placeholder : Symbol → App Symbol Command
  | .named name => { name }
  | .unnamed .. => {}

/-- The latest definition of an app. -/
def meaning (definitions : List Definition) (symbol : Symbol) : App Symbol Command :=
  (definitions.lookup symbol).getD (placeholder symbol)

/-- The names of the inline definitions that have one. -/
def definedNames (definitions : List Definition) : List String :=
  (definitions.map (·.2.name)).filter (· ≠ "")

theorem meaning_cons (symbol symbol' : Symbol) (app : App Symbol Command)
    (definitions : List Definition) :
    meaning ((symbol, app) :: definitions) symbol' =
      if symbol' = symbol then app else meaning definitions symbol' := by
  unfold meaning
  rw [List.lookup_cons]
  by_cases same : symbol' = symbol
  · simp only [same, beq_self_eq_true, if_true, Option.getD_some]
  · simp only [beq_eq_false_iff_ne.2 same, if_neg same]

/-- What ledgers keep true of their two lists. -/
structure Recorded (mentioned : List Symbol) (definitions : List Definition) : Prop where
  nonempty : Symbol.named "" ∉ mentioned
  /-- What is defined is mentioned. -/
  listed : ∀ definition ∈ definitions, definition.1 ∈ mentioned
  named : ∀ definition ∈ definitions, ∀ name,
    definition.1 = .named name → definition.2.name = name
  unnamed : ∀ definition ∈ definitions, ∀ root index,
    definition.1 = .unnamed root index → definition.2.name = ""
  /-- A number is given once. -/
  once : definitions.Pairwise fun later earlier => later.2.name = "" → later.1 ≠ earlier.1

namespace Recorded

variable {mentioned : List Symbol} {definitions : List Definition}

theorem mention (recorded : Recorded mentioned definitions) {symbol : Symbol}
    (nonempty : symbol ≠ .named "") : Recorded (symbol :: mentioned) definitions :=
  { recorded with
    nonempty := by
      rintro (_ | ⟨_, earlier⟩)
      · exact nonempty rfl
      · exact recorded.nonempty earlier
    listed := fun definition found => .tail _ (recorded.listed definition found) }

/-- A definition of a symbol that has just been mentioned. -/
theorem define (recorded : Recorded mentioned definitions) {symbol : Symbol}
    {app : App Symbol Command} (listed : symbol ∈ mentioned)
    (named : ∀ name, symbol = .named name → app.name = name)
    (unnamed : ∀ root index, symbol = .unnamed root index → app.name = "")
    (fresh : app.name = "" → ∀ definition ∈ definitions, definition.1 ≠ symbol) :
    Recorded mentioned ((symbol, app) :: definitions) where
  nonempty := recorded.nonempty
  listed := by
    rintro definition (_ | ⟨_, earlier⟩)
    · exact listed
    · exact recorded.listed definition earlier
  named := by
    rintro definition (_ | ⟨_, earlier⟩)
    · exact named
    · exact recorded.named definition earlier
  unnamed := by
    rintro definition (_ | ⟨_, earlier⟩)
    · exact unnamed
    · exact recorded.unnamed definition earlier
  once := List.pairwise_cons.2
    ⟨fun definition found empty => (fresh empty definition found).symm, recorded.once⟩

/-- Where every name is defined at most once, so is every symbol. -/
theorem symbols_once (recorded : Recorded mentioned definitions)
    (names : (definedNames definitions).Nodup) :
    definitions.Pairwise fun later earlier => later.1 ≠ earlier.1 := by
  have namedOnce : definitions.Pairwise fun later earlier =>
      later.2.name ≠ "" → earlier.2.name ≠ "" → later.2.name ≠ earlier.2.name := by
    simpa only [definedNames, List.Nodup, List.pairwise_filter, List.pairwise_map,
      decide_eq_true_eq] using names
  apply (namedOnce.and recorded.once).imp_of_mem
  rintro later earlier found found' ⟨namedApart, unnamedApart⟩ same
  cases symbol : later.1 with
  | unnamed root index => exact unnamedApart (recorded.unnamed later found root index symbol) same
  | named name =>
      have here := recorded.named later found name symbol
      have there := recorded.named earlier found' name (same ▸ symbol)
      have nonempty : name ≠ "" := by
        rintro rfl
        exact recorded.nonempty (symbol ▸ recorded.listed later found)
      exact namedApart (here ▸ nonempty) (there ▸ nonempty) (here.trans there.symm)

end Recorded

/-- Where symbols are defined at most once, a definition is the meaning of its symbol. -/
theorem meaning_of_mem {definitions : List Definition}
    (once : definitions.Pairwise fun later earlier => later.1 ≠ earlier.1) :
    ∀ definition ∈ definitions, meaning definitions definition.1 = definition.2 := by
  induction definitions with
  | nil =>
      intro definition found
      cases found
  | cons latest earlier ih =>
      obtain ⟨apart, rest⟩ := List.pairwise_cons.1 once
      obtain ⟨symbol, app⟩ := latest
      rintro definition (_ | ⟨_, found⟩)
      · rw [meaning_cons, if_pos rfl]
      · rw [meaning_cons, if_neg (apart definition found).symm]
        exact ih rest definition found

/-- A symbol without a definition means the app that `GetApp` creates. -/
theorem meaning_of_not_mem {definitions : List Definition} {symbol : Symbol}
    (undefined : ∀ definition ∈ definitions, definition.1 ≠ symbol) :
    meaning definitions symbol = placeholder symbol := by
  have absent : definitions.lookup symbol = none := by
    apply List.lookup_eq_none_iff.2
    intro definition found
    exact bne_iff_ne.2 (undefined definition found).symm
  unfold meaning
  rw [absent, Option.getD_none]

end Nexer.Config
