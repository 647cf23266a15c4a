import Nexer.Text.Bytes

/-!
# The environment of a child

The constructor of a `Process` copies the environment of the parent, and `SetEnv`
adds the entries of the command behind it.  A lookup finds the first entry with a
key.  The strings of an environment are far shorter than a `StringBuffer` can hold.
-/

namespace Nexer.Process

def equals : UInt8 := 61

/-- `SetEnv`. -/
def setEnv (env : List Bytes) (entry : Bytes) : List Bytes := env ++ [cString entry]

/-- `InitEnv`, with the items of `uv_os_environ`. -/
def initEnv (items : List (Bytes × Bytes)) : List Bytes :=
  (items.map fun item => item.1 ++ equals :: item.2).foldl setEnv []

/-- The entries that `Init` adds. -/
def init (env : List Bytes) (entries : List Bytes) : List Bytes := entries.foldl setEnv env

/-- `options_.env`: an empty vector is not passed. -/
def spawnEnv (env : List Bytes) : Option (List Bytes) := if env ≠ [] then some env else none

/-- What `uv_spawn` gives to the child; without `options_.env` that is the environment
of the parent. -/
def childEnv (items : List (Bytes × Bytes)) (entries : List Bytes) : List Bytes :=
  (spawnEnv (init (initEnv items) entries)).getD
    (items.map fun item => item.1 ++ equals :: item.2)

/-- `getenv`. -/
def getenv (key : Bytes) : List Bytes → Option Bytes
  | [] => none
  | entry :: rest =>
      if (key ++ [equals]).isPrefixOf entry then some (entry.drop (key.length + 1))
      else getenv key rest

/-- A variable as it stands in an environment. -/
structure Variable where
  key : Bytes
  value : Bytes
  plain : equals ∉ key
  noNul : 0 ∉ key ++ value

namespace Variable

def item (setting : Variable) : Bytes × Bytes := (setting.key, setting.value)

/-- `KEY=VALUE` -/
def print (setting : Variable) : Bytes := setting.key ++ equals :: setting.value

/-- The value of the first variable with a key. -/
def first (settings : List Variable) (key : Bytes) : Option Bytes :=
  (settings.map item).lookup key

/-- The value of the last one. -/
def last (settings : List Variable) (key : Bytes) : Option Bytes :=
  first settings.reverse key

/-- A key that has no last value has no first one. -/
theorem first_eq_none {settings : List Variable} {key : Bytes} (unset : last settings key = none) :
    first settings key = none := by
  apply List.lookup_eq_none_iff.2
  intro entry found
  apply List.lookup_eq_none_iff.1 unset
  rwa [List.map_reverse, List.mem_reverse]

theorem cString_print (setting : Variable) : cString setting.print = setting.print := by
  have clean := setting.noNul
  apply cString_eq
  simp only [print, List.mem_append, List.mem_cons, not_or] at clean ⊢
  exact ⟨clean.1, by decide, clean.2⟩

end Variable

theorem foldl_setEnv (settings : List Variable) (env : List Bytes) :
    (settings.map Variable.print).foldl setEnv env = env ++ settings.map Variable.print := by
  induction settings generalizing env with
  | nil => simp
  | cons setting rest ih =>
      rw [List.map_cons, List.foldl_cons, ih, setEnv, setting.cString_print]
      simp

theorem childEnv_eq (parent settings : List Variable) :
    childEnv (parent.map Variable.item) (settings.map Variable.print) =
      (parent ++ settings).map Variable.print := by
  have printed : (parent.map Variable.item).map (fun item => item.1 ++ equals :: item.2) =
      parent.map Variable.print := by
    rw [List.map_map]
    rfl
  unfold childEnv init initEnv
  rw [printed, foldl_setEnv, foldl_setEnv, List.nil_append, ← List.map_append, spawnEnv]
  split
  · rfl
  · rename_i empty
    have none : (parent ++ settings).map Variable.print = [] := by simpa using empty
    rw [none]
    simp only [List.map_eq_nil_iff, List.append_eq_nil_iff] at none
    simp [none.1]

/-- An entry is found by its own key only. -/
theorem isPrefixOf_print {key : Bytes} (plain : equals ∉ key) (setting : Variable) :
    (key ++ [equals]).isPrefixOf setting.print = true ↔ setting.key = key := by
  rw [List.isPrefixOf_iff_prefix]
  constructor
  · rintro ⟨rest, split⟩
    have keys := congrArg (List.takeWhile (· ≠ equals)) split
    have whole : ∀ word : Bytes, equals ∉ word → ∀ tail,
        (word ++ equals :: tail).takeWhile (· ≠ equals) = word := by
      intro word free tail
      have free' : ∀ byte ∈ word, decide (byte ≠ equals) = true := by
        intro byte found
        simpa using fun same : byte = equals => free (same ▸ found)
      rw [List.takeWhile_append_of_pos free']
      simp
    rw [List.append_assoc, List.singleton_append, Variable.print, whole key plain,
      whole setting.key setting.plain] at keys
    exact keys.symm
  · rintro rfl
    exact ⟨setting.value, by simp [Variable.print]⟩

theorem getenv_print {key : Bytes} (plain : equals ∉ key) (settings : List Variable) :
    getenv key (settings.map Variable.print) = Variable.first settings key := by
  induction settings with
  | nil => rfl
  | cons setting rest ih =>
      unfold Variable.first at ih ⊢
      rw [List.map_cons, List.map_cons, getenv, List.lookup_cons, ih]
      simp only [isPrefixOf_print plain]
      by_cases same : setting.key = key
      · subst same
        simp [Variable.item, Variable.print]
      · have other : (key == setting.item.1) = false := by
          simpa [Variable.item] using Ne.symm same
        rw [if_neg same, other]

/-- A key that the command sets has its value just when the parent has no other value for
it and, where the parent has none, the first entry for the key has the value too. -/
theorem environment_wins_iff (parent settings : List Variable) {key : Bytes}
    (plain : equals ∉ key) :
    getenv key (childEnv (parent.map Variable.item) (settings.map Variable.print)) =
        (Variable.last settings key).or (Variable.first parent key) ↔
      ∀ value, Variable.last settings key = some value →
        Variable.first parent key = some value ∨
          Variable.first parent key = none ∧ Variable.first settings key = some value := by
  rw [childEnv_eq, getenv_print plain]
  have split : Variable.first (parent ++ settings) key =
      (Variable.first parent key).or (Variable.first settings key) := by
    simp [Variable.first, List.lookup_append]
  rw [split]
  cases set : Variable.last settings key with
  | none => simp [Variable.first_eq_none set]
  | some value =>
      rw [Option.some_or]
      cases inherited : Variable.first parent key with
      | none => simp
      | some old => simp

def path : Bytes := ascii "PATH"

theorem plain_path : equals ∉ path := by decide

/-- A variable that the parent does not have. -/
theorem environment_wins_new :
    getenv path (childEnv [] [path ++ equals :: ascii "/bin"]) = some (ascii "/bin") :=
  (environment_wins_iff [] [⟨path, ascii "/bin", by decide, by decide⟩] plain_path).2
    (by intro value set; exact .inr ⟨rfl, set⟩)

/-- The `PATH` of the command is not the one of the child. -/
theorem environment_loses :
    getenv path (childEnv [(path, ascii "/bin")] [path ++ equals :: ascii "/opt"]) =
        some (ascii "/bin") ∧
      Variable.last [⟨path, ascii "/opt", by decide, by decide⟩] path = some (ascii "/opt") := by
  decide

end Nexer.Process
