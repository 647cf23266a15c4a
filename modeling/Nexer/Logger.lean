import Nexer.Config.Records
import Nexer.Text.Formatting
import Nexer.Text.Overlay

/-!
# The logger

`Logger` prepares each line in a buffer of fixed size.  A line that does not fit ends with dots.
-/

namespace Nexer.Logging

open Config (Level)

/-- The numbers of the levels. -/
def value : Level → Nat
  | .trace => 0
  | .debug => 1
  | .info => 2
  | .warn => 3
  | .error => 4
  | .fatal => 5
  | .critical => 6

/-- `level_names` -/
def levelName : Level → Bytes
  | .trace => ascii "TRACE "
  | .debug => ascii "DEBUG "
  | .info => ascii "INFO "
  | .warn => ascii "WARN "
  | .error => ascii "ERROR "
  | .fatal => ascii "FATAL "
  | .critical => ascii "CRITICAL "

/-- `level_name_lengths` -/
def levelNameLength : Level → Nat
  | .trace => 6
  | .debug => 6
  | .info => 5
  | .warn => 5
  | .error => 6
  | .fatal => 6
  | .critical => 9

/-- What `localtime` returns, for a year of four digits. -/
structure Tm where
  year : Nat
  month : Nat
  day : Nat
  hour : Nat
  minute : Nat
  second : Nat
  four : 1000 ≤ year ∧ year < 10000

def twoDigits (n : Nat) : Bytes := [UInt8.ofNat (48 + n / 10 % 10), UInt8.ofNat (48 + n % 10)]

/-- `strftime` with `%Y-%m-%d %H:%M:%S` and a blank. -/
def strftime (tm : Tm) : Bytes :=
  twoDigits (tm.year / 100) ++ twoDigits tm.year ++ ascii "-" ++ twoDigits tm.month ++ ascii "-" ++
    twoDigits tm.day ++ ascii " " ++ twoDigits tm.hour ++ ascii ":" ++ twoDigits tm.minute ++
      ascii ":" ++ twoDigits tm.second ++ ascii " "

/-- `sizeof(buf_)` -/
def bufSize : Nat := 4096

def newline : UInt8 := 10

/-- Besides the level and the buffer, what was written to the log and to `stderr`, and the stores
outside of the buffer. -/
structure Logger where
  level : Level
  buf : Bytes
  sized : buf.length = bufSize
  log : Bytes := []
  stderr : Bytes := []
  stray : List (Int × Nat) := []

namespace Logger

def store (logger : Logger) (start : Int) (bytes : Bytes) : Logger :=
  { logger with
    buf := overlay start bytes logger.buf
    sized := overlay_length.trans logger.sized
    stray := logger.stray ++ if InBlock start bytes.length bufSize then [] else [(start, bytes.length)] }

/-- `write(fd_, buf_, length)` -/
def write (logger : Logger) (length : Nat) : Logger :=
  { logger with log := logger.log ++ logger.buf.take length }

/-- `fprintf(stderr, ..)` -/
def report (logger : Logger) (bytes : Bytes) : Logger :=
  { logger with stderr := logger.stderr ++ bytes }

def vprint (logger : Logger) (level : Level) (tm : Tm) (format : Formatting) : Logger :=
  let logger := logger.store 0 (strftime tm ++ [0])
  let logger := logger.store 20 ((levelName level).take (levelNameLength level))
  let offset := 20 + levelNameLength level
  let logger := logger.store offset (format.stores (bufSize - offset))
  let len := format.returns (bufSize - offset)
  if 0 < len then
    if toSize (toInt (offset + len)) < bufSize then
      let logger := logger.store (offset + len) [newline]
      logger.write (toSize (offset + len + 1))
    else
      let logger := logger.report (cString (logger.buf.take 20) ++ levelName level)
      let logger := logger.report (format.text ++ [newline])
      let logger := logger.store (bufSize - 4 : Nat) (ascii "...\n")
      logger.write bufSize
  else logger

/-- The functions that compare the level of the logger with `bound` and print at `level`. -/
def leveled (bound level : Level) (logger : Logger) (tm : Tm) (format : Formatting) : Logger :=
  if value logger.level ≤ value bound then logger.vprint level tm format else logger

def trace : Logger → Tm → Formatting → Logger := leveled .trace .trace

def debug : Logger → Tm → Formatting → Logger := leveled .debug .debug

def info : Logger → Tm → Formatting → Logger := leveled .info .info

def warn : Logger → Tm → Formatting → Logger := leveled .warn .warn

def error : Logger → Tm → Formatting → Logger := leveled .error .error

def fatal (logger : Logger) (tm : Tm) (format : Formatting) : Logger :=
  logger.vprint .fatal tm format

def critical : Logger → Tm → Formatting → Logger := leveled .trace .critical

def setLevel (logger : Logger) (level : Level) : Logger := { logger with level }

end Logger

/-- A call of `set_level`, or of the function for a level. -/
inductive Call where
  | setLevel (level : Level)
  | print (level : Level) (tm : Tm) (format : Formatting)

def Call.apply (logger : Logger) : Call → Logger
  | .setLevel level => logger.setLevel level
  | .print .trace tm format => logger.trace tm format
  | .print .debug tm format => logger.debug tm format
  | .print .info tm format => logger.info tm format
  | .print .warn tm format => logger.warn tm format
  | .print .error tm format => logger.error tm format
  | .print .fatal tm format => logger.fatal tm format
  | .print .critical tm format => logger.critical tm format

def run (logger : Logger) (calls : List Call) : Logger := calls.foldl Call.apply logger

/-- The line of a message. -/
def line (level : Level) (tm : Tm) (text : Bytes) : Bytes :=
  let whole := strftime tm ++ levelName level ++ text ++ [newline]
  if whole.length ≤ bufSize then whole else whole.take (bufSize - 4) ++ ascii "...\n"

/-- A message of this level is logged: it reaches the level in force, or it is fatal. -/
def Logged (inForce level : Level) : Prop := value inForce ≤ value level ∨ level = .fatal

instance (inForce level : Level) : Decidable (Logged inForce level) :=
  inferInstanceAs (Decidable (value inForce ≤ value level ∨ level = .fatal))

/-- The lines of the calls, from this level in force on. -/
def linesOf : Level → List Call → Bytes
  | _, [] => []
  | _, .setLevel level :: rest => linesOf level rest
  | inForce, .print level tm format :: rest =>
      (if Logged inForce level then line level tm format.text else []) ++ linesOf inForce rest

/-- The room for a message of this level. -/
def roomFor (level : Level) : Nat := bufSize - (20 + levelNameLength level)

/-- Every critical call is made while the level is `TRACE`, and what is to be logged can be
formatted. -/
def Served : Level → List Call → Prop
  | _, [] => True
  | _, .setLevel level :: rest => Served level rest
  | inForce, .print level _ format :: rest =>
      (Logged inForce level →
        (level = .critical → inForce = .trace) ∧ format.fails (roomFor level) = none) ∧
          Served inForce rest

/-- Its message is not empty. -/
def Call.Nonempty : Call → Prop
  | .print _ _ format => format.text ≠ []
  | _ => True

variable {logger : Logger} {level : Level} {tm : Tm} {format : Formatting} {left right new : Bytes}

theorem levelName_length : (levelName level).length = levelNameLength level := by
  cases level <;> decide

theorem strftime_length : (strftime tm).length = 20 := by
  simp only [strftime, List.length_append]
  rfl

theorem levelNameLength_le : levelNameLength level ≤ 9 := by
  cases level <;> decide

namespace Logger

/-- What is stored behind the first part of the buffer. -/
theorem store_parts {n : Nat} (parts : logger.buf = left ++ right) (start : left.length = n)
    (room : new.length ≤ right.length) :
    (logger.store n new).buf = left ++ (new ++ right.drop new.length) ∧
      (logger.store n new).stray = logger.stray := by
  subst start
  have stored := @overlay_append _ new left right room
  have inside := @inBlock_append _ left new right room
  rw [← parts] at stored inside
  rw [logger.sized] at inside
  refine ⟨stored, ?_⟩
  simp only [store, if_pos inside, List.append_nil]

/-- The buffer with the stamp, the level and the message. -/
def prepared (logger : Logger) (level : Level) (tm : Tm) (format : Formatting) : Logger :=
  ((logger.store 0 (strftime tm ++ [0])).store 20
    ((levelName level).take (levelNameLength level))).store (20 + levelNameLength level : Nat)
      (format.stores (roomFor level))

/-- What stands before the message. -/
def header (level : Level) (tm : Tm) : Bytes := strftime tm ++ levelName level

theorem header_length : (header level tm).length = 20 + levelNameLength level := by
  rw [header, List.length_append, strftime_length, levelName_length]

theorem prepared_parts (logger : Logger) (level : Level) (tm : Tm) (format : Formatting) :
    ∃ rest, (logger.prepared level tm format).buf =
        header level tm ++ (format.stores (roomFor level) ++ rest) ∧
      (logger.prepared level tm format).stray = logger.stray := by
  have short := @levelNameLength_le level
  have sized : logger.buf.length = 4096 := logger.sized
  have stores : (format.stores (roomFor level)).length ≤ 4096 - (20 + levelNameLength level) :=
    stores_length _
  have name : (levelName level).take (levelNameLength level) = levelName level := by
    rw [← levelName_length, List.take_length]
  have stamp : (strftime tm ++ [0]).length = 21 := by
    rw [List.length_append, strftime_length, List.length_singleton]
  -- the stamp, with its terminator
  have room : (strftime tm ++ [0]).length ≤ logger.buf.length := by
    rw [stamp, sized]
    decide
  obtain ⟨buf, stray⟩ := @store_parts logger [] logger.buf _ 0 rfl rfl room
  rw [List.nil_append, List.append_assoc, stamp] at buf
  -- the name of the level, over the terminator
  have room : (levelName level).length ≤ ([0] ++ logger.buf.drop 21).length := by
    simp only [levelName_length, List.length_append, List.length_drop, List.length_singleton, sized]
    omega
  obtain ⟨buf', stray'⟩ := store_parts buf strftime_length room
  rw [← List.append_assoc, ← header] at buf'
  -- the message
  have room : (format.stores (roomFor level)).length ≤
      (([0] ++ logger.buf.drop 21).drop (levelName level).length).length := by
    simp only [levelName_length, List.length_append, List.length_drop, List.length_singleton, sized]
    omega
  obtain ⟨buf'', stray''⟩ := store_parts buf' header_length room
  have same : logger.prepared level tm format =
      ((logger.store (0 : Nat) (strftime tm ++ [0])).store (20 : Nat) (levelName level)).store
        (20 + levelNameLength level : Nat) (format.stores (roomFor level)) := by
    rw [prepared, name]
    rfl
  rw [same]
  exact ⟨_, buf'', stray''.trans (stray'.trans stray)⟩

/-- The conversions do not change the result of the comparison, although the sum may leave the
range of `int`. -/
theorem fits_iff {length : Nat} (short : length < 2 ^ 31) :
    toSize (toInt ((20 + levelNameLength level : Nat) + (length : Int))) < bufSize ↔
      20 + levelNameLength level + length < bufSize := by
  have name := @levelNameLength_le level
  have cases := toInt_eq ((20 + levelNameLength level : Nat) + (length : Int))
  simp only [toSize, sizeMax, bufSize]
  omega

/-- The message fits, and a newline stands after it. -/
theorem store_newline {rest : Bytes} (parts : logger.buf = header level tm ++
    (format.text ++ [0] ++ rest)) :
    (logger.store (20 + levelNameLength level + format.text.length : Nat) [newline]).buf.take
        (20 + levelNameLength level + format.text.length + 1) =
      header level tm ++ format.text ++ [newline] ∧
    (logger.store (20 + levelNameLength level + format.text.length : Nat) [newline]).stray =
      logger.stray := by
  have start : (header level tm ++ format.text).length =
      20 + levelNameLength level + format.text.length := by
    rw [List.length_append, header_length]
  rw [List.append_assoc, ← List.append_assoc] at parts
  have room : [newline].length ≤ ([0] ++ rest).length := by simp
  obtain ⟨buf, stray⟩ := store_parts parts start room
  have length : (header level tm ++ format.text ++ [newline]).length =
      20 + levelNameLength level + format.text.length + 1 := by
    rw [List.length_append, start]
    rfl
  refine ⟨?_, stray⟩
  rw [buf, ← List.append_assoc, ← length, List.take_left]

theorem take_header {rest : Bytes} : (header level tm ++ rest).take (bufSize - 4) =
    header level tm ++ rest.take (bufSize - 4 - (20 + levelNameLength level)) := by
  have name := @levelNameLength_le level
  have enough : (header level tm).length ≤ bufSize - 4 := by
    rw [header_length, bufSize]
    omega
  rw [List.take_append, List.take_of_length_le enough, header_length]

/-- The message does not fit, and dots stand at the end of the buffer. -/
theorem store_dots {rest : Bytes} (long : bufSize ≤ 20 + levelNameLength level + format.text.length)
    (parts : logger.buf = header level tm ++ (terminated (roomFor level) format.text ++ rest)) :
    (logger.store (bufSize - 4 : Nat) (ascii "...\n")).buf.take bufSize =
      (header level tm ++ format.text ++ [newline]).take (bufSize - 4) ++ ascii "...\n" ∧
    (logger.store (bufSize - 4 : Nat) (ascii "...\n")).stray = logger.stray := by
  have name := @levelNameLength_le level
  have sized := logger.sized
  have start : (logger.buf.take (bufSize - 4)).length = bufSize - 4 :=
    List.length_take_of_le (by rw [sized]; exact Nat.sub_le _ _)
  have dots : (ascii "...\n").length = (logger.buf.drop (bufSize - 4)).length := by
    rw [List.length_drop, sized]
    rfl
  obtain ⟨buf, stray⟩ := store_parts (List.take_append_drop (bufSize - 4) logger.buf).symm start
    (Nat.le_of_eq dots)
  have total : (logger.buf.take (bufSize - 4) ++ ascii "...\n").length = bufSize := by
    rw [List.length_append, start]
    rfl
  refine ⟨?_, stray⟩
  rw [dots, List.drop_length, List.append_nil] at buf
  rw [buf, List.take_of_length_le (Nat.le_of_eq total)]
  refine congrArg (· ++ ascii "...\n") ?_
  rw [parts, List.append_assoc (header level tm), take_header, take_header]
  refine congrArg (header level tm ++ ·) ?_
  simp only [roomFor, bufSize] at long ⊢
  have whole : 4096 - 4 - (20 + levelNameLength level) ≤
      (format.text.take (4096 - (20 + levelNameLength level) - 1)).length := by
    rw [List.length_take]
    omega
  rw [terminated, if_neg (by omega), List.append_assoc, List.take_append_of_le_length whole,
    List.take_append_of_le_length (by omega), List.take_take, Nat.min_eq_left (by omega)]

/-- The last part of `vprint`, behind the preparation. -/
theorem vprint_eq : logger.vprint level tm format =
    if 0 < format.returns (roomFor level) then
      if toSize (toInt ((20 + levelNameLength level : Nat) + format.returns (roomFor level))) <
          bufSize then
        ((logger.prepared level tm format).store
          ((20 + levelNameLength level : Nat) + format.returns (roomFor level)) [newline]).write
            (toSize ((20 + levelNameLength level : Nat) + format.returns (roomFor level) + 1))
      else
        ((((logger.prepared level tm format).report
          (cString ((logger.prepared level tm format).buf.take 20) ++ levelName level)).report
            (format.text ++ [newline])).store (bufSize - 4 : Nat) (ascii "...\n")).write bufSize
    else logger.prepared level tm format :=
  rfl

end Logger

/-- A message that can be formatted is written as its line, and no store leaves the buffer. -/
theorem Logger.vprint_line (logger : Logger) (level : Level) (tm : Tm)
    (works : format.fails (roomFor level) = none) (some : format.text ≠ []) :
    (logger.vprint level tm format).log = logger.log ++ line level tm format.text ∧
      (logger.vprint level tm format).stray = logger.stray ∧
        (logger.vprint level tm format).level = logger.level := by
  have positive : 0 < format.text.length := List.length_pos_of_ne_nil some
  have name := @levelNameLength_le level
  have returned : format.returns (roomFor level) = format.text.length := by
    rw [Formatting.returns, works]
    rfl
  have stored : format.stores (roomFor level) = terminated (roomFor level) format.text := by
    rw [Formatting.stores, works]
  obtain ⟨rest, parts, stray⟩ := logger.prepared_parts level tm format
  have length : (header level tm ++ format.text ++ [newline]).length =
      20 + levelNameLength level + format.text.length + 1 := by
    rw [List.length_append, List.length_append, header_length]
    rfl
  rw [stored] at parts
  rw [vprint_eq, returned, if_pos (by omega)]
  by_cases fits : 20 + levelNameLength level + format.text.length < bufSize
  · have room : format.text.length < roomFor level := by
      simp only [roomFor, bufSize] at *
      omega
    rw [terminated_eq room] at parts
    obtain ⟨written, inside⟩ := store_newline parts
    have count : toSize ((20 + levelNameLength level : Nat) + (format.text.length : Int) + 1) =
        20 + levelNameLength level + format.text.length + 1 := by
      simp only [toSize, sizeMax, bufSize] at *
      omega
    rw [if_pos ((fits_iff format.short).2 fits), count]
    refine ⟨congrArg (logger.log ++ ·) (written.trans ?_), inside.trans stray, rfl⟩
    rw [line, ← header]
    exact (if_pos (by rw [length]; exact fits)).symm
  · obtain ⟨written, inside⟩ := store_dots (Nat.not_lt.1 fits) parts
    rw [if_neg fun small => fits ((fits_iff format.short).1 small)]
    refine ⟨congrArg (logger.log ++ ·) (written.trans ?_), inside.trans stray, rfl⟩
    rw [line, ← header]
    exact (if_neg (by rw [length]; exact fits)).symm

/-- A message that cannot be formatted is dropped. -/
theorem Logger.vprint_fails (logger : Logger) (level : Level) (tm : Tm)
    (fails : format.fails (roomFor level) ≠ none) :
    (logger.vprint level tm format).log = logger.log ∧
      (logger.vprint level tm format).stray = logger.stray ∧
        (logger.vprint level tm format).level = logger.level := by
  have returned : format.returns (roomFor level) = -1 :=
    if_pos (Option.isSome_iff_ne_none.2 fails)
  obtain ⟨-, -, stray⟩ := logger.prepared_parts level tm format
  rw [vprint_eq, returned, if_neg (by decide)]
  exact ⟨rfl, stray, rfl⟩

theorem line_length_pos {text : Bytes} : 0 < (line level tm text).length := by
  unfold line
  dsimp only
  split
  · rw [List.length_append]
    exact Nat.succ_pos _
  · rw [List.length_append]
    exact Nat.add_pos_right _ (by decide)

/-- The functions print for these levels. -/
def Prints (inForce level : Level) : Prop :=
  level = .fatal ∨ value inForce ≤ if level = .critical then value .trace else value level

instance (inForce level : Level) : Decidable (Prints inForce level) :=
  inferInstanceAs (Decidable (level = .fatal ∨
    value inForce ≤ if level = .critical then value .trace else value level))

theorem apply_print (logger : Logger) (level : Level) (tm : Tm) (format : Formatting) :
    Call.apply logger (.print level tm format) =
      if Prints logger.level level then logger.vprint level tm format else logger := by
  cases level with
  | fatal => exact (if_pos (.inl rfl)).symm
  | _ => simp [Call.apply, Logger.trace, Logger.debug, Logger.info, Logger.warn, Logger.error,
      Logger.critical, Logger.leveled, Prints]

/-- Only `critical` prints less than what is to be logged. -/
theorem prints_iff {inForce : Level} : Prints inForce level ↔
    Logged inForce level ∧ (level = .critical → inForce = .trace) := by
  cases inForce <;> cases level <;> decide

/-- A call of a level appends its line, or the call is not served. -/
theorem apply_print_log (logger : Logger) (level : Level) (tm : Tm) (some : format.text ≠ []) :
    (Call.apply logger (.print level tm format)).log = logger.log ++
        (if Prints logger.level level ∧ format.fails (roomFor level) = none then
          line level tm format.text else []) ∧
      (Call.apply logger (.print level tm format)).stray = logger.stray ∧
        (Call.apply logger (.print level tm format)).level = logger.level := by
  rw [apply_print]
  by_cases prints : Prints logger.level level
  · rw [if_pos prints]
    by_cases works : format.fails (roomFor level) = none
    · rw [if_pos ⟨prints, works⟩]
      exact logger.vprint_line level tm works some
    · rw [if_neg fun both => works both.2, List.append_nil]
      exact logger.vprint_fails level tm works
  · rw [if_neg prints, if_neg fun both => prints both.1, List.append_nil]
    exact ⟨rfl, rfl, rfl⟩

variable {calls : List Call}

/-- What a run appends to the log is no more than the lines, and all of them when every call is
served. -/
theorem run_log (logger : Logger) (calls : List Call) (nonempty : ∀ call ∈ calls, call.Nonempty) :
    ∃ added, (run logger calls).log = logger.log ++ added ∧
      (run logger calls).stray = logger.stray ∧
        added.length ≤ (linesOf logger.level calls).length ∧
          (Served logger.level calls → added = linesOf logger.level calls) ∧
            (added.length = (linesOf logger.level calls).length → Served logger.level calls) := by
  induction calls generalizing logger with
  | nil => exact ⟨[], (List.append_nil _).symm, rfl, Nat.le_refl _, fun _ => rfl, fun _ => trivial⟩
  | cons call rest ih =>
      have others := ih (Call.apply logger call) fun other member =>
        nonempty other (List.mem_cons_of_mem _ member)
      cases call with
      | setLevel level => exact others
      | print level tm format =>
          obtain ⟨log, stray, same⟩ := apply_print_log logger level tm
            (nonempty (.print level tm format) List.mem_cons_self)
          obtain ⟨added, final, inside, less, all, served⟩ := others
          rw [same] at less all served
          have positive := @line_length_pos level tm format.text
          simp only [run, List.foldl_cons, linesOf, Served] at final inside ⊢
          generalize line level tm format.text = new at log positive ⊢
          rw [log, List.append_assoc] at final
          refine ⟨_, final, inside.trans stray, ?_⟩
          by_cases logged : Logged logger.level level
          · by_cases works : (level = .critical → logger.level = .trace) ∧
                format.fails (roomFor level) = none
            · rw [if_pos ⟨prints_iff.2 ⟨logged, works.1⟩, works.2⟩, if_pos logged, List.length_append,
                List.length_append]
              exact ⟨Nat.add_le_add_left less _, fun ⟨_, later⟩ => by rw [all later],
                fun equal => ⟨fun _ => works, served (Nat.add_left_cancel equal)⟩⟩
            · rw [if_neg fun both => works ⟨(prints_iff.1 both.1).2, both.2⟩, if_pos logged,
                List.nil_append, List.length_append]
              exact ⟨Nat.le_trans less (Nat.le_add_left _ _), fun both => absurd (both.1 logged) works,
                fun equal => by omega⟩
          · rw [if_neg fun both => logged (prints_iff.1 both.1).1, if_neg logged, List.nil_append, List.nil_append]
            exact ⟨less, fun both => all both.2, fun equal => ⟨fun here => absurd here logged,
              served equal⟩⟩

/-- The log is exactly the lines of the calls if and only if every critical call is made at the
level `TRACE`, and what is to be logged can be formatted.  No store leaves the buffer. -/
theorem log_exact_iff (nonempty : ∀ call ∈ calls, call.Nonempty) (logger : Logger) :
    ((run logger calls).log = logger.log ++ linesOf logger.level calls ↔
      Served logger.level calls) ∧ (run logger calls).stray = logger.stray := by
  obtain ⟨added, final, inside, -, all, served⟩ := run_log logger calls nonempty
  refine ⟨?_, inside⟩
  rw [final]
  exact ⟨fun same => served (congrArg List.length (List.append_cancel_left same)),
    fun here => congrArg (logger.log ++ ·) (all here)⟩

/-- A logger with a zero buffer. -/
def fresh (level : Level) : Logger where
  level
  buf := List.replicate bufSize 0
  sized := List.length_replicate

def newYear : Tm where
  year := 2024
  month := 1
  day := 1
  hour := 0
  minute := 0
  second := 0
  four := by decide

def hello : Formatting where
  text := ascii "hello"
  short := by decide

theorem log_exact_iff_info :
    (run (fresh .info) [.print .debug newYear hello, .print .info newYear hello]).log =
      ascii "2024-01-01 00:00:00 INFO hello\n" := by
  have nonempty : ∀ call ∈ [Call.print .debug newYear hello, .print .info newYear hello],
      call.Nonempty := by
    simp [Call.Nonempty, hello, ascii]
  have exact := (log_exact_iff nonempty (fresh .info)).1.2 ⟨fun _ => ⟨by decide, rfl⟩,
    fun _ => ⟨by decide, rfl⟩, trivial⟩
  exact exact.trans (by decide)

/-- A critical message is dropped at the default level. -/
theorem log_exact_iff_critical : ¬ ∀ (logger : Logger) (calls : List Call),
    (∀ call ∈ calls, call.Nonempty) →
      (run logger calls).log = logger.log ++ linesOf logger.level calls := by
  intro claim
  have nonempty : ∀ call ∈ [Call.print .critical newYear hello], call.Nonempty := by
    simp [Call.Nonempty, hello, ascii]
  have log := claim (fresh .info) _ nonempty
  have dropped : run (fresh .info) [.print .critical newYear hello] = fresh .info := by
    rw [run, List.foldl_cons, apply_print, if_neg (by decide), List.foldl_nil]
  rw [dropped] at log
  exact absurd (congrArg List.length log) (by decide)

end Nexer.Logging
