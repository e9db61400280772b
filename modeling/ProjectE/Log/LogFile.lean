import Mathlib.Logic.Function.Basic
import ProjectE.Lib.Transition
import ProjectE.Log.Format

/-!
# The log file

A message of the level that is set, or above, goes to the log stream in the colour of its level, and
without colour to the log file if one is open. `openLogFile` empties the file it opens; so does
`log` where the file has outgrown `max_log_size`, when it opens it again before it writes.

What is lost then is what is oldest. In every run the file that was opened last time at a path holds
the last of the lines logged to it since, in order and none of them torn; the newest is always
there, nothing is missing while all of it fits, and the file is too large by one line at most
(`logFile_tail`). Which lines are logged to a file is said by the calls alone (`record`). The OS may
refuse to open a file, and nobody else writes to it; what is written is taken to arrive.
-/

namespace ProjectE.Log

open Verif

/-- `<` of two enumerators. -/
def Level.lt (lhs rhs : Level) : Bool := lhs.ctorIdx < rhs.ctorIdx

/-- 100 MiB. -/
def DEFAULT_MAX_LOG_SIZE : ℕ := 104857600

/-- A `Logger`, and what it writes to. -/
structure Logger (Stream Path : Type) where
  logLevel : Level
  prefixCreator : Level → List Char
  logStream : Option Stream
  logFilePath : Path
  logFileIsOpen : Bool
  maxLogSize : ℕ
  streams : Stream → List Char
  files : Path → List Char
  /-- The lines logged to a file since `openLogFile` opened it, if it has. A record of the calls
  that no code reads. -/
  written : Path → Option (List (List Char))

/-- The calls. The OS lets a file be opened or not; `fuel` is for the loop of `formatMessage`. -/
inductive Call (Stream Path : Type) where
  | log (fuel : ℕ) (reopens : Bool) (level : Level) (message : List Char)
  | setLogLevel (level : Level)
  | setLogStream (stream : Option Stream)
  | resetLogStream
  | setLogPrefix (prefixCreator : Level → List Char)
  | resetLogPrefix
  | openLogFile (opens : Bool) (filePath : Path)
  | closeLogFile
  | setMaxLogSize (size : ℕ)

namespace Logger

variable {Stream Path : Type} [DecidableEq Stream] [DecidableEq Path]

/-- `*log_stream << line << std::endl`: a stream is only ever added to. -/
def print (s : Logger Stream Path) (stream : Stream) (line : List Char) : Logger Stream Path :=
  { s with streams := Function.update s.streams stream (s.streams stream ++ line ++ ['\n']) }

/-- `log_file << line << std::endl`, which does nothing where no file is open. -/
def write (s : Logger Stream Path) (line : List Char) : Logger Stream Path :=
  if s.logFileIsOpen then
    { s with
      files := Function.update s.files s.logFilePath (s.files s.logFilePath ++ line ++ ['\n']) }
  else s

/-- To open a file for writing empties it. -/
def empty (s : Logger Stream Path) : Logger Stream Path :=
  { s with files := Function.update s.files s.logFilePath [] }

/-- The file is closed and opened again if it is too large. -/
def rotate (s : Logger Stream Path) (reopens : Bool) : Logger Stream Path :=
  if s.maxLogSize < (s.files s.logFilePath).length then
    if reopens then s.empty else { s with logFileIsOpen := false }
  else s

/-- The stream gets the message in colour, if there is a stream. -/
def logToStream (s : Logger Stream Path) (fuel : ℕ) (level : Level) (message : List Char) :
    Option (Logger Stream Path) :=
  match s.logStream with
  | none => some s
  | some stream => (formatMessage s.prefixCreator fuel level message true).map (s.print stream)

/-- The file gets it without colour, if one is open. Whether the file is too large is looked at
before the line is written, not after. -/
def logToFile (s : Logger Stream Path) (fuel : ℕ) (reopens : Bool) (level : Level)
    (message : List Char) : Option (Logger Stream Path) :=
  if s.logFileIsOpen then
    (formatMessage s.prefixCreator fuel level message false).map (s.rotate reopens).write
  else some s

/-- `log`: a message below the level of the logger is dropped; any other goes to the stream and to
the file. -/
def log (s : Logger Stream Path) (fuel : ℕ) (reopens : Bool) (level : Level)
    (message : List Char) : Option (Logger Stream Path) :=
  if level.lt s.logLevel then some s
  else do
    let s ← s.logToStream fuel level message
    s.logToFile fuel reopens level message

/-- `openLogFile`: the file that is open already is left alone; any other is emptied by being
opened. Where the OS refuses, the file that was open before is closed. -/
def openLogFile (s : Logger Stream Path) (opens : Bool) (filePath : Path) : Logger Stream Path :=
  if s.logFileIsOpen ∧ s.logFilePath = filePath then s
  else if opens then
    { s with
      logFilePath := filePath
      logFileIsOpen := true
      files := Function.update s.files filePath [] }
  else { s with logFilePath := filePath, logFileIsOpen := false }

/-- The logger after a call. `none`: the fuel of a `log` was too little. -/
def call (defaultLogStream : Stream) (s : Logger Stream Path) :
    Call Stream Path → Option (Logger Stream Path)
  | .log fuel reopens level message => s.log fuel reopens level message
  | .setLogLevel level => some { s with logLevel := level }
  | .setLogStream stream => some { s with logStream := stream }
  | .resetLogStream => some { s with logStream := some defaultLogStream }
  | .setLogPrefix prefixCreator => some { s with prefixCreator := prefixCreator }
  | .resetLogPrefix => some { s with prefixCreator := createDefaultPrefix }
  | .openLogFile opens filePath => some (s.openLogFile opens filePath)
  | .closeLogFile => some { s with logFileIsOpen := false }
  | .setMaxLogSize size => some { s with maxLogSize := size }

/-- The line that a call of `log` is for. There is one if the level is the one that is set or above
and a file is open, unless that is too large and the OS does not let it be opened again. -/
def logged (s : Logger Stream Path) (fuel : ℕ) (reopens : Bool) (level : Level)
    (message : List Char) : List (List Char) :=
  if !level.lt s.logLevel && s.logFileIsOpen &&
      (reopens || (s.files s.logFilePath).length ≤ s.maxLogSize) then
    (formatMessage s.prefixCreator fuel level message false).toList
  else []

/-- The record after a call. -/
def record (s : Logger Stream Path) : Call Stream Path → Path → Option (List (List Char))
  | .log fuel reopens level message =>
    Function.update s.written s.logFilePath
      ((s.written s.logFilePath).map (· ++ s.logged fuel reopens level message))
  | .openLogFile opens filePath =>
    if opens ∧ ¬ (s.logFileIsOpen ∧ s.logFilePath = filePath) then
      Function.update s.written filePath (some [])
    else s.written
  | _ => s.written

/-- A call, put on record. -/
def step (defaultLogStream : Stream) (s : Logger Stream Path) (c : Call Stream Path) :
    Option (Logger Stream Path) :=
  (s.call defaultLogStream c).map fun t => { t with written := s.record c }

/-- `Logger()`, whatever the streams and the files hold. -/
def Starts (defaultLogStream : Stream) (s : Logger Stream Path) : Prop :=
  s.logLevel = .LINFO ∧ s.prefixCreator = createDefaultPrefix ∧
    s.logStream = some defaultLogStream ∧ s.logFileIsOpen = false ∧
    s.maxLogSize = DEFAULT_MAX_LOG_SIZE ∧ ∀ path, s.written path = none

/-- The runs of a logger, from its construction. -/
def machine (defaultLogStream : Stream) : Machine (Logger Stream Path) (Call Stream Path) where
  init := Starts defaultLogStream
  step := step defaultLogStream

/-- The condition on a call: sizes that are set are in these bounds. -/
def Sizes (low high : ℕ) (_ : Logger Stream Path) : Call Stream Path → Prop
  | .setMaxLogSize size => low ≤ size ∧ size ≤ high
  | _ => True

end Logger

/-! ## The end of the lines -/

/-- Lines as they are written. -/
def render (lines : List (List Char)) : List Char := lines.flatMap (· ++ ['\n'])

theorem render_concat (lines : List (List Char)) (line : List Char) :
    render (lines ++ [line]) = render lines ++ line ++ ['\n'] := by
  rw [render, List.flatMap_append, List.flatMap_singleton, ← render, List.append_assoc]

/-- The text is the last of the lines: all of them as long as they fit, the newest in any case, and
no line behind more than the limit. -/
def Tail (low high : ℕ) (lines : List (List Char)) (text : List Char) : Prop :=
  ∃ dropped kept, lines = dropped ++ kept ∧ text = render kept ∧
    (dropped ≠ [] → low < (render dropped).length) ∧ (kept = [] → lines = []) ∧
    ∀ before line, kept = before ++ [line] → (render before).length ≤ high

variable {low high : ℕ} {lines : List (List Char)} {text line : List Char}

theorem Tail.nil (low high : ℕ) : Tail low high [] [] :=
  ⟨[], [], rfl, rfl, fun h => absurd rfl h, fun _ => rfl,
    fun _ _ h => absurd h.symm (List.append_ne_nil_of_right_ne_nil _ (List.cons_ne_nil _ _))⟩

/-- A line is written behind what there is. -/
theorem Tail.concat (h : Tail low high lines text) (hfits : text.length ≤ high)
    (line : List Char) : Tail low high (lines ++ [line]) (text ++ line ++ ['\n']) := by
  obtain ⟨dropped, kept, rfl, rfl, hdropped, -, -⟩ := h
  refine ⟨dropped, kept ++ [line], (List.append_assoc ..), (render_concat kept line).symm, hdropped,
    fun hnil => absurd hnil (List.append_ne_nil_of_right_ne_nil _ (List.cons_ne_nil _ _)), ?_⟩
  intro before last heq
  obtain ⟨rfl, -⟩ := List.append_inj' heq rfl
  exact hfits

/-- A line is written to a file that was emptied as it was too large. -/
theorem Tail.restart (h : Tail low high lines text) (hlarge : low < text.length)
    (line : List Char) : Tail low high (lines ++ [line]) ([] ++ line ++ ['\n']) := by
  obtain ⟨dropped, kept, rfl, rfl, -, -, -⟩ := h
  refine ⟨dropped ++ kept, [line], rfl, (render_concat [] line).symm, fun _ => ?_,
    fun hnil => absurd hnil (List.cons_ne_nil _ _), ?_⟩
  · rw [render, List.flatMap_append, List.length_append]
    exact Nat.lt_add_left _ hlarge
  · intro before last heq
    have happend : [] ++ [line] = before ++ [last] := heq
    rw [← (List.append_inj' happend rfl).1]
    exact Nat.zero_le _

namespace Logger

variable {Stream Path : Type} [DecidableEq Stream] [DecidableEq Path] {s t : Logger Stream Path}
  {defaultLogStream : Stream}

/-! ## What calls keep -/

/-- Every file that was opened holds the last of the lines logged to it. A file that is open was
opened by `openLogFile`, and the limit is between the two bounds. -/
structure Inv (low high : ℕ) (s : Logger Stream Path) : Prop where
  low_le : low ≤ s.maxLogSize
  le_high : s.maxLogSize ≤ high
  isOpen : s.logFileIsOpen = true → (s.written s.logFilePath).isSome
  tail : ∀ path lines, s.written path = some lines → Tail low high lines (s.files path)

omit [DecidableEq Stream] [DecidableEq Path] in
/-- Where no file is opened or written to, it holds still. -/
theorem Inv.congr (h : Inv low high s) (hlow : low ≤ t.maxLogSize) (hhigh : t.maxLogSize ≤ high)
    (hopen : t.logFileIsOpen = true → s.logFileIsOpen = true ∧ t.logFilePath = s.logFilePath)
    (hfiles : t.files = s.files) (hwritten : t.written = s.written) : Inv low high t where
  low_le := hlow
  le_high := hhigh
  isOpen ht := by
    obtain ⟨hs, hpath⟩ := hopen ht
    rw [hwritten, hpath]
    exact h.isOpen hs
  tail path lines hlines := by
    rw [hfiles]
    exact h.tail path lines (hwritten ▸ hlines)

omit [DecidableEq Stream] in
/-- One file is opened, or a line written to it. -/
theorem Inv.update (h : Inv low high s) (hsize : t.maxLogSize = s.maxLogSize)
    (hfiles : t.files = Function.update s.files t.logFilePath text)
    (hwritten : t.written = Function.update s.written t.logFilePath (some lines))
    (htail : Tail low high lines text) : Inv low high t where
  low_le := hsize ▸ h.low_le
  le_high := hsize ▸ h.le_high
  isOpen _ := by
    rw [hwritten, Function.update_self]
    rfl
  tail path lines' hlines := by
    rw [hfiles]
    rw [hwritten] at hlines
    by_cases hpath : path = t.logFilePath
    · subst hpath
      rw [Function.update_self] at hlines ⊢
      cases hlines
      exact htail
    · rw [Function.update_of_ne hpath] at hlines ⊢
      exact h.tail path lines' hlines

omit [DecidableEq Path] in
/-- A message goes to the stream, and nothing else changes. -/
theorem exists_streams_of_logToStream {fuel : ℕ} {level : Level} {message : List Char}
    (h : s.logToStream fuel level message = some t) :
    ∃ streams, t = { s with streams := streams } := by
  unfold logToStream at h
  split at h
  next =>
    cases h
    exact ⟨s.streams, rfl⟩
  next stream _ =>
    obtain ⟨line, -, rfl⟩ := Option.map_eq_some_iff.mp h
    exact ⟨_, rfl⟩

omit [DecidableEq Stream] in
theorem write_of_open (h : s.logFileIsOpen = true) (line : List Char) : s.write line =
    { s with
      files := Function.update s.files s.logFilePath (s.files s.logFilePath ++ line ++ ['\n']) } :=
  if_pos h

omit [DecidableEq Stream] in
/-- The line is on record if the file is open when it is written. -/
theorem Inv.write (h : Inv low high s) (hopen : s.logFileIsOpen = true) (reopens : Bool)
    {line : List Char} {logged : List (List Char)}
    (hlogged : logged =
      if reopens || (s.files s.logFilePath).length ≤ s.maxLogSize then [line] else []) :
    Inv low high { (s.rotate reopens).write line with
      written := Function.update s.written s.logFilePath
        ((s.written s.logFilePath).map (· ++ logged)) } := by
  obtain ⟨lines, hlines⟩ := Option.isSome_iff_exists.mp (h.isOpen hopen)
  have htail := h.tail _ lines hlines
  rw [hlines, Option.map_some]
  unfold rotate
  split
  next hlarge =>
    cases reopens with
    | true =>
      have hline : logged = [line] := by simpa using hlogged
      rw [if_pos rfl, write_of_open (s := s.empty) hopen, hline]
      refine h.update rfl ?_ rfl (htail.restart (h.low_le.trans_lt hlarge) line)
      simp only [empty, Function.update_self, Function.update_idem]
    | false =>
      have hline : logged = [] := by simpa [Nat.not_le.mpr hlarge] using hlogged
      refine h.congr h.low_le h.le_high (fun hclosed => absurd hclosed Bool.false_ne_true) rfl ?_
      show Function.update s.written s.logFilePath (some (lines ++ logged)) = s.written
      rw [hline, List.append_nil, ← hlines, Function.update_eq_self]
  next hfits =>
    have hline : logged = [line] := by simpa [Nat.le_of_not_lt hfits] using hlogged
    rw [write_of_open hopen, hline]
    exact h.update rfl rfl rfl (htail.concat ((Nat.le_of_not_lt hfits).trans h.le_high) line)

omit [DecidableEq Stream] in
/-- Where a call logs nothing the record does not change. -/
theorem record_log_of_nil {fuel : ℕ} {reopens : Bool} {level : Level} {message : List Char}
    (h : s.logged fuel reopens level message = []) :
    s.record (.log fuel reopens level message) = s.written := by
  simp [record, h]

theorem Inv.log (h : Inv low high s) {fuel : ℕ} {reopens : Bool} {level : Level}
    {message : List Char} (hlog : s.log fuel reopens level message = some t) :
    Inv low high { t with written := s.record (.log fuel reopens level message) } := by
  unfold Logger.log at hlog
  split at hlog
  next hlevel =>
    cases hlog
    have hnil : s.logged fuel reopens level message = [] := by simp [logged, hlevel]
    exact h.congr h.low_le h.le_high (fun hopen => ⟨hopen, rfl⟩) rfl (record_log_of_nil hnil)
  next hlevel =>
    obtain ⟨s₁, hprint, hlog⟩ := Option.bind_eq_some_iff.mp hlog
    obtain ⟨streams, rfl⟩ := exists_streams_of_logToStream hprint
    unfold logToFile at hlog
    split at hlog
    next hopen =>
      obtain ⟨line, hline, rfl⟩ := Option.map_eq_some_iff.mp hlog
      have hlogged : s.logged fuel reopens level message =
          if reopens || (s.files s.logFilePath).length ≤ s.maxLogSize then [line] else [] := by
        have hformat : formatMessage s.prefixCreator fuel level message false = some line := hline
        have hopen' : s.logFileIsOpen = true := hopen
        simp [logged, hlevel, hopen', hformat]
      have hs₁ : Inv low high { s with streams := streams } :=
        h.congr h.low_le h.le_high (fun hopen => ⟨hopen, rfl⟩) rfl rfl
      exact hs₁.write hopen reopens hlogged
    next hclosed =>
      cases hlog
      have hnil : s.logged fuel reopens level message = [] := by
        have hclosed' : s.logFileIsOpen = false := Bool.eq_false_of_not_eq_true hclosed
        simp [logged, hclosed']
      exact h.congr h.low_le h.le_high (fun hopen => ⟨hopen, rfl⟩) rfl (record_log_of_nil hnil)

omit [DecidableEq Stream] in
theorem Inv.openLogFile (h : Inv low high s) (opens : Bool) (filePath : Path) :
    Inv low high { s.openLogFile opens filePath with
      written := s.record (.openLogFile opens filePath) } := by
  unfold Logger.openLogFile
  simp only [record]
  split
  next hsame =>
    rw [if_neg (fun hboth => hboth.2 hsame)]
    exact h
  next hother =>
    cases opens with
    | true =>
      rw [if_pos rfl, if_pos ⟨rfl, hother⟩]
      exact h.update rfl rfl rfl (.nil low high)
    | false =>
      rw [if_neg Bool.false_ne_true, if_neg (fun hboth => Bool.false_ne_true hboth.1)]
      exact h.congr h.low_le h.le_high (fun hclosed => absurd hclosed Bool.false_ne_true) rfl rfl

theorem inv_of_reach (hlow : low ≤ DEFAULT_MAX_LOG_SIZE) (hhigh : DEFAULT_MAX_LOG_SIZE ≤ high)
    (h : (machine defaultLogStream).ReachUnder (Sizes low high) s) : Inv low high s := by
  refine h.invariant (I := Inv low high) (fun s hs => ?_) fun s call t hs hsizes hstep => ?_
  · obtain ⟨-, -, -, hclosed, hsize, hwritten⟩ := hs
    refine ⟨hsize ▸ hlow, hsize ▸ hhigh, fun hopen => ?_, fun path lines hlines => ?_⟩
    · rw [hclosed] at hopen
      cases hopen
    · rw [hwritten path] at hlines
      cases hlines
  · obtain ⟨u, hcall, rfl⟩ := Option.map_eq_some_iff.mp hstep
    cases call with
    | log fuel reopens level message => exact hs.log hcall
    | openLogFile opens filePath =>
      cases hcall
      exact hs.openLogFile opens filePath
    | closeLogFile =>
      cases hcall
      exact hs.congr hs.low_le hs.le_high (fun hclosed => absurd hclosed Bool.false_ne_true) rfl rfl
    | setMaxLogSize size =>
      cases hcall
      exact hs.congr hsizes.1 hsizes.2 (fun hopen => ⟨hopen, rfl⟩) rfl rfl
    | setLogLevel | setLogStream | resetLogStream | setLogPrefix | resetLogPrefix =>
      cases hcall
      exact hs.congr hs.low_le hs.le_high (fun hopen => ⟨hopen, rfl⟩) rfl rfl

/-- Enough turns of its loop, and `formatMessage` returns; more do no harm. -/
theorem formatMessage_mono {prefixCreator : Level → List Char} {fuel fuel' : ℕ} (hle : fuel ≤ fuel')
    {level : Level} {message : List Char} {addColor : Bool}
    (h : formatMessage prefixCreator fuel level message addColor = some line) :
    formatMessage prefixCreator fuel' level message addColor = some line := by
  obtain ⟨r, hr, rfl⟩ := Option.map_eq_some_iff.mp h
  exact Option.map_eq_some_iff.mpr ⟨r, loop_mono hle hr, rfl⟩

/-- Every message can be logged. -/
theorem exists_log (s : Logger Stream Path) (reopens : Bool) (level : Level)
    (message : List Char) : ∃ fuel, (s.log fuel reopens level message).isSome := by
  obtain ⟨coloured, ⟨fuel₁, h₁⟩, -⟩ := exists_formatMessage s.prefixCreator level message true
  obtain ⟨plain, ⟨fuel₂, h₂⟩, -⟩ := exists_formatMessage s.prefixCreator level message false
  refine ⟨max fuel₁ fuel₂, ?_⟩
  have h₁ := formatMessage_mono (Nat.le_max_left fuel₁ fuel₂) h₁
  have h₂ := formatMessage_mono (Nat.le_max_right fuel₁ fuel₂) h₂
  unfold log
  split
  next => rfl
  next =>
    have hfile (s₁ : Logger Stream Path) (heq : s₁.prefixCreator = s.prefixCreator) :
        (s₁.logToFile (max fuel₁ fuel₂) reopens level message).isSome := by
      unfold logToFile
      rw [heq, h₂]
      split <;> rfl
    unfold logToStream
    split
    next => exact hfile s rfl
    next stream _ =>
      rw [h₁]
      exact hfile (s.print stream coloured) rfl

/-- **The log file holds the last lines**: in every run whose sizes are set between two bounds,
every file that `openLogFile` opened holds the end of the lines logged to it since, whole and in
order. The newest is there, none is missing while they fit in the lower bound, and none was written
behind more than the upper one. Every message can be logged. -/
theorem logFile_tail (hlow : low ≤ DEFAULT_MAX_LOG_SIZE) (hhigh : DEFAULT_MAX_LOG_SIZE ≤ high)
    (h : (machine defaultLogStream).ReachUnder (Sizes low high) s) :
    (∀ path lines, s.written path = some lines → Tail low high lines (s.files path)) ∧
      ∀ reopens level message, ∃ fuel, (s.log fuel reopens level message).isSome :=
  ⟨(inv_of_reach hlow hhigh h).tail, s.exists_log⟩

/-- A `Logger` among empty files. -/
def fresh : Logger Unit String where
  logLevel := .LINFO
  prefixCreator := createDefaultPrefix
  logStream := some ()
  logFilePath := ""
  logFileIsOpen := false
  maxLogSize := DEFAULT_MAX_LOG_SIZE
  streams _ := []
  files _ := []
  written _ := none

/-- A message below the level, and three above it, of which the second empties the file. -/
def rotation : List (Call Unit String) :=
  [.setMaxLogSize 20, .openLogFile true "game.log", .log 1 true .LDEBUG "unseen".toList,
    .log 1 true .LINFO "a long first line".toList, .log 1 true .LERROR "second".toList,
    .log 1 true .LINFO "third".toList]

/-- The last two lines are left. -/
theorem logFile_tail_rotation : ∃ s : Logger Unit String,
    s.files "game.log" = "[ERROR] second\n[INFO] third\n".toList ∧
      Tail 20 DEFAULT_MAX_LOG_SIZE ["[INFO] a long first line".toList, "[ERROR] second".toList,
        "[INFO] third".toList] (s.files "game.log") := by
  have hsizes : ∀ call ∈ rotation, ∀ s, Sizes 20 DEFAULT_MAX_LOG_SIZE s call := by
    intro call hcall s
    simp only [rotation, List.mem_cons, List.not_mem_nil, or_false] at hcall
    rcases hcall with rfl | rfl | rfl | rfl | rfl | rfl
    · exact ⟨le_refl 20, by decide⟩
    all_goals trivial
  have hrun : (((machine ()).exec Machine.Any fresh rotation).any fun s =>
      decide (s.files "game.log" = "[ERROR] second\n[INFO] third\n".toList ∧
        s.written "game.log" = some ["[INFO] a long first line".toList, "[ERROR] second".toList,
          "[INFO] third".toList])) = true := by
    decide +kernel
  obtain ⟨s, hreach, hs⟩ := Machine.reachUnder_of_labels
    (show (machine ()).init fresh from ⟨rfl, rfl, rfl, rfl, rfl, fun _ => rfl⟩) hsizes hrun
  obtain ⟨hfile, hwritten⟩ := of_decide_eq_true hs
  exact ⟨s, hfile, (logFile_tail (by decide) le_rfl hreach).1 _ _ hwritten⟩

end Logger

end ProjectE.Log
