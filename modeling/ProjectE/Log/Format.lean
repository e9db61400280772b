import ProjectE.Lib.Lines
import ProjectE.Lib.Loop
import ProjectE.Lib.Word
import Mathlib.Data.List.DropRight

/-!
# The lines of the log

`formatMessage` cuts the blanks off the end of a message and puts the prefix of its level in front
of every line: the first one gets it at the end, and a loop puts it behind every newline, starting
the next search behind what it has put there. Text is a list of the source's `char`s.

The loop stops at a newline that is the last character but one, so a last line of one character is
left without its prefix. `formatMessage_eq_iff` says that no other line is, and that the carriage
returns at the end of a message are cut off with the other blanks.
-/

namespace ProjectE.Log

open Verif

/-- `Level`, from the least to the most urgent. -/
inductive Level where
  | LDEBUG
  | LINFO
  | LWARNING
  | LERROR
  | LCRITICAL
deriving DecidableEq, Repr

/-- The names of the levels. -/
def levelToStr : Level → List Char
  | .LDEBUG => "DEBUG".toList
  | .LINFO => "INFO".toList
  | .LWARNING => "WARNING".toList
  | .LERROR => "ERROR".toList
  | .LCRITICAL => "CRITICAL".toList

/-- The colours, as the terminal is told them. -/
def LOG_PINK : List Char := "\x1b[35m".toList

def LOG_GREEN : List Char := "\x1b[32m".toList

def LOG_YELLOW : List Char := "\x1b[33m".toList

def LOG_RED : List Char := "\x1b[31m".toList

def LOG_BOLD : List Char := "\x1b[1m".toList

def LOG_COLOR_RESET : List Char := "\x1b[0m".toList

/-- The colour of a level; the most urgent one is bold besides. -/
def levelToColor : Level → List Char
  | .LDEBUG => LOG_PINK
  | .LINFO => LOG_GREEN
  | .LWARNING => LOG_YELLOW
  | .LERROR => LOG_RED
  | .LCRITICAL => LOG_RED ++ LOG_BOLD

/-- `createDefaultPrefix`: the name of the level in brackets and a blank after it. It is the prefix
until another creator is set. -/
def createDefaultPrefix (level : Level) : List Char :=
  "[".toList ++ levelToStr level ++ "] ".toList

/-- The characters of `" \n\r\t"`. -/
def isBlank (c : Char) : Bool := c = ' ' || c = '\n' || c = '\r' || c = '\t'

/-- `message_copy` without what comes after `find_last_not_of(" \n\r\t")`. -/
def eraseBlanks (message : List Char) : List Char := message.rdropWhile isBlank

/-- `find('\n', pos)`: the position of the first line end from `pos` on, counted from the start of
the text. -/
def findNewline (text : List Char) (pos : ℕ) : Option ℕ :=
  ((text.drop pos).findIdx? (· = '\n')).map (· + pos)

/-- `size() - 2`, which wraps below 2. -/
def sizeMinusTwo (text : List Char) : ℕ :=
  if text.length < 2 then text.length + sizeBound - 2 else text.length - 2

/-- One turn of the loop: the text and `pos` after it. -/
def prefixTurn (pre : List Char) (s : List Char × ℕ) : Turn (List Char × ℕ) (List Char) :=
  let (text, pos) := s
  match findNewline text pos with
  | none => .done text
  | some pos =>
    if pos < sizeMinusTwo text then
      .next (text.take pos ++ ('\n' :: pre) ++ text.drop (pos + 1), pos + (pre.length + 1))
    else .done text

section Logger

variable (prefixCreator : Level → List Char)

/-- The prefix of a message, in the colour of its level or not. -/
def messagePrefix (level : Level) (addColor : Bool) : List Char :=
  if addColor then levelToColor level ++ prefixCreator level ++ LOG_COLOR_RESET
  else prefixCreator level

/-- `formatMessage`: blanks at the end are cut off, the prefix goes before the text, and again
behind every line end the loop rewrites. `none` stands for a loop that is not done after `fuel`
turns; it always is (`formatMessage_eq_iff`). -/
def formatMessage (fuel : ℕ) (level : Level) (message : List Char) (addColor : Bool) :
    Option (List Char) :=
  let pre := messagePrefix prefixCreator level addColor
  (loop (prefixTurn pre) fuel (eraseBlanks message, 0)).map (pre ++ ·)

end Logger

/-- In the range of `std::size_t`. -/
theorem sizeMinusTwo_eq {text : List Char} (h : text.length < sizeBound) :
    sizeMinusTwo text = subSize text.length 2 := by
  unfold sizeMinusTwo
  by_cases hshort : text.length < 2
  · rw [if_pos hshort, subSize, sizeBound]
    omega
  · rw [if_neg hshort, subSize_of_le (by omega) h]

/-! ## The loop -/

variable {pre line text before done : List Char} {c : Char}

theorem findNewline_line (h : '\n' ∉ line) :
    findNewline (done ++ (line ++ '\n' :: text)) done.length =
      some (done.length + line.length) := by
  have hline : line.findIdx? (· = '\n') = none := by
    rw [List.findIdx?_eq_none_iff]
    intro c hc
    exact decide_eq_false fun heq => h (heq ▸ hc)
  rw [findNewline, List.drop_left, List.findIdx?_append, hline, List.findIdx?_cons]
  simp only [decide_true, if_true, Option.map_some, Option.none_or, Nat.zero_add]
  rw [Nat.add_comm]

theorem findNewline_last (h : '\n' ∉ line) : findNewline (done ++ line) done.length = none := by
  rw [findNewline, List.drop_left, Option.map_eq_none_iff, List.findIdx?_eq_none_iff]
  intro c hc
  exact decide_eq_false fun heq => h (heq ▸ hc)

theorem prefixTurn_last (pre done : List Char) (h : '\n' ∉ line) :
    prefixTurn pre (done ++ line, done.length) = .done (done ++ line) := by
  rw [prefixTurn, findNewline_last h]

/-- A newline is rewritten if two characters come after it. -/
theorem prefixTurn_line (pre done : List Char) (h : '\n' ∉ line) (htext : text ≠ []) :
    prefixTurn pre (done ++ (line ++ '\n' :: text), done.length) =
      if 2 ≤ text.length then
        .next (done ++ line ++ '\n' :: pre ++ text, (done ++ line ++ '\n' :: pre).length)
      else .done (done ++ (line ++ '\n' :: text)) := by
  have hpos : 0 < text.length := List.length_pos_iff.mpr htext
  have hlength : (done ++ (line ++ '\n' :: text)).length =
      done.length + line.length + 1 + text.length := by
    simp only [List.length_append, List.length_cons]
    omega
  have hguard : done.length + line.length < sizeMinusTwo (done ++ (line ++ '\n' :: text)) ↔
      2 ≤ text.length := by
    rw [sizeMinusTwo, hlength, if_neg (by omega)]
    omega
  have hsplit : done ++ (line ++ '\n' :: text) = (done ++ line) ++ '\n' :: text :=
    (List.append_assoc done line _).symm
  have hhead : (done ++ line).length = done.length + line.length := List.length_append
  simp only [prefixTurn, findNewline_line h, hguard]
  refine if_congr Iff.rfl (congrArg Turn.next (Prod.ext ?_ ?_)) rfl
  · show (done ++ (line ++ '\n' :: text)).take (done.length + line.length) ++ ('\n' :: pre) ++
        (done ++ (line ++ '\n' :: text)).drop (done.length + line.length + 1) = _
    rw [hsplit, ← hhead, List.take_left, ← List.drop_drop, List.drop_left]
    rfl
  · show done.length + line.length + (pre.length + 1) = (done ++ line ++ '\n' :: pre).length
    rw [List.length_append, hhead, List.length_cons]

/-- The loop puts the prefix behind the newline of a line, and goes on. -/
theorem returns_line {r : List Char} (h : '\n' ∉ line) (htext : 2 ≤ text.length)
    (hr : Returns (prefixTurn pre)
      (done ++ line ++ '\n' :: pre ++ text, (done ++ line ++ '\n' :: pre).length)
      (done ++ line ++ '\n' :: pre ++ r)) :
    Returns (prefixTurn pre) (done ++ (line ++ '\n' :: text), done.length)
      (done ++ (line ++ '\n' :: (pre ++ r))) := by
  have hne : text ≠ [] := List.length_pos_iff.mp (by omega)
  have hturn := (prefixTurn_line pre done h hne).trans (if_pos htext)
  rw [returns_next_iff hturn]
  simpa only [List.append_assoc, List.cons_append] using hr

/-- Every line gets its prefix, if the last one has not one character. -/
theorem returns_prefixed (pre : List Char) (hnewline : ∀ before, text ≠ before ++ ['\n'])
    (hshort : ∀ before c, text ≠ before ++ ['\n', c]) (done : List Char) :
    ∃ r, Returns (prefixTurn pre) (done ++ text, done.length) (done ++ r) ∧
      pre ++ r = Lines.prefixed '\n' pre text := by
  induction text using Lines.induction_on_lines '\n' generalizing done with
  | last line hline =>
    exact ⟨line, .of_done (prefixTurn_last pre done hline), (Lines.prefixed_line pre hline).symm⟩
  | first line text hline ih =>
    have hlength : 2 ≤ text.length := by
      rcases text with - | ⟨c, - | ⟨d, text⟩⟩
      · exact absurd rfl (hnewline line)
      · exact absurd rfl (hshort line c)
      · exact Nat.le_add_left 2 text.length
    obtain ⟨r, hr, heq⟩ := ih
      (fun before htext => hnewline (line ++ '\n' :: before) (by rw [htext]; simp))
      (fun before c htext => hshort (line ++ '\n' :: before) c (by rw [htext]; simp))
      (done ++ line ++ '\n' :: pre)
    refine ⟨_, returns_line hline hlength hr, ?_⟩
    rw [Lines.prefixed_cons pre text hline, heq, List.append_assoc]

/-- A last line of one character gets no prefix. -/
theorem returns_unprefixed (pre before : List Char) (c : Char) (done : List Char) :
    ∃ r, Returns (prefixTurn pre) (done ++ (before ++ ['\n', c]), done.length) (done ++ r) ∧
      pre ++ r = Lines.prefixed '\n' pre before ++ ['\n', c] := by
  induction before using Lines.induction_on_lines '\n' generalizing done with
  | last line hline =>
    have hturn := (prefixTurn_line pre done hline (List.cons_ne_nil c [])).trans
      (if_neg (Nat.lt_irrefl 1))
    refine ⟨_, .of_done hturn, ?_⟩
    rw [Lines.prefixed_line pre hline, List.append_assoc]
  | first line text hline ih =>
    obtain ⟨r, hr, heq⟩ := ih (done ++ line ++ '\n' :: pre)
    have hlength : 2 ≤ (text ++ ['\n', c]).length := by
      rw [List.length_append]
      exact Nat.le_add_left 2 text.length
    refine ⟨line ++ '\n' :: (pre ++ r), ?_, ?_⟩
    · rw [List.append_assoc, List.cons_append]
      exact returns_line hline hlength hr
    · rw [Lines.prefixed_cons pre text hline, heq]
      simp only [List.append_assoc, List.cons_append]

/-! ## The message -/

/-- Spaces, tabs and newlines. -/
def isSpacing (c : Char) : Bool := c = ' ' || c = '\t' || c = '\n'

/-- The message without the blanks at its end, and the prefix in front of each of its lines. -/
def prefixedMessage (blank : Char → Bool) (prefixCreator : Level → List Char) (level : Level)
    (message : List Char) (addColor : Bool) : List Char :=
  Lines.prefixed '\n' (messagePrefix prefixCreator level addColor) (message.rdropWhile blank)

/-- The last line of the message is one character, but for blanks behind it. -/
def ShortLastLine (message : List Char) : Prop :=
  ∃ before c blanks, message = before ++ '\n' :: c :: blanks ∧ ¬isBlank c ∧ ∀ b ∈ blanks, isBlank b

/-- The message ends in a carriage return, but for spaces, tabs and newlines behind it. -/
def EndsInReturn (message : List Char) : Prop :=
  ∃ before spacing, message = before ++ '\r' :: spacing ∧ ∀ c ∈ spacing, isSpacing c

/-- The prefix is empty, or no line goes without it. -/
def NoneLeftOut (prefixCreator : Level → List Char) (level : Level) (message : List Char)
    (addColor : Bool) : Prop :=
  (addColor = false ∧ prefixCreator level = []) ∨ ¬ShortLastLine message

theorem isBlank_of_isSpacing {c : Char} (h : isSpacing c) : isBlank c := by
  simp only [isSpacing, isBlank, Bool.or_eq_true, decide_eq_true_eq] at h ⊢
  tauto

theorem eq_return_of_isBlank {c : Char} (h : isBlank c) (hspacing : ¬isSpacing c) : c = '\r' := by
  simp only [isSpacing, isBlank, Bool.or_eq_true, decide_eq_true_eq] at h hspacing
  tauto

theorem rdropWhile_append {α : Type} {p : α → Bool} {blanks : List α} (message : List α)
    (h : ∀ b ∈ blanks, p b) : (message ++ blanks).rdropWhile p = message.rdropWhile p := by
  have hreverse : ∀ b ∈ blanks.reverse, p b := fun b hb => h b (List.mem_reverse.mp hb)
  rw [List.rdropWhile, List.reverse_append, List.dropWhile_append_of_pos hreverse]
  rfl

/-- What is left does not end in a blank. -/
theorem not_isBlank_of_eraseBlanks {message : List Char} (h : eraseBlanks message = before ++ [c]) :
    ¬isBlank c := by
  have hne : message.rdropWhile isBlank ≠ [] :=
    h.trans_ne (List.append_ne_nil_of_right_ne_nil before (List.cons_ne_nil c []))
  have hc : (message.rdropWhile isBlank).getLast hne = c := by
    rw [List.getLast_congr hne (by simp) h, List.getLast_append_singleton]
  exact hc ▸ List.rdropWhile_last_not isBlank message hne

theorem shortLastLine_iff {message : List Char} :
    ShortLastLine message ↔ ∃ before c, eraseBlanks message = before ++ ['\n', c] := by
  constructor
  · rintro ⟨before, c, blanks, rfl, hc, hblanks⟩
    refine ⟨before, c, ?_⟩
    have hsplit : before ++ '\n' :: c :: blanks = (before ++ ['\n', c]) ++ blanks := by simp
    have hlast : before ++ ['\n', c] = (before ++ ['\n']) ++ [c] := by simp
    rw [hsplit, eraseBlanks, rdropWhile_append _ hblanks, hlast,
      List.rdropWhile_concat_neg _ _ _ hc]
  · rintro ⟨before, c, herase⟩
    have hlast : eraseBlanks message = (before ++ ['\n']) ++ [c] := by
      rw [herase, List.append_assoc]
      rfl
    refine ⟨before, c, message.rtakeWhile isBlank, ?_, not_isBlank_of_eraseBlanks hlast,
      fun b hb => List.mem_rtakeWhile_imp hb⟩
    have hsplit : eraseBlanks message ++ message.rtakeWhile isBlank = message :=
      List.rdropWhile_append_rtakeWhile
    rw [herase, List.append_assoc] at hsplit
    exact hsplit.symm

theorem ne_newline_of_eraseBlanks {message : List Char}
    (h : eraseBlanks message = before ++ ['\n', c]) : c ≠ '\n' := by
  rintro rfl
  have hlast : eraseBlanks message = (before ++ ['\n']) ++ ['\n'] := by
    rw [h, List.append_assoc]
    rfl
  exact not_isBlank_of_eraseBlanks hlast (by decide)

/-- A last line of one character shows whether it has its prefix. -/
theorem unprefixed_eq_iff (before : List Char) (h : c ≠ '\n') :
    Lines.prefixed '\n' pre before ++ ['\n', c] =
      Lines.prefixed '\n' pre (before ++ ['\n', c]) ↔ pre = [] := by
  have hline : '\n' ∉ [c] := fun hmem => h (List.mem_singleton.mp hmem).symm
  rw [Lines.prefixed_append, Lines.prefixed_line pre hline, List.append_cancel_left_eq,
    List.cons_inj_right]
  exact List.self_eq_append_left

theorem length_unprefixed_le (pre before : List Char) (c : Char) :
    (Lines.prefixed '\n' pre before ++ ['\n', c]).length ≤
      (Lines.prefixed '\n' pre (before ++ ['\n', c])).length := by
  have hline : 1 ≤ (Lines.prefixed '\n' pre [c]).length := by
    rw [Lines.length_prefixed]
    exact Nat.le_add_right _ _
  rw [Lines.prefixed_append, List.length_append, List.length_append]
  exact Nat.add_le_add_left (Nat.succ_le_succ hline) _

theorem messagePrefix_eq_nil_iff {prefixCreator : Level → List Char} {level : Level}
    {addColor : Bool} : messagePrefix prefixCreator level addColor = [] ↔
      addColor = false ∧ prefixCreator level = [] := by
  unfold messagePrefix
  cases addColor with
  | false => simp
  | true => simp [LOG_COLOR_RESET]

/-- What `formatMessage` returns is what its loop returns, behind the first prefix. -/
theorem formatMessage_of_returns {prefixCreator : Level → List Char} {level : Level}
    {message r : List Char} {addColor : Bool}
    (h : Returns (prefixTurn (messagePrefix prefixCreator level addColor))
      (eraseBlanks message, 0) r) :
    ∃ fuel, formatMessage prefixCreator fuel level message addColor =
      some (messagePrefix prefixCreator level addColor ++ r) := by
  obtain ⟨fuel, hfuel⟩ := h
  exact ⟨fuel, by rw [formatMessage, hfuel, Option.map_some]⟩

/-- A carriage return at the end is erased with the rest. -/
theorem rdropWhile_isSpacing {message : List Char} (h : ¬EndsInReturn message) :
    message.rdropWhile isSpacing = eraseBlanks message := by
  have hsplit : message.rdropWhile isSpacing ++ message.rtakeWhile isSpacing = message :=
    List.rdropWhile_append_rtakeWhile
  have hspacing : ∀ c ∈ message.rtakeWhile isSpacing, isBlank c := fun c hc =>
    isBlank_of_isSpacing (List.mem_rtakeWhile_imp hc)
  have herase : eraseBlanks message = eraseBlanks (message.rdropWhile isSpacing) := by
    conv_lhs => rw [← hsplit]
    exact rdropWhile_append _ hspacing
  rw [herase, eraseBlanks, eq_comm, List.rdropWhile_eq_self_iff]
  intro hne hblank
  have hlast := List.rdropWhile_last_not isSpacing message hne
  have hreturn : (message.rdropWhile isSpacing).getLast hne = '\r' :=
    eq_return_of_isBlank hblank hlast
  refine h ⟨(message.rdropWhile isSpacing).dropLast, message.rtakeWhile isSpacing, ?_,
    fun c hc => List.mem_rtakeWhile_imp hc⟩
  conv_lhs => rw [← hsplit, ← List.dropLast_append_getLast hne, hreturn, List.append_assoc]
  rfl

/-- With the carriage return, there is more than is left. -/
theorem length_lt_of_endsInReturn {prefixCreator : Level → List Char} {level : Level}
    {message : List Char} {addColor : Bool} (h : EndsInReturn message) :
    (prefixedMessage isBlank prefixCreator level message addColor).length <
      (prefixedMessage isSpacing prefixCreator level message addColor).length := by
  obtain ⟨before, spacing, rfl, hspacing⟩ := h
  have hsplit : before ++ '\r' :: spacing = (before ++ ['\r']) ++ spacing := by simp
  have hspaced : (before ++ '\r' :: spacing).rdropWhile isSpacing = before ++ ['\r'] := by
    rw [hsplit, rdropWhile_append _ hspacing,
      List.rdropWhile_concat_neg _ _ _ (by decide : ¬isSpacing '\r')]
  have herased : (before ++ '\r' :: spacing).rdropWhile isBlank = before.rdropWhile isBlank := by
    refine rdropWhile_append before (List.forall_mem_cons.mpr ⟨by decide, fun c hc => ?_⟩)
    exact isBlank_of_isSpacing (hspacing c hc)
  have hfront : before.rdropWhile isBlank <+: before := List.rdropWhile_prefix isBlank before
  have hcount : (before.rdropWhile isBlank).count '\n' ≤ (before ++ ['\r']).count '\n' :=
    (hfront.sublist.trans (List.sublist_append_left _ _)).count_le _
  have hlines := Nat.mul_le_mul_right (messagePrefix prefixCreator level addColor).length
    (Nat.succ_le_succ hcount)
  have hlength : (before.rdropWhile isBlank).length < (before ++ ['\r']).length := by
    rw [List.length_append, List.length_singleton]
    exact Nat.lt_succ_of_le hfront.length_le
  rw [prefixedMessage, prefixedMessage, herased, hspaced, Lines.length_prefixed,
    Lines.length_prefixed]
  exact Nat.add_lt_add_of_lt_of_le hlength hlines

/-- What is returned is the message with its prefixes, or less than that. -/
theorem exists_formatMessage (prefixCreator : Level → List Char) (level : Level)
    (message : List Char) (addColor : Bool) :
    ∃ text, (∃ fuel, formatMessage prefixCreator fuel level message addColor = some text) ∧
      text.length ≤ (prefixedMessage isBlank prefixCreator level message addColor).length ∧
      (text = prefixedMessage isBlank prefixCreator level message addColor ↔
        NoneLeftOut prefixCreator level message addColor) := by
  rw [NoneLeftOut, ← messagePrefix_eq_nil_iff, shortLastLine_iff, prefixedMessage, ← eraseBlanks]
  by_cases hshort : ∃ before c, eraseBlanks message = before ++ ['\n', c]
  · obtain ⟨before, c, herase⟩ := hshort
    obtain ⟨r, hr, heq⟩ :=
      returns_unprefixed (messagePrefix prefixCreator level addColor) before c []
    refine ⟨_, formatMessage_of_returns (herase ▸ hr), ?_, ?_⟩
    · rw [List.nil_append, heq, herase]
      exact length_unprefixed_le _ before c
    · rw [List.nil_append, heq, herase,
        unprefixed_eq_iff before (ne_newline_of_eraseBlanks herase)]
      exact (or_iff_left (not_not.mpr ⟨before, c, rfl⟩)).symm
  · have hnewline : ∀ before, eraseBlanks message ≠ before ++ ['\n'] :=
      fun before herase => not_isBlank_of_eraseBlanks herase (by decide)
    have hlong : ∀ before c, eraseBlanks message ≠ before ++ ['\n', c] :=
      fun before c herase => hshort ⟨before, c, herase⟩
    obtain ⟨r, hr, heq⟩ :=
      returns_prefixed (messagePrefix prefixCreator level addColor) hnewline hlong []
    rw [List.nil_append] at hr
    exact ⟨_, formatMessage_of_returns hr, (congrArg List.length heq).le,
      iff_of_true heq (.inr hshort)⟩

/-- **Every logged line carries the prefix**, unless the last line is one character and the prefix
is not empty; whatever the message, `formatMessage` returns. With the spaces, tabs and newlines at
the end, it takes the carriage returns. -/
theorem formatMessage_eq_iff (prefixCreator : Level → List Char) (level : Level)
    (message : List Char) (addColor : Bool) :
    ∃ text, (∃ fuel, formatMessage prefixCreator fuel level message addColor = some text) ∧
      (text = prefixedMessage isSpacing prefixCreator level message addColor ↔
        ¬EndsInReturn message ∧ NoneLeftOut prefixCreator level message addColor) ∧
      (text = prefixedMessage isBlank prefixCreator level message addColor ↔
        NoneLeftOut prefixCreator level message addColor) := by
  obtain ⟨text, hreturn, hlength, hiff⟩ :=
    exists_formatMessage prefixCreator level message addColor
  refine ⟨text, hreturn, ?_, hiff⟩
  by_cases hend : EndsInReturn message
  · refine iff_of_false (fun heq => ?_) fun hboth => hboth.1 hend
    rw [heq] at hlength
    exact absurd (length_lt_of_endsInReturn hend) (Nat.not_lt.mpr hlength)
  · rw [and_iff_right hend, ← hiff, prefixedMessage, prefixedMessage, rdropWhile_isSpacing hend,
      eraseBlanks]

/-- A message of two lines of one character. -/
theorem not_formatMessage_eq :
    ¬ ∀ (prefixCreator : Level → List Char) (level : Level) (message : List Char) (addColor : Bool),
      ∃ fuel, formatMessage prefixCreator fuel level message addColor =
        some (prefixedMessage isSpacing prefixCreator level message addColor) := by
  intro h
  obtain ⟨fuel, hfuel⟩ := h createDefaultPrefix .LINFO ['a', '\n', 'b'] false
  have hturn : prefixTurn (createDefaultPrefix .LINFO) (eraseBlanks ['a', '\n', 'b'], 0) =
      .done ['a', '\n', 'b'] := rfl
  have hfull : prefixedMessage isSpacing createDefaultPrefix .LINFO ['a', '\n', 'b'] false =
      "[INFO] a\n[INFO] b".toList := by decide
  rw [hfull] at hfuel
  cases fuel with
  | zero => cases hfuel
  | succ fuel =>
    have hreturn : formatMessage createDefaultPrefix (fuel + 1) .LINFO ['a', '\n', 'b'] false =
        some "[INFO] a\nb".toList :=
      congrArg (Option.map (createDefaultPrefix .LINFO ++ ·)) (loop_done hturn fuel)
    rw [hreturn] at hfuel
    exact absurd hfuel (by decide)

end ProjectE.Log
