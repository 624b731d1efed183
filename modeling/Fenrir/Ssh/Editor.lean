import Fenrir.Lib.Run
import Fenrir.Lib.Text
import Fenrir.Lib.Utf8

/-! # The line editor of the SSH server

The part of `infra/ssh/server.rs` that edits the line. The buffer is a text and the cursor
an offset into its bytes, so slicing the buffer at the cursor panics when the cursor stands
inside a character. What is written to the terminal is left out, but not the slices that are
taken for it. -/

namespace Fenrir.Ssh

open Utf8

/-! ## State -/

/-- Where a panic happens: in a slice of the buffer at the cursor, or elsewhere. -/
inductive Panic where
  | atCursor | elsewhere

inductive EscapeState where
  | none | esc | csi
  deriving DecidableEq

inductive ShellMode where
  | main | dbShell

structure DbCompletionCatalog where
  (entries tableNames : List (List Char))

/-- `Handler`, as far as the line editor uses it. -/
structure Editor where
  buffer : List Char
  cursor : Nat
  skipNextLf : Bool
  escapeState : EscapeState
  history : List (List Char)
  historyIndex : Option Nat
  mode : ShellMode
  dbCompletion : DbCompletionCatalog
  dbMultilineBuffer : List Char
  /-- A confirmation is pending. -/
  confirming : Bool

def Editor.new : Editor := ⟨[], 0, false, .none, [], none, .main, ⟨[], []⟩, [], false⟩

inductive CommandOutcome where
  | continueShell | exitShell
  /-- With the database shell enabled or not, and the catalog if it can be started. -/
  | enterDbShell (enabled : Bool) (catalog : Option DbCompletionCatalog)
  | awaitConfirmation | asyncTask

inductive CommandResult where
  | executed (outcome : CommandOutcome)
  | notFound | failed

inductive DbResult where
  | disabled | unavailable
  /-- Goes on, with a new catalog after a change of the schema. -/
  | continues (catalog : Option DbCompletionCatalog)
  | leaves | failed

structure Answers where
  command : CommandResult
  db : DbResult
  /-- The catalog that a refresh finds, if the session is ready. -/
  refresh : Option DbCompletionCatalog
  /-- `resolve` of a confirmation. -/
  resolve : Option CommandOutcome
  /-- The completer of the main shell, and the next in its cycle. -/
  (suggestions cycle : List (List Char))
  /-- A word is the name of a command. -/
  isCommand : List Char → Bool
  /-- What the SQL completer suggests. -/
  sqlSuggestions : List (List Char)
  /-- The text in front of the cursor ends with a mark such as `,` or `(`. -/
  endsWithMark : Bool

/-! ## Slices -/

/-- The buffer in front of the cursor and from it on. -/
def Editor.split (e : Editor) : Except Panic (List Char × List Char) :=
  match splitAt e.cursor e.buffer with
  | some parts => .ok parts
  | none => .error .atCursor

def cut (n : Nat) (text : List Char) : Except Panic (List Char × List Char) :=
  match splitAt n text with
  | some parts => .ok parts
  | none => .error .elsewhere

def orPanic {α : Type} : Option α → Except Panic α
  | some x => .ok x
  | none => .error .elsewhere

def isNewline (c : Char) : Bool := c == '\n'

def isControl (c : Char) : Bool := c.toNat < 32 || (127 ≤ c.toNat && c.toNat < 160)

namespace Editor

/-- `render_buffer`: it keeps the cursor inside the buffer and slices the buffer there. -/
def renderBuffer (e : Editor) : Except Panic Editor := do
  let e := if e.cursor > size e.buffer then { e with cursor := size e.buffer } else e
  let _ ← e.split
  pure e

def cursorLine (e : Editor) : Except Panic Nat := do
  let (before, _) ← e.split
  pure (before.countP isNewline)

def bufferLastLine (e : Editor) : Nat := e.buffer.countP isNewline

/-! ## Moving the cursor -/

section

variable (e : Editor)

/-- The column of the cursor in its line, in bytes. -/
def column (before : List Char) : Nat :=
  match rfind isNewline before with
  | some p => e.cursor - p - 1
  | none => e.cursor

/-- Where `move_cursor_up_in_buffer` puts the cursor. -/
def upTarget : Except Panic Nat := do
  let (before, _) ← e.split
  let col := e.column before
  let curLineStart ← orPanic (rfind isNewline before)
  let (prevContent, _) ← cut curLineStart e.buffer
  let prevLineStart := ((rfind isNewline prevContent).map (· + 1)).getD 0
  let prevLineLen := curLineStart - prevLineStart
  pure (prevLineStart + min col prevLineLen)

/-- Where `move_cursor_down_in_buffer` puts the cursor. -/
def downTarget : Except Panic Nat := do
  let (before, after) ← e.split
  let col := e.column before
  let offset ← orPanic (find isNewline after)
  let nextLineStart := offset + e.cursor + 1
  let (_, rest) ← cut nextLineStart e.buffer
  let nextLineEnd := ((find isNewline rest).map (nextLineStart + ·)).getD (size e.buffer)
  let nextLineLen := nextLineEnd - nextLineStart
  pure (nextLineStart + min col nextLineLen)

def moveCursorUpInBuffer : Except Panic Editor := do
  if !e.buffer.any isNewline then pure e
  else if (← e.cursorLine) = 0 then pure e
  else
    let target ← e.upTarget
    renderBuffer { e with cursor := target }

def moveCursorDownInBuffer : Except Panic Editor := do
  if !e.buffer.any isNewline then pure e
  else if (← e.cursorLine) ≥ e.bufferLastLine then pure e
  else
    let target ← e.downTarget
    renderBuffer { e with cursor := target }

def moveCursorLeft : Except Panic Editor := do
  let (before, _) ← e.split
  match before.getLast? with
  | none => pure e
  | some prev =>
    let e := { e with cursor := e.cursor - prev.utf8Size }
    if e.buffer.any isNewline then e.renderBuffer else pure e

def moveCursorRight : Except Panic Editor := do
  let (_, after) ← e.split
  match after.head? with
  | none => pure e
  | some next =>
    let e := { e with cursor := min (e.cursor + next.utf8Size) (size e.buffer) }
    if e.buffer.any isNewline then e.renderBuffer else pure e

end

/-! ## History -/

section

variable (e : Editor)

/-- `HISTORY_MAX`. -/
def historyMax : Nat := 200

def recordHistory (command : List Char) : Editor :=
  if command.isEmpty then e
  else if e.history.getLast? = some command then e
  else
    let history := if e.history.length ≥ historyMax then e.history.tail else e.history
    { e with history := history ++ [command] }

def restoreLine (index : Nat) : Except Panic Editor := do
  let line ← orPanic e.history[index]?
  renderBuffer { e with historyIndex := some index, buffer := line, cursor := size line }

def belowFirstLine : Except Panic Bool :=
  if e.buffer.any isNewline then e.cursorLine.map fun line => line > 0 else .ok false

def aboveLastLine : Except Panic Bool :=
  if e.buffer.any isNewline then e.cursorLine.map fun line => line < e.bufferLastLine
  else .ok false

def historyPrev : Except Panic Editor := do
  if ← e.belowFirstLine then e.moveCursorUpInBuffer
  else if e.history.isEmpty then pure e
  else
    match e.historyIndex with
    | some index => e.restoreLine (index - 1)
    | none => e.restoreLine (e.history.length - 1)

def historyNext : Except Panic Editor := do
  if ← e.aboveLastLine then e.moveCursorDownInBuffer
  else if e.history.isEmpty then pure e
  else
    match e.historyIndex with
    | none => pure e
    | some index =>
      if index + 1 < e.history.length then e.restoreLine (index + 1)
      else renderBuffer { e with historyIndex := none, buffer := [], cursor := 0 }

end

end Editor

/-! ## Completion -/

/-- The last word in front of the cursor starts here: `token_start` of `parse_state`. -/
def tokenStart (before : List Char) : Nat :=
  match before.getLast? with
  | none => 0
  | some c =>
    if Text.isWhitespace c then size before
    else size before - size (before.reverse.takeWhile fun c => !Text.isWhitespace c).reverse

/-- The start of the word in front of the cursor: behind the last separator. The offset of
the separator plus one is where the word starts only if the separator takes one byte. -/
def wordStart (separator : Char → Bool) (before : List Char) : Nat :=
  ((rfind separator before).map (· + 1)).getD 0

def completionMatches (entries : List (List Char)) (before : List Char) :
    Except Panic (Nat × List (List Char)) := do
  let start := wordStart Text.isWhitespace before
  let (_, word) ← cut start before
  pure (start, entries.filter fun entry => word.isPrefixOf entry)

def isSqlSeparator (c : Char) : Bool :=
  Text.isWhitespace c || c == '(' || c == ')' || c == ',' || c == '=' || c == ';'

/-- `find_prefix` of the SQL completer. -/
def findPrefixStart (before : List Char) (endsWithMark : Bool) : Except Panic Nat := do
  let start := wordStart isSqlSeparator before
  let (_, word) ← cut start before
  if word.getLast? = some '.' then pure (size before)
  else
    match rfind (· == '.') word with
    | some dot => pure (start + dot + 1)
    | none => if endsWithMark then pure (size before) else pure start

/-- One `while` loop of `longest_common_prefix`, over the reversed text: characters go until the
other text starts with what is left. -/
def popUntilPrefix (text : List Char) : List Char → List Char
  | [] => []
  | c :: cs =>
    if (c :: cs).reverse.isPrefixOf text then (c :: cs).reverse else popUntilPrefix text cs

def longestCommonPrefix : List (List Char) → Option (List Char)
  | [] => none
  | first :: rest => some (rest.foldl (fun common text => popUntilPrefix text common.reverse) first)

namespace Editor

section

variable (e : Editor) (a : Answers)

def replaceWord (before completion remainder : List Char) (space : Bool) : Editor :=
  let front := before ++ completion ++ (if space then [' '] else [])
  { e with buffer := front ++ remainder, cursor := size front }

def completeMain : Except Panic Editor := do
  let (head, remainder) ← e.split
  if a.suggestions.isEmpty then pure e
  else
    let start := tokenStart head
    let (before, word) ← cut start head
    let commandCompletion :=
      start = 0 && e.cursor = size word && !word.isEmpty && a.isCommand word
    let shouldAppendSpace := commandCompletion && remainder.isEmpty
    match a.suggestions with
    | [completion] =>
      if completion = word && remainder.isEmpty then
        match a.cycle.head? with
        | some next =>
          if next ≠ completion then (e.replaceWord before next remainder false).renderBuffer
          else if !shouldAppendSpace then pure e
          else (e.replaceWord before completion remainder shouldAppendSpace).renderBuffer
        | none =>
          if !shouldAppendSpace then pure e
          else (e.replaceWord before completion remainder shouldAppendSpace).renderBuffer
      else (e.replaceWord before completion remainder shouldAppendSpace).renderBuffer
    | suggestions =>
      let common := (longestCommonPrefix suggestions).getD []
      if size common > size word then (e.replaceWord before common remainder false).renderBuffer
      else
        match a.cycle.head? with
        | some completion =>
          if completion ≠ word then
            (e.replaceWord before completion remainder false).renderBuffer
          else e.renderBuffer
        | none => e.renderBuffer

def dbMatches (head : List Char) : Except Panic (Nat × List (List Char)) :=
  if e.dbCompletion.tableNames.isEmpty then completionMatches e.dbCompletion.entries head
  else (findPrefixStart head a.endsWithMark).map fun start => (start, a.sqlSuggestions)

def completeDb : Except Panic Editor := do
  if e.dbCompletion.entries.isEmpty then pure e
  else
    let (head, remainder) ← e.split
    let (start, found) ← e.dbMatches a head
    if found.isEmpty then pure e
    else
      let (before, _) ← cut start e.buffer
      let wordLen := e.cursor - start
      match found with
      | [completion] => (e.replaceWord before completion remainder remainder.isEmpty).renderBuffer
      | found =>
        let common := (longestCommonPrefix found).getD []
        if size common > wordLen then (e.replaceWord before common remainder false).renderBuffer
        else e.renderBuffer

def handleTab : Except Panic Editor :=
  match e.mode with
  | .main => e.completeMain a
  | .dbShell => e.completeDb a

end

/-! ## Commands -/

section

variable (e : Editor) (a : Answers) (command : List Char)

def trim (text : List Char) : List Char := Text.trimChars Text.isWhitespace text

def trimEnd (p : Char → Bool) (text : List Char) : List Char := (text.reverse.dropWhile p).reverse

def clear : Editor := { e with buffer := [], cursor := 0 }

/-- `handle_command_outcome`; the shell goes on unless it is left. -/
def handleCommandOutcome : CommandOutcome → Bool × Editor
  | .continueShell => (true, e)
  | .exitShell => (false, e)
  | .enterDbShell enabled catalog =>
    if !enabled then (true, e)
    else
      let e := { e.clear with mode := .dbShell, historyIndex := none, dbMultilineBuffer := [] }
      match catalog with
      | some catalog => (true, { e with dbCompletion := catalog })
      | none => (true, { e with mode := .main })
  | .awaitConfirmation => (true, { e.clear with confirming := true })
  | .asyncTask => (true, e)

def isRefreshCommand : Bool :=
  let lower := command.map Char.toLower
  lower = "\\refresh".toList || lower = "/refresh".toList || lower = "refresh".toList

def isImmediateDbCommand : Bool :=
  let lower := command.map Char.toLower
  lower = "help".toList || lower = "exit".toList || lower = "quit".toList ||
    command.head? = some '\\' || (command.head? = some '/' && !command.contains ' ')

def processDbCommand : Editor :=
  if (trim command).isEmpty then e
  else
    let e := { e with dbMultilineBuffer := [] }
    match a.db with
    | .disabled => { e with mode := .main }
    | .unavailable => e
    | .continues catalog => { e with dbCompletion := catalog.getD e.dbCompletion }
    | .leaves => { e with mode := .main, historyIndex := none }
    | .failed => e

/-- `process_db_line`: a statement goes on over several lines until one ends with `;`, and is
one entry of the history. -/
def processDbLine (rawLine : List Char) : Editor :=
  let trimmed := trim rawLine
  if trimmed.isEmpty then e
  else
    let normalized := trim (trimEnd (· == ';') trimmed)
    if e.dbMultilineBuffer.isEmpty && isRefreshCommand normalized then
      { e with dbCompletion := a.refresh.getD e.dbCompletion }
    else if e.dbMultilineBuffer.isEmpty && isImmediateDbCommand normalized then
      (e.recordHistory normalized).processDbCommand a normalized
    else
      let joined := if e.dbMultilineBuffer.isEmpty then [] else e.dbMultilineBuffer ++ ['\n']
      let lines := joined ++ trimEnd Text.isWhitespace rawLine
      if trimmed.getLast? = some ';' then
        let statement := trim lines
        ({ e with dbMultilineBuffer := [] }.recordHistory statement).processDbCommand a statement
      else { e with dbMultilineBuffer := lines }

def processBuffer : Bool × Editor :=
  let rawLine := e.buffer
  let cmd := trim rawLine
  let e := { e.clear with historyIndex := none }
  match e.mode with
  | .dbShell => (true, e.processDbLine a rawLine)
  | .main =>
    if cmd.isEmpty then (true, e)
    else
      let e := e.recordHistory cmd
      match a.command with
      | .executed outcome => e.handleCommandOutcome outcome
      | .notFound => (true, e)
      | .failed => (true, e)

end

/-! ## Confirmations -/

section

variable (e : Editor) (a : Answers) (ch : Char)

def parseConfirmationAnswer (input : List Char) : Option Bool :=
  let lower := (trim input).map Char.toLower
  if lower ∈ ["y".toList, "yes".toList, "j".toList, "ja".toList] then some true
  else if lower ∈ ["n".toList, "no".toList, "nein".toList] then some false
  else none

def resolveConfirmation : Bool × Editor :=
  let e := { e with confirming := false }
  match a.resolve with
  | some outcome => e.handleCommandOutcome outcome
  | none => (true, e)

def finishConfirmation : Bool × Editor :=
  let input := trim e.buffer
  let e := e.clear
  if input.isEmpty then (true, e)
  else
    match parseConfirmationAnswer input with
    | some _ => if e.confirming then e.resolveConfirmation a else (true, e)
    | none => (true, e)

def typeAnswer : Bool × Editor :=
  if isControl ch then (true, e)
  else
    let buffer := e.buffer ++ [ch]
    (true, { e with buffer, cursor := size buffer })

def isFinal : Bool := '@' ≤ ch && ch ≤ '~'

def endSequence : Editor :=
  if isFinal ch then { e with escapeState := .none } else e

def handleConfirmationInput : Bool × Editor :=
  if ch = '\x1b' then (true, { e with escapeState := .esc })
  else if ch = '\r' then { e with skipNextLf := true }.finishConfirmation a
  else if ch = '\n' then e.finishConfirmation a
  else if ch = '\x03' then
    if e.clear.confirming then e.clear.resolveConfirmation a else (true, e.clear)
  else if ch = '\x08' ∨ ch = '\x7f' then
    if e.buffer.isEmpty then (true, e)
    else (true, { e with buffer := e.buffer.dropLast, cursor := size e.buffer.dropLast })
  else if ch = '[' then
    if e.escapeState = .esc then (true, { e with escapeState := .csi }) else e.typeAnswer ch
  else if e.escapeState = .csi then (true, e.endSequence ch)
  else { e with escapeState := .none }.typeAnswer ch

end

/-! ## Characters -/

section

variable (e : Editor) (a : Answers) (ch : Char)

def arrow : Except Panic Editor :=
  if ch = 'A' then e.historyPrev
  else if ch = 'B' then e.historyNext
  else if ch = 'C' then e.moveCursorRight
  else if ch = 'D' then e.moveCursorLeft
  else .ok e

/-- A character behind `ESC [`. -/
def handleCsi : Except Panic Editor :=
  (e.arrow ch).map (·.endSequence ch)

def backspace : Except Panic Editor := do
  let (before, after) ← e.split
  match before.getLast? with
  | none => pure e
  | some prev =>
    let start := e.cursor - prev.utf8Size
    let (front, _) ← cut start e.buffer
    renderBuffer { e with buffer := front ++ after, cursor := start }

/-- A character is put in at the cursor; `insert_str` panics inside a character. -/
def insert : Except Panic Editor := do
  let (before, after) ← e.split
  renderBuffer
    { e with
      buffer := before ++ ch :: after
      cursor := e.cursor + ch.utf8Size
      historyIndex := none }

/-- A character outside of escape sequences and confirmations. -/
def handleKey : Except Panic (Bool × Editor) :=
  if ch = '\x1b' then .ok (true, { e with escapeState := .esc })
  else if ch = '\r' then .ok ({ e with skipNextLf := true }.processBuffer a)
  else if ch = '\n' then .ok (e.processBuffer a)
  else if ch = '\t' then (e.handleTab a).map (true, ·)
  else if ch = '\x08' ∨ ch = '\x7f' then e.backspace.map (true, ·)
  else if ch = '\x03' then
    .ok (true, { e.clear with historyIndex := none, dbMultilineBuffer := [] })
  else if isControl ch then .ok (true, e)
  else (e.insert ch).map (true, ·)

def handleCharacter : Except Panic (Bool × Editor) :=
  if e.confirming then .ok (e.handleConfirmationInput a ch)
  else
    match e.escapeState with
    | .esc => .ok (true, { e with escapeState := if ch = '[' then .csi else .none })
    | .csi => (e.handleCsi ch).map (true, ·)
    | .none => e.handleKey a ch

/-- One turn of the loop in `data`: whether it goes on, and the state. -/
def receive : Except Panic (Bool × Editor) :=
  if e.skipNextLf && ch = '\n' then .ok (true, { e with skipNextLf := false })
  else { e with skipNextLf := false }.handleCharacter a ch

/-- `data`: a shell that is left drops the rest of the chunk. -/
def data (e : Editor) : List (Char × Answers) → Except Panic Editor
  | [] => .ok e
  | (ch, a) :: rest => do
      let (goesOn, e) ← e.receive a ch
      if goesOn then e.data rest else pure e

end

end Editor

end Fenrir.Ssh
