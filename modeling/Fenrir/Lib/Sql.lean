import Fenrir.Lib.Text

/-! # How a PostgreSQL server cuts a batch

A text that is sent as one simple query may hold several statements. The scanner
(`scan.l` of the server, with standard conforming strings) takes comments, literals and
quoted names out; the statements are then separated by the semicolons that stand in no
parentheses and in no `BEGIN ATOMIC` body of a routine. -/

namespace Sql

/-! ## Tokens -/

section

variable (c : Char)

/-- What the scanner gives. A word is in lower case; numbers, literals and operators are not
told apart. -/
inductive Token where
  | word (text : List Char)
  | name | comma | semicolon | opening | closing | other

inductive Mode where
  | plain
  | word (reversed : List Char)
  | number | dash | slash | lineComment
  | comment (depth : Nat)
  | commentStar (depth : Nat)
  | commentSlash (depth : Nat)
  | literal (escapes : Bool)
  | literalEscape
  | literalEnd (escapes : Bool)
  | gap (newline : Bool)
  | gapDash | gapComment | quoted | quotedEnd
  | tag (reversed : List Char)
  | dollar (tag : List Char) (sinceDollar : Option (List Char))

def isSpace : Bool :=
  c == ' ' || (9 ≤ c.toNat && c.toNat ≤ 13)

def isNewline : Bool := c == '\n' || c == '\r'

/-- Every byte of a character that is not ASCII is a letter to the scanner. -/
def isIdentStart : Bool := c.isAlpha || c == '_' || 128 ≤ c.toNat

def isTagPart : Bool := isIdentStart c || c.isDigit

def isIdentPart : Bool := isTagPart c || c == '$'

def wordToken (reversed : List Char) : Token := .word (reversed.reverse.map Char.toLower)

def emit (t : Token) (next : List Token × Mode) : List Token × Mode := (t :: next.1, next.2)

/-- A character no token is open at. -/
def begin : List Token × Mode :=
  if isSpace c then ([], .plain)
  else if isIdentStart c then ([], .word [c])
  else if c.isDigit then ([.other], .number)
  else if c == '-' then ([], .dash)
  else if c == '/' then ([], .slash)
  else if c == Text.quote then ([], .literal false)
  else if c == '"' then ([], .quoted)
  else if c == '$' then ([], .tag [])
  else if c == ',' then ([.comma], .plain)
  else if c == ';' then ([.semicolon], .plain)
  else if c == '(' then ([.opening], .plain)
  else if c == ')' then ([.closing], .plain)
  else ([.other], .plain)

/-- A character after a word. `E` directly before a quote begins a literal with escapes. -/
def afterWord (reversed : List Char) (c : Char) : List Token × Mode :=
  if isIdentPart c then ([], .word (c :: reversed))
  else if c == Text.quote && (reversed == ['e'] || reversed == ['E']) then ([], .literal true)
  else emit (wordToken reversed) (begin c)

/-- A character after a literal with escapes: one that follows on another line continues it. -/
def afterEscapes (newline : Bool) (c : Char) : List Token × Mode :=
  if isNewline c then ([], .gap true)
  else if isSpace c then ([], .gap newline)
  else if c == '-' then ([], .gapDash)
  else if c == Text.quote && newline then ([], .literal true)
  else begin c

def lexStep : Mode → Char → List Token × Mode
  | .plain, c => begin c
  | .word reversed, c => afterWord reversed c
  | .number, c => if isTagPart c || c == '.' then ([], .number) else begin c
  | .dash, c => if c == '-' then ([], .lineComment) else emit .other (begin c)
  | .slash, c => if c == '*' then ([], .comment 0) else emit .other (begin c)
  | .lineComment, c => if isNewline c then ([], .plain) else ([], .lineComment)
  | .comment depth, c =>
    if c == '*' then ([], .commentStar depth)
    else if c == '/' then ([], .commentSlash depth)
    else ([], .comment depth)
  | .commentStar depth, c =>
    if c == '/' then ([], if depth = 0 then .plain else .comment (depth - 1))
    else if c == '*' then ([], .commentStar depth)
    else ([], .comment depth)
  | .commentSlash depth, c =>
    -- comments nest
    if c == '*' then ([], .comment (depth + 1))
    else if c == '/' then ([], .commentSlash depth)
    else ([], .comment depth)
  | .literal escapes, c =>
    if c == Text.quote then ([], .literalEnd escapes)
    else if escapes && c == '\\' then ([], .literalEscape)
    else ([], .literal escapes)
  | .literalEscape, _ => ([], .literal true)
  | .literalEnd escapes, c =>
    if c == Text.quote then ([], .literal escapes)
    else emit .other (if escapes then afterEscapes false c else begin c)
  | .gap newline, c => afterEscapes newline c
  | .gapDash, c => if c == '-' then ([], .gapComment) else emit .other (begin c)
  | .gapComment, c => if isNewline c then ([], .gap true) else ([], .gapComment)
  | .quoted, c => if c == '"' then ([], .quotedEnd) else ([], .quoted)
  | .quotedEnd, c => if c == '"' then ([], .quoted) else emit .name (begin c)
  | .tag reversed, c =>
    if c == '$' then ([], .dollar reversed none)
    else if reversed.isEmpty then
      if isIdentStart c then ([], .tag [c]) else emit .other (begin c)
    else if isTagPart c then ([], .tag (c :: reversed))
    else emit .other (afterWord reversed c)
  | .dollar tag sinceDollar, c =>
    if c == '$' then
      if sinceDollar = some tag then ([.other], .plain) else ([], .dollar tag (some []))
    else ([], .dollar tag (sinceDollar.map (c :: ·)))

/-- What the end of the text closes. A literal or a comment that is open gives nothing. -/
def finish : Mode → List Token
  | .word reversed => [wordToken reversed]
  | .tag reversed => if reversed.isEmpty then [.other] else [.other, wordToken reversed]
  | .dash | .slash | .gapDash | .literalEnd _ => [.other]
  | .quotedEnd => [.name]
  | _ => []

def lexFrom : Mode → List Char → List Token
  | m, [] => finish m
  | m, c :: cs => (lexStep m c).1 ++ lexFrom (lexStep m c).2 cs

end

/-! ## Statements -/

/-- Where the reader of the tokens stands in a statement, or in a part of one that is in
parentheses. -/
inductive Context where
  /-- Nothing of the statement was seen. -/
  | start
  /-- The rest of a statement. -/
  | body
  /-- Parentheses that hold no statement. -/
  | nested
  /-- After `WITH`. -/
  | withSeen
  /-- After `WITH RECURSIVE`. -/
  | withRecursive
  /-- After the comma of a `WITH`. -/
  | nextName
  /-- After the name of a query. -/
  | named
  /-- After the `AS` of a query. -/
  | asSeen
  /-- After the definition of a query. -/
  | defined | search | cycle
  /-- Before the last name of a `SEARCH` or `CYCLE` clause. -/
  | lastName
  /-- After `CREATE`, `CREATE OR` and `CREATE OR REPLACE`. -/
  | create
  /-- In the definition of a function or a procedure. -/
  | routine | routineBegin
  /-- In a `BEGIN ATOMIC` body. -/
  | atomic | caseOf

/-- How the reader goes on: in the same parentheses, into new ones, or out of them. -/
inductive Move where
  | go (next : Context)
  | enter (after within : Context)
  | leave

/-- The words that are looked for. -/
def is (w : List Char) (s : String) : Bool := w == s.toList

/-- A word: the head it is, and where the reader goes. -/
def onWord (w : List Char) : Context → Option (List Char) × Move
  | .start =>
    if is w "with" then (none, .go .withSeen)
    else if is w "create" then (some w, .go .create)
    else (some w, .go .body)
  | .body => (none, .go .body)
  | .nested => (none, .go .nested)
  | .withSeen => (none, .go (if is w "recursive" then .withRecursive else .named))
  -- a query may itself have the name `recursive`
  | .withRecursive => (none, .go (if is w "as" then .asSeen else .named))
  | .nextName => (none, .go .named)
  | .named => (none, .go (if is w "as" then .asSeen else .body))
  | .asSeen => (none, .go (if is w "not" || is w "materialized" then .asSeen else .body))
  | .defined =>
    if is w "search" then (none, .go .search)
    else if is w "cycle" then (none, .go .cycle)
    else (some w, .go .body)
  | .search => (none, .go (if is w "set" then .lastName else .search))
  | .cycle => (none, .go (if is w "using" then .lastName else .cycle))
  | .lastName => (none, .go .defined)
  | .create =>
    (none, .go (if is w "or" || is w "replace" then .create
      else if is w "function" || is w "procedure" then .routine else .body))
  | .routine => (none, .go (if is w "begin" then .routineBegin else .routine))
  | .routineBegin =>
    (none, if is w "atomic" then .enter .body .atomic
      else .go (if is w "begin" then .routineBegin else .routine))
  | .atomic =>
    (none, if is w "case" then .enter .atomic .caseOf
      else if is w "end" then .leave else .go .atomic)
  | .caseOf =>
    (none, if is w "case" then .enter .caseOf .caseOf
      else if is w "end" then .leave else .go .caseOf)

def onOpening : Context → Move
  -- leading parentheses are skipped
  | .start => .enter .body .start
  | .defined => .enter .body .start
  | .asSeen => .enter .defined .start
  | .withRecursive => .enter .named .nested
  | c => .enter c .nested

def onName : Context → Context
  | .start | .named | .asSeen | .defined | .create => .body
  | .withSeen | .withRecursive | .nextName => .named
  | .lastName => .defined
  | .routineBegin => .routine
  | c => c

def onComma : Context → Context
  | .defined => .nextName
  | .search => .search
  | .cycle => .cycle
  | c => onName c

/-- A reader stands in a context inside others. -/
structure Reader where
  context : Context
  outer : List Context

def Reader.move (r : Reader) : Move → Reader
  | .go next => { r with context := next }
  | .enter after within => ⟨within, after :: r.outer⟩
  | .leave =>
    match r.outer with
    | [] => r
    | c :: outer => ⟨c, outer⟩

def scanStep (r : Reader) : Token → Option (List Char) × Reader
  | .word w => ((onWord w r.context).1, r.move (onWord w r.context).2)
  | .opening => (none, r.move (onOpening r.context))
  | .closing => (none, r.move .leave)
  | .semicolon => (none, if r.outer.isEmpty then ⟨.start, []⟩ else r)
  | .name => (none, r.move (.go (onName r.context)))
  | .other => (none, r.move (.go (onName r.context)))
  | .comma => (none, r.move (.go (onComma r.context)))

def scanFrom : Reader → List Token → List (List Char)
  | _, [] => []
  | r, t :: ts => (scanStep r t).1.toList ++ scanFrom (scanStep r t).2 ts

/-- **THE HEADS OF A BATCH**: the first words of its statements, in lower case. -/
def heads (text : List Char) : List (List Char) := scanFrom ⟨.start, []⟩ (lexFrom .plain text)

example : heads "SELECT ';'; /* ; */ (Drop TABLE t)".toList
    = ["select".toList, "drop".toList] := by decide +kernel

example : heads "WITH delete (a) AS (SELECT 1), b AS (DELETE FROM t) TABLE b".toList
    = ["select".toList, "delete".toList, "table".toList] := by decide +kernel

end Sql
