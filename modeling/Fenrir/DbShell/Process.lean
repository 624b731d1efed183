import Fenrir.Lib.Sequences
import Fenrir.Lib.Sql
import Fenrir.Migrations.Runner

/-! # Commands of the database shell

`cli/commands/builtins/db_shell/process.rs`. A command is a meta command or a text for
the server. A text whose first token is destructive needs the marker `--force` at its
  end, which is cut off before the text is sent.

What the session answers comes with the command (`Answers`); the outcome lists the calls
made to it. -/

namespace Fenrir.DbShell

open List

open Text (isWhitespace)

open Migrations (DbEngine)

/-! ## Model -/

section

variable (text : List Char) (input : List Char)

inductive DbError where
  | engineNotConfigured (engine : DbEngine)
  | connection (message : String)
  | query (message : String)
  | invalidInput (message : String)
  | notImplemented (message : String)

def asStr : DbEngine → String
  | .postgres => "postgres"
  | .mysql => "mysql"
  | .sqlite => "sqlite"
  | .mongodb => "mongodb"

/-- `DbEngine::from_str`. -/
def parseEngine (target : List Char) : Except DbError DbEngine :=
  let lower := String.ofList (target.map Char.toLower)
  if lower = "postgres" ∨ lower = "postgresql" then .ok .postgres
  else if lower = "mysql" then .ok .mysql
  else if lower = "sqlite" ∨ lower = "sqlite3" then .ok .sqlite
  else if lower = "mongodb" ∨ lower = "mongo" then .ok .mongodb
  else .error (.invalidInput s!"unknown db engine: {lower}")

/-- `DbShellSession`, as far as a command reads it. -/
structure Session where
  currentEngine : DbEngine
  availableEngines : List DbEngine

/-- What a command asks of the session. -/
inductive Call where
  | ping
  | switchEngine (engine : DbEngine)
  | listTables
  | describeTable (table : List Char)
  | simpleQuery (statement : List Char)
  deriving DecidableEq

/-- What the session answers, whichever call is made. `T`, `S` and `R` are the tables, the
schemas and the results it gives. -/
structure Answers (T S R : Type) where
  (ping switchEngine : Except DbError Unit)
  listTables : Except DbError (List T)
  describeTable : Except DbError S
  simpleQuery : Except DbError (List R)

inductive CommandResult (T S R : Type) where
  | exit
  | message (lines : List String)
  | execution (results : List R)
  | tables (tables : List T)
  | schema (schema : S)

structure Outcome (T S R : Type) where
  calls : List Call
  session : Session
  result : Except DbError (CommandResult T S R)

def destructiveForceWarning : String :=
  "Destructive commands require '--force' at the end of the line."

def trim : List Char := Text.trimChars isWhitespace text

def trimEnd : List Char := text.rdropWhile isWhitespace

def isSemicolon (c : Char) : Bool := c == ';'

def normalizeMetaCommand : List Char :=
  trim ((trim input).rdropWhile isSemicolon)

def eqIgnoreAsciiCase (word : String) : Bool :=
  text.map Char.toLower == word.toList

/-- The first item of `split_whitespace`, empty if there is none. -/
def firstToken : List Char :=
  (text.dropWhile isWhitespace).takeWhile fun c => !isWhitespace c

def guardedWords : List (List Char) :=
  ["DROP".toList, "DELETE".toList, "ALTER".toList, "TRUNCATE".toList]

def requiresGuard (statement : List Char) : Bool :=
  let normalized := (statement.dropWhile (· == '(')).dropWhile isWhitespace
  guardedWords.contains ((firstToken normalized).map Char.toUpper)

/-- What the marker is looked for at the end of. -/
def trimmedNoSemicolons : List Char :=
  trimEnd ((trimEnd input).rdropWhile isSemicolon)

def forceMarker : List Char := "--force".toList

def withoutForce : Option (List Char) :=
  let text := trimmedNoSemicolons input
  let before := text.take (text.length - forceMarker.length)
  if forceMarker.isSuffixOf (text.map Char.toLower) && before.getLast?.all isWhitespace then
    some (trimEnd before)
  else none

def enforceGuard : Except DbError (List Char) :=
  if !requiresGuard input then .ok input
  else
    match withoutForce input with
    | some statement => .ok statement
    | none => .error (.invalidInput destructiveForceWarning)

/-- Which branch of `process_command` a command takes. -/
inductive Command where
  | blank | exit | help | ping | refresh
  | switchTo (command : List Char)
  | listTables
  | describe (table : List Char)
  | statement (text : List Char)

/-- The argument of `\d`. -/
def describeArgument (normalized : List Char) : Option (List Char) :=
  match Text.stripStart "/d ".toList normalized with
  | some table => some (trim table)
  | none => (Text.stripStart "\\d ".toList normalized).map trim

def classify (command : List Char) : Command :=
  let trimmed := trim command
  if trimmed.isEmpty then .blank
  else
    let normalized := normalizeMetaCommand trimmed
    if eqIgnoreAsciiCase normalized "exit" || eqIgnoreAsciiCase normalized "\\q" then .exit
    else if eqIgnoreAsciiCase normalized "help" then .help
    else if eqIgnoreAsciiCase normalized "/ping" || eqIgnoreAsciiCase normalized "\\ping" then .ping
    else if eqIgnoreAsciiCase normalized "/refresh"
        || eqIgnoreAsciiCase normalized "\\refresh" then .refresh
    else if "/c".toList.isPrefixOf normalized || "\\c".toList.isPrefixOf normalized then
      .switchTo normalized
    else if normalized == "/d".toList || normalized == "\\d".toList then .listTables
    else
      match describeArgument normalized with
      | some table => .describe table
      | none => .statement trimmed

/-- `list.join(", ")`. -/
def joined (engines : List DbEngine) : String := ", ".intercalate (engines.map asStr)

def helpLines (session : Session) : List String :=
  let options := if session.availableEngines.isEmpty then "-" else joined session.availableEngines
  ["Meta commands:", "  \\c <engine>    – switch engines",
   "  \\d [table]     – list tables or show schema",
   "  \\ping          – test the connection",
   "  \\refresh       – reload table completion",
   "  exit / \\q      – leave the DB shell",
   "",
   s!"Current engine: {asStr session.currentEngine} (available: {options})",
   "SQL commands:",
   s!"  {destructiveForceWarning} (DROP/DELETE/ALTER/TRUNCATE)"]

def switchHelp (session : Session) : List String :=
  let list := if session.availableEngines.isEmpty then "-" else joined session.availableEngines
  [s!"Current engine: {asStr session.currentEngine}", s!"Available engines: {list}",
   "Switch with \\c <engine>"]

end

variable {T S R : Type}

def handleSwitchCommand (session : Session) (a : Answers T S R) (command : List Char) :
    Outcome T S R :=
  -- the second item of `split_whitespace`
  let target := firstToken ((command.dropWhile isWhitespace).dropWhile
    fun c => !isWhitespace c)
  if target.isEmpty then ⟨[], session, .ok (.message (switchHelp session))⟩
  else
    match parseEngine target with
    | .error e => ⟨[], session, .error e⟩
    | .ok engine =>
      match a.switchEngine with
      | .error e => ⟨[.switchEngine engine], session, .error e⟩
      | .ok () =>
        ⟨[.switchEngine engine, .ping], { session with currentEngine := engine },
          a.ping.map fun _ => .message [s!"Engine switched to {asStr engine}"]⟩

def processCommand (session : Session) (a : Answers T S R) (command : List Char) : Outcome T S R :=
  match classify command with
  | .blank => ⟨[], session, .ok (.message [])⟩
  | .exit => ⟨[], session, .ok .exit⟩
  | .help => ⟨[], session, .ok (.message (helpLines session))⟩
  | .ping => ⟨[.ping], session, a.ping.map fun _ => .message ["Ping successful"]⟩
  | .refresh =>
    ⟨[], session, .ok (.message ["Use \\refresh at start of line (not after other input)"])⟩
  | .switchTo normalized => handleSwitchCommand session a normalized
  | .listTables => ⟨[.listTables], session, a.listTables.map .tables⟩
  | .describe table =>
    if table.isEmpty then
      ⟨[], session, .ok (.message ["Please provide a table name, e.g. \\d public.tickets"])⟩
    else ⟨[.describeTable table], session, a.describeTable.map .schema⟩
  | .statement trimmed =>
    match enforceGuard trimmed with
    | .error e => ⟨[], session, .error e⟩
    | .ok statement => ⟨[.simpleQuery statement], session, a.simpleQuery.map .execution⟩

/-! ## The marker -/

/-- The text ends with the marker. -/
def Forced (input : List Char) : Prop := (withoutForce input).isSome = true

instance (input : List Char) : Decidable (Forced input) :=
  inferInstanceAs (Decidable (_ = true))

theorem forced_iff {input : List Char} :
    Forced input ↔ ∃ pre marker, trimmedNoSemicolons input = pre ++ marker ∧
      marker.map Char.toLower = forceMarker ∧ ∀ c ∈ pre.getLast?, isWhitespace c = true := by
  generalize hte : trimmedNoSemicolons input = text
  have hfor : Forced input ↔ forceMarker.isSuffixOf (text.map Char.toLower) = true ∧
      (text.take (text.length - forceMarker.length)).getLast?.all isWhitespace = true := by
    rw [Forced, withoutForce, hte, Option.isSome_ite, Bool.and_eq_true]
  rw [hfor]
  constructor
  · rintro ⟨hsuf, hla⟩
    obtain ⟨front, hfro⟩ := isSuffixOf_iff_suffix.mp hsuf
    refine ⟨_, text.drop (text.length - forceMarker.length), (take_append_drop _ _).symm, ?_, ?_⟩
    · have hlen := congrArg List.length hfro
      rw [length_append, length_map] at hlen
      rw [map_drop, ← hfro, show text.length - forceMarker.length = front.length from by
        omega, drop_left]
    · intro c hc
      rw [Option.mem_def.mp hc] at hla
      exact hla
  · rintro ⟨pre, marker, rfl, hmar, hla⟩
    have hlen : marker.length = forceMarker.length := by rw [← hmar, length_map]
    rw [map_append, hmar, length_append, hlen, Nat.add_sub_cancel, take_left]
    refine ⟨isSuffixOf_iff_suffix.mpr (suffix_append _ _), ?_⟩
    cases hb : pre.getLast? with
    | none => rfl
    | some c => exact hla c hb

theorem not_isWhitespace_of_marker {marker : List Char} (h : marker.map Char.toLower = forceMarker)
    {c : Char} (hc : c ∈ marker) : isWhitespace c = false := by
  have hlow : c.toLower ∈ forceMarker := h ▸ mem_map_of_mem hc
  by_cases hupp : c.isUpper = true
  · exact Text.isWhitespace_of_isAlpha (by rw [Char.isAlpha, hupp, Bool.true_or])
  · rw [Char.toLower_eq_of_not_isUpper hupp] at hlow
    have hno : forceMarker.all (fun d => !isWhitespace d) = true := by decide +kernel
    simpa using all_eq_true.mp hno c hlow

variable {lead : List Char}

theorem trimmedNoSemicolons_lead (h : ∀ c ∈ lead, isWhitespace c = true) (core : List Char) :
    trimmedNoSemicolons (lead ++ core)
      = if trimmedNoSemicolons core = [] then [] else lead ++ trimmedNoSemicolons core := by
  have hbla : trimEnd lead = [] := rdropWhile_eq_nil_iff.mpr h
  have hke : lead.rdropWhile isSemicolon = lead := by
    refine rdropWhile_eq_self_iff.mpr fun hne hla => ?_
    have hwhi := h _ (getLast_mem hne)
    rw [beq_iff_eq.mp hla] at hwhi
    cases hwhi
  have hend : ∀ text, trimEnd (lead ++ text)
      = if trimEnd text = [] then [] else lead ++ trimEnd text := by
    intro text
    rw [trimEnd, Sequences.rdropWhile_append]
    show (if trimEnd text = [] then trimEnd lead else lead ++ trimEnd text) = _
    rw [hbla]
  have hsem : ∀ text, (lead ++ text).rdropWhile isSemicolon
      = lead ++ text.rdropWhile isSemicolon := by
    intro text
    rw [Sequences.rdropWhile_append]
    split
    · rename_i hnil
      rw [hnil, hke, append_nil]
    · rfl
  rw [trimmedNoSemicolons, hend]
  split
  · rename_i hnil
    rw [trimmedNoSemicolons, hnil]
    rfl
  · rw [hsem, hend]
    rfl

theorem forced_lead (h : ∀ c ∈ lead, isWhitespace c = true) (core : List Char) :
    Forced (lead ++ core) ↔ Forced core := by
  rw [forced_iff, forced_iff, trimmedNoSemicolons_lead h]
  generalize trimmedNoSemicolons core = text
  have hle : ∀ c ∈ lead.getLast?, isWhitespace c = true :=
    fun c hc => h c (mem_of_getLast? hc)
  constructor
  · rintro ⟨pre, marker, hte, hmar, hla⟩
    split at hte
    · rename_i hnil
      exact ⟨pre, marker, hnil.trans hte, hmar, hla⟩
    · rcases append_eq_append_iff.mp hte with ⟨more, rfl, rfl⟩ | ⟨more, rfl, rfl⟩
      · refine ⟨more, marker, rfl, hmar, fun c hc => hla c ?_⟩
        rw [List.getLast?_append, Option.mem_def.mp hc]
        rfl
      · -- what the marker shares with the white space in front is empty
        have hmo : more = [] := by
          refine eq_nil_iff_forall_not_mem.mpr fun c hc => ?_
          have hwhi := h c (mem_append_right _ hc)
          rw [not_isWhitespace_of_marker hmar (mem_append_left _ hc)] at hwhi
          cases hwhi
        subst hmo
        exact ⟨[], text, rfl, hmar, nofun⟩
  · rintro ⟨pre, marker, rfl, hmar, hla⟩
    have hne : pre ++ marker ≠ [] := by
      intro hnil
      rw [(append_eq_nil_iff.mp hnil).2] at hmar
      cases hmar
    refine ⟨lead ++ pre, marker, ?_, hmar, ?_⟩
    · rw [if_neg hne, append_assoc]
    · intro c hc
      rw [List.getLast?_append] at hc
      cases hb : pre.getLast? with
      | none =>
        rw [hb] at hc
        exact hle c hc
      | some d =>
        rw [hb] at hc
        exact hla c (hb.trans hc)

theorem forced_trim (input : List Char) : Forced (trim input) ↔ Forced input := by
  have hend : ∀ text, Forced (trimEnd text) ↔ Forced text := by
    intro text
    have hsa : trimmedNoSemicolons (trimEnd text) = trimmedNoSemicolons text := by
      have hid : trimEnd (trimEnd text) = trimEnd text := rdropWhile_idempotent _ _
      rw [trimmedNoSemicolons, hid]
      rfl
    rw [forced_iff, forced_iff, hsa]
  have hspl : input = input.takeWhile isWhitespace ++ input.dropWhile isWhitespace :=
    (takeWhile_append_dropWhile).symm
  have hle : ∀ c ∈ input.takeWhile isWhitespace, isWhitespace c = true :=
    fun c hc => mem_takeWhile_imp hc
  calc Forced (trim input) ↔ Forced (trimEnd (input.dropWhile isWhitespace)) := Iff.rfl
    _ ↔ Forced (input.dropWhile isWhitespace) := hend _
    _ ↔ Forced input := by
        conv_rhs => rw [hspl]
        exact (forced_lead hle _).symm

/-! ## The guard -/

def destructiveWords : List (List Char) :=
  ["drop".toList, "delete".toList, "alter".toList, "truncate".toList]

/-- One of the statements begins with a destructive word. -/
def Destructive (text : List Char) : Prop := ∃ head ∈ Sql.heads text, head ∈ destructiveWords

instance (text : List Char) : Decidable (Destructive text) :=
  inferInstanceAs (Decidable (∃ head ∈ Sql.heads text, head ∈ destructiveWords))

end Fenrir.DbShell
