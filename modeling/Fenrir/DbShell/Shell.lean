import Fenrir.DbShell.Process
import Fenrir.Ssh.Editor

/-! # The database shell and what it sends

The lines of `run_local_db_shell` (`cli/commands/builtins/db_shell/shell.rs`) and
`process_db_line` of the SSH server: lines are gathered until a statement is complete, and
the input so gathered is one command. The two differ in what they keep of a line and in
when a statement is complete. -/

namespace Fenrir.DbShell

open List Option

/-! ## Model -/

/-- The shell on the console and the one of the SSH server. -/
inductive Front where
  | console | ssh

def isStatementComplete (line : List Char) : Bool :=
  let trimmed := trimEnd line
  let lower := trimmed.map Char.toLower
  if trimmed.getLast? = some ';' then true
  else if !forceMarker.isSuffixOf lower then false
  else (lower.take (lower.length - forceMarker.length)).contains ';'

def Front.completes : Front → List Char → Bool
  | .console, trimmed => isStatementComplete trimmed
  | .ssh, trimmed => trimmed.getLast? = some ';'

/-- What of a line is appended. -/
def Front.kept : Front → List Char → List Char
  | .console, line => line
  | .ssh, line => trimEnd line

/-- The input with the line: the line itself, or the lines so far and this one. -/
def input (front : Front) (buffer line : List Char) : List Char :=
  (if buffer.isEmpty then [] else buffer ++ ['\n']) ++ front.kept line

inductive Reading where
  | skipped | refreshed
  | command (text : List Char)
  | gathered

/-- One line. The commands that need no semicolon are tested on the normalised line. -/
def readLine (front : Front) (buffer line : List Char) : Reading :=
  let trimmed := trim line
  let normalized := trim (trimmed.rdropWhile isSemicolon)
  if trimmed.isEmpty then .skipped
  else if buffer.isEmpty && Ssh.Editor.isRefreshCommand normalized then .refreshed
  else if buffer.isEmpty && Ssh.Editor.isImmediateDbCommand normalized then .command normalized
  else if front.completes trimmed then .command (trim (input front buffer line))
  else .gathered

def submitted (front : Front) (buffer line : List Char) : Option (List Char) :=
  match readLine front buffer line with
  | .command text => some text
  | _ => none

variable {T S R : Type}

def calls (front : Front) (session : Session) (a : Answers T S R) (buffer line : List Char) :
    List Call :=
  match submitted front buffer line with
  | some command => (processCommand session a command).calls
  | none => []

/-! ## What is sent -/

theorem mem_calls_iff {sess : Session} {a : Answers T S R} {command text : List Char} :
    Call.simpleQuery text ∈ (processCommand sess a command).calls ↔
      ∃ statement, classify command = .statement statement ∧ enforceGuard statement = .ok text := by
  rw [processCommand]
  cases hc : classify command with
  | statement trimmed =>
    have hsa : (∃ statement, Command.statement trimmed = .statement statement ∧
        enforceGuard statement = .ok text) ↔ enforceGuard trimmed = .ok text :=
      ⟨fun ⟨_, heq, h⟩ => Command.statement.inj heq ▸ h, fun h => ⟨_, rfl, h⟩⟩
    rw [hsa]
    cases hg : enforceGuard trimmed <;> simp [hg, eq_comm]
  | switchTo normalized =>
    have hno : Call.simpleQuery text ∉ (handleSwitchCommand sess a normalized).calls := by
      fun_cases handleSwitchCommand sess a normalized <;> simp_all
    simp [hno]
  | describe table =>
    by_cases htab : table.isEmpty = true <;> simp [htab]
  | _ => simp

theorem classify_statement {command statement : List Char}
    (h : classify command = .statement statement) : statement = trim command := by
  revert h
  fun_cases classify command
  all_goals intro h
  all_goals first
    | exact (Command.statement.inj h).symm
    | cases h

theorem enforceGuard_ok_iff {statement text : List Char} (h : ¬ Forced statement) :
    enforceGuard statement = .ok text ↔ requiresGuard statement = false ∧ text = statement := by
  have hno : withoutForce statement = none := Option.not_isSome_iff_eq_none.mp h
  rw [enforceGuard, hno]
  cases requiresGuard statement <;> simp [eq_comm]

theorem not_requiresGuard {c : Char} (hwhi : Text.isWhitespace c = false) (hpar : c ≠ '(')
    (hlet : c.toUpper ∉ ['D', 'A', 'T']) (cs : List Char) : requiresGuard (c :: cs) = false := by
  have hdr : ∀ p : Char → Bool, p c = false → (c :: cs).dropWhile p = c :: cs :=
    fun p hp => dropWhile_cons_of_neg (by rw [hp]; exact Bool.false_ne_true)
  have htok : firstToken (c :: cs) = c :: cs.takeWhile fun d => !Text.isWhitespace d := by
    rw [firstToken, hdr _ hwhi, takeWhile_cons_of_pos (by rw [hwhi]; rfl)]
  rw [requiresGuard, hdr (· == '(') (beq_eq_false_iff_ne.mpr hpar), hdr _ hwhi, htok]
  simp only [guardedWords, map_cons, contains_eq_mem, decide_eq_false_iff_not]
  intro hmem
  have hhea : guardedWords.map List.head? = [some 'D', some 'D', some 'A', some 'T'] := by
    decide +kernel
  have hhe : some c.toUpper ∈ guardedWords.map List.head? := mem_map.mpr ⟨_, hmem, rfl⟩
  rw [hhea] at hhe
  simp only [mem_cons, some.injEq, not_mem_nil, or_false] at hhe hlet
  tauto

theorem trim_cons {c : Char} (hwhi : Text.isWhitespace c = false) (cs : List Char) :
    ∃ rest, trim (c :: cs) = c :: rest := by
  have hdr : (c :: cs).dropWhile Text.isWhitespace = c :: cs :=
    dropWhile_cons_of_neg (by rw [hwhi]; exact Bool.false_ne_true)
  have hpre : trim (c :: cs) <+: c :: cs := by
    show ((c :: cs).dropWhile Text.isWhitespace).rdropWhile Text.isWhitespace <+: _
    rw [hdr]
    exact rdropWhile_prefix _ _
  cases htr : trim (c :: cs) with
  | nil =>
    have hall : ((c :: cs).dropWhile Text.isWhitespace).rdropWhile Text.isWhitespace = [] := htr
    rw [hdr, rdropWhile_eq_nil_iff] at hall
    rw [hall c mem_cons_self] at hwhi
    cases hwhi
  | cons d rest =>
    rw [htr] at hpre
    exact ⟨rest, by rw [(cons_prefix_cons.mp hpre).1]⟩

theorem immediate_unguarded {command : List Char}
    (h : Ssh.Editor.isImmediateDbCommand command = true) : requiresGuard (trim command) = false := by
  cases command with
  | nil => rfl
  | cons c cs =>
    have hlet : ∀ d ∈ ['h', 'e', 'q'], c.toLower = d →
        Text.isWhitespace c = false ∧ c ≠ '(' ∧ c.toUpper ∉ ['D', 'A', 'T'] := by
      intro d hd hc
      have hfac : d.isAlpha = true ∧ d.toUpper ∉ ['D', 'A', 'T'] := by
        simp only [mem_cons, not_mem_nil, or_false] at hd
        rcases hd with rfl | rfl | rfl <;> decide
      have halp : c.isAlpha = true := by
        rw [← Char.isAlpha_toLower_eq_isAlpha, hc]
        exact hfac.1
      refine ⟨Text.isWhitespace_of_isAlpha halp, ?_, ?_⟩
      · rintro rfl
        cases halp
      · rw [← Char.toUpper_toLower_eq_toUpper, hc]
        exact hfac.2
    have hfir : Text.isWhitespace c = false ∧ c ≠ '(' ∧ c.toUpper ∉ ['D', 'A', 'T'] := by
      simp only [Ssh.Editor.isImmediateDbCommand, map_cons, Bool.or_eq_true,
        decide_eq_true_eq, List.head?_cons, some.injEq, Bool.and_eq_true] at h
      rcases h with (((h | h) | h) | rfl) | ⟨rfl, -⟩
      · exact hlet 'h' (by decide) (List.cons.inj h).1
      · exact hlet 'e' (by decide) (List.cons.inj h).1
      · exact hlet 'q' (by decide) (List.cons.inj h).1
      · decide
      · decide
    obtain ⟨rest, hre⟩ := trim_cons hfir.1 cs
    rw [hre]
    exact not_requiresGuard hfir.1 hfir.2.1 hfir.2.2 rest

theorem submitted_cases {front : Front} {buffer line command : List Char}
    (h : submitted front buffer line = some command) :
    requiresGuard (trim command) = false ∨ command = trim (input front buffer line) := by
  rw [submitted] at h
  revert h
  fun_cases readLine front buffer line
  all_goals intro h
  case case3 himmediate =>
    rw [Bool.and_eq_true] at himmediate
    exact .inl (some.inj h ▸ immediate_unguarded himmediate.2)
  case case4 => exact .inr (some.inj h).symm
  all_goals cases h

theorem mem_calls_unforced {front : Front} {sess : Session} {a : Answers T S R}
    {buffer line : List Char} (hfor : ¬ Forced (input front buffer line)) {text : List Char} :
    Call.simpleQuery text ∈ calls front sess a buffer line ↔
      ∃ command, submitted front buffer line = some command ∧
        classify command = .statement text ∧ requiresGuard text = false := by
  rw [calls]
  cases hsub : submitted front buffer line with
  | none => simp
  | some command =>
    have hse : ∀ statement, classify command = .statement statement →
        (enforceGuard statement = .ok text ↔
          requiresGuard statement = false ∧ text = statement) := by
      intro statement hcla
      obtain rfl := classify_statement hcla
      rcases submitted_cases hsub with hfree | rfl
      · rw [enforceGuard, hfree]
        simp [eq_comm]
      · refine enforceGuard_ok_iff ?_
        rw [forced_trim, forced_trim]
        exact hfor
    show Call.simpleQuery text ∈ (processCommand sess a command).calls ↔ _
    rw [mem_calls_iff]
    constructor
    · rintro ⟨statement, hcla, hok⟩
      obtain ⟨hgua, rfl⟩ := (hse statement hcla).mp hok
      exact ⟨command, rfl, hcla, hgua⟩
    · rintro ⟨_, hcom, hcla, hgua⟩
      cases hcom
      exact ⟨text, hcla, (hse text hcla).mpr ⟨hgua, rfl⟩⟩

/-- The guard is enough for a line: its input ends with the marker, or the statement it submits
begins with a guarded word or holds nothing destructive. -/
def Guarded (front : Front) (buffer line : List Char) : Prop :=
  Forced (input front buffer line) ∨ ∀ command statement,
    submitted front buffer line = some command → classify command = .statement statement →
      requiresGuard statement = true ∨ ¬ Destructive statement

theorem not_destructive_of_guarded {front : Front} {sess : Session} {a : Answers T S R}
    {buffer line text : List Char} (h : Guarded front buffer line)
    (hfor : ¬ Forced (input front buffer line))
    (hca : Call.simpleQuery text ∈ calls front sess a buffer line) : ¬ Destructive text := by
  obtain ⟨command, hsub, hcla, hgua⟩ := (mem_calls_unforced hfor).mp hca
  rcases h with h | h
  · exact absurd h hfor
  · rcases h command text hsub hcla with htrue | hnot
    · rw [hgua] at htrue
      cases htrue
    · exact hnot

/-- **THE LINES THE GUARD IS ENOUGH FOR.** -/
theorem sends_iff (front : Front) (session : Session) (a : Answers T S R)
    (buffer line : List Char) :
    (¬ Forced (input front buffer line) → ∀ text,
      Call.simpleQuery text ∈ calls front session a buffer line → ¬ Destructive text) ↔
    Guarded front buffer line := by
  refine ⟨fun h => ?_, fun h hfor text hca => not_destructive_of_guarded h hfor hca⟩
  by_cases hfor : Forced (input front buffer line)
  · exact .inl hfor
  refine .inr fun command statement hsub hcla => ?_
  cases hgua : requiresGuard statement with
  | true => exact .inl rfl
  | false =>
    exact .inr (h hfor statement ((mem_calls_unforced hfor).mpr ⟨command, hsub, hcla, hgua⟩))

/-- `SELECT 1; DROP TABLE users;` is sent as it is. -/
theorem drop_behind_select : ∃ text, Call.simpleQuery text ∈ calls .console ⟨.postgres, [.postgres]⟩
        (⟨.ok (), .ok (), .ok [], .ok (), .ok []⟩ : Answers Unit Unit Unit) []
        "SELECT 1; DROP TABLE users;".toList ∧
      ¬ Forced (input .console [] "SELECT 1; DROP TABLE users;".toList) ∧ Destructive text :=
  ⟨"SELECT 1; DROP TABLE users;".toList, by decide +kernel⟩

end Fenrir.DbShell
