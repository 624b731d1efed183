import Fenrir.Ssh.Editor

/-! # The cursor stays between characters

After every character the cursor of the line editor should be an offset between two
characters of the buffer, so that no slice there panics. All handlers keep this but the
two that move the cursor to another line: they carry its column over in bytes. -/

namespace Fenrir.Ssh

open Utf8

namespace Editor

/-- The cursor stands between two characters of the buffer. -/
def Good (e : Editor) : Prop := Boundary e.buffer e.cursor

instance (e : Editor) : Decidable e.Good := inferInstanceAs (Decidable (Boundary _ _))

end Editor

open Editor

/-- A handler ends with the cursor between characters, or panics for another reason. -/
def Sound : Except Panic Editor → Prop
  | .ok e => e.Good
  | .error panic => panic = .elsewhere

/-! ## Slices -/

section

variable {α : Type} {e : Editor}

end

/-! ## Moving along a line, and editing -/

section

variable {e : Editor} {a : Answers}

end

/-! ## Commands and confirmations -/

section

variable {e : Editor} {a : Answers}

end

/-! ## Moving between lines -/

section

variable {e : Editor}

end

/-! ## Characters -/

section

variable {e : Editor} {a : Answers}

def left (r : Except Panic (Bool × Editor)) : Except Panic Editor := r.map (·.2)

/-- One character after another; a panic ends the session. -/
def step (s : Except Panic Editor) (event : Char × Answers) : Except Panic Editor :=
  s.bind fun e => left (e.receive event.2 event.1)

end

/-! ## Two panics -/

def sampleAnswers : Answers where
  command := .executed (.enterDbShell true (some ⟨["select".toList], []⟩))
  db := .continues none
  refresh := none
  resolve := none
  suggestions := []
  cycle := []
  isCommand := fun _ => false
  sqlSuggestions := []
  endsWithMark := false

end Fenrir.Ssh
