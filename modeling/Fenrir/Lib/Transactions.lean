import Mathlib

/-! # Texts of several statements

What a database does with a text of several statements: changes wait in a transaction
until it is committed. Without `begin` all statements up to the next `commit` or the
end of the text are one transaction; an error ends the text, and what was not committed
by then is lost. -/

namespace Transactions

variable {ε : Type}

/-- What a statement does, as far as transactions go. -/
inductive Op (ε : Type) where
  | change (e : ε)
  | begin | commit | rollback

structure State (ε : Type) where
  /-- In a transaction block, which the end of the text does not commit. -/
  block : Bool
  (pending committed : List ε)

def State.initial : State ε := ⟨false, [], []⟩

def State.run (s : State ε) : Op ε → State ε
  | .change e => { s with pending := s.pending ++ [e] }
  | .begin => { s with block := true }
  | .commit => ⟨false, [], s.committed ++ s.pending⟩
  | .rollback => ⟨false, [], s.committed⟩

def execute (s : State ε) (ops : List (Op ε)) : State ε := ops.foldl State.run s

/-- The end of a text that had no error. -/
def State.finish (s : State ε) : List ε :=
  if s.block then s.committed else s.committed ++ s.pending

end Transactions
