import Fenrir.Lib.Transactions
import Fenrir.Postgres.Adapter

/-! # Retries of writes

A read-write call is tried again after a stale plan only, which is taken to be raised
before anything ran. The code is told by the SQLSTATE: but a text may commit a part of
its work and raise the same SQLSTATE afterwards (`committed_twice`).

What an attempt does is given by its text, by how far the server came with it, and by
the answer. An answer that is an error of the server says that the text did not come to
its end; when the connection breaks or the time is over, nothing is known. -/

namespace Fenrir.Postgres

open Transactions

variable {ε : Type}

/-- One execution of a text. -/
structure Execution where
  /-- How many of the operations were carried out. -/
  reached : Nat
  /-- The text came to its end. -/
  finished : Bool
  response : Response

/-- An error of a server that goes on with the session. -/
def isServerError (err : PgError) : Bool := err.code.any (!endsTheSession ·)

/-- The answers Postgres allows: none but to a text that came to its end, and none of its
errors to one that did. -/
def allowed (ops : List (Op ε)) (x : Execution) : Bool :=
  x.reached ≤ ops.length && (!x.finished || x.reached == ops.length) &&
    match x.response with
    | .timeout => true
    | .answered answers =>
      match answers.result with
      | none => x.finished
      | some err => !isServerError err || !x.finished

variable {err : PgError} {reused : Bool} {x : Execution}

end Fenrir.Postgres
