import Fenrir.Ssh.Cursor

/-! # Packets

`data` decodes each packet by itself and drops the rest of one whose line leaves the shell. -/

namespace Fenrir.Ssh

open List Editor

/-- `String::from_utf8_lossy`; `replaced` is what it makes of bytes that are not UTF-8. -/
def fromUtf8Lossy (replaced : ByteArray → List Char) (bytes : ByteArray) : List Char :=
  (bytes.utf8Decode?.map Array.toList).getD (replaced bytes)

/-- The characters of a text, with what the outside answers at their place in the session. -/
def typed (answers : Nat → Answers) (n : Nat) (text : List Char) : List (Char × Answers) :=
  text.mapIdx fun k ch => (ch, answers (n + k))

abbrev Session := List (List Char) × Except Panic Editor

def submitted (s : Except Panic Editor) (ch : Char) : List (List Char) :=
  match s with
  | .error _ => []
  | .ok e =>
    if !e.confirming && e.escapeState = .none && (ch = '\r' || ch = '\n' && !e.skipNextLf) then
      [e.buffer]
    else []

def typeIn (s : Session) (event : Char × Answers) : Session :=
  (s.1 ++ submitted s.2 event.1, step s.2 event)

def leaves (s : Session) (event : Char × Answers) : Bool :=
  match s.2.bind fun e => e.receive event.2 event.1 with
  | .error _ => false
  | .ok (goesOn, _) => !goesOn

/-- `data` for a chunk. -/
def packet (s : Session) : List (Char × Answers) → Session
  | [] => s
  | event :: rest => if leaves s event then typeIn s event else packet (typeIn s event) rest

theorem packet_data (s : Session) (chunk : List (Char × Answers)) :
    (packet s chunk).2 = s.2.bind (·.data chunk) := by
  induction chunk generalizing s with
  | nil =>
    rw [packet]
    cases s.2 <;> rfl
  | cons event rest ih =>
    obtain ⟨lines, r⟩ := s
    obtain ⟨ch, a⟩ := event
    rw [packet]
    cases r with
    | error panic => exact ih _
    | ok e =>
      show _ = e.data _
      rw [data]
      cases hrec : e.receive a ch with
      | error panic =>
        simp only [leaves, typeIn, step, left, Except.bind, hrec]
        exact ih _
      | ok result =>
        obtain ⟨goesOn, e'⟩ := result
        simp only [leaves, typeIn, step, left, Except.bind, hrec]
        cases goesOn with
        | false => rfl
        | true => exact ih _

/-- No character but the last leaves the shell. -/
def Stays (s : Session) (chunk : List (Char × Answers)) : Prop :=
  Run.Along typeIn (fun s event => leaves s event = false) s chunk.dropLast

theorem stays_append {s : Session} {chunk rest : List (Char × Answers)}
    (h : Stays s (chunk ++ rest)) : Stays s chunk ∧ Stays (Run.run typeIn s chunk) rest := by
  rw [Stays] at h
  cases rest with
  | nil => exact ⟨by rwa [append_nil] at h, trivial⟩
  | cons event rest =>
    rw [dropLast_append_of_ne_nil (cons_ne_nil _ _)] at h
    obtain ⟨hfst, hrest⟩ := Run.along_append.mp h
    refine ⟨?_, hrest⟩
    rcases eq_nil_or_concat chunk with rfl | ⟨chunk, last, rfl⟩
    · trivial
    · rw [concat_eq_append] at hfst ⊢
      rw [Stays, dropLast_concat]
      exact (Run.along_append.mp hfst).1

theorem packet_eq {s : Session} {chunk : List (Char × Answers)} (h : Stays s chunk) :
    packet s chunk = Run.run typeIn s chunk := by
  induction chunk generalizing s with
  | nil => rfl
  | cons event rest ih =>
    cases rest with
    | nil =>
      rw [packet]
      split <;> rfl
    | cons next rest =>
      rw [packet, h.1]
      exact ih h.2

variable (replaced : ByteArray → List Char) (answers : Nat → Answers)

/-- `data` for one packet after the other; `n` characters came before. -/
def packets (n : Nat) (s : Session) : List ByteArray → Session
  | [] => s
  | bytes :: rest =>
    let text := fromUtf8Lossy replaced bytes
    packets (n + text.length) (packet s (typed answers n text)) rest

theorem packets_eq {n : Nat} {s : Session} {texts : List (List Char)}
    (h : Stays s (typed answers n texts.flatten)) :
    packets replaced answers n s (texts.map utf8Encode) =
      Run.run typeIn s (typed answers n texts.flatten) := by
  induction texts generalizing n s with
  | nil => rfl
  | cons text rest ih =>
    have hcut : typed answers n (text :: rest).flatten =
        typed answers n text ++ typed answers (n + text.length) rest.flatten := by
      simp only [typed, flatten_cons, mapIdx_append, Nat.add_assoc, Nat.add_comm text.length]
    have hdec : fromUtf8Lossy replaced text.utf8Encode = text := by
      rw [fromUtf8Lossy, utf8Decode?_utf8Encode]
      rfl
    rw [hcut] at h ⊢
    obtain ⟨hfst, hrest⟩ := stays_append h
    rw [map_cons, packets, hdec, packet_eq hfst, ih hrest, Run.run_append]

/-- **PACKETS**: two ways to cut a text between characters, in a session that is not left
before its end, submit the same lines and end in the same state. -/
theorem packets_agree (s : Session) {texts texts' : List (List Char)}
    (hsame : texts.flatten = texts'.flatten)
    (hstay : Stays s (typed answers 0 texts.flatten)) :
    packets replaced answers 0 s (texts.map utf8Encode) =
      packets replaced answers 0 s (texts'.map utf8Encode) := by
  rw [packets_eq replaced answers hstay, packets_eq replaced answers (hsame ▸ hstay), hsame]

/-- A line is submitted, and its end is cut in two. -/
theorem packets_agree_two :
    let answers := fun _ => sampleAnswers
    (Run.run typeIn ([], .ok .new) (typed answers 0 ['é', '\r', '\n', 'b'])).1 = [['é']] ∧
      packets (fun _ => []) answers 0 ([], .ok .new) ([['é', '\r'], ['\n', 'b']].map utf8Encode) =
        packets (fun _ => []) answers 0 ([], .ok .new)
          ([['é'], ['\r', '\n', 'b']].map utf8Encode) :=
  ⟨rfl, packets_agree _ _ _ rfl ⟨rfl, rfl, rfl, trivial⟩⟩

/-- The buffer after packets whose ill-formed bytes are each replaced. -/
def bufferAfter (parts : List ByteArray) : Option (List Char) :=
  (packets (fun b => replicate b.size '�') (fun _ => sampleAnswers) 0 ([], .ok .new)
    parts).2.toOption.map (·.buffer)

/-- The two bytes of `é`, in one packet and in two: each half is decoded by itself. -/
theorem split_character_lost : bufferAfter [⟨#[0xC3, 0xA9]⟩] = some ['é'] ∧
    bufferAfter [⟨#[0xC3]⟩, ⟨#[0xA9]⟩] = some ['�', '�'] := by
  have hone : ByteArray.utf8Decode? ⟨#[0xC3, 0xA9]⟩ = some #['é'] :=
    utf8Decode?_utf8Encode (l := ['é'])
  have hlow : ByteArray.utf8Decode? ⟨#[0xC3]⟩ = none := by
    rw [ByteArray.utf8Decode?, ByteArray.utf8Decode?.go]
    rfl
  have hhigh : ByteArray.utf8Decode? ⟨#[0xA9]⟩ = none := by
    rw [ByteArray.utf8Decode?, ByteArray.utf8Decode?.go]
    rfl
  simp only [bufferAfter, packets, fromUtf8Lossy, hone, hlow, hhigh]
  exact ⟨rfl, rfl⟩

end Fenrir.Ssh
