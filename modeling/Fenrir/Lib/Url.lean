import Fenrir.Lib.Text

/-! # Parsing of `http` URLs

The part of the WHATWG URL standard that decides where a request to an
`http` URL goes: cleaning of the input, the authority, the path with its dot
segments, the query. The host is left as the text of the authority. -/

namespace Url

open List

/-- A path segment, percent-encoded. -/
abbrev Segment := List Char

def isC0OrSpace (c : Char) : Bool := c.toNat ≤ 0x20

def isTabOrNewline (c : Char) : Bool := c == '\t' || c == '\n' || c == '\r'

/-- In a special URL a backslash counts as a slash. -/
def isSlash (c : Char) : Bool := c == '/' || c == '\\'

def endsPath (c : Char) : Bool := c == '?' || c == '#'

/-! ## Percent-encoding -/

/-- The C0 control percent-encode set. -/
def inControlSet (c : Char) : Bool := c.toNat ≤ 0x1F || c.toNat > 0x7E

/-- The special-query percent-encode set. -/
def inQuerySet (c : Char) : Bool :=
  inControlSet c || c == ' ' || c == '"' || c == '#' || c == '<' || c == '>' || c == '\''

/-- The path percent-encode set of the `url` crate, which keeps a `^`. -/
def inPathSet (c : Char) : Bool :=
  inControlSet c || c == ' ' || c == '"' || c == '#' || c == '<' || c == '>' || c == '?'
    || c == '`' || c == '{' || c == '}'

def hexUpper (n : Nat) : Char := if n < 10 then Char.ofNat (48 + n) else Char.ofNat (55 + n)

def percentByte (b : UInt8) : List Char := ['%', hexUpper (b.toNat / 16), hexUpper (b.toNat % 16)]

def encodeChar (inSet : Char → Bool) (c : Char) : List Char :=
  if inSet c then (String.utf8EncodeChar c).flatMap percentByte else [c]

def encode (inSet : Char → Bool) (cs : List Char) : List Char := cs.flatMap (encodeChar inSet)

/-! ## The path -/

def isSingleDot (seg : Segment) : Bool :=
  let s := seg.map Char.toLower
  s == ".".toList || s == "%2e".toList

def isDoubleDot (seg : Segment) : Bool :=
  let s := seg.map Char.toLower
  s == "..".toList || s == ".%2e".toList || s == "%2e.".toList || s == "%2e%2e".toList

/-- A segment that a slash follows. -/
def follow (path : List Segment) (seg : Segment) : List Segment :=
  if isDoubleDot seg then path.dropLast
  else if isSingleDot seg then path
  else path ++ [seg]

/-- The last segment: a dot segment leaves an empty one behind. -/
def finish (path : List Segment) (seg : Segment) : List Segment :=
  if isDoubleDot seg then path.dropLast ++ [[]]
  else if isSingleDot seg then path ++ [[]]
  else path ++ [seg]

/-- The path state, from a path already read. -/
def resolve : List Segment → List Segment → List Segment
  | path, [] => path
  | path, [seg] => finish path seg
  | path, seg :: next :: rest => resolve (follow path seg) (next :: rest)

def segmentsOf (text : List Char) : List Segment :=
  (text.splitOnP isSlash).map (encode inPathSet)

/-! ## The parser -/

structure Parsed where
  authority : List Char
  path : List Segment
  query : Option (List Char)
  deriving DecidableEq

/-- The serialized path. -/
def pathText (path : List Segment) : List Char := path.flatMap ('/' :: ·)

def cleanEnd (text : List Char) : List Char :=
  (text.rdropWhile isC0OrSpace).filter (!isTabOrNewline ·)

/-- What follows the path: a query up to a fragment, or none. -/
def queryOf : List Char → Option (List Char)
  | '?' :: rest => some (encode inQuerySet (rest.takeWhile (· != '#')))
  | _ => none

def parseHttp (input : List Char) : Option Parsed :=
  match Text.stripStart "http:".toList (cleanEnd (input.dropWhile isC0OrSpace)) with
  | none => none
  | some rest =>
    let rest := rest.dropWhile isSlash
    let authority := rest.takeWhile fun c => !(isSlash c || endsPath c)
    let rest := rest.dropWhile fun c => !(isSlash c || endsPath c)
    if authority.isEmpty then none
    else
      some {
        authority
        path := match rest.takeWhile (!endsPath ·) with
          | [] => [[]]
          | _ :: text => resolve [] (segmentsOf text)
        query := queryOf (rest.dropWhile (!endsPath ·)) }

/-! ## What encoding leaves -/

/-- A percent-encode set that leaves percent-encoded bytes alone. -/
structure KeepsEncoded (inSet : Char → Bool) : Prop where
  percent : inSet '%' = false
  digit : ∀ n < 16, inSet (hexUpper n) = false

theorem keepsEncoded_path : KeepsEncoded inPathSet := ⟨by decide, by decide⟩

theorem keepsEncoded_query : KeepsEncoded inQuerySet := ⟨by decide, by decide⟩

variable {c : Char} {cs : List Char} {seg : Segment}

theorem mem_percentByte {b : UInt8} (h : c ∈ percentByte b) :
    c = '%' ∨ ∃ n < 16, c = hexUpper n := by
  have hb : b.toNat < 256 := b.toNat_lt
  simp only [percentByte, mem_cons, not_mem_nil, or_false] at h
  rcases h with rfl | rfl | rfl
  · exact .inl rfl
  · exact .inr ⟨b.toNat / 16, by omega, rfl⟩
  · exact .inr ⟨b.toNat % 16, by omega, rfl⟩

theorem mem_encode {inSet : Char → Bool} (h : c ∈ encode inSet cs) :
    c = '%' ∨ (∃ n < 16, c = hexUpper n) ∨ (c ∈ cs ∧ inSet c = false) := by
  obtain ⟨d, hd, hc⟩ := mem_flatMap.mp h
  rw [encodeChar] at hc
  split at hc
  · obtain ⟨b, -, hb⟩ := mem_flatMap.mp hc
    rcases mem_percentByte hb with hp | hn
    · exact .inl hp
    · exact .inr (.inl hn)
  · rename_i hset
    rw [mem_singleton.mp hc]
    exact .inr (.inr ⟨hd, by simpa using hset⟩)

theorem encode_kept {inSet : Char → Bool} (hset : KeepsEncoded inSet) (h : c ∈ encode inSet cs) :
    inSet c = false := by
  rcases mem_encode h with rfl | ⟨n, hn, rfl⟩ | ⟨-, hc⟩
  · exact hset.percent
  · exact hset.digit n hn
  · exact hc

theorem encode_eq_self {inSet : Char → Bool} (h : ∀ c ∈ cs, inSet c = false) :
    encode inSet cs = cs := by
  induction cs with
  | nil => rfl
  | cons c cs ih =>
    have hc : encodeChar inSet c = [c] := by
      rw [encodeChar, h c mem_cons_self]
      rfl
    show encodeChar inSet c ++ encode inSet cs = c :: cs
    rw [hc, ih (fun d hd => h d (mem_cons_of_mem _ hd))]
    rfl

theorem length_encodeChar (inSet : Char → Bool) (c : Char) : 1 ≤ (encodeChar inSet c).length := by
  rw [encodeChar]
  split
  · have hne : String.utf8EncodeChar c ≠ [] := by
      intro hnil
      have hsi := String.length_utf8EncodeChar c
      rw [hnil] at hsi
      exact absurd hsi.symm (Nat.pos_iff_ne_zero.mp c.utf8Size_pos)
    cases hb : String.utf8EncodeChar c with
    | nil => exact absurd hb hne
    | cons b bs => simp [percentByte]
  · exact Nat.le_refl 1

theorem length_encode (inSet : Char → Bool) (cs : List Char) :
    cs.length ≤ (encode inSet cs).length := by
  induction cs with
  | nil => exact Nat.le_refl 0
  | cons c cs ih =>
    show cs.length + 1 ≤ (encodeChar inSet c ++ encode inSet cs).length
    have hc := length_encodeChar inSet c
    rw [length_append]
    omega

/-! ## Dot segments -/

def isName (seg : Segment) : Bool := !isSingleDot seg && !isDoubleDot seg

theorem follow_name (h : isName seg = true) (path : List Segment) :
    follow path seg = path ++ [seg] := by
  simp only [isName, Bool.and_eq_true, Bool.not_eq_true'] at h
  simp [follow, h.1, h.2]

theorem finish_name (h : isName seg = true) (path : List Segment) :
    finish path seg = path ++ [seg] := by
  simp only [isName, Bool.and_eq_true, Bool.not_eq_true'] at h
  simp [finish, h.1, h.2]

theorem resolve_names {base : List Segment} (hba : ∀ seg ∈ base, isName seg = true)
    (path segs : List Segment) : resolve path (base ++ segs) = resolve (path ++ base) segs := by
  induction base generalizing path with
  | nil => rw [nil_append, append_nil]
  | cons seg base ih =>
    have hseg := hba seg mem_cons_self
    have hre := ih (fun s hs => hba s (mem_cons_of_mem _ hs)) (path ++ [seg])
    have happ : path ++ seg :: base = path ++ [seg] ++ base := by simp
    rw [happ, ← hre, cons_append]
    cases hmo : base ++ segs with
    | nil => exact finish_name hseg path
    | cons next rest => rw [resolve, follow_name hseg]

theorem mem_resolve {path segs : List Segment} (h : seg ∈ resolve path segs) :
    seg ∈ path ∨ seg = [] ∨ (seg ∈ segs ∧ isName seg = true) := by
  induction path, segs using resolve.induct with
  | case1 path => exact .inl h
  | case2 path s =>
    rw [resolve, finish] at h
    split at h
    · rcases mem_append.mp h with hp | hs
      · exact .inl (dropLast_subset _ hp)
      · exact .inr (.inl (mem_singleton.mp hs))
    · split at h
      · rcases mem_append.mp h with hp | hs
        · exact .inl hp
        · exact .inr (.inl (mem_singleton.mp hs))
      · rename_i hdd hd
        rcases mem_append.mp h with hp | hs
        · exact .inl hp
        · rw [mem_singleton.mp hs]
          exact .inr (.inr ⟨mem_cons_self, by simp [isName, hdd, hd]⟩)
  | case3 path s next rest ih =>
    rw [resolve] at h
    rcases ih h with hp | he | ⟨hm, hn⟩
    · rw [follow] at hp
      split at hp
      · exact .inl (dropLast_subset _ hp)
      · split at hp
        · exact .inl hp
        · rename_i hdd hd
          rcases mem_append.mp hp with hin | hs
          · exact .inl hin
          · rw [mem_singleton.mp hs]
            exact .inr (.inr ⟨mem_cons_self, by simp [isName, hdd, hd]⟩)
    · exact .inr (.inl he)
    · exact .inr (.inr ⟨mem_cons_of_mem _ hm, hn⟩)

/-! ## Relative to a start -/

/-- One level up from `levels` above the start, inside `entered`. -/
def up (levels : Nat) (entered : List Segment) : Nat × List Segment :=
  match entered with
  | [] => (levels + 1, [])
  | _ => (levels, entered.dropLast)

/-- How far above the start the segments lead, and what they enter from there. -/
def climb : Nat → List Segment → List Segment → Nat × List Segment
  | levels, entered, [] => (levels, entered)
  | levels, entered, [seg] =>
    if isDoubleDot seg then ((up levels entered).1, (up levels entered).2 ++ [[]])
    else if isSingleDot seg then (levels, entered ++ [[]])
    else (levels, entered ++ [seg])
  | levels, entered, seg :: next :: rest =>
    if isDoubleDot seg then climb (up levels entered).1 (up levels entered).2 (next :: rest)
    else if isSingleDot seg then climb levels entered (next :: rest)
    else climb levels (entered ++ [seg]) (next :: rest)

/-- A path that lies `levels` above `base` and then goes through `entered`. -/
def above (base : List Segment) (at_ : Nat × List Segment) : List Segment :=
  base.take (base.length - at_.1) ++ at_.2

theorem dropLast_above (base : List Segment) (levels : Nat) (entered : List Segment) :
    (above base (levels, entered)).dropLast = above base (up levels entered) := by
  cases entered with
  | nil =>
    simp only [above, up, append_nil]
    rw [dropLast_eq_take, take_take, length_take]
    congr 1
    omega
  | cons seg more =>
    simp only [above, up]
    rw [dropLast_append_of_ne_nil (by simp)]

theorem resolve_above (base : List Segment) (levels : Nat) (entered segs : List Segment) :
    resolve (above base (levels, entered)) segs = above base (climb levels entered segs) := by
  induction levels, entered, segs using climb.induct with
  | case1 levels entered => rw [resolve, climb]
  | case2 levels entered seg hdd =>
    rw [resolve, finish, climb, if_pos hdd, if_pos hdd, dropLast_above]
    simp [above]
  | case3 levels entered seg hdd hd =>
    rw [resolve, finish, climb, if_neg hdd, if_neg hdd, if_pos hd, if_pos hd]
    simp [above]
  | case4 levels entered seg hdd hd =>
    rw [resolve, finish, climb, if_neg hdd, if_neg hdd, if_neg hd, if_neg hd]
    simp [above]
  | case5 levels entered seg next rest hdd ih =>
    rw [resolve, follow, climb, if_pos hdd, if_pos hdd, dropLast_above]
    exact ih
  | case6 levels entered seg next rest hdd hd ih =>
    rw [resolve, follow, climb, if_neg hdd, if_neg hdd, if_pos hd, if_pos hd]
    exact ih
  | case7 levels entered seg next rest hdd hd ih =>
    rw [resolve, follow, climb, if_neg hdd, if_neg hdd, if_neg hd, if_neg hd, ← ih]
    simp [above]

theorem resolve_eq_climb (base segs : List Segment) :
    resolve base segs = above base (climb 0 [] segs) := by
  rw [← resolve_above]
  simp [above]

/-- The levels a climb left have to be entered again, in order, to end up at or below
the start. -/
theorem at_or_below_above_iff (base : List Segment) (at_ : Nat × List Segment) :
    base <+: above base at_ ↔ base.drop (base.length - at_.1) <+: at_.2 := by
  have hspl : base.take (base.length - at_.1) ++ base.drop (base.length - at_.1) = base :=
    take_append_drop _ _
  rw [above]
  conv_lhs => lhs; rw [← hspl]
  exact prefix_append_right_inj _

/-! ## At or below a path, as text -/

theorem append_slash_inj {a b x y : List Char} (ha : '/' ∉ a) (hb : '/' ∉ b)
    (hx : x.takeWhile (· != '/') = []) (hy : y.takeWhile (· != '/') = [])
    (h : a ++ x = b ++ y) : a = b ∧ x = y := by
  have hfr : ∀ l : List Char, '/' ∉ l → ∀ c ∈ l, (c != '/') = true := by
    intro l hl c hc
    exact bne_iff_ne.mpr (fun heq => hl (heq ▸ hc))
  have hab : a = b := by
    have hta := congrArg (List.takeWhile (· != '/')) h
    rw [takeWhile_append_of_pos (hfr a ha), takeWhile_append_of_pos (hfr b hb),
      hx, hy, append_nil, append_nil] at hta
    exact hta
  subst hab
  exact ⟨rfl, append_cancel_left h⟩

theorem pathText_starts (segs : List Segment) : (pathText segs).takeWhile (· != '/') = [] := by
  cases segs with
  | nil | cons seg segs => rfl

/-- The texts of two paths whose segments hold no slash: one is at or below the other
exactly when its segments begin with the other's. -/
theorem pathText_at_or_below_iff {as bs : List Segment} (ha : ∀ seg ∈ as, '/' ∉ seg)
    (hb : ∀ seg ∈ bs, '/' ∉ seg) :
    (pathText bs = pathText as ∨ pathText as ++ ['/'] <+: pathText bs) ↔ as <+: bs := by
  induction as generalizing bs with
  | nil =>
    refine iff_of_true ?_ nil_prefix
    cases bs with
    | nil => exact .inl rfl
    | cons b bs => exact .inr ⟨b ++ pathText bs, rfl⟩
  | cons a as ih =>
    cases bs with
    | nil => simp [pathText]
    | cons b bs =>
      have ha' := ha a mem_cons_self
      have hb' := hb b mem_cons_self
      have hmo := @ih bs (fun s hs => ha s (mem_cons_of_mem _ hs))
        (fun s hs => hb s (mem_cons_of_mem _ hs))
      rw [cons_prefix_cons, ← hmo]
      show ('/' :: (b ++ pathText bs) = '/' :: (a ++ pathText as) ∨
        '/' :: (a ++ pathText as ++ ['/']) <+: '/' :: (b ++ pathText bs)) ↔ _
      rw [cons_prefix_cons]
      constructor
      · rintro (heq | ⟨-, more, hmo⟩)
        · obtain ⟨rfl, hre⟩ := append_slash_inj hb' ha' (pathText_starts bs)
            (pathText_starts as) (List.cons.inj heq).2
          exact ⟨rfl, .inl hre⟩
        · have hcut : (pathText as ++ ['/'] ++ more).takeWhile (· != '/') = [] := by
            cases as with
            | nil | cons s as => rfl
          obtain ⟨rfl, hre⟩ := append_slash_inj ha' hb' hcut (pathText_starts bs)
            (by rw [← hmo]; simp)
          exact ⟨rfl, .inr ⟨more, hre⟩⟩
      · rintro ⟨rfl, heq | ⟨more, hre⟩⟩
        · exact .inl (by rw [heq])
        · exact .inr ⟨rfl, more, by rw [← hre]; simp⟩

/-! ## URLs with a known authority -/

theorem rdropWhile_append_cons {p : Char → Bool} (hc : p c = false) (as bs : List Char) :
    (as ++ c :: bs).rdropWhile p = as ++ c :: bs.rdropWhile p := by
  rw [List.rdropWhile, List.rdropWhile]
  simp only [reverse_append, reverse_cons, append_assoc, singleton_append]
  rw [List.dropWhile_append]
  split
  · rename_i hemp
    rw [List.isEmpty_iff] at hemp
    rw [List.dropWhile_cons_of_neg (by simp [hc]), hemp]
    simp
  · simp

theorem cleanEnd_append_cons (hc : isC0OrSpace c = false) (as bs : List Char) :
    cleanEnd (as ++ c :: bs) = as.filter (!isTabOrNewline ·) ++ c :: cleanEnd bs := by
  have htab : isTabOrNewline c = false := by
    by_contra htab
    simp only [isTabOrNewline, Bool.not_eq_false, Bool.or_eq_true, beq_iff_eq] at htab
    rcases htab with (rfl | rfl) | rfl <;> exact absurd hc (by decide)
  rw [cleanEnd, rdropWhile_append_cons hc, filter_append,
    filter_cons_of_pos (by simp [htab]), cleanEnd]

/-- A character that stays where it is in an authority. -/
def inAuthority (c : Char) : Bool :=
  !(isSlash c || endsPath c || isTabOrNewline c)

theorem parseHttp_authority {authority : List Char} (hne : authority ≠ [])
    (hcle : ∀ c ∈ authority, inAuthority c = true) (rest : List Char) :
    parseHttp ("http://".toList ++ authority ++ '/' :: rest) = some {
      authority
      path := resolve [] (segmentsOf ((cleanEnd rest).takeWhile (!endsPath ·)))
      query := queryOf ((cleanEnd rest).dropWhile (!endsPath ·)) } := by
  have hke : ∀ c ∈ authority, (!(isSlash c || endsPath c)) = true ∧ (!isTabOrNewline c) = true := by
    intro c hc
    have h := hcle c hc
    simp only [inAuthority, Bool.not_eq_true', Bool.or_eq_false_iff] at h
    simp [h.1.1, h.1.2, h.2]
  have hcl : cleanEnd (("http://".toList ++ authority ++ '/' :: rest).dropWhile isC0OrSpace) =
      "http:".toList ++ ('/' :: '/' :: (authority ++ '/' :: cleanEnd rest)) := by
    rw [show ("http://".toList ++ authority ++ '/' :: rest).dropWhile isC0OrSpace =
      "http://".toList ++ authority ++ '/' :: rest from rfl,
      cleanEnd_append_cons (by decide), filter_append,
      filter_eq_self.mpr (fun c hc => (hke c hc).2)]
    simp [isTabOrNewline]
  have hsla : ('/' :: '/' :: (authority ++ '/' :: cleanEnd rest)).dropWhile isSlash =
      authority ++ '/' :: cleanEnd rest := by
    obtain ⟨a, more, rfl⟩ := exists_cons_of_ne_nil hne
    have ha := (hke a mem_cons_self).1
    simp only [Bool.not_eq_true', Bool.or_eq_false_iff] at ha
    rw [dropWhile_cons_of_pos (by decide), dropWhile_cons_of_pos (by decide),
      cons_append, dropWhile_cons_of_neg (by simp [ha.1])]
  have hta : (authority ++ '/' :: cleanEnd rest).takeWhile
      (fun c => !(isSlash c || endsPath c)) = authority := by
    rw [takeWhile_append_of_pos (fun c hc => (hke c hc).1),
      takeWhile_cons_of_neg (by decide), append_nil]
  have hdr : (authority ++ '/' :: cleanEnd rest).dropWhile
      (fun c => !(isSlash c || endsPath c)) = '/' :: cleanEnd rest := by
    rw [List.dropWhile_append_of_pos (fun c hc => (hke c hc).1),
      List.dropWhile_cons_of_neg (by decide)]
  rw [parseHttp, hcl, Text.stripStart_eq_some.mpr rfl]
  simp only [hsla, hta, hdr, List.isEmpty_iff, hne, if_false]
  rw [List.takeWhile_cons_of_pos (by decide), List.dropWhile_cons_of_pos (by decide)]

end Url
