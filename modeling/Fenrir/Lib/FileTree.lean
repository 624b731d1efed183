import Mathlib

/-! # File trees

A directory and everything below it: a finite map from paths (lists of names)
to files and directories in which every entry stands in a directory. -/

namespace FileTree

open List

inductive Node (β : Type) where
  | file (content : β)
  | dir
  deriving DecidableEq

/-- `paths` may name more than there is; `get` decides. -/
structure Tree (ν β : Type) where
  get : List ν → Option (Node β)
  paths : List (List ν)
  root : get [] = some .dir
  closed : ∀ p a, get (p ++ [a]) ≠ none → get p = some .dir
  listed : ∀ p, get p ≠ none → p ∈ paths

variable {ν β : Type}

namespace Tree

def empty : Tree ν β where
  get := fun p => if p.isEmpty then some .dir else none
  paths := [[]]
  root := rfl
  closed := by
    intro p a h
    simp at h
  listed := by
    intro p h
    cases p with
    | nil => exact mem_singleton_self _
    | cons a p => exact absurd rfl h

def isDir (t : Tree ν β) (p : List ν) : Bool :=
  match t.get p with
  | some .dir => true
  | _ => false

variable {t t' : Tree ν β} {here p q rest : List ν} {a : ν} {n : Node β}
  {entries : List (List ν × Option β)} {c : β}

theorem isDir_iff : t.isDir p = true ↔ t.get p = some .dir := by
  rw [isDir]
  cases t.get p with
  | none => simp
  | some n => cases n <;> simp

theorem dir_of_append (hq : q ≠ []) (h : t.get (p ++ q) ≠ none) : t.get p = some .dir := by
  induction q using List.reverseRecOn with
  | nil => exact absurd rfl hq
  | append_singleton q a ih =>
    rw [← append_assoc] at h
    have hdir := t.closed _ _ h
    by_cases hnil : q = []
    · rw [hnil, append_nil] at hdir
      exact hdir
    · refine ih hnil ?_
      rw [hdir]
      exact Option.some_ne_none _

/-- Without the entries of the root whose name is dropped. -/
def keepTop (t : Tree ν β) (keep : ν → Bool) : Tree ν β where
  get
    | [] => some .dir
    | a :: p => if keep a then t.get (a :: p) else none
  paths := t.paths
  root := rfl
  closed := by
    intro p a h
    cases p with
    | nil => rfl
    | cons b p =>
      rw [cons_append] at h
      dsimp only at h ⊢
      cases hb : keep b with
      | false =>
        rw [hb] at h
        exact absurd rfl h
      | true =>
        rw [hb] at h
        exact t.closed (b :: p) a h
  listed := by
    intro p h
    cases p with
    | nil => exact t.listed [] (by rw [t.root]; exact Option.some_ne_none _)
    | cons a p =>
      dsimp only at h
      split at h
      · exact t.listed _ h
      · exact absurd rfl h

def sub (t : Tree ν β) (top : ν) : Tree ν β where
  get
    | [] => some .dir
    | a :: p => t.get (top :: a :: p)
  paths := [] :: t.paths.map List.tail
  root := rfl
  closed := by
    intro p a h
    cases p with
    | nil => rfl
    | cons b p => exact t.closed (top :: b :: p) a h
  listed := by
    intro p h
    cases p with
    | nil => exact mem_cons_self
    | cons a p =>
      exact mem_cons_of_mem _ (mem_map.mpr ⟨top :: a :: p, t.listed _ h, rfl⟩)

@[simp] theorem get_empty (p : List ν) :
    (empty : Tree ν β).get p = if p.isEmpty then some .dir else none := rfl

@[simp] theorem get_keepTop_cons (t : Tree ν β) (keep : ν → Bool) (a : ν) (p : List ν) :
    (t.keepTop keep).get (a :: p) = if keep a then t.get (a :: p) else none := rfl

@[simp] theorem get_sub_cons (t : Tree ν β) (top a : ν) (p : List ν) :
    (t.sub top).get (a :: p) = t.get (top :: a :: p) := rfl

variable [DecidableEq ν]

section

variable (t : Tree ν β) (p : List ν) (a : ν)

/-- An entry in a directory; it does not take the place of a directory unless it is
one. -/
def put (n : Node β) (hp : t.get p = some .dir)
    (hn : n = .dir ∨ t.get (p ++ [a]) ≠ some .dir) : Tree ν β where
  get := fun q => if q = p ++ [a] then some n else t.get q
  paths := (p ++ [a]) :: t.paths
  root := by
    rw [if_neg (by simp)]
    exact t.root
  closed := by
    intro q b h
    by_cases hqb : q ++ [b] = p ++ [a]
    · obtain ⟨rfl, -⟩ := append_inj' hqb rfl
      rw [if_neg (by simp)]
      exact hp
    · rw [if_neg hqb] at h
      have hq := t.closed q b h
      by_cases hqp : q = p ++ [a]
      · rw [if_pos hqp]
        rcases hn with rfl | hn
        · rfl
        · exact absurd (hqp ▸ hq) hn
      · rw [if_neg hqp]
        exact hq
  listed := by
    intro q h
    by_cases hq : q = p ++ [a]
    · rw [hq]
      exact mem_cons_self
    · rw [if_neg hq] at h
      exact mem_cons_of_mem _ (t.listed q h)

/-- A directory in a directory; it may be there already, but not as a file. -/
def mkdir : Option (Tree ν β) :=
  if hp : t.isDir p = true then
    match t.get (p ++ [a]) with
    | some (.file _) => none
    | _ => some (t.put p a .dir (isDir_iff.mp hp) (.inl rfl))
  else none

/-- `here` is a directory, and so is everything from there down. -/
def mkdirs (t : Tree ν β) (here : List ν) : List ν → Option (Tree ν β)
  | [] => if t.isDir here then some t else none
  | a :: rest => (t.mkdir here a).bind fun t' => t'.mkdirs (here ++ [a]) rest

/-- A file in a directory; it replaces a file, but not a directory. -/
def writeFile (content : β) : Option (Tree ν β) :=
  if hp : t.isDir p = true then
    if hd : t.isDir (p ++ [a]) = true then none
    else some (t.put p a (.file content) (isDir_iff.mp hp) (.inr fun h => hd (isDir_iff.mpr h)))
  else none

def children : List (ν × Node β) :=
  ((t.paths.filterMap fun q => if q.dropLast = p then q.getLast? else none).dedup).filterMap
    fun a => (t.get (p ++ [a])).map (a, ·)

end

theorem mem_children : (a, n) ∈ t.children p ↔ t.get (p ++ [a]) = some n := by
  rw [children, mem_filterMap]
  constructor
  · rintro ⟨b, -, hb⟩
    obtain ⟨n', hn', heq⟩ := Option.map_eq_some_iff.mp hb
    cases heq
    exact hn'
  · intro h
    refine ⟨a, ?_, by rw [h]; rfl⟩
    rw [mem_dedup, mem_filterMap]
    refine ⟨p ++ [a], t.listed _ (by rw [h]; exact Option.some_ne_none _), ?_⟩
    rw [if_pos dropLast_concat, List.getLast?_concat]

theorem children_nodup (t : Tree ν β) (p : List ν) : (t.children p).Nodup := by
  rw [children]
  refine (nodup_dedup _).filterMap ?_
  intro a a' x hx hx'
  obtain ⟨n, -, rfl⟩ := Option.map_eq_some_iff.mp hx
  obtain ⟨n', -, heq⟩ := Option.map_eq_some_iff.mp hx'
  exact (Prod.mk.inj heq).1.symm

theorem children_eq_singleton : t.children p = [(a, n)] ↔
      t.get (p ++ [a]) = some n ∧ ∀ b, t.get (p ++ [b]) ≠ none → b = a := by
  constructor
  · intro h
    refine ⟨mem_children.mp (by rw [h]; exact mem_singleton_self _), ?_⟩
    intro b hb
    obtain ⟨n', hn'⟩ := Option.ne_none_iff_exists'.mp hb
    have hmem := mem_children.mpr hn'
    rw [h] at hmem
    exact (Prod.mk.inj (mem_singleton.mp hmem)).1
  · rintro ⟨ha, hon⟩
    have hall : ∀ x ∈ t.children p, x = (a, n) := by
      rintro ⟨b, n'⟩ hb
      have hget := mem_children.mp hb
      have hba : b = a := hon b (by rw [hget]; exact Option.some_ne_none _)
      rw [hba] at hget ⊢
      rw [ha] at hget
      rw [Option.some.inj hget]
    exact perm_singleton.mp
      ((perm_ext_iff_of_nodup (t.children_nodup p) (nodup_singleton _)).mpr
        fun x => ⟨fun hx => mem_singleton.mpr (hall x hx),
          fun hx => mem_singleton.mp hx ▸ mem_children.mpr ha⟩)

/-! ## What the operations change -/

theorem get_put (t : Tree ν β) (p : List ν) (a : ν) (n : Node β) (hp : t.get p = some .dir)
    (hn : n = .dir ∨ t.get (p ++ [a]) ≠ some .dir) (q : List ν) :
    (t.put p a n hp hn).get q = if q = p ++ [a] then some n else t.get q := rfl

theorem mkdir_spec (h : t.mkdir p a = some t') :
    t.get p = some .dir ∧ (∀ c, t.get (p ++ [a]) ≠ some (.file c)) ∧
      ∀ q, t'.get q = if q = p ++ [a] then some .dir else t.get q := by
  revert h
  fun_cases mkdir t p a
  case case2 hp hfi =>
    intro h
    cases h
    exact ⟨isDir_iff.mp hp, hfi, get_put _ _ _ _ _ _⟩
  all_goals exact nofun

theorem writeFile_spec {cont : β} (h : t.writeFile p a cont = some t') :
    t.get p = some .dir ∧ t.get (p ++ [a]) ≠ some .dir ∧
      ∀ q, t'.get q = if q = p ++ [a] then some (.file cont) else t.get q := by
  revert h
  fun_cases writeFile t p a cont
  case case2 hp hd =>
    intro h
    cases h
    exact ⟨isDir_iff.mp hp, fun hget => hd (isDir_iff.mpr hget), get_put _ _ _ _ _ _⟩
  all_goals exact nofun

omit [DecidableEq ν] in
theorem between_cons : here <+: q ∧ q <+: here ++ a :: rest ↔
      q = here ∨ here ++ [a] <+: q ∧ q <+: here ++ [a] ++ rest := by
  have hass : here ++ a :: rest = here ++ [a] ++ rest := by simp
  constructor
  · rintro ⟨⟨r, rfl⟩, hq⟩
    cases r with
    | nil => exact .inl (append_nil _)
    | cons b r =>
      obtain ⟨rfl, -⟩ := cons_prefix_cons.mp ((prefix_append_right_inj _).mp hq)
      refine .inr ⟨⟨r, by simp⟩, ?_⟩
      rw [← hass]
      exact hq
  · rintro (rfl | ⟨h1, h2⟩)
    · exact ⟨prefix_rfl, prefix_append _ _⟩
    · rw [hass]
      exact ⟨(prefix_append _ _).trans h1, h2⟩

theorem mkdirs_spec (h : t.mkdirs here rest = some t') :
    ∀ q, (here <+: q ∧ q <+: here ++ rest → t'.get q = some .dir ∧ ∀ c, t.get q ≠ some (.file c)) ∧
      (¬(here <+: q ∧ q <+: here ++ rest) → t'.get q = t.get q) := by
  induction rest generalizing t here with
  | nil =>
    rw [mkdirs] at h
    split at h
    · rename_i hdir
      cases h
      refine fun q => ⟨?_, fun _ => rfl⟩
      rintro ⟨h1, h2⟩
      rw [append_nil] at h2
      obtain rfl := h2.eq_of_length (Nat.le_antisymm h2.length_le h1.length_le)
      have hget := isDir_iff.mp hdir
      refine ⟨hget, ?_⟩
      intro c hc
      rw [hget] at hc
      cases hc
    · cases h
  | cons a rest ih =>
    obtain ⟨t1, h1, h2⟩ := Option.bind_eq_some_iff.mp h
    obtain ⟨hhe, hfi, hget⟩ := mkdir_spec h1
    intro q
    rw [between_cons]
    have hne : here ≠ here ++ [a] := by simp
    obtain ⟨hin, hout⟩ := ih h2 q
    refine ⟨?_, ?_⟩
    · rintro (rfl | hq)
      · have hnot : ¬(q ++ [a] <+: q ∧ q <+: q ++ [a] ++ rest) := by
          rintro ⟨hp, -⟩
          have := hp.length_le
          simp at this
        rw [hout hnot, hget, if_neg hne]
        refine ⟨hhe, ?_⟩
        intro c hc
        rw [hhe] at hc
        cases hc
      · refine ⟨(hin hq).1, ?_⟩
        by_cases hqa : q = here ++ [a]
        · rw [hqa]
          exact hfi
        · have hno := (hin hq).2
          rw [hget, if_neg hqa] at hno
          exact hno
    · intro hq
      rw [not_or] at hq
      rw [hout hq.2, hget, if_neg]
      rintro rfl
      exact hq.2 ⟨prefix_rfl, prefix_append _ _⟩

/-! ## Building a tree

Files (with a content) and directories (without), put into a tree one after the
other; what lies above them is created as needed. -/

def create (t : Tree ν β) (entry : List ν × Option β) : Option (Tree ν β) :=
  match entry.2, entry.1.getLast? with
  | none, _ => t.mkdirs [] entry.1
  | some _, none => none
  | some content, some a =>
    (t.mkdirs [] entry.1.dropLast).bind fun t' => t'.writeFile entry.1.dropLast a content

def build (t : Tree ν β) (entries : List (List ν × Option β)) : Option (Tree ν β) :=
  entries.foldlM create t

/-- The entry makes the path a directory. -/
def Above (entry : List ν × Option β) (p : List ν) : Prop :=
  p <+: entry.1 ∧ (entry.2 = none ∨ p ≠ entry.1)

/-- The content of the last file entry with this path. -/
def fileAt (entries : List (List ν × Option β)) (p : List ν) : Option β :=
  (entries.filterMap fun e => if e.1 = p then e.2 else none).getLast?

/-- One entry: a file where it names one, directories above, the rest as before; no
file turned into a directory, no directory into a file. -/
theorem create_spec {entry : List ν × Option β} (h : t.create entry = some t') (p : List ν) :
    (∀ c, entry = (p, some c) → t'.get p = some (.file c) ∧ t.get p ≠ some .dir) ∧
    (Above entry p → t'.get p = some .dir ∧ ∀ c, t.get p ≠ some (.file c)) ∧
    ((∀ c, entry ≠ (p, some c)) → ¬ Above entry p → t'.get p = t.get p) := by
  obtain ⟨path, cont⟩ := entry
  cases cont with
  | none =>
    have hsp := mkdirs_spec h p
    refine ⟨fun c hc => (nomatch (Prod.mk.inj hc).2), ?_, ?_⟩
    · intro hp
      exact hsp.1 ⟨List.nil_prefix, hp.1⟩
    · intro _ hp
      exact hsp.2 fun hq => hp ⟨hq.2, .inl rfl⟩
  | some cont =>
    obtain rfl | ⟨parent, a, rfl⟩ := path.eq_nil_or_concat'
    · cases h
    · rw [create] at h
      simp only [List.getLast?_concat, dropLast_concat] at h
      obtain ⟨t1, h1, h2⟩ := Option.bind_eq_some_iff.mp h
      obtain ⟨hin, hout⟩ := mkdirs_spec h1 p
      obtain ⟨-, hnod, hget⟩ := writeFile_spec h2
      rw [nil_append] at hin hout
      refine ⟨?_, ?_, ?_⟩
      · intro c hc
        obtain ⟨rfl, hcc⟩ := Prod.mk.inj hc
        have hnot : ¬([] <+: parent ++ [a] ∧ parent ++ [a] <+: parent) := by
          rintro ⟨-, hp⟩
          have := hp.length_le
          simp at this
        rw [hout hnot] at hnod
        rw [hget, if_pos rfl]
        exact ⟨by rw [Option.some.inj hcc], hnod⟩
      · rintro ⟨hp, hne | hne⟩
        · cases hne
        · have hpar : p <+: parent := by
            rcases prefix_concat_iff.mp hp with hp | hp
            · exact absurd hp hne
            · exact hp
          rw [hget, if_neg hne]
          exact hin ⟨List.nil_prefix, hpar⟩
      · intro hne habo
        have hpa : p ≠ parent ++ [a] := by
          rintro rfl
          exact hne cont rfl
        rw [hget, if_neg hpa]
        refine hout ?_
        rintro ⟨-, hp⟩
        exact habo ⟨hp.trans (prefix_append _ _), .inr hpa⟩

theorem fileAt_concat (entries : List (List ν × Option β)) (entry : List ν × Option β)
    (p : List ν) : fileAt (entries ++ [entry]) p =
      if entry.1 = p then entry.2.or (fileAt entries p) else fileAt entries p := by
  rw [fileAt, filterMap_append]
  by_cases hp : entry.1 = p
  · rw [if_pos hp]
    cases hc : entry.2 with
    | none => simp [hp, hc, fileAt]
    | some c => simp [hp, hc]
  · simp [hp, fileAt]

theorem mem_of_fileAt (h : fileAt entries p = some c) : (p, some c) ∈ entries := by
  obtain ⟨e, he, hc⟩ := mem_filterMap.mp (mem_of_getLast? h)
  split at hc
  · rename_i hp
    rw [← hp, ← hc]
    exact he
  · cases hc

theorem fileAt_of_mem (h : (p, some c) ∈ entries) : ∃ c', fileAt entries p = some c' := by
  have hmem : c ∈ entries.filterMap fun e => if e.1 = p then e.2 else none :=
    mem_filterMap.mpr ⟨(p, some c), h, if_pos rfl⟩
  exact ⟨_, List.getLast?_eq_some_getLast (ne_nil_of_mem hmem)⟩

/-- **WHAT WAS BUILT**: every path with a file entry is a file with the content of the
last one, everything above an entry is a directory, and nothing else is there. -/
theorem build_spec (h : build empty entries = some t) :
    (∀ p c, t.get p = some (.file c) ↔ fileAt entries p = some c) ∧
      ∀ p, t.get p = some .dir ↔ p = [] ∨ ∃ e ∈ entries, Above e p := by
  -- from the last entry backwards, as `fileAt` takes the last one
  induction entries using List.reverseRecOn generalizing t with
  | nil =>
    cases h
    refine ⟨?_, ?_⟩
    · intro p c
      cases p <;> simp [fileAt]
    · intro p
      cases p <;> simp
  | append_singleton entries entry ih =>
    rw [build, foldlM_append] at h
    obtain ⟨t0, h0, h1⟩ := Option.bind_eq_some_iff.mp h
    obtain ⟨t1, hcre, hla⟩ := Option.bind_eq_some_iff.mp h1
    cases hla
    obtain ⟨hfi, hdir⟩ := ih h0
    refine ⟨?_, ?_⟩
    · intro p c
      obtain ⟨hat, habo, hel⟩ := create_spec hcre p
      rw [fileAt_concat]
      by_cases hp : entry.1 = p
      · rw [if_pos hp]
        cases hc : entry.2 with
        | some c' =>
          rw [(hat c' (by rw [← hp, ← hc])).1]
          simp
        | none =>
          obtain ⟨hnew, hold⟩ := habo ⟨hp ▸ prefix_rfl, .inl hc⟩
          rw [hnew, Option.none_or, ← hfi]
          exact ⟨nofun, fun h => absurd h (hold c)⟩
      · rw [if_neg hp]
        by_cases ha : Above entry p
        · obtain ⟨hnew, hold⟩ := habo ha
          rw [hnew, ← hfi]
          exact ⟨nofun, fun h => absurd h (hold c)⟩
        · rw [hel (fun c hc => hp (Prod.mk.inj hc).1) ha]
          exact hfi p c
    · intro p
      obtain ⟨hat, habo, hel⟩ := create_spec hcre p
      have hmem : (∃ e ∈ entries ++ [entry], Above e p) ↔
          (∃ e ∈ entries, Above e p) ∨ Above entry p := by
        simp only [mem_append, mem_singleton, or_and_right, exists_or, exists_eq_left]
      rw [hmem, ← or_assoc, ← hdir p]
      by_cases ha : Above entry p
      · exact ⟨fun _ => .inr ha, fun _ => (habo ha).1⟩
      · by_cases hc : ∃ c, entry = (p, some c)
        · obtain ⟨c, hc⟩ := hc
          obtain ⟨hnew, hold⟩ := hat c hc
          rw [hnew]
          refine ⟨nofun, ?_⟩
          rintro (h | h)
          · exact absurd h hold
          · exact absurd h ha
        · rw [hel (fun c hc' => hc ⟨c, hc'⟩) ha]
          exact ⟨.inl, fun h => h.resolve_right ha⟩

end Tree

end FileTree
