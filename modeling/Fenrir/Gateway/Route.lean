import Fenrir.Gateway.Proxy
import Fenrir.Lib.Url

/-! # Where a gateway request goes

`service_route_path` glues the service's route prefix, the (decoded) tail of
the client's path and the client's query into one string, which the HTTP
client parses as a URL again. `StaysInRoute` is what the prefix is for: the
URL lies on the target, at or below the prefix, with the client's query. -/

namespace Fenrir.Gateway

open List

open Url (endsPath cleanEnd isTabOrNewline segmentsOf inQuerySet pathText cleanEnd_append_cons
  queryOf isC0OrSpace inPathSet isSlash parseHttp)

/-! ## The route prefix -/

/-- The route prefix of a service as segments: none for the root. -/
def routeSegments (route : String) : List Url.Segment :=
  let normalized := normalizedRoute route.toList
  if normalized.isEmpty then [] else normalized.splitOn '/'

/-- The route prefix as the text of a path; empty for the root. -/
def routeText (route : String) : List Char :=
  let normalized := normalizedRoute route.toList
  if normalized.isEmpty then [] else '/' :: normalized

/-- The URL a request is sent to lies on the target, at or below the route, and has
exactly the client's query. -/
def StaysInRoute (route : String) (ingress : ServiceIngressMetadata) (path : String)
    (query : Option String) (target : ModuleIngressTarget) : Prop :=
  ∃ url, parseHttp (buildTargetUrl target (serviceRoutePath
      (some { ingress with routePrefix := some route }) path query)).toList = some url ∧
    url.authority = (targetOrigin target).toList ∧
    (pathText url.path = routeText route ∨ routeText route ++ ['/'] <+: pathText url.path) ∧
    url.query = query.map String.toList

theorem pathText_splitOn (text : List Char) : pathText (text.splitOn '/') = '/' :: text := by
  induction text with
  | nil => rfl
  | cons c text ih =>
    rw [splitOn_eq_splitOnP] at ih ⊢
    rw [splitOnP_cons_eq_if_modifyHead]
    by_cases hc : c = '/'
    · subst hc
      rw [if_pos (by simp)]
      show '/' :: pathText (List.splitOnP (· == '/') text) = _
      rw [ih]
    · rw [if_neg (by simpa using hc)]
      cases hs : List.splitOnP (· == '/') text with
      | nil => exact absurd hs (splitOnP_ne_nil _ _)
      | cons seg more =>
        rw [hs] at ih
        have ih' : '/' :: (seg ++ pathText more) = '/' :: text := ih
        show '/' :: (c :: seg ++ pathText more) = '/' :: c :: text
        rw [← (List.cons.inj ih').2, cons_append]

theorem pathText_routeSegments (route : String) :
    pathText (routeSegments route) = routeText route := by
  simp only [routeSegments, routeText]
  split
  · rfl
  · exact pathText_splitOn _

variable {text : List Char} {c : Char} {query : Option String} {route : String}

theorem splitOnP_free {p : Char → Bool} : ∀ seg ∈ text.splitOnP p, ∀ c ∈ seg, p c = false := by
  induction text with
  | nil =>
    intro seg hseg c hc
    rw [splitOnP_nil, mem_singleton] at hseg
    rw [hseg] at hc
    cases hc
  | cons d text ih =>
    intro seg hseg c hc
    rw [splitOnP_cons_eq_if_modifyHead] at hseg
    split at hseg
    · rcases mem_cons.mp hseg with rfl | hmem
      · cases hc
      · exact ih seg hmem c hc
    · rename_i hd
      cases hs : List.splitOnP p text with
      | nil => exact absurd hs (splitOnP_ne_nil _ _)
      | cons first more =>
        rw [hs] at hseg ih
        rcases mem_cons.mp hseg with rfl | hmem
        · rcases mem_cons.mp hc with rfl | hfir
          · simpa using hd
          · exact ih first mem_cons_self c hfir
        · exact ih seg (mem_cons_of_mem _ hmem) c hc

theorem routeSegments_free (route : String) : ∀ seg ∈ routeSegments route, '/' ∉ seg := by
  intro seg hseg hsla
  simp only [routeSegments] at hseg
  split at hseg
  · cases hseg
  · rw [splitOn_eq_splitOnP] at hseg
    have hfr := splitOnP_free seg hseg '/' hsla
    simp at hfr

/-! ## The condition -/

/-- The route is written as a URL writes a path: only characters a path keeps, no dot
segments. -/
def PlainRoute (route : String) : Prop :=
  ∀ seg ∈ routeSegments route, Url.isName seg = true ∧ ∀ c ∈ seg, inPathSet c = false ∧ c ≠ '\\'

/-- What the tail adds to the route: nothing if it repeats the route or is empty, its
rest if it begins with the route, else all of it. -/
def routedTail (route tail : List Char) : Option (List Char) :=
  if route.isEmpty then some tail
  else
    match Text.stripStart route tail with
    | some [] => none
    | some ('/' :: rest) => some rest
    | _ => if tail.isEmpty then none else some tail

def asks (query : Option String) : Bool := !(askedText query).isEmpty

/-- A text at the end of the path as the URL parser reads it: cleaned (its end only when
no query follows). -/
def cleaned (query : Option String) (text : List Char) : List Char :=
  if asks query then text.filter (!isTabOrNewline ·) else cleanEnd text

def tailSegments (route tail : List Char) (query : Option String) : List Url.Segment :=
  match routedTail route tail with
  | none => []
  | some text => segmentsOf ((cleaned query text).takeWhile (!endsPath ·))

/-- The query the tail itself brings, by a question mark of its own. -/
def ownQuery (tail : List Char) : Option (List Char) :=
  queryOf ((cleanEnd tail).dropWhile (!endsPath ·))

/-- The client's query arrives: it is written as a URL writes a query and the tail does
not end the path, or the tail's own query happens to be the client's. -/
def QueryKept (tail : List Char) (query : Option String) : Prop :=
  if tail.any endsPath then
    ('#' ∈ tail ∨ asks query = false) ∧ ownQuery tail = query.map String.toList
  else
    ∀ q, query = some q → q.toList ≠ [] ∧ ∀ c ∈ q.toList, inQuerySet c = false

/-- The tail stays within the route: the levels its dot segments leave are the ones it
enters first. -/
def LevelKept (route : String) (tail : List Char) (query : Option String) : Prop :=
  let base := routeSegments route
  let way := Url.climb 0 [] (tailSegments (normalizedRoute route.toList) tail query)
  base.drop (base.length - way.1) <+: way.2

/-! ## The path that is built -/

/-- The path below the first slash: the route, and what the tail adds. -/
def routeBody (route tail : List Char) : List Char :=
  match routedTail route tail with
  | none => route
  | some text => if route.isEmpty then text else route ++ '/' :: text

theorem routedPath_eq (ingress : ServiceIngressMetadata) (route : String) (path : List Char) :
    routedPath (some { ingress with routePrefix := some route }) path =
      '/' :: routeBody (normalizedRoute route.toList) (path.dropWhile (· == '/')) := by
  have hro : route = "/" → normalizedRoute route.toList = [] := by
    rintro rfl
    decide
  simp only [routedPath, Option.bind_some, routeBody, routedTail]
  generalize path.dropWhile (· == '/') = tail
  by_cases hemp : normalizedRoute route.toList = []
  · simp [hemp]
  · have hco : (route == "/" || (normalizedRoute route.toList).isEmpty) = false := by
      have hne : route ≠ "/" := fun h => hemp (hro h)
      simp [hne, hemp]
    simp only [hco, List.isEmpty_iff, hemp, Bool.false_eq_true, if_false]
    cases hs : Text.stripStart (normalizedRoute route.toList) tail with
    | none =>
      by_cases hta : tail = []
      · simp [hta]
      · simp [hta]
    | some rest =>
      cases rest with
      | nil => rfl
      | cons c rest =>
        have heq := Text.stripStart_eq_some.mp hs
        by_cases hc : c = '/'
        · subst hc
          simp [heq]
        · simp [hc, heq]

theorem routeBody_cases (route tail : List Char) :
    routeBody route tail = tail ∨ routeBody route tail = route ++ '/' :: tail ∨
      (tail = [] ∧ routeBody route tail = route) := by
  rw [routeBody, routedTail]
  by_cases hemp : route = []
  · exact .inl (by simp [hemp])
  · simp only [List.isEmpty_iff, hemp, if_false]
    cases hs : Text.stripStart route tail with
    | none =>
      by_cases hta : tail = []
      · exact .inr (.inr ⟨hta, by simp [hta]⟩)
      · exact .inr (.inl (by simp [hta]))
    | some rest =>
      have heq := Text.stripStart_eq_some.mp hs
      cases rest with
      | nil => exact .inl (by simp [heq])
      | cons c rest =>
        by_cases hc : c = '/'
        · subst hc
          exact .inl (by simp [heq])
        · have hne : tail ≠ [] := by rw [heq]; simp
          exact .inr (.inl (by simp [hc, hne]))

/-! ## The query that arrives -/

theorem not_cleaned (h : Url.inControlSet c = false) (hspa : c ≠ ' ') :
    isC0OrSpace c = false ∧ isTabOrNewline c = false := by
  simp only [Url.inControlSet, Bool.or_eq_false_iff, decide_eq_false_iff_not] at h
  have hnat : c.toNat ≠ 32 := by
    intro heq
    exact hspa (Char.ext (UInt32.toNat_inj.mp heq))
  refine ⟨?_, ?_⟩
  · simp only [isC0OrSpace, decide_eq_false_iff_not]
    omega
  · simp only [isTabOrNewline, Bool.or_eq_false_iff, beq_eq_false_iff_ne]
    refine ⟨⟨?_, ?_⟩, ?_⟩ <;> rintro rfl <;> exact h.1 (by decide)

theorem cleanEnd_eq_self (h : ∀ c ∈ text, isC0OrSpace c = false ∧ isTabOrNewline c = false) :
    cleanEnd text = text := by
  have hend : text.rdropWhile isC0OrSpace = text := by
    rw [rdropWhile_eq_self_iff]
    intro hne
    simp [(h _ (getLast_mem hne)).1]
  rw [cleanEnd, hend, filter_eq_self]
  intro c hc
  simp [(h c hc).2]

theorem query_not_cleaned (h : inQuerySet c = false) :
    (isC0OrSpace c = false ∧ isTabOrNewline c = false) ∧ c ≠ '#' := by
  simp only [inQuerySet, Bool.or_eq_false_iff, beq_eq_false_iff_ne] at h
  exact ⟨not_cleaned h.1.1.1.1.1.1 h.1.1.1.1.1.2, h.1.1.1.2⟩

/-- A query comes through the parser unchanged exactly when it is written as a URL
writes it: the parser only ever outputs such queries. -/
theorem query_parsed_iff (q : List Char) :
    Url.encode inQuerySet ((cleanEnd q).takeWhile (· != '#')) = q ↔
      ∀ c ∈ q, inQuerySet c = false := by
  constructor
  · intro h c hc
    rw [← h] at hc
    exact Url.encode_kept Url.keepsEncoded_query hc
  · intro h
    have hta : q.takeWhile (· != '#') = q := by
      rw [takeWhile_eq_self_iff]
      intro c hc
      exact bne_iff_ne.mpr (query_not_cleaned (h c hc)).2
    rw [cleanEnd_eq_self (fun c hc => (query_not_cleaned (h c hc)).1), hta, Url.encode_eq_self h]

theorem split_at_end (h : text.any endsPath = true) :
    ∃ pre c after, text = pre ++ c :: after ∧ endsPath c = true ∧
      ∀ d ∈ pre, endsPath d = false := by
  obtain ⟨c, hc⟩ := Option.isSome_iff_exists.mp (List.find?_isSome.mpr (any_eq_true.mp h))
  obtain ⟨hen, pre, after, rfl, hbef⟩ := List.find?_eq_some_iff_append.mp hc
  exact ⟨pre, c, after, rfl, hen, fun d hd => by simpa using hbef d hd⟩

theorem dropWhile_filter_end {pre rest : List Char} (h : ∀ d ∈ pre, endsPath d = false) :
    (pre.filter (!isTabOrNewline ·) ++ rest).dropWhile (!endsPath ·) =
      rest.dropWhile (!endsPath ·) := by
  refine dropWhile_append_of_pos ?_
  intro d hd
  simp [h d (mem_filter.mp hd).1]

theorem endsPath_not_cleaned (h : endsPath c = true) : isC0OrSpace c = false := by
  simp only [endsPath, Bool.or_eq_true, beq_iff_eq] at h
  rcases h with rfl | rfl <;> decide

/-- The query of a URL whose path and query text are `text` and the client's query. -/
def parsedQuery (text : List Char) (query : Option String) : Option (List Char) :=
  queryOf ((cleanEnd (text ++ askedText query)).dropWhile (!endsPath ·))

theorem asks_iff :
    asks query = true ↔ ∃ q, query = some q ∧ q.toList ≠ [] ∧ askedText query = '?' :: q.toList := by
  cases query with
  | none => simp [asks, askedText]
  | some q =>
    by_cases hq : q = ""
    · simp [asks, askedText, hq]
    · simp [asks, askedText, hq]

theorem not_asks_iff : asks query = false ↔ askedText query = [] := by
  simp [asks]

theorem queryKept_of_no_end (query : Option String) (h : text.any endsPath = false) :
    parsedQuery text query = query.map String.toList ↔
      ∀ q, query = some q → q.toList ≠ [] ∧ ∀ c ∈ q.toList, inQuerySet c = false := by
  have hfr : ∀ d ∈ text, endsPath d = false := by
    intro d hd
    have := any_eq_false.mp h d hd
    simpa using this
  cases has : asks query with
  | false =>
    have hemp := not_asks_iff.mp has
    have hno : parsedQuery text query = none := by
      have hall : (cleanEnd text).dropWhile (!endsPath ·) = [] := by
        rw [dropWhile_eq_nil_iff]
        intro d hd
        have hmem : d ∈ text := ( rdropWhile_prefix _ text).subset (mem_filter.mp hd).1
        simp [hfr d hmem]
      rw [parsedQuery, hemp, append_nil, hall]
      rfl
    rw [hno]
    cases query with
    | none => simp
    | some q =>
      have hq : q = "" := by
        by_contra hne
        simp [askedText, hne] at hemp
      simp [hq]
  | true =>
    obtain ⟨q, rfl, hne, hte⟩ := asks_iff.mp has
    have hpar : parsedQuery text (some q) =
        some (Url.encode inQuerySet ((cleanEnd q.toList).takeWhile (· != '#'))) := by
      rw [parsedQuery, hte, cleanEnd_append_cons (by decide), dropWhile_filter_end hfr,
        dropWhile_cons_of_neg (by decide)]
      rfl
    rw [hpar, Option.map_some, Option.some.injEq, query_parsed_iff]
    constructor
    · rintro h q' hq'
      rw [← Option.some.inj hq']
      exact ⟨hne, h⟩
    · intro h
      exact (h q rfl).2

theorem takeWhile_cleaned (h : '#' ∈ text) (rest : List Char) :
    (cleanEnd text).takeWhile (· != '#') =
      (text.filter (!isTabOrNewline ·) ++ rest).takeWhile (· != '#') := by
  obtain ⟨pre, after, rfl⟩ := append_of_mem h
  rw [cleanEnd_append_cons (by decide), filter_append,
    filter_cons_of_pos (by decide), append_assoc, cons_append]
  generalize pre.filter (!isTabOrNewline ·) = kept
  induction kept with
  | nil => rfl
  | cons d kept ih =>
    rw [cons_append, cons_append, takeWhile_cons, takeWhile_cons, ih]

theorem queryKept_of_end (query : Option String) (h : text.any endsPath = true) :
    parsedQuery text query = query.map String.toList ↔
      ('#' ∈ text ∨ asks query = false) ∧ ownQuery text = query.map String.toList := by
  cases has : asks query with
  | false =>
    rw [parsedQuery, not_asks_iff.mp has, append_nil]
    exact ⟨fun hq => ⟨.inr rfl, hq⟩, fun hq => hq.2⟩
  | true =>
    obtain ⟨q, rfl, hne, hte⟩ := asks_iff.mp has
    obtain ⟨before, c, after, rfl, hc, hbef⟩ := split_at_end h
    have hcle := endsPath_not_cleaned hc
    have hpar : parsedQuery (before ++ c :: after) (some q) =
        queryOf (c :: (after.filter (!isTabOrNewline ·) ++ '?' :: cleanEnd q.toList)) := by
      rw [parsedQuery, hte, append_assoc, cons_append,
        cleanEnd_append_cons hcle, dropWhile_filter_end hbef,
        dropWhile_cons_of_neg (by simp [hc]), cleanEnd_append_cons (by decide)]
    have hown : ownQuery (before ++ c :: after) = queryOf (c :: cleanEnd after) := by
      rw [ownQuery, cleanEnd_append_cons hcle, dropWhile_filter_end hbef,
        dropWhile_cons_of_neg (by simp [hc])]
    have hha : '#' ∉ before := by
      intro hmem
      exact absurd (hbef '#' hmem) (by decide)
    rw [hpar, hown]
    simp only [endsPath, Bool.or_eq_true, beq_iff_eq] at hc
    rcases hc with rfl | rfl
    · -- the tail starts a query of its own: only a fragment can keep the client's out
      by_cases hmem : '#' ∈ after
      · rw [queryOf, queryOf, ← takeWhile_cleaned hmem]
        simp [hmem]
      · have hfil : ∀ d ∈ after.filter (!isTabOrNewline ·), (d != '#') = true := by
          intro d hd
          exact bne_iff_ne.mpr (fun heq => hmem (heq ▸ (mem_filter.mp hd).1))
        rw [queryOf, takeWhile_append_of_pos hfil, takeWhile_cons_of_pos (by decide)]
        refine iff_of_false ?_ ?_
        · intro heq
          have heq' := Option.some.inj heq
          have hpla : ∀ d ∈ q.toList, inQuerySet d = false := by
            intro d hd
            rw [← heq'] at hd
            exact Url.encode_kept Url.keepsEncoded_query hd
          have hlen := congrArg List.length heq'
          have hmo := Url.length_encode inQuerySet
            (after.filter (!isTabOrNewline ·) ++ '?' :: (cleanEnd q.toList).takeWhile (· != '#'))
          have hq : ((cleanEnd q.toList).takeWhile (· != '#')).length = q.toList.length := by
            rw [cleanEnd_eq_self (fun d hd => (query_not_cleaned (hpla d hd)).1),
              takeWhile_eq_self_iff.mpr (fun d hd =>
                bne_iff_ne.mpr (query_not_cleaned (hpla d hd)).2)]
          rw [hlen, length_append, length_cons, hq] at hmo
          omega
        · rintro ⟨hor | hor, -⟩
          · rcases mem_append.mp hor with hin | hin
            · exact hha hin
            · rcases mem_cons.mp hin with heq | hin
              · exact absurd heq (by decide)
              · exact hmem hin
          · cases hor
    · refine iff_of_false ?_ ?_
      · exact nofun
      · exact fun hand => nomatch hand.2

/-! ## A plain route goes through the parser as it is -/

section

variable (h : PlainRoute route)

include h

theorem PlainRoute.char (hc : c ∈ normalizedRoute route.toList) :
    endsPath c = false ∧ (isC0OrSpace c = false ∧ isTabOrNewline c = false) ∧ c ≠ '\\' := by
  have hte : c ∈ pathText (routeSegments route) := by
    rw [pathText_routeSegments]
    simp only [routeText]
    split
    · rename_i hemp
      rw [isEmpty_iff.mp hemp] at hc
      cases hc
    · exact mem_cons_of_mem _ hc
  obtain ⟨seg, hseg, hmem⟩ := mem_flatMap.mp hte
  rcases mem_cons.mp hmem with rfl | hin
  · decide
  · obtain ⟨hset, hba⟩ := (h seg hseg).2 c hin
    simp only [inPathSet, Bool.or_eq_false_iff, beq_eq_false_iff_ne] at hset
    refine ⟨?_, not_cleaned (by simp [hset]) (by simp [hset]), hba⟩
    simp [endsPath, hset]

theorem PlainRoute.cleanEnd :
    cleanEnd (normalizedRoute route.toList) = normalizedRoute route.toList :=
  cleanEnd_eq_self (fun _ hc => (h.char hc).2.1)

theorem PlainRoute.filter : (normalizedRoute route.toList).filter (!isTabOrNewline ·) =
      normalizedRoute route.toList := by
  rw [filter_eq_self]
  intro c hc
  simp [(h.char hc).2.1.2]

theorem PlainRoute.any_endsPath : (normalizedRoute route.toList).any endsPath = false := by
  rw [any_eq_false]
  intro c hc
  simp [(h.char hc).1]

theorem PlainRoute.queryKept_body (tail : List Char) (query : Option String) :
    QueryKept (routeBody (normalizedRoute route.toList) tail) query ↔ QueryKept tail query := by
  have hha : '#' ∉ normalizedRoute route.toList := by
    intro hmem
    exact absurd (h.char hmem).1 (by decide)
  have hfr : ∀ d ∈ normalizedRoute route.toList, endsPath d = false :=
    fun d hd => (h.char hd).1
  rcases routeBody_cases (normalizedRoute route.toList) tail with hb | hb | ⟨rfl, hb⟩
  · rw [hb]
  · have hany : (normalizedRoute route.toList ++ '/' :: tail).any endsPath = tail.any endsPath := by
      rw [any_append, h.any_endsPath, any_cons]
      rfl
    have hmem : '#' ∈ normalizedRoute route.toList ++ '/' :: tail ↔ '#' ∈ tail := by
      simp [hha]
    have hown : ownQuery (normalizedRoute route.toList ++ '/' :: tail) = ownQuery tail := by
      rw [ownQuery, cleanEnd_append_cons (by decide), dropWhile_filter_end hfr,
        dropWhile_cons_of_pos (by decide), ownQuery]
    rw [hb, QueryKept, QueryKept, hany, hmem, hown]
  · rw [hb, QueryKept, QueryKept, h.any_endsPath]
    rfl

end

theorem takeWhile_append_stop {p : Char → Bool} (hc : p c = false) (as bs : List Char) :
    (as ++ c :: bs).takeWhile p = as.takeWhile p := by
  induction as with
  | nil => exact takeWhile_cons_of_neg (by simp [hc])
  | cons a as ih => rw [cons_append, takeWhile_cons, takeWhile_cons, ih]

theorem takeWhile_cleanEnd (text : List Char) (query : Option String) :
    (cleanEnd (text ++ askedText query)).takeWhile (!endsPath ·) =
      (cleaned query text).takeWhile (!endsPath ·) := by
  cases has : asks query with
  | false => rw [not_asks_iff.mp has, append_nil, cleaned, has]; rfl
  | true =>
    obtain ⟨q, rfl, hne, hte⟩ := asks_iff.mp has
    rw [hte, cleanEnd_append_cons (by decide), takeWhile_append_stop (by decide), cleaned, has]
    rfl

theorem splitOnP_congr {p q : Char → Bool} (h : ∀ c ∈ text, p c = q c) :
    text.splitOnP p = text.splitOnP q := by
  induction text with
  | nil => rfl
  | cons c text ih =>
    rw [splitOnP_cons_eq_if_modifyHead, splitOnP_cons_eq_if_modifyHead,
      h c mem_cons_self, ih (fun d hd => h d (mem_cons_of_mem _ hd))]

theorem PlainRoute.segments (h : PlainRoute route) (hne : normalizedRoute route.toList ≠ []) :
    segmentsOf (normalizedRoute route.toList) = routeSegments route := by
  have hspl : (normalizedRoute route.toList).splitOnP isSlash = routeSegments route := by
    simp only [routeSegments, List.isEmpty_iff, hne, if_false, List.splitOn_eq_splitOnP]
    refine splitOnP_congr ?_
    intro c hc
    simp [isSlash, (h.char hc).2.2]
  rw [segmentsOf, hspl]
  conv_rhs => rw [← List.map_id (routeSegments route)]
  refine List.map_congr_left ?_
  intro seg hseg
  exact Url.encode_eq_self (fun c hc => ((h seg hseg).2 c hc).1)

theorem PlainRoute.resolve (h : PlainRoute route) (tail : List Char) (query : Option String) :
    Url.resolve [] (segmentsOf ((cleaned query
        (routeBody (normalizedRoute route.toList) tail)).takeWhile (!endsPath ·))) =
      Url.resolve (routeSegments route)
        (tailSegments (normalizedRoute route.toList) tail query) := by
  have hnam : ∀ seg ∈ routeSegments route, Url.isName seg = true := fun seg hseg => (h seg hseg).1
  have hfr : ∀ d ∈ normalizedRoute route.toList, (!endsPath d) = true := by
    intro d hd
    simp [(h.char hd).1]
  rw [routeBody, tailSegments]
  by_cases hemp : normalizedRoute route.toList = []
  · have hro : routeSegments route = [] := by simp [routeSegments, hemp]
    simp [hemp, routedTail, hro]
  · cases ht : routedTail (normalizedRoute route.toList) tail with
    | none =>
      have hcle : cleaned query (normalizedRoute route.toList) = normalizedRoute route.toList := by
        rw [cleaned, h.filter, h.cleanEnd, ite_self]
      simp only [hcle]
      rw [takeWhile_eq_self_iff.mpr hfr, h.segments hemp]
      have hall := Url.resolve_names hnam [] []
      rw [append_nil, nil_append] at hall
      exact hall
    | some text =>
      have hcle : cleaned query (normalizedRoute route.toList ++ '/' :: text) =
          normalizedRoute route.toList ++ '/' :: cleaned query text := by
        rw [cleaned, cleaned]
        split
        · rw [List.filter_append, h.filter, List.filter_cons_of_pos (by decide)]
        · rw [cleanEnd_append_cons (by decide), h.filter]
      simp only [List.isEmpty_iff, hemp, if_false, hcle]
      rw [List.takeWhile_append_of_pos hfr, List.takeWhile_cons_of_pos (by decide),
        segmentsOf, List.splitOnP_append_cons _ _ (by decide), List.map_append]
      show Url.resolve [] (segmentsOf (normalizedRoute route.toList) ++ segmentsOf _) = _
      rw [h.segments hemp, Url.resolve_names hnam, List.nil_append]

/-! ## The origin -/

theorem isAddressChar_inAuthority (h : isAddressChar c = true) : Url.inAuthority c = true := by
  by_contra hc
  simp only [Url.inAuthority, isSlash, endsPath, isTabOrNewline,
    Bool.not_eq_true', Bool.not_eq_false, Bool.or_eq_true, beq_iff_eq] at hc
  rcases hc with ((rfl | rfl) | (rfl | rfl)) | ((rfl | rfl) | rfl) <;>
    exact absurd h (by decide)

theorem targetOrigin_printed (target : ModuleIngressTarget) : (targetOrigin target).toList ≠ [] ∧
      ∀ c ∈ (targetOrigin target).toList, Url.inAuthority c = true := by
  cases target with
  | runtimePort m i port =>
    have hdig : ∀ c : Char, c.isDigit = true → isAddressChar c = true := by
      intro c hc
      simp [isAddressChar, Char.isAlphanum, hc]
    have hte : (targetOrigin (.runtimePort m i port)).toList =
        "127.0.0.1:".toList ++ (Nat.repr port.toNat).toList := by
      show (toString "127.0.0.1:" ++ toString port.toNat).toList = _
      rw [String.toList_append]
      rfl
    rw [hte]
    refine ⟨by simp, ?_⟩
    intro c hc
    rcases mem_append.mp hc with hc | hc
    · exact isAddressChar_inAuthority (all_eq_true.mp (by decide) c hc)
    · rw [Nat.toList_repr] at hc
      exact isAddressChar_inAuthority (hdig c
        (Nat.isDigit_of_mem_toDigits (b := 10) (by decide) (by decide) hc))
  | devService m s ep | declaredService m s ep =>
    exact ⟨ep.nonempty, fun c hc => isAddressChar_inAuthority (ep.printed c hc)⟩

theorem parse_target (route : String) (ingress : ServiceIngressMetadata) (path : String)
    (query : Option String) (target : ModuleIngressTarget) :
    parseHttp (buildTargetUrl target (serviceRoutePath
      (some { ingress with routePrefix := some route }) path query)).toList = some {
        authority := (targetOrigin target).toList
        path := Url.resolve [] (segmentsOf ((cleaned query
          (routeBody (normalizedRoute route.toList)
            (path.toList.dropWhile (· == '/')))).takeWhile (!endsPath ·)))
        query := parsedQuery (routeBody (normalizedRoute route.toList)
          (path.toList.dropWhile (· == '/'))) query } := by
  obtain ⟨hne, hcle⟩ := targetOrigin_printed target
  have hurl : (buildTargetUrl target (serviceRoutePath
      (some { ingress with routePrefix := some route }) path query)).toList =
      "http://".toList ++ (targetOrigin target).toList ++ '/' :: (routeBody
        (normalizedRoute route.toList) (path.toList.dropWhile (· == '/')) ++ askedText query) := by
    simp only [buildTargetUrl, serviceRoutePath, routedPath_eq, String.toList_append,
      String.toList_ofList, cons_append]
  rw [hurl, Url.parseHttp_authority hne hcle, takeWhile_cleanEnd]
  rfl

/-! ## Exactly when the route is kept -/

theorem mem_parsed_path {seg : Url.Segment} (h : seg ∈ Url.resolve [] (segmentsOf text)) :
    Url.isName seg = true ∧ '/' ∉ seg ∧ ∀ c ∈ seg, inPathSet c = false ∧ c ≠ '\\' := by
  rcases Url.mem_resolve h with hmem | rfl | ⟨hmem, hna⟩
  · cases hmem
  · exact ⟨by decide, nofun, nofun⟩
  · obtain ⟨raw, hraw, rfl⟩ := mem_map.mp hmem
    have hsla : ∀ c ∈ Url.encode inPathSet raw, isSlash c = false := by
      intro c hc
      rcases Url.mem_encode hc with rfl | ⟨n, hn, rfl⟩ | ⟨hin, -⟩
      · decide
      · interval_cases n <;> decide
      · exact splitOnP_free raw hraw c hin
    refine ⟨hna, ?_, ?_⟩
    · intro hin
      exact absurd (hsla '/' hin) (by decide)
    · intro c hc
      refine ⟨Url.encode_kept Url.keepsEncoded_path hc, ?_⟩
      rintro rfl
      exact absurd (hsla '\\' hc) (by decide)

/-- Everything the route needs, of the service, of the client's path and of its query. -/
structure RouteKept (route : String) (path : String) (query : Option String) : Prop where
  plain : PlainRoute route
  level : LevelKept route (path.toList.dropWhile (· == '/')) query
  query : QueryKept (path.toList.dropWhile (· == '/')) query

/-- **ROUTE CONFINEMENT.** For every route, path, query and target: the request stays in
the route exactly when the route is plain, the tail's dot segments lead back into
it and the query comes through. -/
theorem staysInRoute_iff (route : String) (ingress : ServiceIngressMetadata) (path : String)
    (query : Option String) (target : ModuleIngressTarget) :
    StaysInRoute route ingress path query target ↔ RouteKept route path query := by
  have hpar := parse_target route ingress path query target
  generalize hta : path.toList.dropWhile (· == '/') = tail at hpar
  -- the property, read off the parsed URL
  have hre : StaysInRoute route ingress path query target ↔
      routeSegments route <+: Url.resolve [] (segmentsOf ((cleaned query
        (routeBody (normalizedRoute route.toList) tail)).takeWhile (!endsPath ·))) ∧
      parsedQuery (routeBody (normalizedRoute route.toList) tail) query =
        query.map String.toList := by
    rw [← Url.pathText_at_or_below_iff (routeSegments_free route)
      (fun seg hseg => (mem_parsed_path hseg).2.1), pathText_routeSegments]
    constructor
    · rintro ⟨url, hurl, -, hpa, hque⟩
      rw [hpar] at hurl
      rw [← Option.some.inj hurl] at hpa hque
      dsimp only at hpa hque
      exact ⟨hpa, hque⟩
    · rintro ⟨hpa, hque⟩
      refine ⟨_, hpar, rfl, ?_⟩
      dsimp only
      exact ⟨hpa, hque⟩
  -- a kept query, for the body and for the tail
  have hqu : parsedQuery (routeBody (normalizedRoute route.toList) tail) query =
        query.map String.toList ↔
      QueryKept (routeBody (normalizedRoute route.toList) tail) query := by
    rw [QueryKept]
    cases hend : (routeBody (normalizedRoute route.toList) tail).any endsPath with
    | false => exact queryKept_of_no_end query hend
    | true => exact queryKept_of_end query hend
  rw [hre, hqu]
  constructor
  · rintro ⟨hpa, hque⟩
    have hpla : PlainRoute route := by
      intro seg hseg
      obtain ⟨hna, -, hcha⟩ := mem_parsed_path (hpa.subset hseg)
      exact ⟨hna, hcha⟩
    rw [hpla.resolve, Url.resolve_eq_climb, Url.at_or_below_above_iff] at hpa
    refine ⟨hpla, ?_, ?_⟩
    · rw [hta]
      exact hpa
    · rw [hta]
      exact (hpla.queryKept_body tail query).mp hque
  · rintro ⟨hpla, hlev, hque⟩
    rw [hta] at hlev hque
    refine ⟨?_, (hpla.queryKept_body tail query).mpr hque⟩
    rw [hpla.resolve, Url.resolve_eq_climb, Url.at_or_below_above_iff]
    exact hlev

/-- A client that asks for `../admin` (percent-encoded or not) below `/api/v1` reaches
`/api/admin`. -/
theorem dots_leave_route :
    ¬ StaysInRoute "/api/v1" ⟨none, .publicAccess, .default, [.http]⟩ "../admin" none
      (.runtimePort "notes" "notes" 8080) := by
  rintro ⟨url, hurl, -, hpa, -⟩
  have hpar : parseHttp (buildTargetUrl (.runtimePort "notes" "notes" 8080)
      (serviceRoutePath (some ⟨some "/api/v1", .publicAccess, .default, [.http]⟩) "../admin"
        none)).toList =
      some ⟨"127.0.0.1:8080".toList, ["api".toList, "admin".toList], none⟩ := by
    decide +kernel
  rw [hpar] at hurl
  cases hurl
  exact absurd hpa (by decide)

end Fenrir.Gateway
