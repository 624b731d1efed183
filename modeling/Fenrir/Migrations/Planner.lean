import Mathlib.Data.List.Nodup

/-! # Planned statements

`infra/db/migrations/planner.rs`: the `CREATE TABLE` statement for Postgres. Its foreign
keys are found by their target: for each target in the list of the columns, the first
column that has it. -/

namespace Fenrir.Planner

open List

section

variable (t : TableBlueprint)

structure ColumnBlueprint where
  (name dataType : String)
  nullable : Bool
  defaultValue : Option String
  isPrimary : Bool
  references : Option String
  deriving DecidableEq

structure TableBlueprint where
  name : String
  columns : List ColumnBlueprint
  deriving DecidableEq

def quoted (name : String) : String := "\"" ++ name ++ "\""

def columnPart (c : ColumnBlueprint) : String :=
  quoted c.name ++ " " ++ c.dataType ++ (if c.nullable then "" else " NOT NULL")
    ++ (c.defaultValue.map (" DEFAULT " ++ ·)).getD ""

def primaryKeyPart : List String :=
  match (t.columns.filter (·.isPrimary)).map fun c => quoted c.name with
  | [] => []
  | columns => ["PRIMARY KEY (" ++ String.intercalate ", " columns ++ ")"]

/-- The clauses: the column they name and its target. -/
def foreignKeys : List (String × String) :=
  (t.columns.filterMap (·.references)).filterMap fun fk =>
    (t.columns.find? fun c => c.references == some fk).map fun c => (c.name, fk)

def foreignKeyPart (clause : String × String) : String :=
  "FOREIGN KEY (" ++ quoted clause.1 ++ ") REFERENCES " ++ clause.2

/-- `map_pg` of `CreateTable`. -/
def createTable : String :=
  "CREATE TABLE IF NOT EXISTS " ++ quoted t.name ++ " (" ++ String.intercalate ", "
    (t.columns.map columnPart ++ primaryKeyPart t ++ (foreignKeys t).map foreignKeyPart) ++ ");"

/-- The clauses that name a column are the one of its own reference. -/
def Declares : Prop :=
  ∀ c ∈ t.columns, (foreignKeys t).filter (·.1 == c.name) = (c.references.map (c.name, ·)).toList

end

theorem mem_intersperse_of_mem {α : Type} {sep x : α} {l : List α} (h : x ∈ l) :
    x ∈ l.intersperse sep := by
  induction l with
  | nil => cases h
  | cons y rest ih =>
    cases rest with
    | nil => exact h
    | cons z rest =>
      rcases mem_cons.mp h with rfl | h
      · exact mem_cons_self
      · exact mem_cons_of_mem _ (mem_cons_of_mem _ (ih h))

theorem infix_intercalate {before sep after part : String} {parts : List String}
    (h : part ∈ parts) : part.toList <:+: (before ++ sep.intercalate parts ++ after).toList := by
  rw [String.toList_append, String.toList_append, String.toList_intercalate]
  exact (infix_of_mem_flatten (mem_intersperse_of_mem (mem_map_of_mem h))).trans (infix_append ..)

/-- The statement holds these clauses. -/
theorem foreignKeys_rendered (t : TableBlueprint) {clause : String × String}
    (h : clause ∈ foreignKeys t) : (foreignKeyPart clause).toList <:+: (createTable t).toList :=
  infix_intercalate (mem_append_right _ (mem_map_of_mem h))

theorem filter_name {columns : List ColumnBlueprint} {c : ColumnBlueprint}
    (hnames : (columns.map (·.name)).Nodup) (hc : c ∈ columns) :
    columns.filter (·.name == c.name) = [c] := by
  induction columns with
  | nil => cases hc
  | cons d rest ih =>
    obtain ⟨hd, hrest⟩ := nodup_cons.mp hnames
    rcases mem_cons.mp hc with rfl | hc
    · rw [filter_cons_of_pos (by simp), filter_eq_nil_iff.mpr]
      intro e he heq
      exact hd (mem_map.mpr ⟨e, he, beq_iff_eq.mp heq⟩)
    · rw [filter_cons_of_neg, ih hrest hc]
      intro heq
      exact hd (mem_map.mpr ⟨c, hc, (beq_iff_eq.mp heq).symm⟩)

variable {t : TableBlueprint}

/-- No column has the target of another, so each is found by its own. -/
theorem foreignKeys_eq (h : ∀ c ∈ t.columns, ∀ d ∈ t.columns,
      c.references ≠ none → c.references = d.references → c = d) :
    foreignKeys t = t.columns.filterMap fun c => c.references.map (c.name, ·) := by
  rw [foreignKeys, filterMap_filterMap]
  refine filterMap_congr fun c hc => ?_
  cases hr : c.references with
  | none => rfl
  | some target =>
    cases hf : t.columns.find? fun d => d.references == some target with
    | none =>
      have := find?_eq_none.mp hf c hc
      simp [hr] at this
    | some d =>
      have hd : d.references = some target := by simpa using find?_some hf
      rw [h c hc d (mem_of_find?_eq_some hf) (by simp [hr]) (hr.trans hd.symm)]
      simp [hf]

/-- **FOREIGN KEYS**: every reference is declared by one clause of its own column iff no two
columns have one target. -/
theorem declares_iff (t : TableBlueprint) (hnames : (t.columns.map (·.name)).Nodup) :
    Declares t ↔ ∀ c ∈ t.columns, ∀ d ∈ t.columns, c.references ≠ none →
      c.references = d.references → c = d := by
  constructor
  · intro h
    -- both are the column that is found by the target
    have hown : ∀ c ∈ t.columns, ∀ target, c.references = some target →
        (t.columns.find? fun d => d.references == some target) = some c := by
      intro c hc target hr
      have hmem : (c.name, target) ∈ foreignKeys t := by
        refine mem_of_mem_filter (p := (·.1 == c.name)) ?_
        rw [h c hc, hr]
        simp
      obtain ⟨fk, -, hfind⟩ := mem_filterMap.mp hmem
      obtain ⟨d, hd, heq⟩ := Option.map_eq_some_iff.mp hfind
      obtain ⟨hname, rfl⟩ := Prod.mk.inj heq
      rw [hd, inj_on_of_nodup_map hnames (mem_of_find?_eq_some hd) hc hname]
    intro c hc d hd hsome heq
    obtain ⟨target, hr⟩ := Option.ne_none_iff_exists'.mp hsome
    exact Option.some.inj ((hown c hc target hr).symm.trans (hown d hd target (heq ▸ hr)))
  · intro h c hc
    have hself : ∀ d : ColumnBlueprint, ((d.references.map (d.name, ·)).filter (·.1 == c.name))
        = if d.name == c.name then d.references.map (d.name, ·) else none := by
      intro d
      cases d.references <;> simp [Option.filter]
    rw [foreignKeys_eq h, filter_filterMap, filterMap_congr fun d _ => hself d,
      ← filterMap_filter, filter_name hnames hc]
    rw [filterMap_cons, filterMap_nil]
    cases c.references <;> rfl

theorem declares_iff_single : Declares ⟨"t", [⟨"a", "int", true, none, true, some "u(id)"⟩,
    ⟨"b", "int", true, none, false, some "v(id)"⟩]⟩ :=
  (declares_iff _ (by decide)).mpr (by decide)

/-- Two columns of one target: both clauses name the first. -/
theorem shared_target_lost : foreignKeys ⟨"t", [⟨"a", "int", true, none, true, some "u(id)"⟩,
      ⟨"b", "int", true, none, false, some "u(id)"⟩]⟩ = [("a", "u(id)"), ("a", "u(id)")] := by
  decide

end Fenrir.Planner
