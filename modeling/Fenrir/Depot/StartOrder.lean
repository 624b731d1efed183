import Fenrir.Lib.Layers
import Fenrir.Depot.Installer

/-! # The order in which modules are started

`ModuleServiceHost::start` places the modules whose dependencies are placed, pass by
pass, and falls back to the order of names when a pass places nothing. -/

namespace Fenrir

open List

section

variable {h : Host} {wanted : List String}

variable (h wanted) in
inductive PlacedReady : List String → Prop
  | nil : PlacedReady []
  | snoc {placed : List String} {name : String} (hplaced : PlacedReady placed)
      (hready : depsReady h wanted placed name = true) : PlacedReady (placed ++ [name])

variable {placed : List String} {n : String}

theorem PlacedReady.split {pre after : List String} (hpla : PlacedReady h wanted placed)
    (heq : placed = pre ++ n :: after) : depsReady h wanted pre n = true := by
  induction hpla generalizing after with
  | nil => simp at heq
  | snoc _ hready ih =>
    rcases Sequences.append_singleton_eq heq with ⟨rfl, rfl⟩ | ⟨after', hspl⟩
    · exact hready
    · exact ih hspl

theorem placeReady_placed (names : List String) (hpla : PlacedReady h wanted placed) :
    PlacedReady h wanted (placeReady h wanted names placed) ∧
      placed <+: placeReady h wanted names placed := by
  induction names generalizing placed with
  | nil => exact ⟨hpla, prefix_rfl⟩
  | cons name rest ih =>
    rw [placeReady]
    split
    · exact ih hpla
    · split
      · rename_i hrea
        obtain ⟨hne, hpre⟩ := ih (hpla.snoc hrea)
        exact ⟨hne, (prefix_append _ _).trans hpre⟩
      · exact ih hpla

theorem placeReady_stuck {names : List String} (hpla : PlacedReady h wanted placed)
    (hlen : (placeReady h wanted names placed).length = placed.length) :
    placeReady h wanted names placed = placed ∧
      ∀ n ∈ names, n ∉ placed → depsReady h wanted placed n = false := by
  have hsa := (placeReady_placed names hpla).2.eq_of_length hlen.symm
  refine ⟨hsa.symm, ?_⟩
  clear hsa
  induction names with
  | nil => exact nofun
  | cons name rest ih =>
    rw [placeReady] at hlen
    split at hlen
    · rename_i hmem
      intro n hn hnew
      rcases mem_cons.mp hn with rfl | hn
      · exact absurd hmem hnew
      · exact ih hlen n hn hnew
    · split at hlen
      · rename_i hrea
        have hle := (placeReady_placed rest (hpla.snoc hrea)).2.length_le
        rw [hlen, length_append] at hle
        exact absurd hle (by simp)
      · rename_i hrea
        intro n hn hnew
        rcases mem_cons.mp hn with rfl | hn
        · exact Bool.not_eq_true _ |>.mp hrea
        · exact ih hlen n hn hnew

theorem placeRest_placed (names : List String) (hnod : placed.Nodup) :
    (placeRest names placed).Nodup ∧ placed <+: placeRest names placed := by
  induction names generalizing placed with
  | nil => exact ⟨hnod, prefix_rfl⟩
  | cons name rest ih =>
    rw [placeRest]
    split
    · exact ih hnod
    · rename_i hnew
      obtain ⟨hne, hpre⟩ := ih (nodup_append'.mpr
        ⟨hnod, nodup_singleton name, by simpa using hnew⟩)
      exact ⟨hne, (prefix_append _ _).trans hpre⟩

variable (h wanted) in
def WantedDep (n d : String) : Prop :=
  n ∈ wanted ∧ d ∈ wanted ∧ ∃ m, h.get n = some m ∧ ∃ dep ∈ m.manifest.dependencies, dep.idOf = d

variable (h wanted) in
/-- The module lies on a cycle of wanted dependencies, or leads to one. -/
def ReachesCycle (n : String) : Prop :=
  ∃ c, Relation.ReflTransGen (WantedDep h wanted) n c ∧ Relation.TransGen (WantedDep h wanted) c c

theorem depsReady_iff (hn : n ∈ wanted) :
    depsReady h wanted placed n = true ↔ ∀ d, WantedDep h wanted n d → d ∈ placed := by
  rw [depsReady]
  cases hget : h.get n with
  | none => simp [WantedDep, hget]
  | some m =>
    simp only [all_eq_true, WantedDep, hn, hget]
    grind

theorem startRounds_placed (passes : Nat) (hpla : PlacedReady h wanted placed)
    (hnod : placed.Nodup) (hsub : ∀ n ∈ placed, n ∈ wanted)
    (hlen : wanted.length ≤ placed.length + passes) :
    (startRounds h wanted passes placed).Nodup ∧ ∃ front, PlacedReady h wanted front ∧
      front <+: startRounds h wanted passes placed ∧
      ∀ n ∈ wanted, n ∉ front → ReachesCycle h wanted n := by
  induction passes generalizing placed with
  | zero =>
    have hall := mem_iff_of_length hnod hsub hlen
    exact ⟨hnod, placed, hpla, prefix_rfl, fun n hn hnew => absurd ((hall n).mpr hn) hnew⟩
  | succ passes ih =>
    rw [startRounds]
    split
    · obtain ⟨hno', hsu', hle'⟩ := placeReady_spec (h := h) hsub (fun _ hn => hn) hnod
      have hpl' := (placeReady_placed wanted hpla).1
      dsimp only
      split
      · rename_i hstu
        obtain ⟨hsa, hno⟩ := placeReady_stuck hpla hstu
        rw [hsa]
        obtain ⟨hre, hpre⟩ := placeRest_placed wanted hnod
        refine ⟨hre, placed, hpla, hpre, ?_⟩
        -- every name that is left has a dependency that is left
        have hle : ∀ n ∈ {n | n ∈ wanted ∧ n ∉ placed},
            ∃ d ∈ {n | n ∈ wanted ∧ n ∉ placed}, WantedDep h wanted n d := by
          rintro n ⟨hn, hnew⟩
          have hnot := hno n hn hnew
          rw [← Bool.not_eq_true, depsReady_iff hn] at hnot
          push Not at hnot
          obtain ⟨d, hdep, hd⟩ := hnot
          exact ⟨d, ⟨hdep.2.1, hd⟩, hdep⟩
        intro n hn hnew
        refine Layers.exists_cycle_of_successors ?_ hle ⟨hn, hnew⟩
        exact wanted.finite_toSet.subset fun _ hn => hn.1
      · exact ih hpl' hno' hsu' (by omega)
    · have hall := mem_iff_of_length hnod hsub (by omega)
      exact ⟨hnod, placed, hpla, prefix_rfl, fun n hn hnew => absurd ((hall n).mpr hn) hnew⟩

theorem startRounds_enough {passes : Nat} (hnod : placed.Nodup) (hsub : ∀ n ∈ placed, n ∈ wanted)
    (hlen : wanted.length ≤ placed.length + passes) (more : Nat) :
    startRounds h wanted (passes + more) placed = startRounds h wanted passes placed := by
  induction passes generalizing placed with
  | zero =>
    cases more with
    | zero => rfl
    | succ more =>
      simp only [startRounds]
      exact if_neg (Nat.not_lt.mpr hlen)
  | succ passes ih =>
    rw [Nat.add_right_comm, startRounds, startRounds]
    split
    · obtain ⟨hno', hsu', hle'⟩ := placeReady_spec (h := h) hsub (fun _ hn => hn) hnod
      dsimp only
      split
      · rfl
      · exact ih hno' hsu' (by omega)
    · rfl

/-- **THE ORDER OF STARTS.** The loop ends with every wanted module placed once; a module
stands after the wanted modules it depends on, unless it leads to a cycle. -/
theorem startOrder_dependencies (h : Host) (modules : List String) :
    let wanted := modules.dedup.insertionSort (· ≤ ·)
    (∀ passes ≥ wanted.length, startRounds h wanted passes [] = startOrder h modules) ∧
    (startOrder h modules).Perm wanted ∧
    ∀ n d, WantedDep h wanted n d → ¬ ReachesCycle h wanted n →
      ∃ before after, startOrder h modules = before ++ n :: after ∧ d ∈ before := by
  intro wanted
  obtain ⟨hnod, front, hfro, hpre, hcyc⟩ := startRounds_placed wanted.length
    (PlacedReady.nil : PlacedReady h wanted []) nodup_nil nofun (by simp)
  refine ⟨?_, ?_, ?_⟩
  · intro passes hpas
    obtain ⟨more, rfl⟩ := Nat.exists_eq_add_of_le hpas
    exact startRounds_enough nodup_nil nofun (by simp) more
  · refine (perm_ext_iff_of_nodup hnod ?_).mpr fun n => ?_
    · exact (perm_insertionSort _ _).nodup_iff.mpr modules.nodup_dedup
    · exact mem_startRounds nodup_nil nofun (by simp) n
  · intro n d hdep hfr
    have hn : n ∈ front := by
      by_contra hnew
      exact hfr (hcyc n hdep.1 hnew)
    obtain ⟨before, after, hspl⟩ := append_of_mem hn
    obtain ⟨rest, hre⟩ := hpre
    refine ⟨before, after ++ rest, ?_, (depsReady_iff hdep.1).mp (hfro.split hspl) d hdep⟩
    rw [startOrder, ← hre, hspl, append_assoc]
    rfl

end

/-- `app` depends on `base`, which comes after it by name. -/
def appHost : Host :=
  (emptyHost.put ⟨sampleManifest "base" versionOne, [], .distribution, false, 0⟩).put
    ⟨{ sampleManifest "app" versionOne with dependencies := [.id "base"] }, [], .distribution,
      false, 0⟩

/-- `base` is started before `app`. -/
theorem startOrder_appHost : ∃ before after,
    startOrder appHost ["app", "base"] = before ++ "app" :: after ∧ "base" ∈ before := by
  have hde : ∀ n d, WantedDep appHost (["app", "base"].dedup.insertionSort (· ≤ ·)) n d →
      n = "app" ∧ d = "base" := by
    rintro n d ⟨-, -, m, hm, dep, hdep, rfl⟩
    rw [appHost, Host.get_put, Host.get_put] at hm
    split at hm
    · next hn =>
        cases hm
        obtain rfl := mem_singleton.mp hdep
        exact ⟨hn.symm, rfl⟩
    · split at hm
      · cases hm
        cases hdep
      · exact absurd hm (by simp [emptyHost, Host.get])
  refine (startOrder_dependencies appHost ["app", "base"]).2.2 "app" "base" ?_ ?_
  · exact ⟨by decide, by decide, _, rfl, _, mem_singleton_self _, rfl⟩
  · rintro ⟨c, -, hcyc⟩
    obtain ⟨b, hb, -⟩ := Relation.TransGen.head'_iff.mp hcyc
    obtain ⟨b', -, hb'⟩ := Relation.TransGen.tail'_iff.mp hcyc
    exact absurd ((hde c b hb).1.symm.trans (hde b' c hb').2) (by decide)

end Fenrir
