import Fenrir.Depot.AllOrNothing

/-! # Undisturbed runs

The lemmas of the previous modules say what an operation did IF it
returned. Here the environment lets every effect succeed from some
position on (`Quiet`), and the lemmas say THAT the operations return. -/

namespace Fenrir

open Effect Effect.Act DepotProtocol List

/-! ## What runs -/

namespace Host

variable {h : Host} {n k : String}

theorem isSome_stop (h : Host) (k n : String) : ((h.stop k).get n).isSome = (h.get n).isSome := by
  rw [get_stop]
  split
  · exact Option.isSome_map ..
  · rfl

/-- The host after `ensure_running`: a module that runs, is served by a dev
override or is not installed is left alone. -/
def ensured (h : Host) (n : String) : Host :=
  if h.runs n ∨ n ∈ h.dev then h else h.run n

theorem ensured_dev : (h.ensured k).dev = h.dev := by
  rw [ensured]
  split
  · rfl
  · exact h.run_dev k

theorem isSome_ensured : ((h.ensured k).get n).isSome = (h.get n).isSome := by
  rw [ensured]
  split
  · rfl
  · rw [get_run]
    split
    · exact Option.isSome_map ..
    · rfl

theorem runs_ensured (hr : h.runs n = true) : (h.ensured k).runs n = true := by
  rw [ensured]
  split
  · exact hr
  · rw [runs, get_run]
    split
    · rw [runs] at hr
      cases hg : h.get n with
      | none => rw [hg] at hr; cases hr
      | some m => rfl
    · exact hr

theorem runs_ensured_self (hdev : n ∉ h.dev) (hn : (h.get n).isSome = true) :
    (h.ensured n).runs n = true := by
  by_cases hr : h.runs n = true
  · exact runs_ensured hr
  · rw [ensured, if_neg (fun hor => hor.elim hr hdev), runs, get_run, if_pos rfl]
    obtain ⟨m, hm⟩ := Option.isSome_iff_exists.mp hn
    rw [hm]
    rfl

variable {order : List String}

theorem runs_foldl_ensured (hmem : n ∈ order) (hdev : n ∉ h.dev) (hn : (h.get n).isSome = true) :
    (order.foldl ensured h).runs n = true := by
  have hke : ∀ (l : List String) (h : Host), h.runs n = true →
      (l.foldl ensured h).runs n = true := by
    intro l
    induction l with
    | nil => exact fun _ hr => hr
    | cons k l ih => exact fun h hr => ih (h.ensured k) (runs_ensured hr)
  induction order generalizing h with
  | nil => cases hmem
  | cons k rest ih =>
    rcases mem_cons.mp hmem with rfl | hre
    · exact hke rest _ (runs_ensured_self hdev hn)
    · exact ih hre (by rw [ensured_dev]; exact hdev) (by rw [isSome_ensured]; exact hn)

end Host

section

variable [DepotProtocol] {env : Env} {w w' : World}

/-- From this position on no effect fails. -/
def Quiet (env : Env) (t : Nat) : Prop :=
  ∀ k, t ≤ k → env.fails k = none ∧ env.saveFails k = none ∧ env.pruneFails k = none

theorem Quiet.mono {t t' : Nat} (h : Quiet env t) (hle : t ≤ t') : Quiet env t' :=
  fun k hk => h k (le_trans hle hk)

theorem Quiet.saving {t : Nat} (h : Quiet env t) : Quiet env.saving t :=
  fun k hk => ⟨(h k hk).2.1, (h k hk).2⟩

theorem Quiet.pruning {t : Nat} (h : Quiet env t) : Quiet env.pruning t :=
  fun k hk => ⟨(h k hk).2.2, (h k hk).2⟩

theorem Quiet.next (h : Quiet env w.tick) : Quiet env (w.tick + 1) := h.mono (Nat.le_succ _)

theorem Quiet.after {ns ds : String → Prop} (h : Quiet env w.tick) (hf : Frame ns ds w w') :
    Quiet env w'.tick := h.mono hf.tick

theorem effect_quiet {ε : Type} {err : String → ε} {failed done : World → World}
    (h : Quiet env w.tick) :
    effect env err failed done w = (.ok (), (done w).tickTo (w.tick + 1)) :=
  effect_ok_iff.mpr ⟨(h _ (le_refl _)).1, rfl⟩

theorem load_quiet (hq : env.fails w.tick = none)
    (hfor : (w.disk.stateFile.getD HostState.initial).format = stateFormat) : load env w
      = (.ok (w.disk.stateFile.getD HostState.initial), w.tickTo (w.tick + 1)) := by
  have heff : effect env DepotError.io id id w = (.ok (), w.tickTo (w.tick + 1)) :=
    effect_ok_iff.mpr ⟨hq, rfl⟩
  have hre : (read (·.disk.stateFile) : Act World DepotError _) (w.tickTo (w.tick + 1))
      = (.ok w.disk.stateFile, w.tickTo (w.tick + 1)) := rfl
  rw [load, bind_of_ok heff, bind_of_ok hre]
  cases hfi : w.disk.stateFile with
  | none => rfl
  | some state =>
    rw [hfi] at hfor
    simp only [Option.getD_some] at hfor ⊢
    rw [if_pos hfor]
    rfl

/-! ## Calls on the host -/

variable {n : String} {s : StagedBundle} {ms : List String}

theorem hostCall_quiet {c : HostCall} {f : Host → Host} (h : Quiet env w.tick) :
    hostCall env c n f w = (.ok (), (logCall c (onHost f w)).tickTo (w.tick + 1)) := by
  rw [hostCall, effect_quiet h]

theorem stop_quiet (h : Quiet env w.tick) :
    stop env n w = (.ok (), (logCall (.stop n) (onHost (·.stop n) w)).tickTo (w.tick + 1)) :=
  hostCall_quiet h

theorem each_stops_quiet {β : Type} {f : β → Act World String Unit} {g : β → String}
    {bs : List β} (hf : ∀ b ∈ bs, ∀ a : World, Quiet env a.tick → f b a
      = (.ok (), (logCall (.stop (g b)) (onHost (·.stop (g b)) a)).tickTo (a.tick + 1)))
    (hq : Quiet env w.tick) :
    ∃ w', each f bs w = (.ok (), w') ∧ Quiet env w'.tick ∧ w'.disk = w.disk ∧
      w'.host.dev = w.host.dev ∧ ∀ n, (w'.host.get n).isSome = (w.host.get n).isSome := by
  refine each_returns (I := fun a : World => Quiet env a.tick ∧ a.disk = w.disk ∧
    a.host.dev = w.host.dev ∧ ∀ n, (a.host.get n).isSome = (w.host.get n).isSome) ?_
    ⟨hq, rfl, rfl, fun _ => rfl⟩
  rintro b hb a ⟨ha, hd, hdev, hget⟩
  refine ⟨_, hf b hb a ha, ha.next, hd, (a.host.stop_dev (g b)).trans hdev, fun n => ?_⟩
  rw [← hget n]
  exact a.host.isSome_stop (g b) n

theorem remove_returns_iff (h : Quiet env w.tick) :
    (∃ w', remove env n w = (.ok (), w')) ↔ (w.host.get n).isSome = true := by
  constructor
  · rintro ⟨w', hrem⟩
    exact (remove_ok hrem).1
  · intro hn
    obtain ⟨m, hm⟩ := Option.isSome_iff_exists.mp hn
    refine ⟨(logCall (.remove n) (onHost (·.erase n) w)).tickTo (w.tick + 1), ?_⟩
    have hre : (read (·.host.get n) : Act World String _) w = (.ok (some m), w) := by
      rw [read_run, hm]
    rw [remove, bind_of_ok hre]
    exact hostCall_quiet h

/-- The bundle is on disk, with the size and digest it was staged with. -/
def Loads (d : Disk) (s : StagedBundle) : Prop :=
  ∃ bytes, d.file s.path = some bytes ∧ checkBytes bytes s.sha256 s.size = .ok ()

theorem loadBundle_quiet (h : Quiet env w.tick) (hs : Loads w.disk s) :
    ∃ b, loadBundle env s w = (.ok b, w.tickTo (w.tick + 1)) := by
  obtain ⟨bytes, hfi, hche⟩ := hs
  exact ⟨_, loadBundle_ok_iff.mpr ⟨bytes, (h _ (le_refl _)).1, hfi, hche, rfl, rfl⟩⟩

theorem installBundle_quiet (h : Quiet env w.tick) (hs : Loads w.disk s) :
    ∃ w', installBundle env s w = (.ok (), w') := by
  obtain ⟨b, hlo⟩ := loadBundle_quiet h hs
  exact ⟨_, (bind_of_ok (mapErr_ok_iff.mpr hlo)).trans
    (hostCall_quiet (w := w.tickTo (w.tick + 1)) h.next)⟩

theorem ensureRunning_host (h : ensureRunning env n w = (.ok (), w')) :
    w'.host = w.host.ensured n := by
  obtain ⟨installed, hget, h⟩ := read_bind_ok h
  obtain ⟨dev, hdev, h⟩ := read_bind_ok h
  cases installed with
  | none =>
    cases h
    have hrun : w.host.run n = w.host := by simp only [Host.run, hget]
    simp only [Host.ensured, hrun, ite_self]
  | some m =>
    have hru : w.host.runs n = m.running := by rw [Host.runs, hget]; rfl
    by_cases hsk : m.running = true ∨ n ∈ dev
    · simp only [if_pos hsk] at h
      cases h
      rw [Host.ensured, hru, hdev, if_pos hsk]
    · simp only [if_neg hsk] at h
      obtain ⟨-, rfl⟩ := effect_ok_iff.mp h
      rw [Host.ensured, hru, hdev, if_neg hsk]
      rfl

theorem ensureRunning_quiet (h : Quiet env w.tick) :
    ∃ w', ensureRunning env n w = (.ok (), w') := by
  rw [ensureRunning, bind_of_ok (read_run _ w), bind_of_ok (read_run _ w)]
  cases hget : w.host.get n with
  | none => exact ⟨w, rfl⟩
  | some m =>
    by_cases hsk : m.running = true ∨ n ∈ w.host.dev
    · refine ⟨w, ?_⟩
      simp only [if_pos hsk]
      rfl
    · refine ⟨(onHost (·.run n) w).tickTo (w.tick + 1), ?_⟩
      simp only [if_neg hsk]
      exact effect_quiet h

variable (ms) in
theorem start_quiet (h : Quiet env w.tick) : ∃ w', start env ms w = (.ok (), w') := by
  have hlog : effect env (id : String → String) (logCall (.start ms)) (logCall (.start ms)) w
      = (.ok (), (logCall (.start ms) w).tickTo (w.tick + 1)) := effect_quiet h
  have hrou : ∀ n ∈ startOrder w.host ms, ∀ a : World, Quiet env a.tick →
      ∃ b, ensureRunning env n a = (.ok (), b) ∧ Quiet env b.tick := by
    intro n _ a ha
    obtain ⟨b, hb⟩ := ensureRunning_quiet (n := n) ha
    have hfra : Frame (fun _ => True) (fun _ => False) a b := (frame_ensureRunning trivial).ok hb
    exact ⟨b, hb, ha.after hfra⟩
  obtain ⟨w1, hall, -⟩ := each_returns hrou (s := (logCall (.start ms) w).tickTo (w.tick + 1))
    h.next
  refine ⟨w1, ?_⟩
  rw [start, bind_of_ok hlog, bind_of_ok (read_run _ _)]
  exact hall

theorem start_host (h : start env ms w = (.ok (), w')) :
    w'.host = (startOrder w.host ms).foldl Host.ensured w.host := by
  obtain ⟨-, h⟩ := effect_bind_ok h
  obtain ⟨_, rfl, h⟩ := read_bind_ok h
  have hfo := each_ok_fold (p := World.host) (g := Host.ensured)
    (fun n a b hn => ensureRunning_host hn) h
  exact hfo

theorem waitHealthy_quiet (h : Quiet env w.tick) (hr : w.host.runs n = true) : waitHealthy env n w
      = (.ok (), (logCall (.waitHealthy n) w).tickTo (w.tick + 1)) := by
  have hre : (read (·.host.runs n) : Act World String _) w = (.ok true, w) := by
    rw [read_run, hr]
  rw [waitHealthy, bind_of_ok hre]
  exact hostCall_quiet (f := id) h

theorem each_wait_returns_iff (h : Quiet env w.tick) :
    (∃ w', each (waitHealthy env) ms w = (.ok (), w')) ↔ ∀ n ∈ ms, w.host.runs n = true := by
  constructor
  · rintro ⟨w', hwa⟩ n hn
    obtain ⟨hho, -, hru⟩ := each_wait_ok hwa
    rw [← hho]
    exact hru n hn
  · intro hru
    obtain ⟨w', hall, -⟩ := each_returns
      (I := fun w1 : World => Quiet env w1.tick ∧ w1.host = w.host)
      (fun n hn a ha => ⟨_, waitHealthy_quiet ha.1 (by rw [ha.2]; exact hru n hn),
        ha.1.next, ha.2⟩) ⟨h, rfl⟩
    exact ⟨w', hall⟩

/-! ## A loop that removes and installs modules -/

/-- The names, in order, are such that whoever is to be removed is there when
its turn comes: installed at first, and not removed twice. -/
def Removable (gone : String → Bool) (h : Host) (names : List String) : Prop :=
  (∀ n ∈ names, gone n = true → (h.get n).isSome = true) ∧ (names.filter gone).Nodup

section

omit [DepotProtocol]

variable {gone : String → Bool} {h h' : Host} {n : String} {names : List String}

theorem removable_cons_gone (hn : gone n = true) : Removable gone h (n :: names) ↔
      (h.get n).isSome = true ∧ Removable gone (h.erase n) names := by
  rw [Removable, Removable, filter_cons_of_pos hn, nodup_cons]
  constructor
  · rintro ⟨hall, hnew, hnod⟩
    refine ⟨hall n mem_cons_self hn, fun k hk hgo => ?_, hnod⟩
    have hne : n ≠ k := by
      rintro rfl
      exact hnew (mem_filter.mpr ⟨hk, hgo⟩)
    rw [Host.get_erase, if_neg hne]
    exact hall k (mem_cons_of_mem _ hk) hgo
  · rintro ⟨hhe, hall, hnod⟩
    have hlat : ∀ k ∈ names, gone k = true → n ≠ k ∧ (h.get k).isSome = true := by
      intro k hk hgo
      have hk' := hall k hk hgo
      rw [Host.get_erase] at hk'
      by_cases hne : n = k
      · rw [if_pos hne] at hk'
        cases hk'
      · rw [if_neg hne] at hk'
        exact ⟨hne, hk'⟩
    refine ⟨fun k hk hgo => ?_, fun hmem => ?_, hnod⟩
    · rcases mem_cons.mp hk with rfl | hk
      · exact hhe
      · exact (hlat k hk hgo).2
    · obtain ⟨hmem, hgo⟩ := mem_filter.mp hmem
      exact (hlat n hmem hgo).1 rfl

theorem removable_cons_kept (hn : gone n = false) (hel : ∀ k, n ≠ k → h'.get k = h.get k) :
    Removable gone h (n :: names) ↔ Removable gone h' names := by
  have hco : (n :: names).filter gone = names.filter gone :=
    filter_cons_of_neg (by rw [hn]; exact Bool.false_ne_true)
  have hsa : ∀ k, gone k = true → h'.get k = h.get k := by
    intro k hk
    refine hel k ?_
    rintro rfl
    rw [hn] at hk
    cases hk
  rw [Removable, Removable, hco]
  refine and_congr_left fun _ => ⟨fun hall k hk hgo => ?_, fun hall k hk hgo => ?_⟩
  · rw [hsa k hgo]
    exact hall k (mem_cons_of_mem _ hk) hgo
  · rcases mem_cons.mp hk with rfl | hk
    · rw [hn] at hgo
      cases hgo
    · rw [← hsa k hgo]
      exact hall k hk hgo

theorem Removable.perm {names' : List String} (hpe : names.Perm names') :
    Removable gone h names ↔ Removable gone h names' := by
  rw [Removable, Removable, (hpe.filter gone).nodup_iff]
  refine and_congr_left fun _ => forall_congr' fun n => ?_
  rw [hpe.mem_iff]

end

/-- A round of such a loop: remove the module, or install a bundle of its name
that loads. -/
def SwapRound (env : Env) (d : Disk) (gone : String → Bool) (n : String)
    (x : Act World String Unit) : Prop :=
  (gone n = true ∧ x = remove env n) ∨
    (gone n = false ∧ ∃ s, x = installBundle env s ∧ s.manifest.id = n ∧ Loads d s)

/-- **A SWAP RETURNS EXACTLY WHEN WHAT IT REMOVES IS THERE.** -/
theorem each_swap_iff {β : Type} {f : β → Act World String Unit} {name : β → String}
    {gone : String → Bool} {d : Disk} {bs : List β}
    (hf : ∀ b ∈ bs, SwapRound env d gone (name b) (f b)) (hq : Quiet env w.tick) (hd : w.disk = d) :
    (∃ w', each f bs w = (.ok (), w')) ↔ Removable gone w.host (bs.map name) := by
  induction bs generalizing w with
  | nil => exact ⟨fun _ => ⟨nofun, nodup_nil⟩, fun _ => ⟨w, rfl⟩⟩
  | cons b bs ih =>
    have hre : ∀ b' ∈ bs, SwapRound env d gone (name b') (f b') :=
      fun b' hb' => hf b' (mem_cons_of_mem _ hb')
    -- the loop returns when the first round and the rest do
    have hspl : (∃ w', each f (b :: bs) w = (.ok (), w')) ↔
        ∃ w1, f b w = (.ok (), w1) ∧ ∃ w', each f bs w1 = (.ok (), w') := by
      constructor
      · rintro ⟨w', h⟩
        obtain ⟨u, w1, hb, h⟩ := bind_ok_iff.mp h
        exact ⟨w1, hb, w', h⟩
      · rintro ⟨w1, hb, w', h⟩
        exact ⟨w', bind_ok_iff.mpr ⟨(), w1, hb, h⟩⟩
    rw [hspl, map_cons]
    rcases hf b mem_cons_self with ⟨hgo, hfb⟩ | ⟨hke, s, hfb, hna, hloa⟩
    · rw [removable_cons_gone hgo, ← remove_returns_iff hq, hfb]
      have hne : ∀ w1, remove env (name b) w = (.ok (), w1) → ((∃ w', each f bs w1 = (.ok (), w')) ↔
            Removable gone (w.host.erase (name b)) (bs.map name)) := by
        intro w1 hb
        have hfra : Frame (fun _ => True) (fun _ => False) w w1 := (frame_remove trivial).ok hb
        obtain ⟨-, hho, hdi⟩ := remove_ok hb
        rw [← hho]
        exact ih hre (hq.after hfra) (hdi.trans hd)
      constructor
      · rintro ⟨w1, hb, hmo⟩
        exact ⟨⟨w1, hb⟩, (hne w1 hb).mp hmo⟩
      · rintro ⟨⟨w1, hb⟩, hmo⟩
        exact ⟨w1, hb, (hne w1 hb).mpr hmo⟩
    · obtain ⟨w1, hb⟩ := installBundle_quiet hq (by rw [hd]; exact hloa)
      have hfra : Frame (name b = ·) (fun _ => False) w w1 := (frame_installBundle rfl hna).ok hb
      rw [hfb, removable_cons_kept hke fun k hk => hfra.host.modules k hk]
      have hmo := ih hre (hq.after hfra) ((installBundle_ok hb).1.trans hd)
      rw [← hmo]
      constructor
      · rintro ⟨w2, hb', h⟩
        rw [hb] at hb'
        rw [(Prod.mk.inj hb').2]
        exact h
      · intro h
        exact ⟨w1, hb, h⟩

end

end Fenrir
