import IssueBridge.Program.Machine
import IssueBridge.Proofs.CallCourse

/-!
# Stores keep one text

What a store reads is the text that it keeps. A write that succeeds replaces the text, and one that
fails leaves it alone, in memory as in a file.
-/

namespace IssueBridge.Proofs

variable {σ τ α : Type}

/-- A store keeps one text. A write that fails is taken to leave the text as it was: a file is
written as a whole or not at all. -/
structure Lawful (store : Store σ) (kept : σ → Option String) : Prop where
  read : Keeps kept store.read.run
  read_ok : ∀ w r v, store.read.run w = (.ok r, v) → r = kept w.state
  write_ok : ∀ text w v, (store.write text).run w = (.ok (), v) → kept v.state = some text
  write_error : ∀ text w e v, (store.write text).run w = (.error e, v) → kept v.state = kept w.state

lemma onState_course {f : σ → Except Failure α × σ} {w v : World σ} {r : Except Failure α}
    (h : (ExceptT.mk (onState f) : Call σ α).run w = (r, v)) : f w.state = (r, v.state) := by
  have hpair : ((f w.state).1, (⟨(f w.state).2, w.log⟩ : World σ)) = (r, v) := h
  rw [Prod.mk.injEq] at hpair
  obtain ⟨hr, rfl⟩ := hpair
  rw [← hr]

lemma onState_keeps {part : σ → τ} {f : σ → Except Failure α × σ}
    (h : ∀ s, part (f s).2 = part s) : Keeps part (ExceptT.mk (onState f) : Call σ α).run :=
  fun w => h w.state

/-! ### In memory -/

theorem slot_lawful : Lawful Slot.store Slot.contents where
  read _ := rfl
  read_ok w r v h := by
    have hread := onState_course (f := fun s : Slot => (.ok s.contents, s)) h
    rw [Prod.mk.injEq] at hread
    exact (Except.ok.inj hread.1).symm
  write_ok text w v h := by
    dsimp only [Slot.store] at h
    have hwrite := onState_course h
    cases hfault : w.state.fault with
    | some reason => simp [hfault] at hwrite
    | none =>
      rw [hfault, Prod.mk.injEq] at hwrite
      rw [← hwrite.2]
  write_error text w e v h := by
    dsimp only [Slot.store] at h
    have hwrite := onState_course h
    cases hfault : w.state.fault with
    | some reason =>
      rw [hfault, Prod.mk.injEq] at hwrite
      rw [← hwrite.2]
    | none => simp [hfault] at hwrite

/-! ### In a file -/

lemma length_intercalate_take (c : Char) {parts : List (List Char)} {n : Nat} (hn : 0 < n)
    (h : n < parts.length) :
    ([c].intercalate (parts.take n)).length < ([c].intercalate parts).length := by
  induction parts generalizing n with
  | nil => simp at h
  | cons piece rest ih =>
    rw [List.length_cons] at h
    obtain ⟨k, rfl⟩ : ∃ k, n = k + 1 := ⟨n - 1, by omega⟩
    have hrest : rest ≠ [] := List.ne_nil_of_length_pos (by omega)
    rw [List.take_succ_cons, List.intercalate_cons_of_ne_nil hrest]
    by_cases hk : k = 0
    · rw [hk, List.take_zero, List.intercalate_singleton]
      simp only [List.length_append, List.length_singleton]
      omega
    · have htake : rest.take k ≠ [] := by
        rw [ne_eq, List.take_eq_nil_iff]
        exact not_or.mpr ⟨hk, hrest⟩
      have := ih (n := k) (by omega) (by omega)
      rw [List.intercalate_cons_of_ne_nil htake]
      simp only [List.length_append, List.length_singleton]
      omega

/-- No path is above itself. -/
lemma ne_of_mem_above {path folder : String} (h : folder ∈ Disk.above path) : path ≠ folder := by
  unfold Disk.above at h
  simp only [List.mem_filter, List.mem_map] at h
  obtain ⟨⟨n, hn, rfl⟩, hne⟩ := h
  intro heq
  have hlt : n < (Text.pieces '/' path.toList).length := List.mem_range.mp (List.mem_of_mem_tail hn)
  have hpos : 0 < n := by
    apply Nat.pos_of_ne_zero
    rintro rfl
    rw [List.take_zero] at hne
    exact absurd hne (by decide)
  have hlength := length_intercalate_take '/' hpos hlt
  have hjoined : ['/'].intercalate (Text.pieces '/' path.toList) = path.toList := by
    rw [Text.pieces_eq_splitOn, List.intercalate_splitOn]
  rw [hjoined] at hlength
  have hlist := congrArg String.toList heq
  rw [String.toList_ofList] at hlist
  rw [← hlist] at hlength
  exact Nat.lt_irrefl _ hlength

lemma contents?_insert_self (d : Disk) (path text : String) :
    Disk.contents? (d.insert path (.file text)) path = some text := by
  unfold Disk.contents?
  rw [Dictionary.get?_insert_self]

lemma contents?_insert_of_ne (d : Disk) {path other : String} (e : Entry) (h : path ≠ other) :
    Disk.contents? (d.insert other e) path = d.contents? path := by
  unfold Disk.contents?
  rw [Dictionary.get?_insert_of_ne _ _ h]

lemma foldlM_folders_contents? {folders : List String} {path : String} {d d' : Disk}
    (hne : ∀ folder ∈ folders, path ≠ folder)
    (h : folders.foldlM (fun d folder =>
      match d.get? folder with
      | some .folder => some d
      | some _ => none
      | none => some (d.insert folder .folder)) d = some d') :
    d'.contents? path = d.contents? path := by
  induction folders generalizing d with
  | nil =>
    rw [List.foldlM_nil] at h
    rw [← Option.some.inj h]
  | cons folder rest ih =>
    rw [List.forall_mem_cons] at hne
    rw [List.foldlM_cons] at h
    obtain ⟨d₁, hfirst, hrest⟩ := Option.bind_eq_some_iff.mp h
    rw [ih hne.2 hrest]
    split at hfirst
    · rw [← Option.some.inj hfirst]
    · cases hfirst
    · rw [← Option.some.inj hfirst]
      exact contents?_insert_of_ne _ _ hne.1

/-- The folders above a path are made beside the file at it. -/
lemma makeFolders_contents? {d d' : Disk} {path : String} (h : d.makeFolders path = some d') :
    d'.contents? path = d.contents? path :=
  foldlM_folders_contents? (fun _ hfolder => ne_of_mem_above hfolder) h

theorem disk_lawful (path : String) : Lawful (Disk.store path) fun d => d.contents? path where
  read := by
    dsimp only [Disk.store]
    apply onState_keeps
    intro d
    split <;> rfl
  read_ok w r v h := by
    dsimp only [Disk.store] at h
    have hread := onState_course h
    unfold Disk.contents?
    split at hread
    · rename_i hget
      rw [Prod.mk.injEq] at hread
      rw [hget]
      exact (Except.ok.inj hread.1).symm
    · rename_i hget
      rw [Prod.mk.injEq] at hread
      rw [hget]
      exact (Except.ok.inj hread.1).symm
    · rw [Prod.mk.injEq] at hread
      cases hread.1
  write_ok text w v h := by
    dsimp only [Disk.store] at h
    have hwrite := onState_course h
    split at hwrite
    · cases congrArg Prod.fst hwrite
    · split at hwrite
      · cases congrArg Prod.fst hwrite
      · rename_i hput
        rw [Prod.mk.injEq] at hwrite
        unfold Disk.write at hput
        split at hput
        · cases hput
        · rw [← hwrite.2, ← Option.some.inj hput]
          exact contents?_insert_self _ _ _
  write_error text w e v h := by
    dsimp only [Disk.store] at h
    have hwrite := onState_course h
    split at hwrite
    · rw [Prod.mk.injEq] at hwrite
      rw [← hwrite.2]
    · rename_i hfolders
      split at hwrite
      · rw [Prod.mk.injEq] at hwrite
        rw [← hwrite.2]
        exact makeFolders_contents? hfolders
      · cases congrArg Prod.fst hwrite

/-! ### On a machine -/

lemma onPart_run (part : σ → τ) (put : τ → σ → σ) (x : Call τ α) (w : World σ) :
    (x.onPart part put).run w =
      ((x.run (World.mk (part w.state) w.log)).1,
        ⟨put (x.run (World.mk (part w.state) w.log)).2.state w.state,
          (x.run (World.mk (part w.state) w.log)).2.log⟩) :=
  rfl

lemma onPart_course {part : σ → τ} {put : τ → σ → σ} {x : Call τ α} {w v : World σ}
    {r : Except Failure α} (h : (x.onPart part put).run w = (r, v)) :
    ∃ u, x.run (World.mk (part w.state) w.log) = (r, u) ∧ v = ⟨put u.state w.state, u.log⟩ := by
  rw [onPart_run, Prod.mk.injEq] at h
  exact ⟨_, Prod.ext h.1 rfl, h.2.symm⟩

/-- A store on a part of the state keeps its text there. -/
theorem machine_lawful (path : String) :
    Lawful (Machine.store path) fun m => m.disk.contents? path where
  read w := (disk_lawful path).read ⟨w.state.disk, w.log⟩
  read_ok w r v h := by
    obtain ⟨u, hread, -⟩ := onPart_course h
    exact (disk_lawful path).read_ok _ _ _ hread
  write_ok text w v h := by
    obtain ⟨u, hwrite, rfl⟩ := onPart_course h
    exact (disk_lawful path).write_ok _ _ _ hwrite
  write_error text w e v h := by
    obtain ⟨u, hwrite, rfl⟩ := onPart_course h
    exact (disk_lawful path).write_error _ _ _ _ hwrite

end IssueBridge.Proofs
