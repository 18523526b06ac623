import Mathlib.Data.List.Basic
import ServerCentral.Framework.Machine

/-!
# Write-behind files

A program keeps its data in memory and, whenever a file is out of date, starts a job
that writes the file anew: the job makes the directory, takes a snapshot of the data,
writes the snapshot to a temporary file of its own, and renames that file over the
target. Jobs of one file may overlap, and their steps interleave freely.

`writeBehind` adds the jobs and the disk to a machine. Its main result is
`disk_eq_image`: when every step that changes the image of a file also starts a job for
it, and no rename puts an older snapshot over a newer one, then a file without
outstanding jobs holds the image of the memory.

`taken` and `onDisk` number the snapshots of a file. No step of the program or of a job
depends on them; they only say what "older" means.
-/

namespace Framework

/-- A job that writes a file: it has not taken its snapshot yet, or it holds one, with
its number, written to the temporary file or not. -/
inductive WriteJob (Image : Type*) where
  | making
  | snapshot (content : Image) (order : ℕ) (written : Bool)

/-- A program with its files. -/
structure WriteBehind (State File Image : Type*) where
  memory : State
  jobs : List (File × WriteJob Image)
  disk : File → Image
  taken : File → ℕ
  onDisk : File → ℕ

/-- A step of the program, or the completion of the pending operation of a job. -/
inductive WriteLabel (Label : Type*) where
  | run (l : Label)
  | made (job : ℕ)
  | written (job : ℕ)
  | renamed (job : ℕ)

namespace WriteBehind

variable {State Label Out File Image : Type*} [DecidableEq File]

/-- The step function; `writes` are the files a step of the program starts to write. -/
def step (M : Machine State Label Out) (writes : Out → List File) (image : State → File → Image)
    (s : WriteBehind State File Image) :
    WriteLabel Label → Option (WriteBehind State File Image × Option Out)
  | .run l => (M.step s.memory l).map fun (memory, o) =>
    ({ s with memory := memory, jobs := s.jobs ++ (writes o).map (·, .making) }, some o)
  | .made i =>
    match s.jobs[i]? with
    | some (f, .making) =>
      some ({ s with
        jobs := s.jobs.set i (f, .snapshot (image s.memory f) (s.taken f + 1) false)
        taken := Function.update s.taken f (s.taken f + 1) }, none)
    | _ => none
  | .written i =>
    match s.jobs[i]? with
    | some (f, .snapshot content order false) =>
      some ({ s with jobs := s.jobs.set i (f, .snapshot content order true) }, none)
    | _ => none
  | .renamed i =>
    match s.jobs[i]? with
    | some (f, .snapshot content order true) =>
      some ({ s with
        jobs := s.jobs.eraseIdx i
        disk := Function.update s.disk f content
        onDisk := Function.update s.onDisk f order }, none)
    | _ => none

end WriteBehind

variable {State Label Out File Image : Type*} [DecidableEq File]

/-- **A machine with write-behind files**, started with the files up to date. -/
def writeBehind (M : Machine State Label Out) (writes : Out → List File)
    (image : State → File → Image) :
    Machine (WriteBehind State File Image) (WriteLabel Label) (Option Out) where
  init := ⟨M.init, [], image M.init, fun _ => 0, fun _ => 0⟩
  step := WriteBehind.step M writes image

namespace WriteBehind

/-- No rename puts an older snapshot over a newer one. -/
def InOrder (s : WriteBehind State File Image) : WriteLabel Label → Prop
  | .renamed i =>
    match s.jobs[i]? with
    | some (f, .snapshot _ order _) => s.onDisk f < order
    | _ => True
  | _ => True

instance (s : WriteBehind State File Image) (l : WriteLabel Label) : Decidable (s.InOrder l) := by
  unfold InOrder
  split
  · split <;> infer_instance
  · infer_instance

/-- No job of the file is outstanding. -/
def Settled (s : WriteBehind State File Image) (f : File) : Prop := ∀ job ∈ s.jobs, job.1 ≠ f

omit [DecidableEq File] in
theorem Settled.of_nil {s : WriteBehind State File Image} (h : s.jobs = []) (f : File) :
    s.Settled f := by
  simp [Settled, h]

/-- **The invariant of a file.** Its newest image is still to be taken, is held by the
job with the newest snapshot, or is on disk. -/
structure FileInv (image : State → File → Image) (f : File)
    (s : WriteBehind State File Image) : Prop where
  le_taken : ∀ content order w, (f, .snapshot content order w) ∈ s.jobs → order ≤ s.taken f
  agree : ∀ content content' order w w', (f, .snapshot content order w) ∈ s.jobs →
    (f, .snapshot content' order w') ∈ s.jobs → content = content'
  covered : (f, .making) ∈ s.jobs ∨
    (∃ w, (f, .snapshot (image s.memory f) (s.taken f) w) ∈ s.jobs) ∨
    s.disk f = image s.memory f ∧ s.onDisk f = s.taken f

variable {M : Machine State Label Out} {writes : Out → List File} {image : State → File → Image}

/-- A job other than the one at `i` stays when that one is replaced. -/
theorem mem_set_of_ne {α : Type*} {xs : List α} {i : ℕ} {x y v : α} (h_at : xs[i]? = some x)
    (h_mem : y ∈ xs) (h_ne : y ≠ x) : y ∈ xs.set i v := by
  obtain ⟨j, h_j⟩ := List.mem_iff_getElem?.mp h_mem
  have h_ij : i ≠ j := by
    rintro rfl
    exact h_ne (Option.some.inj (h_j.symm.trans h_at))
  exact List.mem_iff_getElem?.mpr ⟨j, by rw [List.getElem?_set_ne h_ij, h_j]⟩

theorem mem_eraseIdx_of_ne {α : Type*} {xs : List α} {i : ℕ} {x y : α} (h_at : xs[i]? = some x)
    (h_mem : y ∈ xs) (h_ne : y ≠ x) : y ∈ xs.eraseIdx i := by
  obtain ⟨j, h_j⟩ := List.mem_iff_getElem?.mp h_mem
  have h_ij : j ≠ i := by
    rintro rfl
    exact h_ne (Option.some.inj (h_j.symm.trans h_at))
  exact List.mem_eraseIdx_iff_getElem?.mpr ⟨j, h_ij, h_j⟩

theorem FileInv.step
    (h_dirty : ∀ s l s' o f, M.step s l = some (s', o) → image s' f ≠ image s f → f ∈ writes o)
    {f : File} {s s' : WriteBehind State File Image} {l : WriteLabel Label} {o : Option Out}
    (hi : FileInv image f s) (h_ok : s.InOrder l)
    (hs : WriteBehind.step M writes image s l = some (s', o)) : FileInv image f s' := by
  cases l with
  | run l =>
    obtain ⟨⟨memory, o⟩, h_step, h_eq⟩ := Option.map_eq_some_iff.mp hs
    obtain ⟨rfl, -⟩ := Prod.mk.inj h_eq
    have h_snapshot : ∀ content order w,
        (f, WriteJob.snapshot content order w) ∈ s.jobs ++ (writes o).map (·, .making) →
        (f, WriteJob.snapshot content order w) ∈ s.jobs := by
      intro content order w h_mem
      simpa using h_mem
    refine ⟨fun content order w h => hi.le_taken content order w (h_snapshot _ _ _ h),
      fun content content' order w w' h h' => hi.agree content content' order w w'
        (h_snapshot _ _ _ h) (h_snapshot _ _ _ h'), ?_⟩
    by_cases h_same : image memory f = image s.memory f
    · rcases hi.covered with h | ⟨w, h⟩ | h
      · exact .inl (List.mem_append_left _ h)
      · exact .inr (.inl ⟨w, List.mem_append_left _ (h_same ▸ h)⟩)
      · exact .inr (.inr (h_same ▸ h))
    · exact .inl (List.mem_append_right _
        (List.mem_map.mpr ⟨f, h_dirty _ _ _ _ f h_step h_same, rfl⟩))
  | made i =>
    simp only [WriteBehind.step] at hs
    split at hs
    case h_2 => exact absurd hs (by simp)
    case h_1 g h_at =>
    obtain ⟨rfl, -⟩ := Prod.mk.inj (Option.some.inj hs)
    have h_mem : ∀ content order w,
        (f, WriteJob.snapshot content order w) ∈
          s.jobs.set i (g, .snapshot (image s.memory g) (s.taken g + 1) false) →
        (f, WriteJob.snapshot content order w) ∈ s.jobs ∨
          f = g ∧ content = image s.memory f ∧ order = s.taken f + 1 := by
      intro content order w h
      rcases List.mem_or_eq_of_mem_set h with h | h
      · exact .inl h
      · obtain ⟨rfl, rfl, rfl, -⟩ : f = g ∧ content = image s.memory g ∧
            order = s.taken g + 1 ∧ w = false := by simpa using h
        exact .inr ⟨rfl, rfl, rfl⟩
    by_cases h_file : f = g
    · subst h_file
      refine ⟨fun content order w h => ?_, fun content content' order w w' h h' => ?_, ?_⟩
      · simp only [Function.update_self]
        rcases h_mem _ _ _ h with h | ⟨-, -, rfl⟩
        · exact Nat.le_succ_of_le (hi.le_taken content order w h)
        · exact Nat.le_refl _
      · rcases h_mem _ _ _ h with h | ⟨-, rfl, rfl⟩ <;>
          rcases h_mem _ _ _ h' with h' | ⟨-, rfl, h_order⟩
        · exact hi.agree _ _ order w w' h h'
        · have := hi.le_taken _ _ _ h
          omega
        · have := hi.le_taken _ _ _ h'
          omega
        · rfl
      · refine .inr (.inl ⟨false, ?_⟩)
        simp only [Function.update_self]
        exact List.mem_set (List.getElem?_eq_some_iff.mp h_at).1 _
    · refine ⟨fun content order w h => ?_, fun content content' order w w' h h' => ?_, ?_⟩
      · simp only [Function.update_of_ne h_file]
        exact hi.le_taken content order w ((h_mem _ _ _ h).resolve_right fun h => h_file h.1)
      · exact hi.agree _ _ order w w' ((h_mem _ _ _ h).resolve_right fun h => h_file h.1)
          ((h_mem _ _ _ h').resolve_right fun h => h_file h.1)
      · simp only [Function.update_of_ne h_file]
        rcases hi.covered with h | ⟨w, h⟩ | h
        · exact .inl (mem_set_of_ne h_at h (by simp [h_file]))
        · exact .inr (.inl ⟨w, mem_set_of_ne h_at h (by simp)⟩)
        · exact .inr (.inr h)
  | written i =>
    simp only [WriteBehind.step] at hs
    split at hs
    case h_2 => exact absurd hs (by simp)
    case h_1 g content₀ order₀ h_at =>
    obtain ⟨rfl, -⟩ := Prod.mk.inj (Option.some.inj hs)
    have h_job := List.mem_of_getElem? h_at
    -- every snapshot was there before, up to whether it is written
    have h_mem : ∀ content order w,
        (f, WriteJob.snapshot content order w) ∈ s.jobs.set i (g, .snapshot content₀ order₀ true) →
        ∃ w, (f, WriteJob.snapshot content order w) ∈ s.jobs := by
      intro content order w h
      rcases List.mem_or_eq_of_mem_set h with h | h
      · exact ⟨w, h⟩
      · obtain ⟨rfl, rfl, rfl, -⟩ : f = g ∧ content = content₀ ∧ order = order₀ ∧ w = true := by
          simpa using h
        exact ⟨false, h_job⟩
    refine ⟨fun content order w h => ?_, fun content content' order w w' h h' => ?_, ?_⟩
    · obtain ⟨w, h⟩ := h_mem _ _ _ h
      exact hi.le_taken content order w h
    · obtain ⟨w, h⟩ := h_mem _ _ _ h
      obtain ⟨w', h'⟩ := h_mem _ _ _ h'
      exact hi.agree _ _ order w w' h h'
    · rcases hi.covered with h | ⟨w, h⟩ | h
      · exact .inl (mem_set_of_ne h_at h (by simp))
      · by_cases h_eq : (f, WriteJob.snapshot (image s.memory f) (s.taken f) w) =
            (g, .snapshot content₀ order₀ false)
        · obtain ⟨rfl, rfl, rfl, -⟩ : f = g ∧ image s.memory f = content₀ ∧
              s.taken f = order₀ ∧ w = false := by simpa using h_eq
          exact .inr (.inl ⟨true, List.mem_set (List.getElem?_eq_some_iff.mp h_at).1 _⟩)
        · exact .inr (.inl ⟨w, mem_set_of_ne h_at h h_eq⟩)
      · exact .inr (.inr h)
  | renamed i =>
    simp only [InOrder] at h_ok
    simp only [WriteBehind.step] at hs
    split at hs
    case h_2 => exact absurd hs (by simp)
    case h_1 g content₀ order₀ h_at =>
    obtain ⟨rfl, -⟩ := Prod.mk.inj (Option.some.inj hs)
    rw [h_at] at h_ok
    have h_job := List.mem_of_getElem? h_at
    have h_mem : ∀ job, job ∈ s.jobs.eraseIdx i → job ∈ s.jobs :=
      fun job h => (List.eraseIdx_sublist _ _).mem h
    refine ⟨fun content order w h => hi.le_taken content order w (h_mem _ h),
      fun content content' order w w' h h' => hi.agree _ _ order w w' (h_mem _ h) (h_mem _ h'), ?_⟩
    rcases hi.covered with h | ⟨w, h⟩ | ⟨h_disk, h_on⟩
    · exact .inl (mem_eraseIdx_of_ne h_at h (by simp))
    · by_cases h_eq : (f, WriteJob.snapshot (image s.memory f) (s.taken f) w) =
          (g, .snapshot content₀ order₀ true)
      · obtain ⟨rfl, rfl, rfl, -⟩ : f = g ∧ image s.memory f = content₀ ∧
            s.taken f = order₀ ∧ w = true := by simpa using h_eq
        exact .inr (.inr ⟨Function.update_self .., Function.update_self ..⟩)
      · exact .inr (.inl ⟨w, mem_eraseIdx_of_ne h_at h h_eq⟩)
    · by_cases h_file : f = g
      -- the newest snapshot is on disk, so that every other one is older
      · subst h_file
        have h_le := hi.le_taken _ _ _ h_job
        omega
      · refine .inr (.inr ?_)
        simp only [Function.update_of_ne h_file]
        exact ⟨h_disk, h_on⟩

/-- **Disk and memory agree.** In a run whose renames are in order, a file without
outstanding jobs holds the image of the memory. -/
theorem disk_eq_image
    (h_dirty : ∀ s l s' o f, M.step s l = some (s', o) → image s' f ≠ image s f → f ∈ writes o)
    {tr : List (WriteLabel Label × Option Out)} {s : WriteBehind State File Image}
    (h : (writeBehind M writes image).RunWhen InOrder tr s) {f : File} (h_settled : s.Settled f) :
    s.disk f = image s.memory f := by
  have hi : FileInv image f s := by
    refine h.invariant (P := FileInv image f) ⟨?_, ?_, ?_⟩
      fun s l s' o hi h_ok hs => hi.step h_dirty h_ok hs
    · simp [writeBehind]
    · simp [writeBehind]
    · exact .inr (.inr ⟨rfl, rfl⟩)
  rcases hi.covered with h | ⟨w, h⟩ | h
  · exact absurd rfl (h_settled _ h)
  · exact absurd rfl (h_settled _ h)
  · exact h.1

/-- **A write on its own.** The job that was started last can be run to its end, and then the
file holds the image of the memory. -/
theorem exists_write
    {W : Machine (WriteBehind State File Image) (WriteLabel Label) (Option Out)}
    (hW : W.step = WriteBehind.step M writes image) (s : WriteBehind State File Image)
    {jobs : List (File × WriteJob Image)} {f : File} (h : s.jobs = jobs ++ [(f, .making)]) :
    ∃ tr s', W.Steps (fun _ _ => True) s tr s' ∧ s'.memory = s.memory ∧
      s'.disk f = image s.memory f := by
  have h_at : ∀ job, (jobs ++ [(f, job)])[jobs.length]? = some (f, job) := fun job => by simp
  have h_set : ∀ job job' : WriteJob Image,
      (jobs ++ [(f, job)]).set jobs.length (f, job') = jobs ++ [(f, job')] := by
    intro job job'
    simp
  let content := image s.memory f
  let order := s.taken f + 1
  let s₁ : WriteBehind State File Image :=
    { s with jobs := jobs ++ [(f, .snapshot content order false)]
             taken := Function.update s.taken f order }
  let s₂ : WriteBehind State File Image :=
    { s₁ with jobs := jobs ++ [(f, .snapshot content order true)] }
  have h_made : W.step s (.made jobs.length) = some (s₁, none) := by
    rw [hW, WriteBehind.step, h, h_at]
    dsimp only
    rw [h_set]
  have h_written : W.step s₁ (.written jobs.length) = some (s₂, none) := by
    rw [hW, WriteBehind.step, h_at]
    dsimp only
    rw [h_set]
  have h_renamed : ∃ s₃, W.step s₂ (.renamed jobs.length) = some (s₃, none) ∧
      s₃.memory = s.memory ∧ s₃.disk f = content := by
    rw [hW, WriteBehind.step, h_at]
    exact ⟨_, rfl, rfl, Function.update_self f content s.disk⟩
  obtain ⟨s₃, h_step, h_memory, h_disk⟩ := h_renamed
  exact ⟨_, s₃, .snoc (.snoc (.snoc (.nil s) trivial h_made) trivial h_written) trivial h_step,
    h_memory, h_disk⟩

end WriteBehind
end Framework
