import Announcer.SubBatch
/-!
# Sub-batches

Cutting a list of configs loses none and keeps their order. The cut is greedy: a
run is closed only when the next config does not fit, and whoever comes first is
in the first run. So what fits into one event is cut at most once, wherever it
stands in the list, and not at all if it fits together with all that comes
before it.

Results: `flatten_subBatches`, `subBatches_span` and `subBatches_prefix`.
-/
namespace Announcer

/-! ## Sizes -/

theorem totalSize_sublist {l l' : List Config} (h : l.Sublist l') :
    totalSize l ≤ totalSize l' := by
  induction h with
  | slnil => exact Nat.le_refl _
  | cons c _ ih => exact Nat.le_trans ih (Nat.le_add_left _ _)
  | cons_cons c _ ih => exact Nat.add_le_add_left ih _

theorem totalSize_perm {l l' : List Config} (h : l.Perm l') : totalSize l = totalSize l' := by
  induction h with
  | nil => rfl
  | cons c _ ih => rw [totalSize, totalSize, ih]
  | swap c d l => simp only [totalSize]; omega
  | trans _ _ ih ih' => exact ih.trans ih'

/-- A config of `n` bytes. -/
def Config.ofSize (n : Nat) : Config := ⟨String.ofList (List.replicate n 'x')⟩

theorem Config.size_ofSize (n : Nat) : (Config.ofSize n).size = n := by
  unfold size ofSize
  induction n with
  | zero => rfl
  | succ n ih =>
    rw [List.replicate_succ, String.ofList_cons, String.utf8ByteSize_append, ih, Nat.add_comm]
    rfl

namespace SubBatch

variable {maxCount : Option Nat} {maxBytes : Nat}

theorem flatten_cut (maxCount : Option Nat) (maxBytes : Nat) (run : List Config)
    (count bytes : Nat) (rest : List Config) :
    (cut maxCount maxBytes run count bytes rest).flatten = run.reverse ++ rest := by
  induction rest generalizing run count bytes with
  | nil => simp [cut]
  | cons c rest ih =>
    unfold cut
    split
    · rw [List.flatten_cons, ih]
      rfl
    · rw [ih]
      simp

/-! ## What fits -/

/-- So many configs with so many bytes can travel in one event. -/
structure Room (maxCount : Option Nat) (maxBytes count bytes : Nat) : Prop where
  count : ∀ max ∈ maxCount, count ≤ max
  bytes : bytes ≤ maxBytes

/-- These configs can travel in one event. -/
def Fits (maxCount : Option Nat) (maxBytes : Nat) (configs : List Config) : Prop :=
  Room maxCount maxBytes configs.length (totalSize configs)

theorem Room.mono {count bytes count' bytes' : Nat} (h : Room maxCount maxBytes count bytes)
    (hc : count' ≤ count) (hb : bytes' ≤ bytes) : Room maxCount maxBytes count' bytes' where
  count max hmax := Nat.le_trans hc (h.count max hmax)
  bytes := Nat.le_trans hb h.bytes

theorem Fits.tail {c : Config} {configs : List Config}
    (h : Fits maxCount maxBytes (c :: configs)) : Fits maxCount maxBytes configs := by
  refine h.mono ?_ ?_
  · rw [List.length_cons]
    omega
  · rw [totalSize]
    omega

theorem Fits.reverse {configs : List Config} (h : Fits maxCount maxBytes configs) :
    Fits maxCount maxBytes configs.reverse := by
  rw [Fits, List.length_reverse, totalSize_perm configs.reverse_perm]
  exact h

/-- There is room behind the first of some configs for the others. -/
theorem Fits.room {c : Config} {configs : List Config}
    (h : Fits maxCount maxBytes (c :: configs)) :
    Room maxCount maxBytes (1 + configs.length) (c.size + totalSize configs) := by
  rw [Fits, List.length_cons, Nat.add_comm, totalSize] at h
  exact h

theorem full_eq_false_iff {count bytes : Nat} {c : Config} :
    full maxCount maxBytes count bytes c = false ↔
      Room maxCount maxBytes (count + 1) (bytes + c.size) := by
  constructor
  · intro h
    simp only [full, Bool.or_eq_false_iff, decide_eq_false_iff_not, Nat.not_lt] at h
    refine ⟨fun max hmax => ?_, h.2⟩
    have hcount := h.1
    rw [Option.mem_def.mp hmax] at hcount
    simp only [Option.any_some, decide_eq_false_iff_not] at hcount
    omega
  · intro h
    have hbytes := h.bytes
    rw [full, Bool.or_eq_false_iff]
    constructor
    · cases maxCount with
      | none => rfl
      | some max =>
        have hcount := h.count max rfl
        simp only [Option.any_some, decide_eq_false_iff_not]
        omega
    · simp only [decide_eq_false_iff_not]
      omega

/-- An open run that fits is closed before it does not. -/
theorem fits_of_mem_cut {taken rest run : List Config}
    (halone : ∀ c ∈ rest, Fits maxCount maxBytes [c]) (htaken : Fits maxCount maxBytes taken)
    (h : run ∈ cut maxCount maxBytes taken taken.length (totalSize taken) rest) :
    Fits maxCount maxBytes run := by
  induction rest generalizing taken with
  | nil =>
    rw [cut, List.mem_singleton] at h
    rw [h]
    exact htaken.reverse
  | cons c rest ih =>
    obtain ⟨hc, hrest⟩ := List.forall_mem_cons.mp halone
    rw [cut] at h
    split at h
    · rcases List.mem_cons.mp h with rfl | h
      · exact htaken.reverse
      · exact ih hrest hc h
    · next hfull =>
      have hroom : Fits maxCount maxBytes (c :: taken) := by
        have := full_eq_false_iff.mp (Bool.eq_false_iff.mpr hfull)
        rwa [Nat.add_comm (totalSize taken)] at this
      rw [Nat.add_comm (totalSize taken)] at h
      exact ih hrest hroom h

/-! ## Where the cuts are -/

/-- An open run takes what there is room for. -/
theorem cut_append_of_room {run pre : List Config} {count bytes : Nat} (rest : List Config)
    (h : Room maxCount maxBytes (count + pre.length) (bytes + totalSize pre)) :
    cut maxCount maxBytes run count bytes (pre ++ rest) =
      cut maxCount maxBytes (pre.reverse ++ run) (count + pre.length) (bytes + totalSize pre)
        rest := by
  induction pre generalizing run count bytes with
  | nil => rfl
  | cons c pre ih =>
    have hlength : count + (c :: pre).length = count + 1 + pre.length := by
      rw [List.length_cons]
      omega
    have hsize : bytes + totalSize (c :: pre) = bytes + c.size + totalSize pre := by
      rw [totalSize]
      omega
    rw [hlength, hsize] at h ⊢
    have hroom : full maxCount maxBytes count bytes c = false :=
      full_eq_false_iff.mpr (h.mono (by omega) (by omega))
    rw [List.cons_append, cut, hroom, if_neg Bool.false_ne_true, ih h]
    simp

/-- The open run is the beginning of the first sub-batch. -/
theorem cut_eq_cons (maxCount : Option Nat) (maxBytes : Nat) (run : List Config)
    (count bytes : Nat) (rest : List Config) :
    ∃ more later, cut maxCount maxBytes run count bytes rest = (run.reverse ++ more) :: later := by
  induction rest generalizing run count bytes with
  | nil => exact ⟨[], [], by simp [cut]⟩
  | cons c rest ih =>
    unfold cut
    split
    · exact ⟨[], _, by rw [List.append_nil]⟩
    · obtain ⟨more, later, h⟩ := ih (c :: run) (count + 1) (bytes + c.size)
      exact ⟨c :: more, later, by simp [h]⟩

/-- Behind the first configs, some sub-batches are closed and one is open. -/
theorem cut_append (maxCount : Option Nat) (maxBytes : Nat) (run : List Config)
    (count bytes : Nat) (pre rest : List Config) :
    ∃ closed run' count' bytes',
      cut maxCount maxBytes run count bytes (pre ++ rest) =
        closed ++ cut maxCount maxBytes run' count' bytes' rest ∧
      closed.flatten ++ run'.reverse = run.reverse ++ pre := by
  induction pre generalizing run count bytes with
  | nil => exact ⟨[], run, count, bytes, rfl, by simp⟩
  | cons c pre ih =>
    rw [List.cons_append, cut]
    split
    · obtain ⟨closed, run', count', bytes', hcut, hflat⟩ := ih [c] 1 c.size
      exact ⟨run.reverse :: closed, run', count', bytes', by rw [hcut, List.cons_append],
        by simp [hflat]⟩
    · obtain ⟨closed, run', count', bytes', hcut, hflat⟩ :=
        ih (c :: run) (count + 1) (bytes + c.size)
      exact ⟨closed, run', count', bytes', hcut, by simp [hflat]⟩

/-- What fits into one event is cut at most once. -/
theorem cut_span (run : List Config) (count bytes : Nat) {span : List Config}
    (h : Fits maxCount maxBytes span) (rest : List Config) :
    ∃ near later, cut maxCount maxBytes run count bytes (span ++ rest) = near ++ later ∧
      near.length ≤ 2 ∧ run.reverse ++ span <+: near.flatten := by
  induction span generalizing run count bytes with
  | nil =>
    obtain ⟨more, later, hcut⟩ := cut_eq_cons maxCount maxBytes run count bytes rest
    exact ⟨[run.reverse ++ more], later, hcut, by simp, by simp⟩
  | cons c span ih =>
    rw [List.cons_append, cut]
    split
    · -- all of the span is in the next sub-batch
      rw [cut_append_of_room rest h.room]
      obtain ⟨more, later, hcut⟩ := cut_eq_cons maxCount maxBytes (span.reverse ++ [c])
        (1 + span.length) (c.size + totalSize span) rest
      refine ⟨[run.reverse, c :: span ++ more], later, ?_, by simp, by simp⟩
      rw [hcut]
      simp
    · obtain ⟨near, later, hcut, hlength, hprefix⟩ :=
        ih (c :: run) (count + 1) (bytes + c.size) h.tail
      exact ⟨near, later, hcut, hlength, by simpa using hprefix⟩

end SubBatch

open SubBatch (Fits)

variable {maxCount : Option Nat} {maxBytes : Nat}

/-- When every config fits alone, so does every sub-batch. -/
theorem fits_of_mem_subBatches {configs run : List Config}
    (halone : ∀ c ∈ configs, Fits maxCount maxBytes [c])
    (h : run ∈ subBatches maxCount maxBytes configs) : Fits maxCount maxBytes run := by
  cases configs with
  | nil => cases h
  | cons c rest =>
    exact SubBatch.fits_of_mem_cut (fun d hd => halone d (List.mem_cons_of_mem c hd))
      (halone c List.mem_cons_self) h

/-- What fits as a whole is not cut. -/
theorem subBatches_of_fits {configs : List Config} (hne : configs ≠ [])
    (h : Fits maxCount maxBytes configs) : subBatches maxCount maxBytes configs = [configs] := by
  obtain ⟨c, rest, rfl⟩ := List.exists_cons_of_ne_nil hne
  have hcut : SubBatch.cut maxCount maxBytes [c] 1 c.size (rest ++ []) = _ :=
    SubBatch.cut_append_of_room [] h.room
  rw [List.append_nil] at hcut
  rw [subBatches, hcut, SubBatch.cut]
  simp

theorem flatten_subBatches (maxCount : Option Nat) (maxBytes : Nat) (configs : List Config) :
    (subBatches maxCount maxBytes configs).flatten = configs := by
  cases configs with
  | nil => rfl
  | cons c rest => exact SubBatch.flatten_cut maxCount maxBytes [c] 1 c.size rest

theorem subBatches_eq_nil {maxCount : Option Nat} {maxBytes : Nat} {configs : List Config}
    (h : subBatches maxCount maxBytes configs = []) : configs = [] := by
  rw [← flatten_subBatches maxCount maxBytes configs, h, List.flatten_nil]

/-- What fits, from the first config on, is in the first sub-batch. -/
theorem subBatches_prefix {pre : List Config} (h : Fits maxCount maxBytes pre)
    (rest : List Config) :
    ∃ near later, subBatches maxCount maxBytes (pre ++ rest) = near ++ later ∧
      near.length ≤ 1 ∧ pre <+: near.flatten := by
  cases pre with
  | nil => exact ⟨[], _, rfl, by simp, List.nil_prefix⟩
  | cons c pre =>
    rw [List.cons_append, subBatches, SubBatch.cut_append_of_room rest h.room]
    obtain ⟨more, later, hcut⟩ := SubBatch.cut_eq_cons maxCount maxBytes (pre.reverse ++ [c])
      (1 + pre.length) (c.size + totalSize pre) rest
    exact ⟨[c :: pre ++ more], later, by rw [hcut]; simp, by simp, by simp⟩

/-- What fits, wherever it stands, is in two sub-batches at most. -/
theorem subBatches_span (before : List Config) {span : List Config}
    (h : Fits maxCount maxBytes span) (after : List Config) :
    ∃ earlier near later,
      subBatches maxCount maxBytes (before ++ span ++ after) = earlier ++ near ++ later ∧
      near.length ≤ 2 ∧ earlier.flatten <+: before ∧
      before ++ span <+: earlier.flatten ++ near.flatten := by
  cases before with
  | nil =>
    obtain ⟨near, later, hcut, hlength, hprefix⟩ := subBatches_prefix h after
    exact ⟨[], near, later, hcut, by omega, List.nil_prefix, hprefix⟩
  | cons c before =>
    obtain ⟨closed, run, count, bytes, hcut, hflat⟩ :=
      SubBatch.cut_append maxCount maxBytes [c] 1 c.size before (span ++ after)
    obtain ⟨near, later, hnear, hlength, hprefix⟩ := SubBatch.cut_span run count bytes h after
    have hbefore : c :: before = closed.flatten ++ run.reverse := hflat.symm
    refine ⟨closed, near, later, ?_, hlength, ⟨run.reverse, hflat⟩, ?_⟩
    · rw [List.append_assoc, List.cons_append, subBatches, hcut, hnear, List.append_assoc]
    · rw [hbefore, List.append_assoc]
      exact (List.prefix_append_right_inj _).mpr hprefix

end Announcer
