import Mathlib.Data.List.Sort
import PyKvCache.Library.IntervalCover

/-!
# The time covered by a job's samples

`_merged_duration_ns` sorts the intervals of the samples and sweeps over them
with a running total and one open interval.  The total is the number of
nanoseconds that lie in at least one sample.
-/

namespace PyKvCache.Transfer

open PyKvCache.Library

/-- `Sample`: a start, a duration, a number of bytes and the index of a file.
-/
structure Sample where
  startNs : Int
  durationNs : Int
  nbytes : Int
  fileIndex : Int
deriving DecidableEq, Repr

/-- The half-open interval `[start, start + duration)` of a sample. -/
def Sample.interval (sample : Sample) : Int × Int :=
  (sample.startNs, sample.startNs + sample.durationNs)

/-- The order of Python's tuples of two integers. -/
def tupleLe (first second : Int × Int) : Bool :=
  first.1 < second.1 ||
    (first.1 == second.1 && first.2 ≤ second.2)

/-- The loop of `_merged_duration_ns` over the intervals that are left, with
the running total and the open interval. -/
def mergeIntervals (total mergedStart mergedEnd : Int) :
    List (Int × Int) → Int
  | [] => total + (mergedEnd - mergedStart)
  | (startNs, endNs) :: rest =>
      if startNs ≤ mergedEnd then
        mergeIntervals total mergedStart (max mergedEnd endNs) rest
      else
        mergeIntervals (total + (mergedEnd - mergedStart))
          startNs endNs rest

/-- `sorted(...)` of the samples with a positive duration. -/
def sampleIntervals (samples : List Sample) : List (Int × Int) :=
  ((samples.filter fun sample => sample.durationNs > 0).map
    Sample.interval).mergeSort tupleLe

/-- `_merged_duration_ns`. -/
def mergedDurationNs (samples : List Sample) : Int :=
  match sampleIntervals samples with
  | [] => 0
  | (mergedStart, mergedEnd) :: rest =>
      mergeIntervals 0 mergedStart mergedEnd rest

/-! ## The sorted intervals -/

theorem tupleLe_trans (first second third : Int × Int)
    (left : tupleLe first second = true)
    (right : tupleLe second third = true) :
    tupleLe first third = true := by
  simp only [tupleLe, Bool.or_eq_true, Bool.and_eq_true,
    decide_eq_true_eq, beq_iff_eq] at left right ⊢
  omega

theorem tupleLe_total (first second : Int × Int) :
    (tupleLe first second || tupleLe second first) = true := by
  simp only [tupleLe, Bool.or_eq_true, Bool.and_eq_true,
    decide_eq_true_eq, beq_iff_eq]
  omega

theorem mem_sampleIntervals
    {samples : List Sample} {interval : Int × Int} :
    interval ∈ sampleIntervals samples ↔
      ∃ sample ∈ samples,
        0 < sample.durationNs ∧ sample.interval = interval := by
  rw [sampleIntervals, List.mem_mergeSort]
  simp [and_assoc]

theorem inhabited_of_mem_sampleIntervals
    {samples : List Sample} {interval : Int × Int}
    (member : interval ∈ sampleIntervals samples) :
    interval.1 < interval.2 := by
  obtain ⟨sample, _, positive, same⟩ := mem_sampleIntervals.mp member
  rw [← same]
  simp only [Sample.interval]
  omega

/-- The sweep meets the intervals in the order of their starts. -/
theorem sampleIntervals_sorted (samples : List Sample) :
    (sampleIntervals samples).Pairwise fun earlier later =>
      earlier.1 ≤ later.1 := by
  have sorted := List.pairwise_mergeSort tupleLe_trans tupleLe_total
    ((samples.filter fun sample => sample.durationNs > 0).map
      Sample.interval)
  apply sorted.imp
  intro earlier later ordered
  simp only [tupleLe, Bool.or_eq_true, Bool.and_eq_true,
    decide_eq_true_eq, beq_iff_eq] at ordered
  omega

/-! ## The sweep -/

/-- What is still to be added to the total is the measure of the open interval
together with the intervals that are left. -/
theorem mergeIntervals_eq_card
    (total mergedStart mergedEnd : Int) (rest : List (Int × Int))
    (opened : mergedStart < mergedEnd)
    (inhabited : ∀ interval ∈ rest, interval.1 < interval.2)
    (sorted :
      ((mergedStart, mergedEnd) :: rest).Pairwise fun earlier later =>
        earlier.1 ≤ later.1) :
    mergeIntervals total mergedStart mergedEnd rest =
      total + (covered ((mergedStart, mergedEnd) :: rest)).card := by
  induction rest generalizing total mergedStart mergedEnd with
  | nil =>
      have measure := Int.card_Ico_of_le _ _ opened.le
      simp only [mergeIntervals, covered_cons, covered_nil,
        Finset.union_empty, measure]
  | cons head tail inductionHypothesis =>
      obtain ⟨startNs, endNs⟩ := head
      have headInhabited : startNs < endNs :=
        inhabited (startNs, endNs) List.mem_cons_self
      have tailInhabited :
          ∀ interval ∈ tail, interval.1 < interval.2 :=
        fun interval member =>
          inhabited interval (List.mem_cons_of_mem _ member)
      obtain ⟨headSorted, tailSorted⟩ := List.pairwise_cons.mp sorted
      have ordered : mergedStart ≤ startNs :=
        headSorted (startNs, endNs) List.mem_cons_self
      by_cases touching : startNs ≤ mergedEnd
      · have extended :
            ((mergedStart, max mergedEnd endNs) :: tail).Pairwise
              fun earlier later => earlier.1 ≤ later.1 :=
          List.pairwise_cons.mpr
            ⟨fun later member =>
              headSorted later (List.mem_cons_of_mem _ member),
              (List.pairwise_cons.mp tailSorted).2⟩
        rw [mergeIntervals, if_pos touching,
          inductionHypothesis total mergedStart (max mergedEnd endNs)
            (lt_max_of_lt_left opened) tailInhabited extended,
          covered_cons_cons_of_le tail ordered headInhabited touching]
      · have behind :
            ∀ interval ∈ (startNs, endNs) :: tail,
              mergedEnd ≤ interval.1 := by
          intro interval member
          rcases List.mem_cons.mp member with same | later
          · subst interval
            exact (not_le.mp touching).le
          · have afterHead :=
              (List.pairwise_cons.mp tailSorted).1 interval later
            exact (not_le.mp touching).le.trans afterHead
        have closed :
            (covered ((mergedStart, mergedEnd) ::
              (startNs, endNs) :: tail)).card =
              (Finset.Ico mergedStart mergedEnd).card +
                (covered ((startNs, endNs) :: tail)).card :=
          card_covered_cons_of_le behind
        have measure := Int.card_Ico_of_le _ _ opened.le
        rw [mergeIntervals, if_neg touching,
          inductionHypothesis (total + (mergedEnd - mergedStart))
            startNs endNs headInhabited tailInhabited tailSorted,
          closed, Nat.cast_add, measure]
        omega

/-! ## The result -/

/-- The nanoseconds that lie in the interval of at least one sample. -/
def busyNanoseconds (samples : List Sample) : Finset Int :=
  covered (samples.map Sample.interval)

theorem mem_busyNanoseconds
    {samples : List Sample} {instant : Int} :
    instant ∈ busyNanoseconds samples ↔
      ∃ sample ∈ samples,
        sample.startNs ≤ instant ∧
          instant < sample.startNs + sample.durationNs := by
  simp [busyNanoseconds, mem_covered, Sample.interval]

/-- Samples without a positive duration cover nothing. -/
theorem covered_sampleIntervals (samples : List Sample) :
    covered (sampleIntervals samples) = busyNanoseconds samples := by
  ext instant
  rw [mem_covered, mem_busyNanoseconds]
  constructor
  · intro covers
    obtain ⟨interval, member, started, running⟩ := covers
    obtain ⟨sample, present, _, same⟩ := mem_sampleIntervals.mp member
    subst interval
    exact ⟨sample, present, started, running⟩
  · intro covers
    obtain ⟨sample, present, started, running⟩ := covers
    have positive : 0 < sample.durationNs := by omega
    have member : sample.interval ∈ sampleIntervals samples :=
      mem_sampleIntervals.mpr ⟨sample, present, positive, rfl⟩
    exact ⟨sample.interval, member, started, running⟩

/-- The merged duration of any samples is the number of nanoseconds that at
least one of them covers. -/
theorem mergedDurationNs_eq_card (samples : List Sample) :
    mergedDurationNs samples = (busyNanoseconds samples).card := by
  have inhabited :
      ∀ interval ∈ sampleIntervals samples,
        interval.1 < interval.2 :=
    fun _ member => inhabited_of_mem_sampleIntervals member
  have sorted := sampleIntervals_sorted samples
  rw [← covered_sampleIntervals, mergedDurationNs]
  generalize sampleIntervals samples = intervals at inhabited sorted ⊢
  cases intervals with
  | nil => simp
  | cons head rest =>
      have opened := inhabited head List.mem_cons_self
      have swept := mergeIntervals_eq_card 0 head.1 head.2 rest opened
        (fun interval member =>
          inhabited interval (List.mem_cons_of_mem _ member)) sorted
      simpa using swept

end PyKvCache.Transfer
