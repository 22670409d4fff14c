import PyKvCache.Transfer.BlockMapping

/-!
# Which sub-block of which file each block id of a load is paired with

A load of `file_count` files starts at sub-block `first_block_index % factor`
of file zero.  Reading the files one after the other, block id `j` belongs at
logical position `first_block_index % factor + j`.

The chunk split knows where the first file starts.  The mapping of a chunk
only knows its length and always takes the last sub-blocks of the slot, so a
chunk that ends before its file does is paired with the wrong sub-blocks.
-/

namespace PyKvCache.Transfer

/-- One pair of a load: file number, sub-block of that file, GPU block id. -/
abbrev LoadPair := Nat × Int × Int

/-- The pairs of the files from number `file` on, each mapped from the slot it
was read into. -/
def loadFilePairs (layout : ParsedKvLayout) (slots : Nat → Int) :
    Nat → List (List Int) → Except TransferError (List LoadPair)
  | _, [] => pure []
  | file, chunk :: later => do
      let mapping ← loadMapping layout (slots file) chunk
      let others ← loadFilePairs layout slots (file + 1) later
      return (mapping.map fun row =>
        (file, row.1 - slots file * layout.storageBlockSizeFactor, row.2)) ++
          others

/-- All pairs of a load: `split_block_ids_for_files`, then one
`build_block_mapping` for each file. -/
def loadPairs (layout : ParsedKvLayout) (slots : Nat → Int)
    (blockIds : List Int) (fileCount : Nat) (firstBlockIndex : Int) :
    Except TransferError (List LoadPair) := do
  let chunks ←
    splitBlockIdsForFiles layout blockIds fileCount firstBlockIndex
  loadFilePairs layout slots 0 chunks

/-- Where the ids belong, counting sub-blocks through the files from
`position` on. -/
def logicalPairs (factor : Nat) : Nat → List Int → List LoadPair
  | _, [] => []
  | position, blockId :: later =>
      (position / factor, ((position % factor : Nat) : Int), blockId) ::
        logicalPairs factor (position + 1) later

/-- Either the load is refused, or every block id is paired once, with the
sub-block it belongs to. -/
def PairedOrRejected (layout : ParsedKvLayout) (slots : Nat → Int)
    (blockIds : List Int) (fileCount : Nat) (firstBlockIndex : Int) : Prop :=
  (∃ error, loadPairs layout slots blockIds fileCount firstBlockIndex =
    .error error) ∨
  loadPairs layout slots blockIds fileCount firstBlockIndex =
    .ok (logicalPairs layout.storageBlockSizeFactor
      (firstBlockSkip layout firstBlockIndex) blockIds)

/-- The run of ids ends where its last file ends, runs past it, or leaves the
last file without any id. -/
def EndsOnFileBoundary (layout : ParsedKvLayout)
    (blockIds : List Int) (fileCount : Nat) (firstBlockIndex : Int) : Prop :=
  blockIds = [] ∨
  firstBlockSkip layout firstBlockIndex + blockIds.length ≤
    (fileCount - 1) * layout.storageBlockSizeFactor ∨
  fileCount * layout.storageBlockSizeFactor ≤
    firstBlockSkip layout firstBlockIndex + blockIds.length

section Positions

variable {factor : Nat}

@[simp]
theorem logicalPairs_nil (position : Nat) :
    logicalPairs factor position [] = [] := rfl

theorem logicalPairs_append (position : Nat) (left right : List Int) :
    logicalPairs factor position (left ++ right) =
      logicalPairs factor position left ++
        logicalPairs factor (position + left.length) right := by
  induction left generalizing position with
  | nil => simp
  | cons head tail inductionHypothesis =>
      simp only [List.cons_append, logicalPairs, inductionHypothesis,
        List.length_cons, List.cons.injEq, true_and]
      congr 2
      omega

/-- Inside one file the logical pairs walk through its sub-blocks. -/
theorem logicalPairs_within
    (file first : Nat) (slot : Int) :
    ∀ (chunk : List Int) (offset : Nat),
      first + offset + chunk.length = factor →
        logicalPairs factor (file * factor + (first + offset)) chunk =
          (((List.range' (first + offset) chunk.length).map
            fun sub : Nat => slot * factor + (sub : Int)).zip chunk).map
              fun row => (file, row.1 - slot * factor, row.2)
  | [], _, _ => by simp
  | blockId :: later, offset, ends => by
      simp only [List.length_cons] at ends
      have small : first + offset < factor := by omega
      have fileNumber :
          (file * factor + (first + offset)) / factor = file := by
        rw [Nat.mul_comm, Nat.mul_add_div (by omega),
          Nat.div_eq_of_lt small, Nat.add_zero]
      have subBlock :
          (file * factor + (first + offset)) % factor =
            first + offset := by
        rw [Nat.mul_comm, Nat.mul_add_mod, Nat.mod_eq_of_lt small]
      have later :=
        logicalPairs_within file first slot later (offset + 1) (by omega)
      simp only [logicalPairs, fileNumber, subBlock, List.length_cons,
        List.range'_succ]
      rw [show file * factor + (first + offset) + 1 =
        file * factor + (first + (offset + 1)) by omega, later]
      simp [Nat.add_assoc]

end Positions

section Files

variable {layout : ParsedKvLayout} {slots : Nat → Int}

/-- A chunk that reaches the end of its file is paired where it belongs. -/
theorem mapped_chunk_eq_logicalPairs
    {file first : Nat} {chunk : List Int} (slot : Int)
    (ends : first + chunk.length = layout.storageBlockSizeFactor) :
    ((expandBlock slot layout.storageBlockSizeFactor
        (layout.storageBlockSizeFactor - chunk.length)).zip chunk).map
      (fun row =>
        (file, row.1 - slot * layout.storageBlockSizeFactor, row.2)) =
      logicalPairs layout.storageBlockSizeFactor
        (file * layout.storageBlockSizeFactor + first) chunk := by
  have start : layout.storageBlockSizeFactor - chunk.length = first := by
    omega
  have count : layout.storageBlockSizeFactor - first = chunk.length := by
    omega
  have within :=
    logicalPairs_within file first slot chunk 0 (by simpa using ends)
  simp only [Nat.add_zero] at within
  rw [expandBlock, start, count, within]

theorem loadFilePairs_cons_of_full
    {file : Nat} (first : Nat) {chunk : List Int} {later : List (List Int)}
    (nonempty : 0 < chunk.length)
    (ends : first + chunk.length = layout.storageBlockSizeFactor) :
    loadFilePairs layout slots file (chunk :: later) =
      (loadFilePairs layout slots (file + 1) later).map
        fun others =>
          logicalPairs layout.storageBlockSizeFactor
            (file * layout.storageBlockSizeFactor + first) chunk ++
              others := by
  rw [loadFilePairs, loadMapping_of_le nonempty (by omega)]
  simp only [bind, Except.bind, mapped_chunk_eq_logicalPairs _ ends]
  cases loadFilePairs layout slots (file + 1) later <;> rfl

/-- A trailing file without ids makes the load fail. -/
theorem loadFilePairs_error_of_nil_mem
    (slots : Nat → Int) {chunks : List (List Int)}
    (bounded : ∀ chunk ∈ chunks,
      chunk.length ≤ layout.storageBlockSizeFactor)
    (member : [] ∈ chunks) (file : Nat) :
    ∃ error, loadFilePairs layout slots file chunks = .error error := by
  induction chunks generalizing file with
  | nil => cases member
  | cons chunk later inductionHypothesis =>
      rw [loadFilePairs]
      by_cases empty : chunk = []
      · subst empty
        rw [loadMapping_nil]
        exact ⟨_, rfl⟩
      · have nonempty : 0 < chunk.length :=
          List.length_pos_of_ne_nil empty
        rw [loadMapping_of_le nonempty
          (bounded chunk (List.mem_cons_self ..))]
        have memberLater : [] ∈ later := by
          rcases List.mem_cons.mp member with equal | memberLater
          · exact absurd equal.symm empty
          · exact memberLater
        obtain ⟨error, failed⟩ :=
          inductionHypothesis
            (fun chunk inLater =>
              bounded chunk (List.mem_cons_of_mem _ inLater))
            memberLater (file + 1)
        exact ⟨error, by simp [bind, Except.bind, failed]⟩

end Files

section Split

variable {blocksPerFile : Nat}

theorem splitLoop_leftover
    (files size : Nat) (blockIds : List Int) :
    (splitLoop blocksPerFile (files + 1) size blockIds).2 =
      blockIds.drop (size + files * blocksPerFile) := by
  induction files generalizing size blockIds with
  | zero => simp [splitLoop]
  | succ files inductionHypothesis =>
      rw [splitLoop]
      simp only [inductionHypothesis, List.drop_drop]
      congr 1
      rw [Nat.succ_mul]
      omega

theorem splitLoop_bounded
    {files size : Nat} {blockIds : List Int} (small : size ≤ blocksPerFile) :
    ∀ chunk ∈ (splitLoop blocksPerFile files size blockIds).1,
      chunk.length ≤ blocksPerFile := by
  induction files generalizing size blockIds with
  | zero =>
      intro chunk member
      cases member
  | succ files inductionHypothesis =>
      intro chunk member
      simp only [splitLoop, List.mem_cons] at member
      rcases member with rfl | later
      · simp only [List.length_take]
        omega
      · exact inductionHypothesis (Nat.le_refl _) chunk later

/-- Ids that give out before the last file leave that file an empty chunk. -/
theorem nil_mem_splitLoop
    {files size : Nat} {blockIds : List Int}
    (short : blockIds.length ≤ size + files * blocksPerFile) :
    [] ∈ (splitLoop blocksPerFile (files + 2) size blockIds).1 := by
  induction files generalizing size blockIds with
  | zero =>
      have nothing : blockIds.drop size = [] := by
        apply List.drop_eq_nil_of_le
        simpa using short
      simp [splitLoop, nothing]
  | succ files inductionHypothesis =>
      rw [splitLoop]
      apply List.mem_cons_of_mem
      apply inductionHypothesis
      rw [List.length_drop]
      rw [Nat.succ_mul] at short
      omega

/-- The source caps the first chunk at the number of ids; slicing caps it
anyway. -/
theorem splitLoop_min (files size : Nat) (blockIds : List Int) :
    splitLoop blocksPerFile (files + 1) (min blockIds.length size) blockIds =
      splitLoop blocksPerFile (files + 1) size blockIds := by
  have takeMin :
      blockIds.take (min blockIds.length size) = blockIds.take size := by
    rw [Nat.min_comm, ← List.take_eq_take_min]
  have dropMin :
      blockIds.drop (min blockIds.length size) = blockIds.drop size := by
    rcases Nat.le_total size blockIds.length with small | large
    · rw [Nat.min_eq_right small]
    · rw [Nat.min_eq_left large, List.drop_length,
        List.drop_eq_nil_of_le large]
  rw [splitLoop, splitLoop, takeMin, dropMin]

end Split

section Loads

variable {layout : ParsedKvLayout} {slots : Nat → Int}

/-- A run of ids that fills its files to the end is paired as it should be. -/
theorem loadFilePairs_splitLoop_of_aligned
    (slots : Nat → Int) (file : Nat) {files first : Nat} {blockIds : List Int}
    (inside : first < layout.storageBlockSizeFactor)
    (aligned :
      first + blockIds.length = (files + 1) * layout.storageBlockSizeFactor) :
    loadFilePairs layout slots file
        (splitLoop layout.storageBlockSizeFactor (files + 1)
          (layout.storageBlockSizeFactor - first) blockIds).1 =
      .ok (logicalPairs layout.storageBlockSizeFactor
        (file * layout.storageBlockSizeFactor + first) blockIds) := by
  induction files generalizing file first blockIds with
  | zero =>
      have whole :
          blockIds.take (layout.storageBlockSizeFactor - first) =
            blockIds :=
        List.take_of_length_le (by omega)
      simp only [splitLoop, whole]
      rw [loadFilePairs_cons_of_full first (by omega) (by omega)]
      simp [loadFilePairs, pure, Except.pure, Except.map]
  | succ files inductionHypothesis =>
      have more :
          layout.storageBlockSizeFactor - first ≤ blockIds.length := by
        rw [Nat.succ_mul] at aligned
        omega
      have firstLength :
          (blockIds.take (layout.storageBlockSizeFactor - first)).length =
            layout.storageBlockSizeFactor - first := by
        rw [List.length_take, Nat.min_eq_left more]
      have later :=
        @inductionHypothesis (file + 1) 0
          (blockIds.drop (layout.storageBlockSizeFactor - first))
          layout.factorPositive
          (by
            rw [List.length_drop]
            rw [Nat.succ_mul] at aligned
            omega)
      rw [Nat.sub_zero] at later
      rw [splitLoop,
        loadFilePairs_cons_of_full first (by omega) (by omega),
        later]
      have position :
          (file + 1) * layout.storageBlockSizeFactor + 0 =
            file * layout.storageBlockSizeFactor + first +
              (blockIds.take
                (layout.storageBlockSizeFactor - first)).length := by
        rw [firstLength, Nat.succ_mul]
        omega
      simp only [Except.map, position]
      rw [← logicalPairs_append, List.take_append_drop]

/-- A run of ids that ends inside its last file is accepted, and its last file
is paired with the wrong sub-blocks. -/
theorem loadFilePairs_splitLoop_of_short
    (slots : Nat → Int) (file : Nat) {files first : Nat} {blockIds : List Int}
    (inside : first < layout.storageBlockSizeFactor)
    (nonempty : 0 < blockIds.length)
    (reaches :
      files * layout.storageBlockSizeFactor < first + blockIds.length)
    (short :
      first + blockIds.length <
        (files + 1) * layout.storageBlockSizeFactor) :
    ∃ pairs,
      loadFilePairs layout slots file
          (splitLoop layout.storageBlockSizeFactor (files + 1)
            (layout.storageBlockSizeFactor - first) blockIds).1 =
        .ok pairs ∧
      pairs ≠ logicalPairs layout.storageBlockSizeFactor
        (file * layout.storageBlockSizeFactor + first) blockIds := by
  induction files generalizing file first blockIds with
  | zero =>
      have whole :
          blockIds.take (layout.storageBlockSizeFactor - first) =
            blockIds :=
        List.take_of_length_le (by omega)
      have bound : blockIds.length ≤ layout.storageBlockSizeFactor := by
        omega
      simp only [splitLoop, whole]
      rw [loadFilePairs, loadMapping_of_le nonempty bound]
      refine ⟨_, rfl, ?_⟩
      cases blockIds with
      | nil => cases nonempty
      | cons blockId later =>
          intro equal
          have subBlock :
              (file * layout.storageBlockSizeFactor + first) %
                layout.storageBlockSizeFactor = first := by
            rw [Nat.mul_comm, Nat.mul_add_mod, Nat.mod_eq_of_lt inside]
          have count :
              layout.storageBlockSizeFactor -
                (layout.storageBlockSizeFactor - (later.length + 1)) =
                  later.length + 1 := by
            simp only [List.length_cons] at bound
            omega
          simp only [List.length_cons, expandBlock, count,
            List.range'_succ, List.map_cons, List.zip_cons_cons,
            List.cons_append, logicalPairs, subBlock, List.cons.injEq,
            Prod.mk.injEq] at equal
          have firstRow := equal.1.2.1
          simp only [List.length_cons] at short bound
          omega
  | succ files inductionHypothesis =>
      have more :
          layout.storageBlockSizeFactor - first < blockIds.length := by
        rw [Nat.succ_mul] at reaches
        have := Nat.zero_le (files * layout.storageBlockSizeFactor)
        omega
      have firstLength :
          (blockIds.take (layout.storageBlockSizeFactor - first)).length =
            layout.storageBlockSizeFactor - first := by
        rw [List.length_take, Nat.min_eq_left (Nat.le_of_lt more)]
      obtain ⟨pairs, accepted, misplaced⟩ :=
        @inductionHypothesis (file + 1) 0
          (blockIds.drop (layout.storageBlockSizeFactor - first))
          layout.factorPositive
          (by rw [List.length_drop]; omega)
          (by
            rw [List.length_drop]
            rw [Nat.succ_mul] at reaches
            omega)
          (by
            rw [List.length_drop]
            rw [Nat.succ_mul] at short
            omega)
      rw [Nat.sub_zero] at accepted
      rw [splitLoop,
        loadFilePairs_cons_of_full first (by omega) (by omega),
        accepted]
      refine ⟨_, rfl, ?_⟩
      intro equal
      apply misplaced
      have position :
          (file + 1) * layout.storageBlockSizeFactor + 0 =
            file * layout.storageBlockSizeFactor + first +
              (blockIds.take
                (layout.storageBlockSizeFactor - first)).length := by
        rw [firstLength, Nat.succ_mul]
        omega
      rw [position]
      rw [← List.take_append_drop
        (layout.storageBlockSizeFactor - first) blockIds,
        logicalPairs_append] at equal
      simpa [List.take_append_drop] using equal

theorem firstBlockSkip_lt (layout : ParsedKvLayout)
    (firstBlockIndex : Int) :
    firstBlockSkip layout firstBlockIndex <
      layout.storageBlockSizeFactor := by
  have positive := layout.factorPositive
  have bound :=
    Int.emod_lt_of_pos firstBlockIndex
      (show (0 : Int) < layout.storageBlockSizeFactor by omega)
  simp only [firstBlockSkip, ParsedKvLayout.gpuBlocksPerStorageBlock]
  omega

/-- The split of a load of at least one file, without the cap on its first
chunk. -/
theorem splitBlockIdsForFiles_succ
    (blockIds : List Int) (files : Nat) (firstBlockIndex : Int) :
    splitBlockIdsForFiles layout blockIds (files + 1) firstBlockIndex =
      if blockIds.length ≤
          layout.storageBlockSizeFactor -
            firstBlockSkip layout firstBlockIndex +
            files * layout.storageBlockSizeFactor then
        .ok (splitLoop layout.storageBlockSizeFactor (files + 1)
          (layout.storageBlockSizeFactor -
            firstBlockSkip layout firstBlockIndex) blockIds).1
      else
        .error .countsDoNotLineUp := by
  have leftover :=
    @splitLoop_leftover layout.storageBlockSizeFactor files
      (layout.storageBlockSizeFactor -
        firstBlockSkip layout firstBlockIndex) blockIds
  rw [splitBlockIdsForFiles, if_neg (Nat.succ_ne_zero files)]
  simp only [ParsedKvLayout.gpuBlocksPerStorageBlock, splitLoop_min]
  generalize splitLoop layout.storageBlockSizeFactor (files + 1)
    (layout.storageBlockSizeFactor -
      firstBlockSkip layout firstBlockIndex) blockIds =
        result at leftover ⊢
  obtain ⟨chunks, rest⟩ := result
  simp only at leftover
  subst leftover
  by_cases fits :
      blockIds.length ≤
        layout.storageBlockSizeFactor -
          firstBlockSkip layout firstBlockIndex +
          files * layout.storageBlockSizeFactor
  · rw [if_pos fits, List.drop_eq_nil_of_le fits]
    rfl
  · rw [if_neg fits]
    have nonempty :
        blockIds.drop
          (layout.storageBlockSizeFactor -
            firstBlockSkip layout firstBlockIndex +
            files * layout.storageBlockSizeFactor) ≠ [] := by
      intro empty
      exact fits (List.drop_eq_nil_iff.mp empty)
    cases rest :
        blockIds.drop
          (layout.storageBlockSizeFactor -
            firstBlockSkip layout firstBlockIndex +
            files * layout.storageBlockSizeFactor) with
    | nil => exact absurd rest nonempty
    | cons head tail => rfl

/-- A load is paired as it should be, or refused, exactly when its ids end on
a file boundary. -/
theorem pairedOrRejected_iff
    (layout : ParsedKvLayout) (slots : Nat → Int) (blockIds : List Int)
    (fileCount : Nat) (firstBlockIndex : Int) (someFile : 1 ≤ fileCount) :
    PairedOrRejected layout slots blockIds fileCount firstBlockIndex ↔
      EndsOnFileBoundary layout blockIds fileCount firstBlockIndex := by
  obtain ⟨files, rfl⟩ : ∃ files, fileCount = files + 1 :=
    ⟨fileCount - 1, by omega⟩
  have inside := firstBlockSkip_lt layout firstBlockIndex
  have split :=
    @splitBlockIdsForFiles_succ layout blockIds files
      firstBlockIndex
  simp only [PairedOrRejected, EndsOnFileBoundary, loadPairs, split,
    Nat.add_sub_cancel]
  generalize firstBlockSkip layout firstBlockIndex = first at inside ⊢
  rw [Nat.succ_mul]
  by_cases fits :
      blockIds.length ≤
        layout.storageBlockSizeFactor - first +
          files * layout.storageBlockSizeFactor
  · rw [if_pos fits]
    simp only [bind, Except.bind]
    by_cases aligned :
        first + blockIds.length =
          (files + 1) * layout.storageBlockSizeFactor
    · have paired :=
        loadFilePairs_splitLoop_of_aligned slots 0 inside aligned
      rw [Nat.zero_mul, Nat.zero_add] at paired
      rw [Nat.succ_mul] at aligned
      exact ⟨fun _ => Or.inr (Or.inr (by omega)), fun _ => Or.inr paired⟩
    · rw [Nat.succ_mul] at aligned
      by_cases starved :
          blockIds = [] ∨
            first + blockIds.length ≤ files * layout.storageBlockSizeFactor
      · have emptyChunk :
            [] ∈ (splitLoop layout.storageBlockSizeFactor (files + 1)
              (layout.storageBlockSizeFactor - first) blockIds).1 := by
          rcases starved with empty | starved
          · subst empty
            simp [splitLoop]
          · cases files with
            | zero =>
                have empty : blockIds = [] := by
                  rw [Nat.zero_mul] at starved
                  exact List.eq_nil_of_length_eq_zero (by omega)
                subst empty
                simp [splitLoop]
            | succ files =>
                apply nil_mem_splitLoop
                rw [Nat.succ_mul] at starved
                omega
        have refused :=
          loadFilePairs_error_of_nil_mem slots
            (splitLoop_bounded
              (Nat.sub_le layout.storageBlockSizeFactor first))
            emptyChunk 0
        refine ⟨fun _ => ?_, fun _ => Or.inl refused⟩
        rcases starved with empty | starved
        · exact Or.inl empty
        · exact Or.inr (Or.inl starved)
      · simp only [not_or, Nat.not_le] at starved
        obtain ⟨pairs, accepted, misplaced⟩ :=
          loadFilePairs_splitLoop_of_short slots 0 inside
            (List.length_pos_of_ne_nil starved.1) starved.2
            (by rw [Nat.succ_mul]; omega)
        rw [Nat.zero_mul, Nat.zero_add] at misplaced
        rw [accepted]
        constructor
        · rintro (⟨error, failed⟩ | paired)
          · cases failed
          · exact absurd (Except.ok.inj paired) misplaced
        · rintro (empty | early | late)
          · exact absurd empty starved.1
          · omega
          · omega
  · rw [if_neg fits]
    exact ⟨fun _ => Or.inr (Or.inr (by omega)),
      fun _ => Or.inl ⟨_, rfl⟩⟩

/-- One layer of one-byte blocks, four blocks to a file. -/
def fourBlockLayout : ParsedKvLayout where
  gpuTensors := [0]
  bytesPerKernelBlock := [1]
  storageBlockSizeFactor := 4
  sameLayers := by decide
  factorPositive := Nat.succ_pos 3

/-- Three ids for one file of four blocks are accepted, and go to sub-blocks
one to three instead of zero to two. -/
theorem threeIds_misplaced :
    loadPairs fourBlockLayout (fun _ => 0) [10, 11, 12] 1 0 =
        .ok [(0, 1, 10), (0, 2, 11), (0, 3, 12)] ∧
      logicalPairs 4 0 [10, 11, 12] =
        [(0, 0, 10), (0, 1, 11), (0, 2, 12)] ∧
      ¬ PairedOrRejected fourBlockLayout (fun _ => 0) [10, 11, 12] 1 0 := by
  refine ⟨by decide, by decide, ?_⟩
  rintro (⟨error, failed⟩ | paired)
  · have accepted :
        loadPairs fourBlockLayout (fun _ => 0) [10, 11, 12] 1 0 =
          .ok [(0, 1, 10), (0, 2, 11), (0, 3, 12)] := by decide
    rw [accepted] at failed
    cases failed
  · revert paired
    decide

/-- The four ids of a whole file end on its boundary. -/
theorem fourIds_paired :
    1 ≤ 1 ∧
      (PairedOrRejected fourBlockLayout (fun _ => 0) [10, 11, 12, 13] 1 0 ↔
        EndsOnFileBoundary fourBlockLayout [10, 11, 12, 13] 1 0) :=
  ⟨by decide,
    pairedOrRejected_iff fourBlockLayout (fun _ => 0)
      [10, 11, 12, 13] 1 0 (by decide)⟩

end Loads

end PyKvCache.Transfer
