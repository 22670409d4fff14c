import Mathlib.Data.Nat.Digits.Defs
import PyKvCache.Storage.PosixPath

/-!
# Where a block is stored

`FileMapper` builds a directory from the configuration and spreads the files
over two levels of directories named after the hash.  Every part of a path can
be read off from its end, so distinct blocks never share a file.
-/

namespace PyKvCache.Storage

open PyKvCache.Library PosixPath

/-! ## Formatted values -/

/-- The decimal digits of an integer, as `f"{value}"` writes them. -/
def decimal : Int → Str
  | .ofNat n => Nat.toDigits 10 n
  | .negSucc n => '-' :: Nat.toDigits 10 (n + 1)

/-- The two digits of a byte in `bytes.hex()`. -/
def hexByte (byte : UInt8) : Str :=
  [Nat.digitChar (byte.toNat / 16), Nat.digitChar (byte.toNat % 16)]

/-- `bytes.hex()`. -/
def hex (bytes : List UInt8) : Str :=
  bytes.flatMap hexByte

/-! ## The mapper -/

/-- The keyword arguments of `FileMapper.__init__`. -/
structure FileMapperArguments where
  rootDir : Str
  modelName : Str
  gpuBlockSize : Int
  gpuBlocksPerFile : Int
  tpSize : Int
  ppSize : Int
  pcpSize : Int
  rank : Int
  dtype : Str
  deriving DecidableEq

/-- The exceptions of the mapper. -/
inductive FileMapperError where
  | valueError (message : String)
  | typeError (message : String)
  deriving DecidableEq

/-- `FileMapper`. -/
structure FileMapper where
  basePath : Str
  deriving DecidableEq

/-- The argument of `get_file_name`; a value of another type is known by the
`repr` of its type. -/
inductive HashArgument where
  | bytes (value : List UInt8)
  | int (value : Int)
  | other (typeRepr : String)

namespace FileMapper

/-- `block_size_…_blocks_per_file_…`. -/
def blockDirectory (arguments : FileMapperArguments) : Str :=
  "block_size_".toList ++ decimal arguments.gpuBlockSize ++
    "_blocks_per_file_".toList ++ decimal arguments.gpuBlocksPerFile

/-- `tp_…_pp_size_…_pcp_size_…`. -/
def parallelDirectory (arguments : FileMapperArguments) : Str :=
  "tp_".toList ++ decimal arguments.tpSize ++ "_pp_size_".toList ++
    decimal arguments.ppSize ++ "_pcp_size_".toList ++
    decimal arguments.pcpSize

/-- `rank_…`. -/
def rankDirectory (arguments : FileMapperArguments) : Str :=
  "rank_".toList ++ decimal arguments.rank

/-- `__init__`. -/
def init (arguments : FileMapperArguments) :
    Except FileMapperError FileMapper :=
  if isabs arguments.modelName then
    .error (.valueError "model_name must be relative to root_dir")
  else
    let normalizedModelName := normpath arguments.modelName
    if normalizedModelName = "..".toList ∨
        "../".toList.isPrefixOf normalizedModelName then
      .error (.valueError "model_name must not escape root_dir")
    else
      .ok ⟨join arguments.rootDir
        [normalizedModelName, blockDirectory arguments,
          parallelDirectory arguments, rankDirectory arguments,
          arguments.dtype]⟩

/-- `_to_hex`. -/
def toHex : HashArgument → Except FileMapperError Str
  | .bytes value => .ok (hex value)
  | .int value =>
      .ok ((Nat.toDigits 16 (value % 2 ^ 64).toNat).leftpad 16 '0')
  | .other typeRepr =>
      .error (.typeError ("unsupported block hash type: " ++ typeRepr))

/-- The names below the base path of a hash in hexadecimal digits. -/
def hashNames (blockHashHex : Str) : List Str :=
  [blockHashHex.take 3, (blockHashHex.drop 3).take 2,
    blockHashHex ++ ".bin".toList]

/-- `get_file_name`. -/
def getFileName (mapper : FileMapper) (blockHash : HashArgument) :
    Except FileMapperError Str := do
  let blockHashHex ← toHex blockHash
  pure (join mapper.basePath (hashNames blockHashHex))

end FileMapper

/-! ## What the formatted values are made of -/

theorem eq_dash_or_isDigit_of_mem_decimal {value : Int} {c : Char}
    (member : c ∈ decimal value) : c = '-' ∨ c.isDigit = true := by
  cases value with
  | ofNat n =>
      exact Or.inr (Nat.isDigit_of_mem_toDigits (by decide) (by decide)
        member)
  | negSucc n =>
      rcases List.mem_cons.mp member with dash | digit
      · exact Or.inl dash
      · exact Or.inr (Nat.isDigit_of_mem_toDigits (by decide) (by decide)
          digit)

/-- A character that is neither the sign nor a digit. -/
theorem notMem_decimal {c : Char} (noDash : c ≠ '-')
    (noDigit : c.isDigit = false) (value : Int) : c ∉ decimal value := by
  intro member
  rcases eq_dash_or_isDigit_of_mem_decimal member with dash | digit
  · exact noDash dash
  · rw [noDigit] at digit
    cases digit

theorem toDigits_ten_injective {first second : Nat}
    (same : Nat.toDigits 10 first = Nat.toDigits 10 second) :
    first = second := by
  have values := congrArg (fun digits => Nat.ofDigitChars 10 digits 0) same
  simpa [Nat.ofDigitChars_toDigits] using values

theorem decimal_injective {first second : Int}
    (same : decimal first = decimal second) : first = second := by
  have noDash : ∀ n rest, Nat.toDigits 10 n ≠ '-' :: rest := by
    intro n rest starts
    have member : '-' ∈ Nat.toDigits 10 n := by
      rw [starts]
      exact List.mem_cons_self
    have digit := Nat.isDigit_of_mem_toDigits (by decide) (by decide) member
    cases digit
  cases first with
  | ofNat n =>
      cases second with
      | ofNat m => rw [toDigits_ten_injective same]
      | negSucc m => exact absurd same (noDash n _)
  | negSucc n =>
      cases second with
      | ofNat m => exact absurd same.symm (noDash m _)
      | negSucc m =>
          have digits := toDigits_ten_injective (List.cons.inj same).2
          rw [Nat.succ.inj digits]

private theorem digitChar_injective :
    ∀ first second : Fin 16,
      Nat.digitChar first = Nat.digitChar second → first = second := by
  decide

private theorem digitChar_ne_slash :
    ∀ digit : Fin 16, Nat.digitChar digit ≠ '/' := by
  decide

private theorem byte_digits (byte : UInt8) :
    byte.toNat / 16 < 16 ∧ byte.toNat % 16 < 16 := by
  have bound := byte.toNat_lt
  omega

theorem slash_notMem_hex (bytes : List UInt8) : '/' ∉ hex bytes := by
  intro member
  obtain ⟨byte, _, digit⟩ := List.mem_flatMap.mp member
  obtain ⟨high, low⟩ := byte_digits byte
  rcases List.mem_cons.mp digit with first | later
  · exact digitChar_ne_slash ⟨_, high⟩ first.symm
  · rcases List.mem_cons.mp later with second | none
    · exact digitChar_ne_slash ⟨_, low⟩ second.symm
    · cases none

theorem hexByte_injective {first second : UInt8}
    (same : hexByte first = hexByte second) : first = second := by
  obtain ⟨firstHigh, firstLow⟩ := byte_digits first
  obtain ⟨secondHigh, secondLow⟩ := byte_digits second
  obtain ⟨highs, rest⟩ := List.cons.inj same
  have high := digitChar_injective ⟨_, firstHigh⟩ ⟨_, secondHigh⟩ highs
  have low := digitChar_injective ⟨_, firstLow⟩ ⟨_, secondLow⟩
    (List.cons.inj rest).1
  simp only [Fin.mk.injEq] at high low
  apply UInt8.toNat_inj.mp
  omega

theorem hex_injective {first second : List UInt8}
    (same : hex first = hex second) : first = second := by
  induction first generalizing second with
  | nil =>
      cases second with
      | nil => rfl
      | cons head tail => cases same
  | cons byte bytes inductionHypothesis =>
      cases second with
      | nil => cases same
      | cons head tail =>
          simp only [hex, List.flatMap_cons] at same
          obtain ⟨heads, tails⟩ := List.append_inj same rfl
          rw [hexByte_injective heads, inductionHypothesis tails]

theorem length_hex (bytes : List UInt8) :
    (hex bytes).length = 2 * bytes.length := by
  induction bytes with
  | nil => rfl
  | cons byte bytes inductionHypothesis =>
      have opened : hex (byte :: bytes) = hexByte byte ++ hex bytes := rfl
      rw [opened, List.length_append, inductionHypothesis,
        List.length_cons, hexByte, List.length_cons, List.length_singleton]
      omega

/-! ## The names in a path -/

namespace FileMapper

variable {first second : FileMapperArguments}

/-- The directories below the one of the model. -/
def directories (arguments : FileMapperArguments) : List Str :=
  [blockDirectory arguments, parallelDirectory arguments,
    rankDirectory arguments, arguments.dtype]

private theorem component_append {left right : Str}
    (component : IsComponent left) (noSlash : '/' ∉ right) :
    IsComponent (left ++ right) := by
  constructor
  · simp [component.1]
  · rw [List.mem_append, not_or]
    exact ⟨component.2, noSlash⟩

theorem directories_components {arguments : FileMapperArguments}
    (dtype : IsComponent arguments.dtype) :
    ∀ name ∈ directories arguments, IsComponent name := by
  have digits : ∀ value, '/' ∉ decimal value :=
    notMem_decimal (by decide) (by decide)
  have block : IsComponent (blockDirectory arguments) := by
    have label : IsComponent "block_size_".toList := ⟨by simp, by simp⟩
    have middle : '/' ∉ "_blocks_per_file_".toList := by simp
    unfold blockDirectory
    exact component_append (component_append (component_append label
      (digits _)) middle) (digits _)
  have parallel : IsComponent (parallelDirectory arguments) := by
    have label : IsComponent "tp_".toList := ⟨by simp, by simp⟩
    have middle : '/' ∉ "_pp_size_".toList := by simp
    have last : '/' ∉ "_pcp_size_".toList := by simp
    unfold parallelDirectory
    exact component_append (component_append (component_append
      (component_append (component_append label (digits _)) middle)
      (digits _)) last) (digits _)
  have rank : IsComponent (rankDirectory arguments) := by
    have label : IsComponent "rank_".toList := ⟨by simp, by simp⟩
    exact component_append label (digits _)
  intro name member
  simp only [directories, List.mem_cons, List.not_mem_nil, or_false]
    at member
  rcases member with same | same | same | same
  · rw [same]
    exact block
  · rw [same]
    exact parallel
  · rw [same]
    exact rank
  · rw [same]
    exact dtype

theorem hashNames_components {bytes : List UInt8}
    (long : 3 ≤ bytes.length) :
    ∀ name ∈ hashNames (hex bytes), IsComponent name := by
  have noSlash := slash_notMem_hex bytes
  have length := length_hex bytes
  intro name member
  simp only [hashNames, List.mem_cons, List.not_mem_nil, or_false] at member
  rcases member with same | same | same
  · rw [same]
    constructor
    · apply List.ne_nil_of_length_pos
      rw [List.length_take]
      omega
    · exact fun slash => noSlash (List.mem_of_mem_take slash)
  · rw [same]
    constructor
    · apply List.ne_nil_of_length_pos
      rw [List.length_take, List.length_drop]
      omega
    · exact fun slash =>
        noSlash (List.mem_of_mem_drop (List.mem_of_mem_take slash))
  · rw [same]
    have suffix : '/' ∉ ".bin".toList := by simp
    apply component_append _ suffix
    constructor
    · apply List.ne_nil_of_length_pos
      omega
    · exact noSlash

/-- An integer between two texts, the second with an underscore in front. -/
private theorem decimal_between_inj {label text front back : Str}
    {firstValue secondValue : Int}
    (same : label ++ decimal firstValue ++ '_' :: text ++ front =
      label ++ decimal secondValue ++ '_' :: text ++ back) :
    firstValue = secondValue ∧ front = back := by
  have noMark : ∀ value, '_' ∉ decimal value :=
    notMem_decimal (by decide) (by decide)
  simp only [List.append_assoc, List.cons_append] at same
  obtain ⟨values, rest⟩ := append_cons_inj_of_notMem_front
    (noMark firstValue) (noMark secondValue)
    (List.append_cancel_left same)
  exact ⟨decimal_injective values, List.append_cancel_left rest⟩

theorem blockDirectory_inj
    (same : blockDirectory first = blockDirectory second) :
    first.gpuBlockSize = second.gpuBlockSize ∧
      first.gpuBlocksPerFile = second.gpuBlocksPerFile := by
  have mark : "_blocks_per_file_".toList =
      '_' :: "blocks_per_file_".toList := by simp
  unfold blockDirectory at same
  rw [mark] at same
  obtain ⟨size, rest⟩ := decimal_between_inj same
  exact ⟨size, decimal_injective rest⟩

theorem parallelDirectory_inj
    (same : parallelDirectory first = parallelDirectory second) :
    first.tpSize = second.tpSize ∧ first.ppSize = second.ppSize ∧
      first.pcpSize = second.pcpSize := by
  have ppMark : "_pp_size_".toList = '_' :: "pp_size_".toList := by simp
  have pcpMark : "_pcp_size_".toList = '_' :: "pcp_size_".toList := by simp
  unfold parallelDirectory at same
  rw [ppMark, pcpMark] at same
  have grouped :
      "tp_".toList ++ decimal first.tpSize ++ '_' :: "pp_size_".toList ++
          ([] ++ decimal first.ppSize ++ '_' :: "pcp_size_".toList ++
            decimal first.pcpSize) =
        "tp_".toList ++ decimal second.tpSize ++ '_' :: "pp_size_".toList ++
          ([] ++ decimal second.ppSize ++ '_' :: "pcp_size_".toList ++
            decimal second.pcpSize) := by
    simpa only [List.nil_append, List.append_assoc] using same
  obtain ⟨tp, behind⟩ := decimal_between_inj grouped
  obtain ⟨pp, last⟩ := decimal_between_inj behind
  exact ⟨tp, pp, decimal_injective last⟩

theorem rankDirectory_inj
    (same : rankDirectory first = rankDirectory second) :
    first.rank = second.rank :=
  decimal_injective (List.append_cancel_left same)

/-! ## Distinct blocks -/

/-- What the constructor accepts, and the path it builds. -/
theorem basePath_of_init {arguments : FileMapperArguments}
    {mapper : FileMapper} (built : init arguments = .ok mapper)
    (dtype : IsComponent arguments.dtype) :
    isabs arguments.modelName = false ∧
      EndsInName (joinOne arguments.rootDir
        (normpath arguments.modelName)) ∧
      mapper.basePath = strung '/'
        (joinOne arguments.rootDir (normpath arguments.modelName))
        (directories arguments) := by
  unfold init at built
  split at built
  next => cases built
  next relative =>
    rw [Bool.not_eq_true] at relative
    obtain ⟨_, ends⟩ := normpath_of_relative relative
    have joined := @endsInName_joinOne arguments.rootDir _ ends
    dsimp only at built
    split at built
    next => cases built
    next =>
      refine ⟨relative, joined, ?_⟩
      cases built
      exact join_of_endsInName joined (directories_components dtype)

/-- The path of a byte-string hash, as the names it is made of. -/
theorem getFileName_eq {arguments : FileMapperArguments}
    {mapper : FileMapper} {bytes : List UInt8} {path : Str}
    (built : init arguments = .ok mapper)
    (dtype : IsComponent arguments.dtype) (long : 3 ≤ bytes.length)
    (named : mapper.getFileName (.bytes bytes) = .ok path) :
    path = strung '/'
      (joinOne arguments.rootDir (normpath arguments.modelName))
      (directories arguments ++ hashNames (hex bytes)) := by
  obtain ⟨_, ends, basePath⟩ := basePath_of_init built dtype
  have components : ∀ name ∈ directories arguments ++
      hashNames (hex bytes), IsComponent name := by
    intro name member
    rcases List.mem_append.mp member with directory | file
    · exact directories_components dtype name directory
    · exact hashNames_components long name file
  have split : join (joinOne arguments.rootDir
        (normpath arguments.modelName))
      (directories arguments ++ hashNames (hex bytes)) =
        join mapper.basePath (hashNames (hex bytes)) := by
    rw [basePath, ← join_of_endsInName ends (directories_components dtype)]
    exact List.foldl_append
  have path_eq : path = join mapper.basePath (hashNames (hex bytes)) :=
    (Except.ok.inj named).symm
  rw [path_eq, ← split, join_of_endsInName ends components]

/-- The configuration and the hash that a path stands for. -/
structure SameBlock (first second : FileMapperArguments)
    (firstHash secondHash : List UInt8) : Prop where
  modelName : normpath first.modelName = normpath second.modelName
  gpuBlockSize : first.gpuBlockSize = second.gpuBlockSize
  gpuBlocksPerFile : first.gpuBlocksPerFile = second.gpuBlocksPerFile
  tpSize : first.tpSize = second.tpSize
  ppSize : first.ppSize = second.ppSize
  pcpSize : first.pcpSize = second.pcpSize
  rank : first.rank = second.rank
  dtype : first.dtype = second.dtype
  blockHash : firstHash = secondHash

/-- Distinct blocks never share a file. -/
theorem getFileName_injective {firstMapper secondMapper : FileMapper}
    {firstHash secondHash : List UInt8} {path : Str}
    (firstBuilt : init first = .ok firstMapper)
    (secondBuilt : init second = .ok secondMapper)
    (sameRoot : first.rootDir = second.rootDir)
    (firstDtype : IsComponent first.dtype)
    (secondDtype : IsComponent second.dtype)
    (firstLong : 3 ≤ firstHash.length) (secondLong : 3 ≤ secondHash.length)
    (firstNamed : firstMapper.getFileName (.bytes firstHash) = .ok path)
    (secondNamed :
      secondMapper.getFileName (.bytes secondHash) = .ok path) :
    SameBlock first second firstHash secondHash := by
  have firstPath :=
    getFileName_eq firstBuilt firstDtype firstLong firstNamed
  have secondPath :=
    getFileName_eq secondBuilt secondDtype secondLong secondNamed
  have noSlash : ∀ {arguments bytes}, IsComponent arguments.dtype →
      3 ≤ bytes.length →
      ∀ name ∈ directories arguments ++ hashNames (hex bytes),
        '/' ∉ name := by
    intro arguments bytes dtype long name member
    rcases List.mem_append.mp member with directory | file
    · exact (directories_components dtype name directory).2
    · exact (hashNames_components long name file).2
  rw [firstPath] at secondPath
  obtain ⟨models, names⟩ := strung_injective
    (noSlash firstDtype firstLong) (noSlash secondDtype secondLong) rfl
    secondPath
  rw [sameRoot] at models
  have relative := normpath_of_relative
    (basePath_of_init firstBuilt firstDtype).1
  have otherRelative := normpath_of_relative
    (basePath_of_init secondBuilt secondDtype).1
  simp only [directories, hashNames, List.cons_append, List.nil_append,
    List.cons.injEq, and_true] at names
  obtain ⟨block, parallel, rank, dtype, _, _, file⟩ := names
  obtain ⟨blockSize, blocksPerFile⟩ := blockDirectory_inj block
  obtain ⟨tp, pp, pcp⟩ := parallelDirectory_inj parallel
  exact {
    modelName := joinOne_cancel relative.1 otherRelative.1 models
    gpuBlockSize := blockSize
    gpuBlocksPerFile := blocksPerFile
    tpSize := tp
    ppSize := pp
    pcpSize := pcp
    rank := rankDirectory_inj rank
    dtype := dtype
    blockHash := hex_injective (List.append_cancel_right file) }

/-- One configuration, with the name of the model written in two ways. -/
def llama : FileMapperArguments :=
  ⟨"/cache".toList, "meta/llama".toList, 16, 4, 2, 1, 1, 0,
    "bfloat16".toList⟩

/-- The same directory by another name. -/
def llamaDotted : FileMapperArguments :=
  { llama with modelName := "meta/x/.././llama".toList }

theorem llama_sameBlock :
    SameBlock llama llamaDotted [1, 35, 69] [1, 35, 69] :=
  getFileName_injective rfl rfl rfl (by decide) (by decide) (by decide)
    (by decide) rfl rfl

end FileMapper

end PyKvCache.Storage
