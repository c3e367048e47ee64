import AccelPipe.Config.Read
import AccelPipe.Proofs.Except

/-! What a configuration keeps once it has been read: the checks of every field, as facts about
the configuration. -/
namespace AccelPipe

namespace Config

/-- The checks that a configuration has passed. -/
structure Valid (c : Config) : Prop where
  accWidth : ∀ width, c.accWidth = some width → c.operandType.bits ≤ width ∧ width ≤ 64
  bankCount : 2 ≤ c.bankCount ∧ c.bankCount ≤ 8
  ports : c.ports = 1 ∨ c.ports = 2
  memLatency : 1 ≤ c.memLatency
  interleave : 1 ≤ c.interleave
  memWords : 0 < c.memWords
  evenMemory : c.bankCount * c.interleave ∣ c.memWords
  prefetch : c.prefetchStride = 0 ↔ c.prefetchWindow = 0
  kernelSize : c.kernelSize = 3 ∨ c.kernelSize = 5
  kernel : c.kernelTable.length = c.kernelSize * c.kernelSize
  firTaps : 1 ≤ c.firTaps ∧ c.firTaps ≤ 64
  fir : c.firTable.length = c.firTaps
  poolWindow : 1 ≤ c.poolWindow ∧ c.poolWindow ≤ 8
  poolStride : 1 ≤ c.poolStride
  maxCycles : 1 ≤ c.maxCycles
  startPc : c.startPc % 4 = 0

/-- An accumulator has room for an operand, so it has a sign bit. -/
theorem Valid.accBits_pos {c : Config} (hValid : c.Valid) : 0 < c.precision.accBits := by
  have hOperand : 0 < c.operandType.bits := by cases c.operandType <;> decide
  unfold precision
  dsimp only
  cases hGiven : c.accWidth with
  | none => exact hOperand
  | some width => exact Nat.lt_of_lt_of_le hOperand (hValid.accWidth width hGiven).1

end Config

namespace Settings

theorem reject_ne_ok {α : Type} {field : String} {complaint : Complaint} {a : α} :
    reject field complaint ≠ .ok a := by
  unfold reject
  split <;> nofun

theorem require_ok {condition : Bool} {field : String} {complaint : Complaint} {u : Unit}
    (h : require condition field complaint = .ok u) : condition = true := by
  unfold require at h
  split at h
  · assumption
  · cases reject_ne_ok h

/-- Parts pass as rows if each is a row of the size. -/
theorem checkRows_ok_iff {size : Nat} {parts : List KernelPart} :
    checkRows size parts = .ok () ↔ ∀ part ∈ parts, ∃ cs, part = .row cs ∧ cs.length = size := by
  induction parts with
  | nil => exact ⟨fun _ => nofun, fun _ => rfl⟩
  | cons part rest ih =>
      cases part with
      | single c => exact ⟨nofun, fun h => nomatch h _ List.mem_cons_self⟩
      | row cs =>
          unfold checkRows
          rw [List.forall_mem_cons]
          split
          case isTrue hSize => rw [ih, and_iff_right ⟨cs, rfl, hSize⟩]
          case isFalse hSize =>
            refine ⟨fun h => (reject_ne_ok h).elim, ?_⟩
            rintro ⟨⟨_, ⟨⟩, hSize'⟩, -⟩
            exact (hSize hSize').elim

/-- Coefficients pass if each fits the operand width. -/
theorem checkRange_ok_iff {name : String} {bits index : Nat} {cs : List Int} :
    checkRange name bits index cs = .ok () ↔
      ∀ c ∈ cs, (signedRange bits).1 ≤ c ∧ c ≤ (signedRange bits).2 := by
  induction cs generalizing index with
  | nil => exact ⟨fun _ => nofun, fun _ => rfl⟩
  | cons c rest ih =>
      unfold checkRange
      rw [List.forall_mem_cons]
      dsimp only
      split
      case isTrue hFits => rw [ih, and_iff_right hFits]
      case isFalse hFits => exact ⟨fun h => (reject_ne_ok h).elim, fun h => (hFits h.1).elim⟩

end Settings

namespace Config

open Settings

/-- What the reading of a configuration establishes: it is valid, and its tables hold operands,
in rows if they are given as rows. -/
structure Accepted (c : Config) : Prop extends c.Valid where
  rows : checkKernelRows c.kernelSize c.kernel = .ok ()
  operands : ∀ k ∈ c.kernelTable ++ c.firTable,
    (signedRange c.operandType.bits).1 ≤ k ∧ k ≤ (signedRange c.operandType.bits).2

/-- A memory that the unit divides as integers is divided by it as natural numbers. -/
theorem natUnit_dvd {banks interleave words : Int} (hBanks : 2 ≤ banks) (hInterleave : 1 ≤ interleave)
    (hWords : 0 < words) (hEven : words % (banks * interleave) = 0) :
    banks.toNat * interleave.toNat ∣ words.toNat := by
  have hUnit : ((banks.toNat * interleave.toNat : Nat) : Int) = banks * interleave := by
    rw [Int.natCast_mul, Int.toNat_of_nonneg (by omega), Int.toNat_of_nonneg (by omega)]
  rw [← Int.natCast_dvd_natCast, hUnit, Int.toNat_of_nonneg (by omega)]
  exact Int.dvd_of_emod_eq_zero hEven

/-- Two numbers that are zero together as integers are so as natural numbers. -/
theorem toNat_zero_iff {stride window : Int} (hStride : 0 ≤ stride) (hWindow : 0 ≤ window)
    (h : (stride == 0) = (window == 0)) : stride.toNat = 0 ↔ window.toNat = 0 := by
  have hBoth : stride = 0 ↔ window = 0 := by
    rw [← beq_iff_eq, ← beq_iff_eq (a := window), h]
  omega

theorem readPrecision_ok {s : Settings} {result : OperandType × OverflowRule}
    (h : s.readPrecision = .ok result) :
    isNull (s.get "acc_width") = true ∨
      (result.1.bits ≤ s.int "acc_width" ∧ s.int "acc_width" ≤ 64) := by
  unfold readPrecision at h
  obtain ⟨operandType, -, h⟩ := bind_ok h
  obtain ⟨_, hWidth, h⟩ := bind_ok h
  obtain ⟨overflow, -, h⟩ := bind_ok h
  cases h
  simpa only [Bool.or_eq_true, Bool.and_eq_true, decide_eq_true_eq] using require_ok hWidth

/-- What the checks of the memory establish. -/
structure Shaped (s : Settings) : Prop where
  banks : 2 ≤ s.int "bank_count" ∧ s.int "bank_count" ≤ 8
  ports : s.int "ports" = 1 ∨ s.int "ports" = 2
  latency : 1 ≤ s.int "mem_latency"
  interleave : 1 ≤ s.int "interleave"
  words : 0 < s.int "mem_words"
  even : s.int "mem_words" % s.unit = 0
  prefetch : 0 ≤ s.int "prefetch_stride" ∧ 0 ≤ s.int "prefetch_window"
  together : (s.int "prefetch_stride" == 0) = (s.int "prefetch_window" == 0)

theorem readMemory_ok {s : Settings} {mapping : BankMapping} (h : s.readMemory = .ok mapping) :
    Shaped s := by
  unfold readMemory at h
  obtain ⟨_, hBanks, h⟩ := bind_ok h
  obtain ⟨_, hPorts, h⟩ := bind_ok h
  obtain ⟨_, hLatency, h⟩ := bind_ok h
  obtain ⟨_, -, h⟩ := bind_ok h
  obtain ⟨_, hInterleave, h⟩ := bind_ok h
  obtain ⟨_, hEven, h⟩ := bind_ok h
  obtain ⟨_, hSigns, h⟩ := bind_ok h
  obtain ⟨_, hPrefetch, -⟩ := bind_ok h
  have hBanks := require_ok hBanks
  have hPorts := require_ok hPorts
  have hLatency := require_ok hLatency
  have hInterleave := require_ok hInterleave
  have hEven := require_ok hEven
  have hSigns := require_ok hSigns
  have hPrefetch := require_ok hPrefetch
  simp only [Bool.or_eq_true, Bool.and_eq_true, decide_eq_true_eq, beq_iff_eq]
    at hBanks hPorts hLatency hInterleave hEven hSigns hPrefetch
  exact ⟨hBanks, hPorts, hLatency, hInterleave, hEven.1, hEven.2, hSigns, hPrefetch⟩

/-- What the checks of the tables establish. -/
structure Tabled (s : Settings) (bits : Nat) : Prop where
  size : s.int "kernel_size" = 3 ∨ s.int "kernel_size" = 5
  kernel : s.tables.kernelTable.length = s.tables.kernelSize * s.tables.kernelSize
  rows : checkKernelRows s.tables.kernelSize s.tables.kernel = .ok ()
  taps : 1 ≤ s.int "fir_taps" ∧ s.int "fir_taps" ≤ 64
  fir : s.tables.firTable.length = s.tables.firTaps
  operands : ∀ k ∈ s.tables.kernelTable ++ s.tables.firTable,
    (signedRange bits).1 ≤ k ∧ k ≤ (signedRange bits).2

theorem checkTables_ok {s : Settings} {bits : Nat} {u : Unit} (h : s.checkTables bits = .ok u) :
    Tabled s bits := by
  unfold checkTables at h
  obtain ⟨_, hSize, h⟩ := bind_ok h
  obtain ⟨_, hKernel, h⟩ := bind_ok h
  obtain ⟨_, hRows, h⟩ := bind_ok h
  obtain ⟨_, hKernelRange, h⟩ := bind_ok h
  obtain ⟨_, hTaps, h⟩ := bind_ok h
  obtain ⟨_, hFir, hFirRange⟩ := bind_ok h
  have hSize := require_ok hSize
  have hTaps := require_ok hTaps
  simp only [Bool.or_eq_true, Bool.and_eq_true, decide_eq_true_eq, beq_iff_eq] at hSize hTaps
  refine ⟨hSize, beq_iff_eq.mp (require_ok hKernel), hRows, hTaps,
    beq_iff_eq.mp (require_ok hFir), fun k hHeld => ?_⟩
  exact (List.mem_append.mp hHeld).elim (checkRange_ok_iff.mp hKernelRange k)
    (checkRange_ok_iff.mp hFirRange k)

theorem readPooling_ok {s : Settings} {result : PoolMode × Rounding}
    (h : s.readPooling = .ok result) :
    (1 ≤ s.int "pool_window" ∧ s.int "pool_window" ≤ 8) ∧ 1 ≤ s.int "pool_stride" := by
  unfold readPooling at h
  obtain ⟨_, -, h⟩ := bind_ok h
  obtain ⟨_, -, h⟩ := bind_ok h
  obtain ⟨_, hWindow, h⟩ := bind_ok h
  obtain ⟨_, hStride, -⟩ := bind_ok h
  have hWindow := require_ok hWindow
  rw [Bool.and_eq_true, decide_eq_true_eq, decide_eq_true_eq] at hWindow
  exact ⟨hWindow, of_decide_eq_true (require_ok hStride)⟩

theorem checkRun_ok {s : Settings} {u : Unit} (h : s.checkRun = .ok u) :
    1 ≤ s.int "max_cycles" ∧ s.int "start_pc" % 4 = 0 := by
  unfold checkRun at h
  obtain ⟨_, hBudget, hStart⟩ := bind_ok h
  exact ⟨of_decide_eq_true (require_ok hBudget), beq_iff_eq.mp (require_ok hStart)⟩

/-- Settings that make up a configuration make up one that reading accepts. -/
theorem accepted_of_config {s : Settings} {c : Config} (h : s.config = .ok c) : c.Accepted := by
  unfold Settings.config at h
  obtain ⟨_, -, h⟩ := bind_ok h
  obtain ⟨⟨operandType, overflow⟩, hPrecision, h⟩ := bind_ok h
  obtain ⟨mapping, hMemory, h⟩ := bind_ok h
  obtain ⟨_, hTables, h⟩ := bind_ok h
  obtain ⟨⟨mode, rounding⟩, hPooling, h⟩ := bind_ok h
  obtain ⟨_, hRun, h⟩ := bind_ok h
  cases h
  have hWidth := readPrecision_ok hPrecision
  have hShaped := readMemory_ok hMemory
  have hTabled := checkTables_ok hTables
  obtain ⟨hWindow, hStride⟩ := readPooling_ok hPooling
  obtain ⟨hBudget, hStart⟩ := checkRun_ok hRun
  refine ⟨?_, hTabled.rows, hTabled.operands⟩
  constructor <;> dsimp only [Settings.nat]
  case accWidth =>
    intro width hGiven
    split at hGiven
    · cases hGiven
    · rename_i hSome
      cases hGiven
      have := hWidth.resolve_left hSome
      dsimp only at this
      omega
  case bankCount =>
    have := hShaped.banks
    omega
  case ports =>
    have := hShaped.ports
    omega
  case memLatency =>
    have := hShaped.latency
    omega
  case interleave =>
    have := hShaped.interleave
    omega
  case memWords =>
    have := hShaped.words
    omega
  case evenMemory =>
    exact natUnit_dvd hShaped.banks.1 hShaped.interleave hShaped.words hShaped.even
  case prefetch => exact toNat_zero_iff hShaped.prefetch.1 hShaped.prefetch.2 hShaped.together
  case kernelSize =>
    have := hTabled.size
    change (s.int "kernel_size").toNat = 3 ∨ (s.int "kernel_size").toNat = 5
    omega
  case kernel => exact hTabled.kernel
  case firTaps =>
    have := hTabled.taps
    change 1 ≤ (s.int "fir_taps").toNat ∧ (s.int "fir_taps").toNat ≤ 64
    omega
  case fir => exact hTabled.fir
  all_goals omega

/-- The start of a run may be moved to another instruction. -/
theorem Accepted.startingAt {c : Config} (h : c.Accepted) {pc : Int} (hEven : pc % 4 = 0) :
    Accepted { c with startPc := pc } :=
  ⟨{ h with startPc := hEven }, h.rows, h.operands⟩

/-- A configuration that has been read is accepted. -/
theorem accepted_of_read {given : Settings} {c : Config} (h : read given = .ok c) :
    c.Accepted := by
  unfold read at h
  split at h
  · cases reject_ne_ok h
  · exact accepted_of_config h

/-- So is one whose settings were taken as they are. -/
theorem accepted_of_readExact {given : Settings} {c : Config} (h : readExact given = .ok c) :
    c.Accepted := by
  unfold readExact at h
  split at h
  · exact accepted_of_config h
  · cases h

/-- A configuration that has been read is valid. -/
theorem valid_of_read {given : Settings} {c : Config} (h : read given = .ok c) : c.Valid :=
  (accepted_of_read h).toValid

/-- So is one whose settings were taken as they are. -/
theorem valid_of_readExact {given : Settings} {c : Config} (h : readExact given = .ok c) :
    c.Valid :=
  (accepted_of_readExact h).toValid

/-- The configuration without any settings. -/
theorem valid_default : Valid {} := by
  constructor <;> decide

/-- A memory of two banks with four words each. -/
def small : Config := { bankCount := 2, memWords := 8 }

theorem accepted_small : small.Accepted :=
  ⟨by constructor <;> decide, rfl, by decide⟩

theorem valid_small : small.Valid := accepted_small.toValid

/-- The same memory with other banks, a longer latency, and nobody to watch. -/
def slow : Config :=
  { small with
    bankCount := 4, ports := 2, memLatency := 3, mapping := .stride, interleave := 2
    prefetchStride := 1, prefetchWindow := 2, trace := false, checkReference := false }

theorem valid_slow : slow.Valid := by
  constructor <;> decide

/-- A memory of twelve words, which do not divide the numbers of 64 bits, and strides of windows
that leave them. -/
def wide : Config := { bankCount := 3, memWords := 12, poolStride := 0x7fffffffffffffff }

theorem valid_wide : wide.Valid := by
  constructor <;> decide

end Config

end AccelPipe
