import AccelPipe.Proofs.Config.Valid

/-! A configuration written out as settings and read back. What reading accepts reads back as it
is, and a new start address is the only thing about it that can then be rejected. -/
namespace AccelPipe

/-- A field that is not among the first ones is assigned behind them. -/
theorem assign_append_of_notMem {α : Type} {fields rest : List (String × α)} {name : String}
    {value : α} (h : name ∉ fields.map (·.1)) :
    assign (fields ++ rest) name value = fields ++ assign rest name value := by
  induction fields with
  | nil => rfl
  | cons f fields ih =>
      rw [List.map_cons, List.mem_cons, not_or] at h
      change (if f.1 = name then _ else f :: assign (fields ++ rest) name value) = _
      rw [if_neg (Ne.symm h.1), ih h.2]
      rfl

namespace Settings

/-- Settings under the same names replace others one by one. -/
theorem override_of_names {done old new : Settings} (hSame : old.map (·.1) = new.map (·.1))
    (hOnce : ((done ++ new).map (·.1)).Nodup) : override (done ++ old) new = done ++ new := by
  induction new generalizing done old with
  | nil =>
      rw [List.map_eq_nil_iff.mp hSame]
      rfl
  | cons f new ih =>
      cases old with
      | nil => cases hSame
      | cons g old =>
          obtain ⟨hName, hRest⟩ := List.cons.inj hSame
          have hNew : f.1 ∉ done.map (·.1) := by
            rw [List.map_append] at hOnce
            exact fun hOld => (List.nodup_append.mp hOnce).2.2 f.1 hOld f.1 List.mem_cons_self rfl
          have hAssign : assign (g :: old) f.1 f.2 = f :: old := by
            change (if g.1 = f.1 then (g.1, f.2) :: old else _) = _
            rw [if_pos hName, show g.1 = f.1 from hName]
          change override (assign (done ++ g :: old) f.1 f.2) new = _
          rw [assign_append_of_notMem hNew, hAssign, List.append_cons, List.append_cons done f new]
          exact ih hRest (by rwa [← List.append_cons])

/-- Settings are spelled as they are, ports and the precision aside. -/
theorem spellOut_of_name {name : String} {value : Value} (hPorts : name ≠ "ports")
    (hPrecision : name ≠ "precision") : spellOut (name, value) = (name, value) := by
  unfold spellOut
  split
  · rename_i hField
    exact (hPorts (congrArg Prod.fst hField)).elim
  · rename_i hField
    exact (hPrecision (congrArg Prod.fst hField)).elim
  · rfl

/-- The name of a precision is spelled as it is. -/
theorem spellOut_precision (o : OperandType) :
    spellOut ("precision", .text o.name) = ("precision", .text o.name) := by
  have hUpper : String.ofList (Text.upper o.name.toList) = o.name := by
    cases o <;> decide +kernel
  exact congrArg (fun t => ("precision", Value.text t)) hUpper

theorem require_of {condition : Bool} {field : String} {complaint : Complaint}
    (h : condition = true) : require condition field complaint = .ok () :=
  if_pos h

variable {s : Settings} {name : String}

/-- The name of an option chooses it. -/
theorem choose_of_find {α : Type} {options : List α} {label : α → String} {o : α}
    (h : (options.find? fun p => label p == s.text name) = some o) :
    s.choose name options label = .ok o := by
  unfold choose
  rw [h]

section

variable {α : Type} {g : Option (List α)} {f : α → Value}

/-- A table that is given is read part by part. -/
theorem items_of_given (hGet : s.get name = .orNull (fun xs => .list (xs.map f)) g) :
    s.items name = g.map (·.map f) := by
  unfold items
  rw [hGet]
  cases g <;> rfl

theorem checkTable_of_given {rows : Bool}
    (hGet : s.get name = .orNull (fun xs => .list (xs.map f)) g)
    (hSome : g ≠ some []) (hParts : ∀ x, isCoefficients rows (f x) = true) :
    s.checkTable name rows = .ok () := by
  unfold checkTable
  rw [hGet]
  match g with
  | none => rfl
  | some [] => exact (hSome rfl).elim
  | some (x :: xs) =>
      refine forM_of_ok fun v hIn => require_of ?_
      obtain ⟨y, -, rfl⟩ := List.mem_map (l := x :: xs).mp hIn
      exact hParts y

end

end Settings

namespace Config

open Settings

variable {c : Config}

section

/-! The settings of a configuration have a place for each of its fields. -/

/-- Settings that are all given leave no default. -/
theorem defaults_override : override Settings.defaults c.settings = c.settings := by
  refine @override_of_names [] _ _ rfl ?_
  change (Settings.defaults.map (·.1)).Nodup
  decide +kernel

theorem map_spellOut : c.settings.map spellOut = c.settings := by
  have hPorts : spellOut ("ports", .int c.ports) = ("ports", .int c.ports) := rfl
  simp only [settings, List.map_cons, List.map_nil, spellOut_precision, hPorts,
    spellOut_of_name, ne_eq, String.reduceEq, not_false_eq_true]

/-- A configuration has no settings but its own. -/
theorem strangers_settings : strangers c.settings = [] := by
  change strangers Settings.defaults = []
  decide +kernel

/-- The width of the accumulator may be left open. -/
theorem get_accWidth :
    get c.settings "acc_width" = .orNull (fun n : Nat => .int n) c.accWidth :=
  rfl

theorem int_accWidth : int c.settings "acc_width" = (c.accWidth.getD 0 : Nat) := by
  unfold int
  rw [get_accWidth]
  cases c.accWidth <;> rfl

theorem accWidth_settings :
    (if isNull (get c.settings "acc_width") then none else some (nat c.settings "acc_width")) =
      c.accWidth := by
  unfold nat int
  rw [get_accWidth]
  cases c.accWidth <;> rfl

/-- The kernel of a configuration is read back, -/
theorem parts_settings : parts c.settings = c.kernel := by
  unfold parts
  rw [items_of_given (g := c.kernel) (f := KernelPart.value) rfl, Option.map_map]
  refine (Option.map_congr fun parts _ => ?_).trans (congrFun Option.map_id _)
  refine List.map_map.trans ((List.map_congr_left fun part _ => ?_).trans (List.map_id _))
  cases part with
  | single k => rfl
  | row cs => exact congrArg KernelPart.row (List.map_map.trans (List.map_id _))

/-- and so are the coefficients of its filter. -/
theorem coefficients_settings : coefficients c.settings = c.firCoeffs := by
  unfold coefficients
  rw [items_of_given (g := c.firCoeffs) (f := Value.int) rfl, Option.map_map]
  refine (Option.map_congr fun cs _ => ?_).trans (congrFun Option.map_id _)
  exact List.map_map.trans (List.map_id _)

theorem tables_settings :
    tables c.settings =
      { kernelSize := c.kernelSize, kernel := c.kernel, firTaps := c.firTaps,
        firCoeffs := c.firCoeffs } := by
  unfold tables
  rw [parts_settings, coefficients_settings]
  rfl

end

/-- Parts of a kernel are coefficients or rows of them. -/
theorem isCoefficients_value (part : KernelPart) : isCoefficients true part.value = true := by
  cases part with
  | single k => rfl
  | row cs =>
      change (cs.map Value.int).all isInteger = true
      rw [List.all_map]
      exact List.all_eq_true.mpr fun _ _ => rfl

/-- A kernel that is accepted is not empty. -/
theorem Valid.kernel_ne_nil (h : c.Valid) : c.kernel ≠ some [] := by
  intro hNone
  have hLength := h.kernel
  unfold kernelTable at hLength
  rw [hNone] at hLength
  rcases h.kernelSize with hSize | hSize <;> rw [hSize] at hLength <;> cases hLength

theorem Valid.firCoeffs_ne_nil (h : c.Valid) : c.firCoeffs ≠ some [] := by
  intro hNone
  have hLength := h.fir
  unfold firTable at hLength
  rw [hNone] at hLength
  exact absurd h.firTaps.1 (by rw [← hLength]; exact Nat.not_succ_le_zero 0)

/-- The settings of a configuration are of the right kinds. -/
theorem checkKinds_settings (hKernel : c.kernel ≠ some []) (hFir : c.firCoeffs ≠ some []) :
    checkKinds c.settings = .ok () := by
  unfold checkKinds
  refine (bind_of_ok (forM_of_ok fun name hIn => require_of ?_)).trans ?_
  case refine_1 =>
    revert name
    simp only [integerNames, List.forall_mem_cons]
    refine ⟨?_, rfl, rfl, rfl, rfl, rfl, rfl, rfl, rfl, rfl, rfl, rfl, rfl, rfl, nofun⟩
    change (isInteger (.orNull _ c.accWidth) || (true && isNull (.orNull _ c.accWidth))) = true
    cases c.accWidth <;> rfl
  refine (bind_of_ok (forM_of_ok fun name hIn => require_of ?_)).trans ?_
  case refine_1 =>
    revert name
    simp only [textNames, List.forall_mem_cons]
    exact ⟨rfl, rfl, rfl, rfl, rfl, nofun⟩
  refine (bind_of_ok (forM_of_ok fun name hIn => require_of ?_)).trans ?_
  case refine_1 =>
    revert name
    simp only [truthNames, List.forall_mem_cons]
    exact ⟨rfl, rfl, nofun⟩
  refine (bind_of_ok (a := ()) ?_).trans ?_
  case refine_1 => exact checkTable_of_given (g := c.kernel) rfl hKernel isCoefficients_value
  exact checkTable_of_given (g := c.firCoeffs) rfl hFir fun _ => rfl

/-- The arithmetic of a configuration is read back. -/
theorem readPrecision_settings (h : ∀ width, c.accWidth = some width →
    c.operandType.bits ≤ width ∧ width ≤ 64) :
    readPrecision c.settings = .ok (c.operandType, c.overflow) := by
  unfold readPrecision
  refine (bind_of_ok (choose_of_find (o := c.operandType) ?_)).trans ?_
  case refine_1 =>
    change (OperandType.all.find? fun o => o.name == c.operandType.name) = _
    cases c.operandType <;> rfl
  refine (bind_of_ok (require_of ?_)).trans ?_
  case refine_1 =>
    rw [int_accWidth, get_accWidth]
    cases hGiven : c.accWidth with
    | none => rfl
    | some width =>
        obtain ⟨hLow, hHigh⟩ := h width hGiven
        simp only [Value.orNull, isNull, Option.getD_some, Bool.false_or, Bool.and_eq_true,
          decide_eq_true_eq]
        omega
  refine bind_of_ok (choose_of_find (o := c.overflow) ?_)
  change ([OverflowRule.clamp, .wrap].find? fun o => o.name == c.overflow.name) = _
  cases c.overflow <;> rfl

/-- The memory of a configuration is read back. -/
theorem readMemory_settings (h : c.Valid) : readMemory c.settings = .ok c.mapping := by
  unfold readMemory
  refine (bind_of_ok (require_of ?_)).trans ?_
  case refine_1 =>
    change (decide ((2 : Int) ≤ c.bankCount) && decide ((c.bankCount : Int) ≤ 8)) = true
    have := h.bankCount
    rw [Bool.and_eq_true, decide_eq_true_eq, decide_eq_true_eq]
    omega
  refine (bind_of_ok (require_of ?_)).trans ?_
  case refine_1 =>
    change ((c.ports : Int) == 1 || (c.ports : Int) == 2) = true
    have := h.ports
    rw [Bool.or_eq_true, beq_iff_eq, beq_iff_eq]
    omega
  refine (bind_of_ok (require_of (decide_eq_true (Int.ofNat_le.mpr h.memLatency)))).trans ?_
  refine (bind_of_ok (choose_of_find (o := c.mapping) ?_)).trans ?_
  case refine_1 =>
    change ([BankMapping.modulo, .stride].find? fun o => o.name == c.mapping.name) = _
    cases c.mapping <;> rfl
  refine (bind_of_ok (require_of (decide_eq_true (Int.ofNat_le.mpr h.interleave)))).trans ?_
  refine (bind_of_ok (require_of ?_)).trans ?_
  case refine_1 =>
    change (decide ((0 : Int) < c.memWords) &&
      (c.memWords : Int) % ((c.bankCount : Int) * c.interleave) == 0) = true
    have hEven : ((c.bankCount * c.interleave : Nat) : Int) ∣ c.memWords :=
      Int.natCast_dvd_natCast.mpr h.evenMemory
    rw [Int.natCast_mul] at hEven
    rw [Int.emod_eq_zero_of_dvd hEven, decide_eq_true (Int.natCast_pos.mpr h.memWords)]
    rfl
  refine (bind_of_ok (require_of ?_)).trans ?_
  case refine_1 =>
    change (decide ((0 : Int) ≤ c.prefetchStride) && decide ((0 : Int) ≤ c.prefetchWindow)) = true
    rw [decide_eq_true (Int.natCast_nonneg _), decide_eq_true (Int.natCast_nonneg _)]
    rfl
  refine bind_of_ok (require_of ?_)
  change (((c.prefetchStride : Int) == 0) == ((c.prefetchWindow : Int) == 0)) = true
  have := h.prefetch
  rw [beq_iff_eq, Bool.eq_iff_iff, beq_iff_eq, beq_iff_eq]
  omega

/-- The tables of a configuration pass their checks. -/
theorem checkTables_settings (h : c.Accepted) :
    checkTables c.settings c.operandType.bits = .ok () := by
  unfold checkTables
  rw [tables_settings]
  refine (bind_of_ok (require_of ?_)).trans ?_
  case refine_1 =>
    change ((c.kernelSize : Int) == 3 || (c.kernelSize : Int) == 5) = true
    have := h.kernelSize
    rw [Bool.or_eq_true, beq_iff_eq, beq_iff_eq]
    omega
  refine (bind_of_ok (require_of (beq_iff_eq.mpr h.kernel))).trans ?_
  refine (bind_of_ok h.rows).trans ?_
  refine (bind_of_ok (checkRange_ok_iff.mpr fun k hIn =>
    h.operands k (List.mem_append_left _ hIn))).trans ?_
  refine (bind_of_ok (require_of ?_)).trans ?_
  case refine_1 =>
    change (decide ((1 : Int) ≤ c.firTaps) && decide ((c.firTaps : Int) ≤ 64)) = true
    have := h.firTaps
    rw [Bool.and_eq_true, decide_eq_true_eq, decide_eq_true_eq]
    omega
  refine (bind_of_ok (require_of (beq_iff_eq.mpr h.fir))).trans ?_
  exact checkRange_ok_iff.mpr fun k hIn => h.operands k (List.mem_append_right _ hIn)

/-- The pooling of a configuration is read back. -/
theorem readPooling_settings (h : c.Valid) :
    readPooling c.settings = .ok (c.poolMode, c.poolRounding) := by
  unfold readPooling
  refine (bind_of_ok (choose_of_find (o := c.poolMode) ?_)).trans ?_
  case refine_1 =>
    change ([PoolMode.max, .avg].find? fun o => o.name == c.poolMode.name) = _
    cases c.poolMode <;> rfl
  refine (bind_of_ok (choose_of_find (o := c.poolRounding) ?_)).trans ?_
  case refine_1 =>
    change ([Rounding.floor, .nearest].find? fun o => o.name == c.poolRounding.name) = _
    cases c.poolRounding <;> rfl
  refine (bind_of_ok (require_of ?_)).trans ?_
  case refine_1 =>
    change (decide ((1 : Int) ≤ c.poolWindow) && decide ((c.poolWindow : Int) ≤ 8)) = true
    have := h.poolWindow
    rw [Bool.and_eq_true, decide_eq_true_eq, decide_eq_true_eq]
    omega
  exact bind_of_ok (require_of (decide_eq_true (Int.ofNat_le.mpr h.poolStride)))

/-- Why a start address can be rejected. -/
def unalignedStart : ConfigError := .fault ⟨"start_pc", .unalignedStart⟩

/-- A run passes its checks if it starts at a word. -/
theorem checkRun_settings (hBudget : 1 ≤ c.maxCycles) :
    checkRun c.settings = if c.startPc % 4 = 0 then .ok () else .error unalignedStart := by
  refine (bind_of_ok (require_of (decide_eq_true (Int.ofNat_le.mpr hBudget)))).trans ?_
  change require (c.startPc % 4 == 0) "start_pc" .unalignedStart = _
  split
  case isTrue hEven => exact require_of (beq_iff_eq.mpr hEven)
  case isFalse hUneven => exact if_neg (mt beq_iff_eq.mp hUneven)

/-- Once the groups of checks pass, the settings of a configuration describe it. -/
theorem config_settings {run : Except ConfigError Unit} (hKinds : checkKinds c.settings = .ok ())
    (hPrecision : readPrecision c.settings = .ok (c.operandType, c.overflow))
    (hMemory : readMemory c.settings = .ok c.mapping)
    (hTables : checkTables c.settings c.operandType.bits = .ok ())
    (hPooling : readPooling c.settings = .ok (c.poolMode, c.poolRounding))
    (hRun : checkRun c.settings = run) : Settings.config c.settings = run.map fun _ => c := by
  unfold Settings.config
  rw [hKinds, ok_bind, hPrecision, ok_bind]
  dsimp only
  rw [hMemory, ok_bind, hTables, ok_bind, hPooling, ok_bind, hRun, tables_settings,
    accWidth_settings]
  cases run <;> rfl

/-- An accepted configuration started at another address reads back as itself, unless that address
lies between two instructions. -/
theorem read_settings (h : c.Accepted) (pc : Int) :
    read ({ c with startPc := pc } : Config).settings =
      if pc % 4 = 0 then .ok { c with startPc := pc } else .error unalignedStart := by
  -- only the last group of checks looks at the address
  have hMemory := readMemory_settings h.toValid
  have hTables := checkTables_settings h
  have hPooling := readPooling_settings h.toValid
  unfold read
  rw [strangers_settings, map_spellOut, defaults_override]
  refine (config_settings (c := { c with startPc := pc })
    (checkKinds_settings h.kernel_ne_nil h.firCoeffs_ne_nil) (readPrecision_settings h.accWidth)
    hMemory hTables hPooling (checkRun_settings h.maxCycles)).trans ?_
  dsimp only
  split <;> rfl

/-- Replacing nothing changes nothing. -/
theorem replace_nil (h : c.Accepted) : c.replace [] = .ok c :=
  (read_settings h c.startPc).trans (if_pos h.startPc)

/-- A configuration with another start is accepted if that is the address of a word. -/
theorem replace_startPc (h : c.Accepted) (pc : Int) :
    c.replace [("start_pc", .int pc)] =
      if pc % 4 = 0 then .ok { c with startPc := pc } else .error unalignedStart :=
  read_settings h pc

end Config

end AccelPipe
