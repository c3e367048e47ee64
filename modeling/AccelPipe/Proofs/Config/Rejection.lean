import AccelPipe.Proofs.Config.Settings
import AccelPipe.Proofs.Text.Numeral

/-! How settings are rejected: with the field and the complaint about it, but for two slips. Rows of
a kernel are measured before it is known that all parts are rows, and a complaint cannot show a
number that has no decimal text, nor a value with too many containers inside each other. -/
namespace AccelPipe

/-- Only a number without a decimal text comes in the way of writing numbers. -/
theorem Obstacle.ofNumbers?_eq_some {ns : List Int} {o : Obstacle} (h : ofNumbers? ns = some o) :
    o = .tooLong ∧ ∃ n ∈ ns, Text.isWritable n = false := by
  unfold ofNumbers? at h
  split at h
  · cases h
  · rename_i hSome
    obtain ⟨n, hIn, hNot⟩ := List.all_eq_false.mp (Bool.not_eq_true _ ▸ hSome)
    exact ⟨(Option.some.inj h).symm, n, hIn, Bool.not_eq_true _ ▸ hNot⟩

namespace Value

/-- A list can be written if all its parts can. -/
theorem areWritable_iff {vs : List Value} :
    areWritable vs = true ↔ ∀ v ∈ vs, v.isWritable = true := by
  induction vs with
  | nil => exact ⟨fun _ => nofun, fun _ => rfl⟩
  | cons v rest ih => rw [areWritable, Bool.and_eq_true, ih, List.forall_mem_cons]

/-- A part that cannot be written keeps a list from being written. -/
theorem not_writable_of_part {vs : List Value} {v : Value} (hIn : v ∈ vs)
    (h : v.isWritable = false) : (list vs).isWritable = false := by
  rw [← Bool.not_eq_true]
  intro hAll
  rw [areWritable_iff.mp hAll v hIn] at h
  cases h

mutual

/-- How many levels a value has. One that is no container has one, and a container has one more than
what it contains. -/
def levels : Value → Nat
  | list items => levelsOf items + 1
  | record fields => levelsOfFields fields + 1
  | _ => 1

def levelsOf : List Value → Nat
  | [] => 0
  | v :: rest => max v.levels (levelsOf rest)

def levelsOfFields : List (String × Value) → Nat
  | [] => 0
  | (_, v) :: rest => max v.levels (levelsOfFields rest)

end

/-- A part has fewer levels than its list. -/
theorem levels_part {vs : List Value} {v : Value} (hIn : v ∈ vs) :
    v.levels < (list vs).levels := by
  have hLe : v.levels ≤ levelsOf vs := by
    induction vs with
    | nil => cases hIn
    | cons first rest ih =>
        unfold levelsOf
        rcases List.mem_cons.mp hIn with rfl | hIn
        · exact Nat.le_max_left _ _
        · exact Nat.le_trans (ih hIn) (Nat.le_max_right _ _)
  exact Nat.lt_succ_of_le hLe

/-- What an obstacle tells of a value that has so many levels and may be writable. -/
def Obstructs (room levels : Nat) (writable : Bool) : Obstacle → Prop
  | .tooDeep => room < levels
  | .tooLong => writable = false

theorem Obstructs.left {room levels levels' : Nat} {writable writable' : Bool} {o : Obstacle}
    (h : Obstructs room levels writable o) :
    Obstructs room (max levels levels') (writable && writable') o := by
  cases o with
  | tooDeep => exact Nat.lt_of_lt_of_le h (Nat.le_max_left _ _)
  | tooLong => exact Bool.and_eq_false_iff.mpr (.inl h)

theorem Obstructs.right {room levels levels' : Nat} {writable writable' : Bool} {o : Obstacle}
    (h : Obstructs room levels' writable' o) :
    Obstructs room (max levels levels') (writable && writable') o := by
  cases o with
  | tooDeep => exact Nat.lt_of_lt_of_le h (Nat.le_max_right _ _)
  | tooLong => exact Bool.and_eq_false_iff.mpr (.inr h)

/-- A container has one level more, and is written with what it contains. -/
theorem Obstructs.container {room levels : Nat} {writable : Bool} {o : Obstacle}
    (h : Obstructs room levels writable o) : Obstructs (room + 1) (levels + 1) writable o := by
  cases o with
  | tooDeep => exact Nat.succ_lt_succ h
  | tooLong => exact h

mutual

/-- What comes in the way of writing a value down is in the value. -/
theorem obstacle?_obstructs (room : Nat) (v : Value) (o : Obstacle)
    (h : v.obstacle? room = some o) : Obstructs room v.levels v.isWritable o := by
  cases room with
  | zero =>
      obtain rfl : Obstacle.tooDeep = o := by cases v <;> exact Option.some.inj h
      cases v <;> exact Nat.succ_pos _
  | succ room =>
      cases v with
      | int n =>
          obtain ⟨rfl, k, hIn, hLong⟩ := Obstacle.ofNumbers?_eq_some h
          rw [List.mem_singleton.mp hIn] at hLong
          exact hLong
      | list items => exact (firstObstacle?_obstructs room items o h).container
      | record fields => exact (firstObstacleOf?_obstructs room fields o h).container
      | _ => cases h

/-- What comes in the way of a list obstructs one of its parts, -/
theorem firstObstacle?_obstructs (room : Nat) (vs : List Value) (o : Obstacle)
    (h : firstObstacle? room vs = some o) : Obstructs room (levelsOf vs) (areWritable vs) o := by
  cases vs with
  | nil => cases h
  | cons v rest =>
      rcases Option.or_eq_some_iff.mp h with hHere | ⟨-, hLater⟩
      · exact (obstacle?_obstructs room v o hHere).left
      · exact (firstObstacle?_obstructs room rest o hLater).right

/-- and what comes in the way of a record one of its fields. -/
theorem firstObstacleOf?_obstructs (room : Nat) (fields : List (String × Value)) (o : Obstacle)
    (h : firstObstacleOf? room fields = some o) :
    Obstructs room (levelsOfFields fields) (haveWritable fields) o := by
  cases fields with
  | nil => cases h
  | cons field rest =>
      rcases Option.or_eq_some_iff.mp h with hHere | ⟨-, hLater⟩
      · exact (obstacle?_obstructs room field.2 o hHere).left
      · exact (firstObstacleOf?_obstructs room rest o hLater).right

end

end Value

namespace Settings

variable {s : Settings} {e : ConfigError} {name : String}

/-- The kernel starts with a row and has a single coefficient behind it. -/
def MixesRows (s : Settings) : Prop :=
  ∃ row rest n, s.get "kernel" = .list (.list row :: rest) ∧ .int n ∈ rest

/-- A value has a number without a decimal text, or the words that the banks share have none. -/
def Overlong (s : Settings) : Prop :=
  (∃ name, (s.get name).isWritable = false) ∨ Text.isWritable s.unit = false

/-- A value has more levels than a complaint shows. -/
def Overdeep (s : Settings) : Prop := ∃ name, Complaint.maxLevels < (s.get name).levels

/-- How the reading of complete settings can fail. -/
inductive Refuses (s : Settings) : ConfigError → Prop where
  | fault (f : ConfigFault) : Refuses s (.fault f)
  | mixedRows (h : s.MixesRows) : Refuses s .mixedRows
  | tooLong (h : s.Overlong) : Refuses s (.unwritable .tooLong)
  | tooDeep (h : s.Overdeep) : Refuses s (.unwritable .tooDeep)

section

/-! Numbers in complaints. -/

/-- An integer setting without a decimal text is overlong. -/
theorem overlong_of_int (h : Text.isWritable (s.int name) = false) : s.Overlong := by
  refine .inl ⟨name, ?_⟩
  unfold int at h
  split at h
  · rename_i n hGet
    rw [hGet]
    exact h
  · rw [Text.writable_of_lt (by decide)] at h
    cases h

/-- So is one in a table. -/
theorem overlong_of_part {vs : List Value} {v : Value} (hGet : s.get name = .list vs)
    (hIn : v ∈ vs) (h : v.isWritable = false) : s.Overlong :=
  .inl ⟨name, hGet ▸ Value.not_writable_of_part hIn h⟩

theorem not_writable_of_coefficient {v : Value} (h : Text.isWritable (coefficient v) = false) :
    v.isWritable = false := by
  cases v with
  | int n => exact h
  | _ =>
      change Text.isWritable 0 = false at h
      rw [Text.writable_of_lt (by decide)] at h
      cases h

theorem get_of_items {vs : List Value} (h : s.items name = some vs) : s.get name = .list vs := by
  unfold items at h
  split at h
  · rename_i hGet
    rw [hGet, Option.some.inj h]
  · cases h

end

section

/-! What comes in the way of a complaint comes from the settings. -/

variable {o : Obstacle}

/-- What comes in the way of showing a setting refuses it. -/
theorem refuses_of_value (h : (s.get name).obstacle? Complaint.maxLevels = some o) :
    s.Refuses (.unwritable o) := by
  have hTells := Value.obstacle?_obstructs _ _ o h
  cases o with
  | tooDeep => exact .tooDeep ⟨name, hTells⟩
  | tooLong => exact .tooLong (.inl ⟨name, hTells⟩)

/-- So does what comes in the way of showing a part of it. -/
theorem refuses_of_part {vs : List Value} {v : Value} (hGet : s.get name = .list vs) (hIn : v ∈ vs)
    (h : v.obstacle? Complaint.maxLevels = some o) : s.Refuses (.unwritable o) := by
  have hTells := Value.obstacle?_obstructs _ _ o h
  cases o with
  | tooDeep =>
      refine .tooDeep ⟨name, ?_⟩
      rw [hGet]
      exact Nat.lt_trans hTells (Value.levels_part hIn)
  | tooLong => exact .tooLong (overlong_of_part hGet hIn hTells)

/-- Numbers in a complaint can only be too long. -/
theorem refuses_of_numbers {ns : List Int}
    (hLong : ∀ n ∈ ns, Text.isWritable n = false → s.Overlong)
    (h : Obstacle.ofNumbers? ns = some o) : s.Refuses (.unwritable o) := by
  obtain ⟨rfl, n, hIn, hNot⟩ := Obstacle.ofNumbers?_eq_some h
  exact .tooLong (hLong n hIn hNot)

theorem refuses_of_int (name : String) (h : Obstacle.ofNumbers? [s.int name] = some o) :
    s.Refuses (.unwritable o) :=
  refuses_of_numbers (fun _ hIn hNot => overlong_of_int (List.mem_singleton.mp hIn ▸ hNot)) h

end

/-- A setting is refused with a complaint, or with what comes in the way of it. -/
theorem reject_refuses {α : Type} {field : String} {complaint : Complaint}
    (h : (reject field complaint : Except ConfigError α) = .error e)
    (hWhy : ∀ o, complaint.obstacle? = some o → s.Refuses (.unwritable o)) : s.Refuses e := by
  unfold reject at h
  split at h
  · cases h
    exact .fault _
  · rename_i o hObstacle
    cases h
    exact hWhy o hObstacle

/-- A condition that a setting does not meet refuses it. -/
theorem require_refuses {condition : Bool} {field : String} {complaint : Complaint}
    (h : require condition field complaint = .error e)
    (hWhy : ∀ o, complaint.obstacle? = some o → s.Refuses (.unwritable o)) : s.Refuses e := by
  unfold require at h
  split at h
  · cases h
  · exact reject_refuses h hWhy

/-- So does a name that is none of the options. -/
theorem choose_refuses {α : Type} {options : List α} {label : α → String}
    (h : s.choose name options label = .error e) : s.Refuses e := by
  unfold choose at h
  split at h
  · cases h
  · exact reject_refuses h fun _ => nofun

/-- A table is refused as a whole or at one of its parts. -/
theorem checkTable_refuses {rows : Bool} (h : s.checkTable name rows = .error e) :
    s.Refuses e := by
  unfold checkTable at h
  split at h
  · cases h
  · rename_i v vs hGet
    obtain ⟨part, hIn, h⟩ := forM_error h
    exact require_refuses h fun _ => refuses_of_part hGet hIn
  · exact reject_refuses h fun _ => refuses_of_value

/-- Settings of the wrong kind are refused. -/
theorem checkKinds_refuses (h : s.checkKinds = .error e) : s.Refuses e := by
  unfold checkKinds at h
  rcases bind_error h with h | ⟨_, -, h⟩
  · obtain ⟨name, -, h⟩ := forM_error h
    exact require_refuses h fun _ => refuses_of_value
  rcases bind_error h with h | ⟨_, -, h⟩
  · obtain ⟨name, -, h⟩ := forM_error h
    exact require_refuses h fun _ => refuses_of_value
  rcases bind_error h with h | ⟨_, -, h⟩
  · obtain ⟨name, -, h⟩ := forM_error h
    exact require_refuses h fun _ => refuses_of_value
  rcases bind_error h with h | ⟨_, -, h⟩
  · exact checkTable_refuses h
  · exact checkTable_refuses h

/-- Settings of the arithmetic are refused. -/
theorem readPrecision_refuses (h : s.readPrecision = .error e) : s.Refuses e := by
  unfold readPrecision at h
  rcases bind_error h with h | ⟨operandType, -, h⟩
  · exact choose_refuses h
  rcases bind_error h with h | ⟨_, -, h⟩
  · refine require_refuses h fun _ => refuses_of_numbers fun n hIn hNot => ?_
    rcases List.mem_cons.mp hIn with rfl | hIn
    · have hBits : Text.isWritable operandType.bits = true := by
        cases operandType <;> exact Text.writable_of_lt (by decide)
      cases hBits.symm.trans hNot
    · exact @overlong_of_int s "acc_width" (List.mem_singleton.mp hIn ▸ hNot)
  rcases bind_error h with h | ⟨_, -, h⟩
  · exact choose_refuses h
  · cases h

/-- Settings of the memory are refused. -/
theorem readMemory_refuses (h : s.readMemory = .error e) : s.Refuses e := by
  unfold readMemory at h
  rcases bind_error h with h | ⟨_, -, h⟩
  · exact require_refuses h fun _ => refuses_of_int "bank_count"
  rcases bind_error h with h | ⟨_, -, h⟩
  · exact require_refuses h fun _ => refuses_of_int "ports"
  rcases bind_error h with h | ⟨_, -, h⟩
  · exact require_refuses h fun _ => nofun
  rcases bind_error h with h | ⟨_, -, h⟩
  · exact choose_refuses h
  rcases bind_error h with h | ⟨_, -, h⟩
  · exact require_refuses h fun _ => nofun
  rcases bind_error h with h | ⟨_, -, h⟩
  · refine require_refuses h fun _ => refuses_of_numbers fun n hIn hNot => ?_
    rcases List.mem_cons.mp hIn with rfl | hIn
    · exact overlong_of_int hNot
    · exact .inr (List.mem_singleton.mp hIn ▸ hNot)
  rcases bind_error h with h | ⟨_, -, h⟩
  · exact require_refuses h fun _ => nofun
  rcases bind_error h with h | ⟨_, -, h⟩
  · exact require_refuses h fun _ => nofun
  · cases h

/-- The first coefficient out of range is refused. -/
theorem checkRange_error {bits index : Nat} {cs : List Int}
    (h : checkRange name bits index cs = .error e) :
    ∃ c ∈ cs, ∃ i,
      (reject name (.coefficient i c bits) : Except ConfigError Unit) = .error e := by
  induction cs generalizing index with
  | nil => cases h
  | cons c rest ih =>
      unfold checkRange at h
      dsimp only at h
      split at h
      · obtain ⟨c', hIn, hFails⟩ := ih h
        exact ⟨c', List.mem_cons_of_mem c hIn, hFails⟩
      · exact ⟨c, List.mem_cons_self, index, h⟩

/-- A coefficient of a kernel that cannot be written has been given. -/
theorem overlong_of_kernel {k : Int} (hIn : k ∈ s.tables.kernelTable)
    (h : Text.isWritable k = false) : s.Overlong := by
  unfold Config.kernelTable at hIn
  split at hIn
  case h_1 parts hParts =>
    obtain ⟨part, hPart, hIn⟩ := List.mem_flatMap.mp hIn
    obtain ⟨vs, hItems, rfl⟩ := Option.map_eq_some_iff.mp hParts
    obtain ⟨v, hValue, rfl⟩ := List.mem_map.mp hPart
    refine overlong_of_part (get_of_items hItems) hValue ?_
    cases v with
    | list row =>
        obtain ⟨w, hRow, rfl⟩ := List.mem_map.mp hIn
        exact Value.not_writable_of_part hRow (not_writable_of_coefficient h)
    | _ =>
        obtain rfl := List.mem_singleton.mp hIn
        exact not_writable_of_coefficient h
  case h_2 hNone =>
    rcases List.mem_or_eq_of_mem_set hIn with hZero | hOne
    · rw [List.eq_of_mem_replicate hZero, Text.writable_of_lt (by decide)] at h
      cases h
    · rw [hOne, Text.writable_of_lt (by decide)] at h
      cases h

theorem overlong_of_fir {k : Int} (hIn : k ∈ s.tables.firTable)
    (h : Text.isWritable k = false) : s.Overlong := by
  unfold Config.firTable at hIn
  split at hIn
  case h_1 cs hGiven =>
    obtain ⟨vs, hItems, rfl⟩ := Option.map_eq_some_iff.mp hGiven
    obtain ⟨v, hValue, rfl⟩ := List.mem_map.mp hIn
    exact overlong_of_part (get_of_items hItems) hValue (not_writable_of_coefficient h)
  case h_2 hNone =>
    rcases List.mem_cons.mp hIn with hOne | hZero
    · rw [hOne, Text.writable_of_lt (by decide)] at h
      cases h
    · rw [List.eq_of_mem_replicate hZero, Text.writable_of_lt (by decide)] at h
      cases h

/-- Rows of a kernel fail at a row of the wrong length or at a single coefficient. -/
theorem checkRows_error {size : Nat} {parts : List KernelPart}
    (h : checkRows size parts = .error e) :
    (e = .mixedRows ∧ ∃ c, .single c ∈ parts) ∨
      (reject "kernel" .kernelRows : Except ConfigError Unit) = .error e := by
  induction parts with
  | nil => cases h
  | cons part rest ih =>
      cases part with
      | single c => exact .inl ⟨(Except.error.inj h).symm, c, List.mem_cons_self⟩
      | row cs =>
          unfold checkRows at h
          split at h
          · rcases ih h with ⟨hMixed, c, hIn⟩ | hRefused
            · exact .inl ⟨hMixed, c, List.mem_cons_of_mem _ hIn⟩
            · exact .inr hRefused
          · exact .inr h

/-- Once the kinds have been checked, a kernel consists of integers and rows of integers. -/
theorem coefficients_of_kinds {vs : List Value} (hKinds : s.checkKinds = .ok ())
    (hGet : s.get "kernel" = .list vs) : ∀ v ∈ vs, isCoefficients true v = true := by
  unfold checkKinds at hKinds
  obtain ⟨_, -, hKinds⟩ := bind_ok hKinds
  obtain ⟨_, -, hKinds⟩ := bind_ok hKinds
  obtain ⟨_, -, hKinds⟩ := bind_ok hKinds
  obtain ⟨_, hKernel, -⟩ := bind_ok hKinds
  unfold checkTable at hKernel
  rw [hGet] at hKernel
  cases vs with
  | nil => cases reject_ne_ok hKernel
  | cons v vs => exact fun part hIn => require_ok (forM_ok hKernel part hIn)

/-- Parts that start with a row and have a single coefficient among them mix rows. -/
theorem mixesRows_of_parts {vs : List Value} {c : Int} (hKinds : s.checkKinds = .ok ())
    (hItems : s.items "kernel" = some vs) (hRow : startsWithRow (vs.map part) = true)
    (hSingle : .single c ∈ vs.map part) : s.MixesRows := by
  have hGet := get_of_items hItems
  obtain ⟨v, hIn, hPart⟩ := List.mem_map.mp hSingle
  cases vs with
  | nil => cases hIn
  | cons first rest =>
      cases first with
      | list row =>
          rcases List.mem_cons.mp hIn with rfl | hIn
          · cases hPart
          · have hKind := coefficients_of_kinds hKinds hGet v (List.mem_cons_of_mem _ hIn)
            cases v with
            | int n => exact ⟨row, rest, n, hGet, hIn⟩
            | list row => cases hPart
            | _ => cases hKind
      | _ => cases hRow

/-- With the right kinds, only mixed rows let the check of the rows fail otherwise. -/
theorem checkKernelRows_refuses {size : Nat} (hKinds : s.checkKinds = .ok ())
    (h : checkKernelRows size s.tables.kernel = .error e) : s.Refuses e := by
  unfold checkKernelRows at h
  split at h
  case h_1 parts hParts =>
    obtain ⟨vs, hItems, rfl⟩ := Option.map_eq_some_iff.mp hParts
    split at h
    case isTrue hRow =>
      rcases checkRows_error h with ⟨rfl, c, hSingle⟩ | h
      · exact .mixedRows (mixesRows_of_parts hKinds hItems hRow hSingle)
      · exact reject_refuses h fun _ => nofun
    case isFalse => cases h
  case h_2 => cases h

/-- With the right kinds, tables are refused. -/
theorem checkTables_refuses {bits : Nat} (hKinds : s.checkKinds = .ok ())
    (h : s.checkTables bits = .error e) : s.Refuses e := by
  unfold checkTables at h
  rcases bind_error h with h | ⟨_, hSize, h⟩
  · exact require_refuses h fun _ => refuses_of_int "kernel_size"
  have hSize := require_ok hSize
  rw [Bool.or_eq_true, beq_iff_eq, beq_iff_eq] at hSize
  rcases bind_error h with h | ⟨_, -, h⟩
  · have hSame : ((s.nat "kernel_size" : Nat) : Int) = s.int "kernel_size" :=
      Int.toNat_of_nonneg (by omega)
    exact require_refuses h fun _ hLong => refuses_of_int "kernel_size" (hSame ▸ hLong)
  rcases bind_error h with h | ⟨_, -, h⟩
  · exact checkKernelRows_refuses hKinds h
  rcases bind_error h with h | ⟨_, -, h⟩
  · obtain ⟨k, hIn, _, h⟩ := checkRange_error h
    exact reject_refuses h fun _ => refuses_of_numbers fun _ hOne hNot =>
      overlong_of_kernel hIn (List.mem_singleton.mp hOne ▸ hNot)
  rcases bind_error h with h | ⟨_, hTaps, h⟩
  · exact require_refuses h fun _ => refuses_of_int "fir_taps"
  have hTaps := require_ok hTaps
  rw [Bool.and_eq_true, decide_eq_true_eq, decide_eq_true_eq] at hTaps
  rcases bind_error h with h | ⟨_, -, h⟩
  · have hSame : ((s.nat "fir_taps" : Nat) : Int) = s.int "fir_taps" :=
      Int.toNat_of_nonneg (by omega)
    exact require_refuses h fun _ hLong => refuses_of_int "fir_taps" (hSame ▸ hLong)
  · obtain ⟨k, hIn, _, h⟩ := checkRange_error h
    exact reject_refuses h fun _ => refuses_of_numbers fun _ hOne hNot =>
      overlong_of_fir hIn (List.mem_singleton.mp hOne ▸ hNot)

/-- Settings of pooling are refused. -/
theorem readPooling_refuses (h : s.readPooling = .error e) : s.Refuses e := by
  unfold readPooling at h
  rcases bind_error h with h | ⟨_, -, h⟩
  · exact choose_refuses h
  rcases bind_error h with h | ⟨_, -, h⟩
  · exact choose_refuses h
  rcases bind_error h with h | ⟨_, -, h⟩
  · exact require_refuses h fun _ => refuses_of_int "pool_window"
  rcases bind_error h with h | ⟨_, -, h⟩
  · exact require_refuses h fun _ => nofun
  · cases h

/-- Settings of a run are refused. -/
theorem checkRun_refuses (h : s.checkRun = .error e) : s.Refuses e := by
  unfold checkRun at h
  rcases bind_error h with h | ⟨_, -, h⟩
  · exact require_refuses h fun _ => nofun
  · exact require_refuses h fun _ => nofun

/-- What rejects complete settings. -/
theorem config_refuses (h : s.config = .error e) : s.Refuses e := by
  unfold config at h
  rcases bind_error h with h | ⟨_, hKinds, h⟩
  · exact checkKinds_refuses h
  rcases bind_error h with h | ⟨_, -, h⟩
  · exact readPrecision_refuses h
  rcases bind_error h with h | ⟨_, -, h⟩
  · exact readMemory_refuses h
  rcases bind_error h with h | ⟨_, -, h⟩
  · exact checkTables_refuses hKinds h
  rcases bind_error h with h | ⟨_, -, h⟩
  · exact readPooling_refuses h
  rcases bind_error h with h | ⟨_, -, h⟩
  · exact checkRun_refuses h
  · cases h

/-- Given settings spelled out, with the defaults for those that are not given. -/
def complete (given : Settings) : Settings := defaults.override (given.map spellOut)

end Settings

namespace Config

open Settings

/-- What rejects given settings. -/
theorem read_refuses {given : Settings} {e : ConfigError} (h : read given = .error e) :
    given.complete.Refuses e := by
  unfold read at h
  split at h
  · exact reject_refuses h fun _ => nofun
  · exact config_refuses h

/-- Given settings are read, or rejected with a fault unless they mix rows of a kernel, lead to a
number without a decimal text, or have a value of more levels than a complaint shows. So are the
changes to a configuration that has been read, unless they name the configuration itself, and it
stands as it was if they are rejected: as the settings that it is made of, it reads back as itself. -/
theorem read_or_refuse (given : Settings) :
    (∀ e, read given = .error e → given.complete.Refuses e) ∧
      ∀ c, read given = .ok c →
        c.replace [] = .ok c ∧
          ∀ changes : Settings,
            if (changes.lookup ownName).isSome then c.replace changes = .error .unknownSetting
            else ∀ e, c.replace changes = .error e →
              (override c.settings changes).complete.Refuses e := by
  refine ⟨fun e => read_refuses, fun c hRead => ⟨replace_nil (accepted_of_read hRead), ?_⟩⟩
  intro changes
  unfold replace
  split
  · rfl
  · exact fun e => read_refuses

/-- A kernel of one row and six single coefficients. -/
def raggedKernel : Settings :=
  [("kernel", .list [.ints [0, 0, 0], .int 0, .int 0, .int 0, .int 0, .int 0, .int 0])]

/-- The ragged kernel, a stride of zero, and a change of the configuration itself. -/
theorem read_or_refuse_of_raggedKernel :
    (read raggedKernel = .error .mixedRows ∧ raggedKernel.complete.Refuses .mixedRows) ∧
      read [] = .ok {} ∧ replace {} [] = .ok {} ∧
        replace {} [("pool_stride", .int 0)] = .error (.fault ⟨"pool_stride", .noStride⟩) ∧
          (override (settings {}) [("pool_stride", .int 0)]).complete.Refuses
            (.fault ⟨"pool_stride", .noStride⟩) ∧
          replace {} [(ownName, .null)] = .error .unknownSetting := by
  have hRagged : read raggedKernel = .error .mixedRows := rfl
  have hDefault : read [] = .ok {} := rfl
  have hStride : replace {} [("pool_stride", .int 0)] = .error (.fault ⟨"pool_stride", .noStride⟩) :=
    rfl
  obtain ⟨hSame, hChanges⟩ := (read_or_refuse []).2 {} hDefault
  have hRefuses := hChanges [("pool_stride", .int 0)]
  rw [if_neg (by decide)] at hRefuses
  have hOwn := hChanges [(ownName, .null)]
  rw [if_pos (by decide)] at hOwn
  exact ⟨⟨hRagged, (read_or_refuse raggedKernel).1 _ hRagged⟩, hDefault, hSame, hStride,
    hRefuses _ hStride, hOwn⟩

/-- Settings can be rejected without a fault. -/
theorem not_fault_of_raggedKernel :
    ¬ ∀ given : Settings,
      (∃ c, read given = .ok c) ∨ ∃ f, read given = .error (.fault f) := by
  intro h
  have hRagged : read raggedKernel = .error .mixedRows := rfl
  rcases h raggedKernel with ⟨c, hRead⟩ | ⟨f, hFault⟩
  · cases hRagged.symm.trans hRead
  · cases hRagged.symm.trans hFault

end Config

end AccelPipe
