import AccelPipe.Proofs.Pipeline.Timing

/-! When every instruction of a run gets from stage to stage. The times of an instruction follow
from those of the instructions before it, one after the other, without a look at the pipeline: what
it has to wait for is the stage in front of it, the values and units that others still have, and
the ports of the memory, which are taken in the order of the program. -/
namespace AccelPipe

/-- The first cycle at which one of the ports is free. -/
def opening (ports : List Int) : Nat := (ports.min?.getD 0).toNat

/-- The ports after an access has taken the first free one for some ticks. -/
def takePort (cycle ticks : Int) (ports : List Int) : List Int :=
  match ports.findIdx? fun t => decide (t ≤ cycle) with
  | some port => ports.set port (cycle + ticks)
  | none => ports

/-- The latest of some times. -/
def latest (time : Nat) (times : List Nat) : Nat := times.foldr max time

/-- A bank opens once one of its ports is free. -/
theorem opening_le_iff {ports : List Int} (h : ports ≠ []) {cycle : Nat} :
    opening ports ≤ cycle ↔ ∃ t ∈ ports, t ≤ (cycle : Int) := by
  obtain ⟨first, hFirst⟩ := Option.isSome_iff_exists.mp (List.isSome_min?_of_ne_nil h)
  obtain ⟨hMem, hLeast⟩ := List.min?_eq_some_iff.mp hFirst
  unfold opening
  rw [hFirst, Option.getD_some, Int.toNat_le]
  constructor
  · intro hOpen
    exact ⟨first, hMem, hOpen⟩
  · rintro ⟨t, hHeld, hOpen⟩
    exact Int.le_trans (hLeast t hHeld) hOpen

/-- A bank keeps its ports, whoever takes them. -/
theorem takePort_ne_nil {ports : List Int} (h : ports ≠ []) (cycle ticks : Int) :
    takePort cycle ticks ports ≠ [] := by
  unfold takePort
  split
  · intro hNone
    exact h ((List.set_eq_nil_iff _ _).mp hNone)
  · exact h

/-- Nothing is taken as long as no port is free. -/
theorem takePort_of_shut {ports : List Int} {cycle : Int} (h : ∀ t ∈ ports, cycle < t)
    (ticks : Int) : takePort cycle ticks ports = ports := by
  unfold takePort
  rw [List.findIdx?_eq_none_iff.mpr]
  intro t hHeld
  exact decide_eq_false (Int.not_le.mpr (h t hHeld))

/-- Before a bank opens, all its ports are busy. -/
theorem shut_of_lt_opening {ports : List Int} {cycle : Nat} (h : cycle < opening ports) :
    ∀ t ∈ ports, (cycle : Int) < t := by
  intro t hHeld
  apply Int.not_le.mp
  intro hOpen
  exact Nat.not_le.mpr h ((opening_le_iff (List.ne_nil_of_mem hHeld)).mpr ⟨t, hHeld, hOpen⟩)

/-- Taking a port never frees one earlier. -/
theorem opening_le_takePort {ports : List Int} (h : ports ≠ []) (cycle ticks : Nat) :
    opening ports ≤ opening (takePort cycle ticks ports) := by
  obtain ⟨t, hHeld, hOpen⟩ :=
    (opening_le_iff (takePort_ne_nil h cycle ticks)).mp (Nat.le_refl _)
  rw [opening_le_iff h]
  unfold takePort at hHeld
  split at hHeld
  · rename_i port hPort
    rcases List.mem_or_eq_of_mem_set hHeld with hOld | rfl
    · exact ⟨t, hOld, hOpen⟩
    · obtain ⟨hPlace, hFree, -⟩ := List.findIdx?_eq_some_iff_getElem.mp hPort
      exact ⟨_, List.getElem_mem hPlace, by
        have hEarly := of_decide_eq_true hFree
        omega⟩
  · exact ⟨t, hHeld, hOpen⟩

/-- The latest of some times has come once all of them have. -/
theorem latest_le_iff {time : Nat} {times : List Nat} {cycle : Nat} :
    latest time times ≤ cycle ↔ time ≤ cycle ∧ ∀ t ∈ times, t ≤ cycle := by
  unfold latest
  induction times with
  | nil => simp
  | cons t times ih =>
      rw [List.foldr_cons, Nat.max_le, ih, List.forall_mem_cons]
      exact and_left_comm

namespace Machine

variable (a : Machine)

/-- The address of the next instruction, if it is a load or a store. -/
def address : Int := a.performed.1.memAddr.getD 0

/-- The addresses that the next instruction reads in Execute. -/
def reads : List Int :=
  match Accelerator.ofKind? a.instruction.kind with
  | some acc => a.units.reads acc a.instruction a.operands
  | none => []

theorem reads_of_kind {a : Machine} {acc : Accelerator} (h : a.instruction.kind = acc.kind) :
    a.reads = a.units.reads acc a.instruction a.operands := by
  unfold reads
  rw [h, acc.ofKind?_kind]

/-- Only accelerators read memory when they are executed. -/
theorem reads_of_plain {a : Machine} (h : ∀ acc : Accelerator, a.instruction.kind ≠ acc.kind) :
    a.reads = [] := by
  unfold reads
  cases hKind : a.instruction.kind with
  | mac => exact absurd hKind (h .mac)
  | relu => exact absurd hKind (h .relu)
  | conv2d => exact absurd hKind (h .conv2d)
  | fir => exact absurd hKind (h .fir)
  | pool => exact absurd hKind (h .pool)
  | _ => rfl

end Machine

/-- What the instructions so far mean for the times of the next one, which is that of the machine.
All times are cycles, at whose beginning something has come to pass. -/
structure Timetable where
  config : Config
  machine : Machine
  /-- The next instruction is in Decode. -/
  decode : Nat := 1
  /-- The last instruction is in Memory. -/
  memory : Nat := 0
  /-- The last instruction is in Writeback. -/
  writeback : Nat := 0
  /-- The last load of a register has its word. -/
  loads : Nat → Nat := fun _ => 0
  /-- The last instruction of a kind has left Memory behind it for one cycle. -/
  units : Kind → Nat := fun _ => 0
  /-- The last store has left Memory behind it for one cycle. -/
  stores : Nat := 0
  /-- For each bank until when its ports are taken. -/
  ports : Nat → List Int
  /-- The addresses of the prefetched words. -/
  buffer : List Nat := []

namespace Timetable

/-- The beginning of a run. -/
def start (c : Config) (a : Machine) : Timetable where
  config := c
  machine := a
  ports := fun _ => List.replicate c.ports 0

variable (b : Timetable)

/-- The memory of the configuration, for the places that addresses have in it. -/
def place : Memory := Memory.fresh b.config

def instruction : Instruction := b.machine.instruction

/-- Whether the next instruction is a load of a prefetched word. -/
def hits : Bool :=
  b.instruction.kind == .load && b.buffer.contains (b.place.wrap b.machine.address)

/-- The bank that the next instruction needs in Memory. -/
def door : Option Nat :=
  if (b.instruction.kind == .load || b.instruction.kind == .store) && !b.hits then
    some (b.place.bankOf b.machine.address)
  else none

/-- The banks that the next instruction needs in Execute. -/
def doors : List Nat := b.place.touched b.machine.reads

/-- The times until which others keep the next instruction in Decode. -/
def hazards : List Nat :=
  (Hazard.sourceRegisters b.instruction).map b.loads ++
    if ((Accelerator.all.filter Accelerator.blocking).map Accelerator.kind).contains
      b.instruction.kind then [b.units b.instruction.kind] else []

/-- The times until which others keep the next instruction from starting in Execute. -/
def queue : List Nat :=
  if b.machine.reads = [] then [] else b.stores :: b.doors.map fun i => opening (b.ports i) + 1

/-! The times of the next instruction. -/

/-- It is in Execute. -/
def executes : Nat := latest (max (b.decode + 1) b.memory) b.hazards

/-- It has started there. -/
def starts : Nat := latest (b.executes + 1) b.queue

/-- Its work in Execute is done. -/
def worked : Nat := b.starts + b.machine.units.beats b.instruction - 1

/-- It is in Memory. -/
def arrives : Nat := max b.worked b.writeback

/-- Its access has begun. -/
def begins : Nat :=
  match b.door with
  | some i => max (b.arrives + 1) (opening (b.ports i) + 1)
  | none => b.arrives + 1

/-- It is in Writeback. -/
def retires : Nat := b.begins + (if b.door.isSome then b.config.memLatency else 1) - 1

/-- The ports once the next instruction has started in Execute. -/
def burst (i : Nat) : List Int :=
  if b.doors.contains i then
    takePort (b.starts - 1 : Nat)
      (max (b.machine.units.beats b.instruction : Int) b.config.memLatency) (b.ports i)
  else b.ports i

/-- The timetable after the next instruction. -/
def next : Timetable where
  config := b.config
  machine := b.machine.next
  decode := if b.machine.performed.1.taken then b.starts + 1 else b.executes
  memory := b.arrives
  writeback := b.retires
  loads := fun reg =>
    if b.instruction.kind = .load ∧ b.instruction.produces = reg then b.retires else b.loads reg
  units := fun kind => if b.instruction.kind = kind then b.retires + 1 else b.units kind
  stores := if b.instruction.kind = .store then b.retires + 1 else b.stores
  ports := fun i =>
    if b.door = some i then takePort (b.begins - 1 : Nat) b.config.memLatency (b.ports i)
    else b.burst i
  buffer :=
    if b.instruction.kind = .load ∧ b.hits = false ∧ b.config.prefetchStride ≠ 0 then
      (b.place.window (b.place.wrap b.machine.address)).map (·.1)
    else b.buffer

/-- The timetable after so many instructions. -/
def after : Nat → Timetable → Timetable
  | 0, b => b
  | n + 1, b => after n b.next

/-- The table goes on by one instruction at the end. -/
theorem after_succ (n : Nat) (b : Timetable) : after (n + 1) b = (after n b).next := by
  induction n generalizing b with
  | zero => rfl
  | succ n ih => exact ih b.next

/-- The rows of the table belong to the instructions of the machine. -/
theorem machine_after (n : Nat) (b : Timetable) :
    (after n b).machine = Machine.after n b.machine := by
  induction n generalizing b with
  | zero => rfl
  | succ n ih => exact ih b.next

/-! The order in which an instruction gets from stage to stage, and what it waits for. -/

variable {b : Timetable}

/-- An instruction executes once Decode is behind it, Memory is free and all that it waits for is
there. -/
theorem executes_le_iff {cycle : Nat} :
    b.executes ≤ cycle ↔
      b.decode < cycle ∧ b.memory ≤ cycle ∧ ∀ t ∈ b.hazards, t ≤ cycle := by
  unfold executes
  rw [latest_le_iff, Nat.max_le, and_assoc, Nat.succ_le_iff]

/-- An instruction starts a cycle behind its entry into Execute, once its unit and its banks are
free. -/
theorem starts_le_iff {cycle : Nat} :
    b.starts ≤ cycle ↔ b.executes < cycle ∧ ∀ t ∈ b.queue, t ≤ cycle := by
  unfold starts
  rw [latest_le_iff, Nat.succ_le_iff]

/-- Without words to read, an instruction starts as soon as it is in Execute. -/
theorem starts_of_reads (h : b.machine.reads = []) : b.starts = b.executes + 1 := by
  unfold starts queue
  rw [if_pos h]
  rfl

/-- Otherwise it waits for stores, and for a port of every bank. -/
theorem starts_le_iff_of_reads (h : b.machine.reads ≠ []) {cycle : Nat} :
    b.starts ≤ cycle + 1 ↔
      b.executes ≤ cycle ∧ b.stores ≤ cycle + 1 ∧ ∀ i ∈ b.doors, opening (b.ports i) ≤ cycle := by
  rw [starts_le_iff]
  unfold queue
  rw [if_neg h, List.forall_mem_cons, List.forall_mem_map, Nat.lt_succ_iff]
  simp only [Nat.add_le_add_iff_right]

/-- An instruction arrives in Memory once its work is done and the one before it is out of the way.
-/
theorem arrives_le_iff {cycle : Nat} :
    b.arrives ≤ cycle ↔ b.worked ≤ cycle ∧ b.writeback ≤ cycle := Nat.max_le

theorem decode_lt_executes (b : Timetable) : b.decode < b.executes :=
  (executes_le_iff.mp (Nat.le_refl _)).1

theorem memory_le_executes (b : Timetable) : b.memory ≤ b.executes :=
  (executes_le_iff.mp (Nat.le_refl _)).2.1

theorem executes_lt_starts (b : Timetable) : b.executes < b.starts :=
  (starts_le_iff.mp (Nat.le_refl _)).1

theorem starts_le_worked (b : Timetable) : b.starts ≤ b.worked := by
  have hBeats := b.machine.units.one_le_beats b.instruction
  unfold worked
  omega

theorem starts_le_arrives (b : Timetable) : b.starts ≤ b.arrives :=
  Nat.le_trans b.starts_le_worked (Nat.le_max_left _ _)

theorem writeback_le_arrives (b : Timetable) : b.writeback ≤ b.arrives := Nat.le_max_right _ _

/-- An access begins behind the arrival in Memory at the earliest. -/
theorem arrives_lt_begins (b : Timetable) : b.arrives < b.begins := by
  unfold begins
  split
  · exact Nat.lt_of_succ_le (Nat.le_max_left _ _)
  · exact Nat.lt_succ_self _

theorem doors_of_reads (h : b.machine.reads = []) : b.doors = [] := by
  unfold doors Memory.touched
  simp [h]

/-- An instruction that reads nothing leaves all ports as they are. -/
theorem burst_of_reads (h : b.machine.reads = []) : b.burst = b.ports := by
  funext i
  unfold burst
  rw [doors_of_reads h]
  rfl

/-- A burst leaves the ports of a bank that it does not touch as they are. -/
theorem burst_of_not_mem {i : Nat} (h : i ∉ b.doors) : b.burst i = b.ports i := by
  unfold burst
  rw [if_neg (by simpa using h)]

/-- A load that has been prefetched needs no bank. -/
theorem door_of_hits (h : b.hits = true) : b.door = none := by
  unfold door
  simp [h]

theorem door_of_plain (hLoad : b.instruction.kind ≠ .load) (hStore : b.instruction.kind ≠ .store) :
    b.door = none := by
  unfold door
  simp [hLoad, hStore]

/-- A load or store that has not been prefetched needs the bank of its address. -/
theorem door_of_miss (hKind : b.instruction.kind = .load ∨ b.instruction.kind = .store)
    (h : b.hits = false) : b.door = some (b.place.bankOf b.machine.address) := by
  unfold door
  rcases hKind with hLoad | hStore
  · simp [h, hLoad]
  · simp [h, hStore]

/-- Who waits for a port in Memory has taken none in Execute. -/
theorem reads_of_door {i : Nat} (h : b.door = some i) : b.machine.reads = [] := by
  unfold Machine.reads
  unfold door at h
  split at h
  · rename_i hKind
    rw [Bool.and_eq_true, Bool.or_eq_true, beq_iff_eq, beq_iff_eq] at hKind
    rcases hKind.1 with hLoad | hStore
    · rw [show b.machine.instruction.kind = .load from hLoad]
      rfl
    · rw [show b.machine.instruction.kind = .store from hStore]
      rfl
  · cases h

/-- An access takes a port of its bank for the latency of the memory. -/
theorem ports_next_of_door {i : Nat} (h : b.door = some i) :
    b.next.ports i = takePort (b.begins - 1 : Nat) b.config.memLatency (b.ports i) := if_pos h

/-- Other banks are left as the burst has left them. -/
theorem ports_next_of_not {i : Nat} (h : b.door ≠ some i) : b.next.ports i = b.burst i := if_neg h

/-- An access begins once its bank opens. -/
theorem begins_of_door {i : Nat} (h : b.door = some i) :
    b.begins = max (b.arrives + 1) (opening (b.ports i) + 1) := by
  unfold begins
  rw [h]

theorem begins_of_none (h : b.door = none) : b.begins = b.arrives + 1 := by
  unfold begins
  rw [h]

theorem retires_of_none (h : b.door = none) : b.retires = b.begins := by
  unfold retires
  rw [h]
  rfl

/-- An access keeps its instruction in Memory for the latency of the memory. -/
theorem retires_of_door {i : Nat} (h : b.door = some i) :
    b.retires = b.begins + b.config.memLatency - 1 := by
  unfold retires
  rw [h]
  rfl

/-- What a timetable keeps: nothing is later than the last instruction in Writeback, and every bank
has a port. -/
structure Sound (b : Timetable) : Prop where
  latency : 1 ≤ b.config.memLatency
  memory : b.memory ≤ b.writeback
  loads : ∀ reg, b.loads reg ≤ b.writeback
  units : ∀ kind, b.units kind ≤ b.writeback + 1
  stores : b.stores ≤ b.writeback + 1
  ports : ∀ i, b.ports i ≠ []

namespace Sound

/-- Before the first instruction, no port is missing. -/
theorem start {c : Config} (hValid : c.Valid) (a : Machine) : (Timetable.start c a).Sound where
  latency := hValid.memLatency
  memory := Nat.le_refl 0
  loads := fun _ => Nat.le_refl 0
  units := fun _ => Nat.zero_le _
  stores := Nat.zero_le _
  ports := fun _ hNone => by
    have hPorts := hValid.ports
    have hLength := congrArg List.length hNone
    simp only [Timetable.start, List.length_replicate, List.length_nil] at hLength
    omega

/-- An instruction retires when its access begins, or behind that. -/
theorem begins_le_retires (h : b.Sound) : b.begins ≤ b.retires := by
  have hLatency := h.latency
  unfold retires
  split <;> omega

theorem arrives_lt_retires (h : b.Sound) : b.arrives < b.retires :=
  Nat.lt_of_lt_of_le b.arrives_lt_begins h.begins_le_retires

/-- Instructions retire one after the other. -/
theorem writeback_lt_retires (h : b.Sound) : b.writeback < b.retires :=
  Nat.lt_of_le_of_lt b.writeback_le_arrives h.arrives_lt_retires

/-- A burst does not lose any ports. -/
theorem burst (h : b.Sound) (i : Nat) : b.burst i ≠ [] := by
  unfold Timetable.burst
  split
  · exact takePort_ne_nil (h.ports i) _ _
  · exact h.ports i

/-- Nor does an instruction. -/
theorem next (h : b.Sound) : b.next.Sound where
  latency := h.latency
  memory := Nat.le_of_lt h.arrives_lt_retires
  loads := fun reg => by
    dsimp only [Timetable.next]
    split
    · exact Nat.le_refl _
    · exact Nat.le_trans (h.loads reg) (Nat.le_of_lt h.writeback_lt_retires)
  units := fun kind => by
    dsimp only [Timetable.next]
    split
    · exact Nat.le_refl _
    · exact Nat.le_trans (h.units kind) (Nat.succ_le_succ (Nat.le_of_lt h.writeback_lt_retires))
  stores := by
    dsimp only [Timetable.next]
    split
    · exact Nat.le_refl _
    · exact Nat.le_trans h.stores (Nat.succ_le_succ (Nat.le_of_lt h.writeback_lt_retires))
  ports := fun i => by
    dsimp only [Timetable.next]
    split
    · exact takePort_ne_nil (h.ports i) _ _
    · exact h.burst i

/-- A burst on a bank does not start before the access in front of it has begun there. -/
theorem begins_le_starts_next (h : b.Sound) {i : Nat} (hDoor : b.door = some i)
    (hBurst : i ∈ b.next.doors) : b.begins ≤ b.next.starts := by
  have hReads : b.next.machine.reads ≠ [] := by
    intro hNone
    rw [doors_of_reads hNone] at hBurst
    cases hBurst
  have hBehind : b.arrives < b.next.starts :=
    Nat.lt_of_le_of_lt b.next.memory_le_executes b.next.executes_lt_starts
  have hQueued : opening (b.next.ports i) + 1 ≤ b.next.starts := by
    refine (starts_le_iff.mp (Nat.le_refl b.next.starts)).2 _ ?_
    unfold queue
    rw [if_neg hReads]
    exact List.mem_cons_of_mem _ (List.mem_map.mpr ⟨i, hBurst, rfl⟩)
  have hLater := opening_le_takePort (h.ports i) (b.begins - 1) b.config.memLatency
  rw [← ports_next_of_door hDoor] at hLater
  rw [begins_of_door hDoor]
  omega

end Sound

end Timetable

end AccelPipe
