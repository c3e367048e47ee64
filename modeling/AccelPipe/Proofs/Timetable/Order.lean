import AccelPipe.Proofs.Timetable.Decode

/-! More ports, a shorter latency and prefetching make no instruction late. What carries this from
one instruction to the next is that at no time from then on fewer ports are free: an access takes
the same bank in both timetables, and takes it no later and for no longer. -/
namespace AccelPipe

/-! Free ports. -/

/-- How many ports are free at a cycle. -/
def freeAt (ports : List Int) (cycle : Nat) : Nat :=
  ports.countP fun t : Int => decide (t ≤ (cycle : Int))

/-- A port is free just when its bank has opened. -/
theorem freeAt_pos_iff {ports : List Int} (h : ports ≠ []) {cycle : Nat} :
    0 < freeAt ports cycle ↔ opening ports ≤ cycle := by
  rw [opening_le_iff h]
  unfold freeAt
  rw [List.countP_pos_iff]
  simp only [decide_eq_true_eq]

/-- An access puts its end in the place of a time at which a port was free. -/
theorem freeAt_takePort {ports : List Int} (h : ports ≠ []) {start : Nat}
    (hOpen : opening ports ≤ start) (ticks cycle : Nat) :
    ∃ t ≤ (start : Int),
      freeAt (takePort start ticks ports) cycle + (if t ≤ (cycle : Int) then 1 else 0) =
        freeAt ports cycle + if start + ticks ≤ cycle then 1 else 0 := by
  obtain ⟨first, hFirst, hFree⟩ := (opening_le_iff h).mp hOpen
  have hFound : (ports.findIdx? fun t => decide (t ≤ (start : Int))).isSome = true := by
    rw [List.findIdx?_isSome, List.any_eq_true]
    exact ⟨first, hFirst, decide_eq_true hFree⟩
  obtain ⟨port, hPort⟩ := Option.isSome_iff_exists.mp hFound
  obtain ⟨hPlace, hEarly, -⟩ := List.findIdx?_eq_some_iff_getElem.mp hPort
  have hSet : takePort start ticks ports = ports.set port (start + ticks) := by
    unfold takePort
    rw [hPort]
  refine ⟨ports[port], of_decide_eq_true hEarly, ?_⟩
  rw [hSet]
  unfold freeAt
  rw [List.countP_set hPlace]
  have hHeld : ports[port] ≤ (cycle : Int) →
      0 < ports.countP fun t : Int => decide (t ≤ (cycle : Int)) := fun hIs =>
    List.countP_pos_iff.mpr ⟨_, List.getElem_mem hPlace, decide_eq_true hIs⟩
  have hEnd : (start : Int) + ticks ≤ cycle ↔ start + ticks ≤ cycle := by omega
  simp only [decide_eq_true_eq, hEnd]
  split
  · rename_i hIs
    have hSome := hHeld hIs
    omega
  · omega

/-- Taking a port leaves no more of them free. -/
theorem freeAt_takePort_le (ports : List Int) (start ticks cycle : Nat) :
    freeAt (takePort start ticks ports) cycle ≤ freeAt ports cycle := by
  by_cases hSome : ports ≠ [] ∧ opening ports ≤ start
  · obtain ⟨t, hEarly, hCount⟩ := freeAt_takePort hSome.1 hSome.2 ticks cycle
    split at hCount <;> split at hCount <;> omega
  · have hShut : ∀ t ∈ ports, (start : Int) < t := by
      intro t hHeld
      refine shut_of_lt_opening (Nat.not_le.mp fun hOpen => hSome ⟨?_, hOpen⟩) t hHeld
      exact List.ne_nil_of_mem hHeld
    exact Nat.le_of_eq (by rw [takePort_of_shut hShut])

/-- Before an access starts as soon as it can, nothing is free. -/
theorem freeAt_eq_zero {ports : List Int} {cycle : Nat} (h : cycle < opening ports) :
    freeAt ports cycle = 0 := by
  unfold freeAt
  rw [List.countP_eq_zero]
  intro t hHeld
  have hShut := shut_of_lt_opening h t hHeld
  simpa using hShut

/-- An access that starts no later and takes no longer leaves no fewer ports. -/
theorem freeAt_takePort_mono {slow fast : List Int} (hSlow : slow ≠ []) (hFast : fast ≠ [])
    {start start' ticks ticks' cycle : Nat} (hStart : start' ≤ start) (hTicks : ticks' ≤ ticks)
    (hOpen : opening slow ≤ start) (hOpen' : opening fast ≤ start') (hCycle : start ≤ cycle)
    (h : freeAt slow cycle ≤ freeAt fast cycle) :
    freeAt (takePort start ticks slow) cycle ≤ freeAt (takePort start' ticks' fast) cycle := by
  obtain ⟨t, hEarly, hCount⟩ := freeAt_takePort hSlow hOpen ticks cycle
  obtain ⟨t', hEarly', hCount'⟩ := freeAt_takePort hFast hOpen' ticks' cycle
  rw [if_pos (by omega)] at hCount hCount'
  split at hCount
  · split at hCount' <;> omega
  · omega

/-! Places. -/

/-- The configuration `c'` differs from `c` in that its memory has more ports, a shorter latency, or
prefetching where the other one has none. -/
structure Config.Faster (c c' : Config) : Prop where
  rest : c' = { c with
    ports := c'.ports, memLatency := c'.memLatency
    prefetchStride := c'.prefetchStride, prefetchWindow := c'.prefetchWindow }
  ports : c.ports ≤ c'.ports
  latency : c'.memLatency ≤ c.memLatency
  prefetch : c.prefetchStride = 0 ∨
    c'.prefetchStride = c.prefetchStride ∧ c'.prefetchWindow = c.prefetchWindow

namespace Config.Faster

variable {c c' : Config}

/-- Faster memories have the same places. -/
theorem wrap (h : c.Faster c') (addr : Int) :
    (Memory.fresh c').wrap addr = (Memory.fresh c).wrap addr := by
  rw [h.rest]
  rfl

theorem count (h : c.Faster c') : (Memory.fresh c').banks.size = (Memory.fresh c).banks.size := by
  rw [h.rest]
  exact Array.size_replicate.trans Array.size_replicate.symm

theorem bankOf (h : c.Faster c') (addr : Int) :
    (Memory.fresh c').bankOf addr = (Memory.fresh c).bankOf addr := by
  have hCount := h.count
  unfold Memory.bankOf Memory.locate
  rw [hCount, h.wrap]
  rw [h.rest]
  rfl

/-- A burst touches the same banks in them. -/
theorem touched (h : c.Faster c') (addrs : List Int) :
    (Memory.fresh c').touched addrs = (Memory.fresh c).touched addrs := by
  unfold Memory.touched
  rw [h.count, show (Memory.fresh c').bankOf = (Memory.fresh c).bankOf from funext h.bankOf]

/-- With the same prefetching, the same words are prefetched. -/
theorem window (h : c.Faster c') (hStride : c'.prefetchStride = c.prefetchStride)
    (hWindow : c'.prefetchWindow = c.prefetchWindow) (addr : Nat) :
    ((Memory.fresh c').window addr).map (·.1) = ((Memory.fresh c).window addr).map (·.1) := by
  have hSize : c'.memWords = c.memWords := by rw [h.rest]
  unfold Memory.window
  simp only [List.map_map, Function.comp_def, h.wrap]
  dsimp only [Memory.fresh]
  rw [hSize, hStride, hWindow]

end Config.Faster

namespace Timetable

/-- The timetable `b'` is one for a faster memory, and nothing in it is later. -/
structure NoLater (b b' : Timetable) : Prop where
  faster : b.config.Faster b'.config
  machine : b'.machine = b.machine
  decode : b'.decode ≤ b.decode
  memory : b'.memory ≤ b.memory
  writeback : b'.writeback ≤ b.writeback
  loads : ∀ reg, b'.loads reg ≤ b.loads reg
  units : ∀ kind, b'.units kind ≤ b.units kind
  stores : b'.stores ≤ b.stores
  ports : ∀ i cycle, b.memory ≤ cycle → freeAt (b.ports i) cycle ≤ freeAt (b'.ports i) cycle
  buffer : b.config.prefetchStride = 0 ∧ b.buffer = [] ∨
    b'.config.prefetchStride = b.config.prefetchStride ∧
      b'.config.prefetchWindow = b.config.prefetchWindow ∧ b'.buffer = b.buffer

/-- Nothing is found in an empty prefetch buffer. -/
theorem hits_of_nil {b : Timetable} (h : b.buffer = []) : b.hits = false := by
  unfold hits
  simp [h]

/-- An instruction does not arrive in Memory before that is free. -/
theorem memory_le_arrives (b : Timetable) : b.memory ≤ b.arrives :=
  Nat.le_trans b.memory_le_executes
    (Nat.le_trans (Nat.le_of_lt b.executes_lt_starts) b.starts_le_arrives)

/-- Every bank of a burst is open when the burst starts. -/
theorem opening_le_starts (b : Timetable) {i : Nat} (h : i ∈ b.doors) :
    opening (b.ports i) ≤ b.starts - 1 := by
  have hBefore := b.executes_lt_starts
  have hReads : b.machine.reads ≠ [] := by
    intro hNone
    rw [doors_of_reads hNone] at h
    cases h
  exact ((starts_le_iff_of_reads hReads).mp (show b.starts ≤ b.starts - 1 + 1 by omega)).2.2 i h

namespace NoLater

variable {b b' : Timetable}

/-! Both timetables are about the same instruction, and it needs the same banks. -/

/-- Both tables are at the same instruction, -/
theorem instruction (h : b.NoLater b') : b'.instruction = b.instruction := by
  unfold Timetable.instruction
  rw [h.machine]

/-- which needs the same banks, -/
theorem doors (h : b.NoLater b') : b'.doors = b.doors := by
  unfold Timetable.doors place
  rw [h.machine]
  exact h.faster.touched _

/-- and is prefetched in both or in neither, if their buffers agree. -/
theorem hits (h : b.NoLater b') (hBuffer : b'.buffer = b.buffer) : b'.hits = b.hits := by
  unfold Timetable.hits place
  rw [h.instruction, h.machine, hBuffer, h.faster.wrap]

theorem door_of_hits (h : b.NoLater b') (hHits : b'.hits = b.hits) : b'.door = b.door := by
  unfold door place
  rw [h.instruction, h.machine, hHits, h.faster.bankOf]

/-- A word that has been prefetched makes a bank needless, and nothing else does. -/
theorem door (h : b.NoLater b') : b'.door = none ∨ b'.door = b.door := by
  rcases h.buffer with ⟨-, hNone⟩ | ⟨-, -, hSame⟩
  · cases hHits : b'.hits with
    | true => exact .inl (Timetable.door_of_hits hHits)
    | false => exact .inr (h.door_of_hits (hHits.trans (hits_of_nil hNone).symm))
  · exact .inr (h.door_of_hits (h.hits hSame))

/-! It comes to no stage later. -/

/-- A bank that has opened by a cycle has opened by then in the faster table. -/
theorem opening_le (h : b.NoLater b') (hSound : b.Sound) (hSound' : b'.Sound) {i cycle : Nat}
    (hCycle : b.memory ≤ cycle) (hOpen : opening (b.ports i) ≤ cycle) :
    opening (b'.ports i) ≤ cycle := by
  have hFree := (freeAt_pos_iff (hSound.ports i)).mpr hOpen
  exact (freeAt_pos_iff (hSound'.ports i)).mp (Nat.lt_of_lt_of_le hFree (h.ports i cycle hCycle))

/-- In the faster table an instruction executes no later, -/
theorem executes (h : b.NoLater b') : b'.executes ≤ b.executes := by
  obtain ⟨hDecode, hMemory, hHazards⟩ := executes_le_iff.mp (Nat.le_refl b.executes)
  obtain ⟨hLoads, hUnits⟩ := hazards_le_iff.mp hHazards
  refine executes_le_iff.mpr ⟨Nat.lt_of_le_of_lt h.decode hDecode, Nat.le_trans h.memory hMemory,
    hazards_le_iff.mpr ⟨?_, ?_⟩⟩
  · rw [h.instruction]
    exact fun reg hReg => Nat.le_trans (h.loads reg) (hLoads reg hReg)
  · rw [h.instruction]
    exact fun hBlocking => Nat.le_trans (h.units _) (hUnits hBlocking)

/-- starts no later, -/
theorem starts (h : b.NoLater b') (hSound : b.Sound) (hSound' : b'.Sound) :
    b'.starts ≤ b.starts := by
  have hExecutes := h.executes
  have hBefore := b.executes_lt_starts
  have hMemory := b.memory_le_executes
  by_cases hReads : b.machine.reads = []
  · rw [starts_of_reads hReads, starts_of_reads (by rw [h.machine]; exact hReads)]
    omega
  · obtain ⟨cycle, hCycle⟩ : ∃ cycle, b.starts = cycle + 1 := ⟨b.starts - 1, by omega⟩
    obtain ⟨hEntered, hStores, hOpen⟩ :=
      (starts_le_iff_of_reads hReads).mp (Nat.le_of_eq hCycle)
    rw [hCycle]
    refine (starts_le_iff_of_reads (by rw [h.machine]; exact hReads)).mpr
      ⟨Nat.le_trans hExecutes hEntered, Nat.le_trans h.stores hStores, ?_⟩
    rw [h.doors]
    exact fun i hDoor =>
      h.opening_le hSound hSound' (Nat.le_trans hMemory hEntered) (hOpen i hDoor)

/-- arrives no later, -/
theorem arrives (h : b.NoLater b') (hSound : b.Sound) (hSound' : b'.Sound) :
    b'.arrives ≤ b.arrives := by
  have hStarts := h.starts hSound hSound'
  obtain ⟨hWorked, hWriteback⟩ := arrives_le_iff.mp (Nat.le_refl b.arrives)
  refine arrives_le_iff.mpr ⟨Nat.le_trans ?_ hWorked, Nat.le_trans h.writeback hWriteback⟩
  unfold worked
  rw [h.instruction, h.machine]
  omega

/-- begins its access no later, -/
theorem begins (h : b.NoLater b') (hSound : b.Sound) (hSound' : b'.Sound) :
    b'.begins ≤ b.begins := by
  have hArrives := h.arrives hSound hSound'
  have hLater := b.arrives_lt_begins
  rcases h.door with hNone | hSame
  · rw [begins_of_none hNone]
    omega
  · cases hDoor : b.door with
    | none =>
        rw [begins_of_none (hSame.trans hDoor)]
        omega
    | some i =>
        have hBegins := begins_of_door hDoor
        have hOpen := h.opening_le hSound hSound'
          (show b.memory ≤ b.begins - 1 from Nat.le_trans b.memory_le_arrives (by omega))
          (show opening (b.ports i) ≤ b.begins - 1 by omega)
        rw [begins_of_door (hSame.trans hDoor)]
        omega

/-- and retires no later. -/
theorem retires (h : b.NoLater b') (hSound : b.Sound) (hSound' : b'.Sound) :
    b'.retires ≤ b.retires := by
  have hBegins := h.begins hSound hSound'
  have hLatency := h.faster.latency
  rcases h.door with hNone | hSame
  · rw [retires_of_none hNone]
    exact Nat.le_trans hBegins hSound.begins_le_retires
  · unfold Timetable.retires
    rw [hSame]
    split <;> omega

/-! Nor does it leave less for those behind it. -/

/-- By any cycle as many ports are free behind its burst, -/
theorem burst (h : b.NoLater b') (hSound : b.Sound) (hSound' : b'.Sound) {i cycle : Nat}
    (hCycle : b.arrives ≤ cycle) : freeAt (b.burst i) cycle ≤ freeAt (b'.burst i) cycle := by
  have hPorts := h.ports i cycle (Nat.le_trans b.memory_le_arrives hCycle)
  unfold Timetable.burst
  rw [h.doors]
  split
  · rename_i hBurst
    have hDoor := List.contains_iff_mem.mp hBurst
    have hOpen := b.opening_le_starts hDoor
    have hOpen' := b'.opening_le_starts (h.doors ▸ hDoor)
    have hStarts := h.starts hSound hSound'
    have hEarly := b.starts_le_arrives
    have hLatency := h.faster.latency
    have hTicks : ∀ m n : Nat, max (m : Int) (n : Int) = (max m n : Nat) := by omega
    rw [h.instruction, h.machine, hTicks, hTicks]
    exact freeAt_takePort_mono (hSound.ports i) (hSound'.ports i) (by omega) (by omega) hOpen hOpen'
      (by omega) hPorts
  · exact hPorts

/-- and behind its access. -/
theorem next_ports (h : b.NoLater b') (hSound : b.Sound) (hSound' : b'.Sound) {i cycle : Nat}
    (hCycle : b.arrives ≤ cycle) :
    freeAt (b.next.ports i) cycle ≤ freeAt (b'.next.ports i) cycle := by
  have hPorts := h.ports i cycle (Nat.le_trans b.memory_le_arrives hCycle)
  by_cases hDoor : b.door = some i
  · rw [ports_next_of_door hDoor]
    have hLess := freeAt_takePort_le (b.ports i) (b.begins - 1) b.config.memLatency cycle
    rcases h.door with hNone | hSame
    · -- the word has been prefetched, and no port is taken
      have hReads : b'.machine.reads = [] := by
        rw [h.machine]
        exact reads_of_door hDoor
      rw [ports_next_of_not (by rw [hNone]; nofun), burst_of_reads hReads]
      exact Nat.le_trans hLess hPorts
    · have hDoor' := hSame.trans hDoor
      have hBegins := begins_of_door hDoor
      have hBegins' := begins_of_door hDoor'
      have hEarly := h.begins hSound hSound'
      rw [ports_next_of_door hDoor']
      by_cases hStarted : b.begins - 1 ≤ cycle
      · exact freeAt_takePort_mono (hSound.ports i) (hSound'.ports i) (by omega)
          h.faster.latency (by omega) (by omega) hStarted hPorts
      · -- until the access begins, its bank is shut
        have hShut := freeAt_eq_zero (show cycle < opening (b.ports i) by omega)
        omega
  · have hDoor' : b'.door ≠ some i := by
      rcases h.door with hNone | hSame
      · rw [hNone]
        nofun
      · rw [hSame]
        exact hDoor
    rw [ports_next_of_not hDoor, ports_next_of_not hDoor']
    exact h.burst hSound hSound' hCycle

/-- Their buffers agree behind it, or the slower one has none. -/
theorem next_buffer (h : b.NoLater b') :
    b.next.config.prefetchStride = 0 ∧ b.next.buffer = [] ∨
      b'.next.config.prefetchStride = b.next.config.prefetchStride ∧
        b'.next.config.prefetchWindow = b.next.config.prefetchWindow ∧
        b'.next.buffer = b.next.buffer := by
  rcases h.buffer with ⟨hOff, hNone⟩ | ⟨hStride, hWindow, hSame⟩
  · refine .inl ⟨hOff, ?_⟩
    dsimp only [Timetable.next]
    rw [if_neg fun hFills => hFills.2.2 hOff]
    exact hNone
  · refine .inr ⟨hStride, hWindow, ?_⟩
    dsimp only [Timetable.next]
    unfold place
    rw [h.instruction, h.hits hSame, hStride, h.machine, h.faster.wrap,
      h.faster.window hStride hWindow, hSame]

/-- So no instruction makes the faster table fall behind. -/
theorem next (h : b.NoLater b') (hSound : b.Sound) (hSound' : b'.Sound) :
    b.next.NoLater b'.next := by
  have hRetires := h.retires hSound hSound'
  refine ⟨h.faster, congrArg Machine.next h.machine, ?_, h.arrives hSound hSound', hRetires, ?_, ?_,
    ?_, fun i cycle hCycle => h.next_ports hSound hSound' hCycle, h.next_buffer⟩
  · dsimp only [Timetable.next]
    rw [h.machine]
    split
    · exact Nat.succ_le_succ (h.starts hSound hSound')
    · exact h.executes
  · intro reg
    dsimp only [Timetable.next]
    rw [h.instruction]
    split
    · exact hRetires
    · exact h.loads reg
  · intro kind
    dsimp only [Timetable.next]
    rw [h.instruction]
    split
    · exact Nat.succ_le_succ hRetires
    · exact h.units kind
  · dsimp only [Timetable.next]
    rw [h.instruction]
    split
    · exact Nat.succ_le_succ hRetires
    · exact h.stores

/-- Both tables start together. -/
theorem start {c c' : Config} (h : c.Faster c') (a : Machine) :
    (Timetable.start c a).NoLater (Timetable.start c' a) where
  faster := h
  machine := rfl
  decode := Nat.le_refl _
  memory := Nat.le_refl _
  writeback := Nat.le_refl _
  loads := fun _ => Nat.le_refl _
  units := fun _ => Nat.le_refl _
  stores := Nat.le_refl _
  ports := fun i cycle _ => by
    have hPorts := h.ports
    simpa [Timetable.start, freeAt, List.countP_replicate] using hPorts
  buffer := by
    rcases h.prefetch with hOff | ⟨hStride, hWindow⟩
    · exact .inl ⟨hOff, rfl⟩
    · exact .inr ⟨hStride, hWindow, rfl⟩

end NoLater

/-- Nothing is late after any number of instructions. -/
theorem NoLater.after {b b' : Timetable} (h : b.NoLater b') (hSound : b.Sound)
    (hSound' : b'.Sound) (n : Nat) : (Timetable.after n b).NoLater (Timetable.after n b') := by
  induction n generalizing b b' with
  | zero => exact h
  | succ n ih => exact ih (h.next hSound hSound') hSound.next hSound'.next

end Timetable

end AccelPipe
