import AccelPipe.Proofs.Machine.Tally
import AccelPipe.Proofs.Pipeline.Passage
import AccelPipe.Proofs.Reference.Onward
import AccelPipe.Proofs.Simulator.Ticks

/-! Instructions go through the pipeline in order, and each of them once. Slots and commits are
numbered in the order in which they were fetched, an accelerator carries out every one of its
instructions once, however often it has been tried, and no slot is lost that no flush has dropped.
A tick that fails keeps all this, but its instruction is missing from the log of commits. -/
namespace AccelPipe

open Pipeline

namespace Machine

variable {a : Machine}

/-- One instruction further, a unit has carried out the one in the slot. -/
theorem past_ops (h : a.Sound) {slot : Option Slot} (hHolds : ∀ s, slot = some s → s.Holds a)
    (acc : Accelerator) :
    ((a.past slot).units.tally acc).ops =
      (a.units.tally acc).ops + slot.toList.countP (·.isKind acc.kind) := by
  cases slot with
  | none => rfl
  | some s =>
      rw [past_some, next_ops h]
      simp [(hHolds s rfl).isKind, List.countP_singleton]

/-- A store that waits in Memory does not change what a unit has carried out. -/
theorem pending_ops (a : Machine) (mem : Option Slot) (u : Units) (acc : Accelerator) :
    ((a.pending mem u).tally acc).ops = (u.tally acc).ops := by
  cases mem with
  | none => rfl
  | some s => exact congrArg Tally.ops (a.snooped_tally u acc)

end Machine

/-- The slots whose instructions have started: those in Memory and in Writeback, and the one in
Execute unless it still waits. -/
def Stages.begun (slots : Slots) : List Slot :=
  slots.execute.toList.filter (·.started) ++ slots.memory.toList ++ slots.writeback.toList

/-- A unit is ahead of the machine by its instructions that have started. -/
theorem Follows.ops {a : Machine} {p : Pipeline} (h : Follows a p p.registers p.slots)
    (acc : Accelerator) :
    (p.units.tally acc).ops =
      (a.units.tally acc).ops + p.slots.begun.countP (·.isKind acc.kind) := by
  have hSound := h.back.rear.sound
  have hUnits := (((a.past p.slots.writeback).pending_ops p.slots.memory p.units acc).symm)
  rw [h.back.units] at hUnits
  have hWb := Machine.past_ops hSound
    (fun s hSlot => (h.back.rear.writeback s hSlot).toHolds) acc
  have hMemory := Machine.past_ops (hSound.past p.slots.writeback)
    (fun s hSlot => (h.back.rear.executed s hSlot).toHolds) acc
  have hExecute : ((((a.past p.slots.writeback).past p.slots.memory).unitsAhead
      p.slots.execute).tally acc).ops =
      (((a.past p.slots.writeback).past p.slots.memory).units.tally acc).ops +
        (p.slots.execute.toList.filter (·.started)).countP (·.isKind acc.kind) := by
    unfold Machine.unitsAhead
    cases hSlot : p.slots.execute with
    | none => rfl
    | some s =>
        cases hStarted : s.started with
        | false => simp [hStarted]
        | true =>
            have hIs := (h.back.started s hSlot hStarted).isKind acc.kind
            rw [Option.any_some, if_pos hStarted,
              Machine.performed_ops ((hSound.past _).past _)]
            simp [hStarted, hIs, List.countP_singleton]
  rw [hUnits, hExecute, hMemory, hWb]
  unfold Stages.begun
  rw [List.countP_append, List.countP_append]
  omega

/-- Whatever its ticks have come to, a unit has carried out what has retired and what has started. -/
theorem Standing.ops {a : Machine} {p : Pipeline} (h : Standing a p) (hSound : a.Sound)
    (acc : Accelerator) :
    (p.units.tally acc).ops = (a.units.tally acc).ops +
      (a.history p.retired).countP (·.ins.kind = acc.kind) +
        p.slots.begun.countP (·.isKind acc.kind) := by
  cases h with
  | underWay _ hFollows _ => rw [hFollows.ops, Machine.after_ops hSound]
  | ended _ hSlots hUnits =>
      rw [hUnits, hSlots, Machine.after_ops hSound]
      rfl

/-! The log of commits. An instruction whose comparison fails has retired, but it is not in the log.
Only windows can make a comparison fail, so that it is a pooling instruction. -/

/-- Instructions that have retired without a commit in the log. -/
def Pipeline.unlogged (p : Pipeline) : Nat := p.retired - p.commits.length

/-- The commit is of an instruction that pools. -/
def Commit.pools (c : Commit) : Bool := c.ins.kind = .pool

/-- The log has a commit for every instruction that has retired, but for some that pool. -/
structure Posted (a : Machine) (p : Pipeline) : Prop where
  inOrder : (p.commits.map Commit.timeless).Sublist (a.history p.retired)
  others : (p.commits.map Commit.timeless).filter (!·.pools) =
    (a.history p.retired).filter (!·.pools)
  program : ∀ r, p.reference = some r → r.program = a.program

namespace Posted

variable {a : Machine} {p q : Pipeline}

/-- The log is never ahead of the instructions that have retired. -/
theorem length (h : Posted a p) : p.commits.length ≤ p.retired := by
  have hLength := h.inOrder.length_le
  rwa [List.length_map, Machine.length_history] at hLength

/-- With nothing left out, it is the history of the machine. -/
theorem complete (h : Posted a p) (hNone : p.unlogged = 0) :
    p.commits.map Commit.timeless = a.history p.retired := by
  have hLength := h.length
  unfold unlogged at hNone
  refine h.inOrder.eq_of_length ?_
  rw [List.length_map, Machine.length_history]
  omega

/-- Only what has retired, the log and the reference machine matter. -/
theorem of_eq (h : Posted a p) (hRetired : q.retired = p.retired) (hCommits : q.commits = p.commits)
    (hReference : q.reference = p.reference) : Posted a q := by
  refine ⟨?_, ?_, ?_⟩
  · rw [hCommits, hRetired]
    exact h.inOrder
  · rw [hCommits, hRetired]
    exact h.others
  · rw [hReference]
    exact h.program

/-- What retires nothing leaves the log posted. -/
theorem stands (h : Posted a p) (hRetired : q.retired = p.retired) (hCommits : q.commits = p.commits)
    (hReference : q.reference = p.reference) : Posted a q ∧ q.unlogged = p.unlogged := by
  refine ⟨h.of_eq hRetired hCommits hReference, ?_⟩
  unfold unlogged
  rw [hRetired, hCommits]

/-- One more instruction has retired, and its commit is in the log unless it pools. -/
theorem retire (h : Posted a p) {c : Commit} (hCommit : c.timeless = (Machine.after p.retired a).commit)
    (hRetired : q.retired = p.retired + 1)
    (hCommits : q.commits = p.commits ++ [c] ∨ q.commits = p.commits ∧ c.pools = true)
    (hProgram : ∀ r, q.reference = some r → r.program = a.program) : Posted a q := by
  have hPools : c.timeless.pools = c.pools := rfl
  rcases hCommits with hLogged | ⟨hSame, hIs⟩
  · refine ⟨?_, ?_, hProgram⟩
    · rw [hLogged, hRetired, Machine.history_succ, List.map_append, ← hCommit]
      exact h.inOrder.append_right _
    · rw [hLogged, hRetired, Machine.history_succ, List.map_append, List.filter_append,
        List.filter_append, h.others, ← hCommit]
      rfl
  · refine ⟨?_, ?_, hProgram⟩
    · rw [hSame, hRetired, Machine.history_succ]
      exact h.inOrder.trans (List.sublist_append_left _ _)
    · have hNone : [(Machine.after p.retired a).commit].filter (!·.pools) = [] := by
        rw [← hCommit, List.filter_singleton, hPools, hIs]
        rfl
      rw [hSame, hRetired, Machine.history_succ, List.filter_append, hNone, List.append_nil,
        h.others]

/-- The comparison of a commit leaves the program of the reference machine as it is. -/
theorem program_compared (h : Posted a p) {c : Commit} {result : Except Failure (List Mismatch)}
    {reference : Option Reference} (hCompared : compared p.reference c = (result, reference)) :
    ∀ r, reference = some r → r.program = a.program := by
  rintro r rfl
  cases hHeld : p.reference with
  | none =>
      rw [hHeld] at hCompared
      cases hCompared
  | some r' =>
      rw [hHeld] at hCompared
      cases hCompared
      exact (r'.check_program c).trans (h.program r' hHeld)

/-- If it fails, it is that of an instruction that pools. -/
theorem pools_of_fails (h : Posted a p) {c : Commit} {f : Failure} {reference : Option Reference}
    (hIns : c.ins = Instruction.decode (a.program.fetch c.pc))
    (hCompared : compared p.reference c = (.error f, reference)) : c.pools = true := by
  cases hHeld : p.reference with
  | none =>
      rw [hHeld] at hCompared
      cases hCompared
  | some r =>
      rw [hHeld] at hCompared
      have hKind := Reference.check_fails (congrArg Prod.fst hCompared)
      rw [h.program r hHeld, ← hIns] at hKind
      exact decide_eq_true hKind

/-- A tick puts its commit in the log, unless it fails. -/
theorem tick (h : Posted a p) (hStanding : Standing a p) (hRun : p.status.finished = false) :
    Posted a p.tick.2 ∧
      p.tick.2.unlogged = p.unlogged + if p.tick.1.isOk then 0 else 1 := by
  obtain ⟨m, hStaged, hCase⟩ := (hStanding.live hRun).2.tick hRun
  have hReference := hStaged.reference
  have hLength := h.length
  generalize p.tick = t at hCase
  cases hCase with
  | @idle q hWb hRest =>
      refine h.stands ?_ ?_ ?_ <;> rw [hRest]
      · exact hStaged.retired
      · exact hStaged.commits
      · exact hReference
  | @retires q c mismatches reference hWb hCommit hCycle hKind hCompared hRest =>
      have hRetired : q.retired = p.retired + 1 := by rw [hRest]
      have hCommits : q.commits = p.commits ++ [c] := by
        rw [hRest]
        exact List.reverse_cons
      refine ⟨h.retire hCommit hRetired (.inl hCommits) ?_, ?_⟩
      · rw [show q.reference = reference by rw [hRest]]
        exact h.program_compared hCompared
      · unfold unlogged
        rw [hRetired, hCommits, List.length_append, List.length_singleton]
        simp only [Except.isOk, Except.toBool, if_true]
        omega
  | @fails q c f reference hWb hCommit hKind hCompared hRest =>
      have hRetired : q.retired = p.retired + 1 := by rw [hRest]
      have hCommits : q.commits = p.commits := by
        rw [hRest]
        exact hStaged.commits
      have hPools : c.pools = true := by
        refine h.pools_of_fails ?_ hCompared
        have hIns : c.ins = (Machine.after p.retired a).instruction := congrArg Commit.ins hCommit
        have hPc : c.pc = (Machine.after p.retired a).pc := congrArg Commit.pc hCommit
        rw [hIns, hPc, Machine.instruction, Machine.after_program]
      refine ⟨h.retire hCommit hRetired (.inr ⟨hCommits, hPools⟩) ?_, ?_⟩
      · rw [show q.reference = reference by rw [hRest]]
        exact h.program_compared hCompared
      · unfold unlogged
        rw [hRetired, hCommits]
        simp only [Except.isOk, Except.toBool, Bool.false_eq_true, if_false]
        omega
  | @illegal q f hWb hKind hRest =>
      refine h.stands ?_ ?_ ?_ <;> rw [hRest]
      · exact hStaged.retired
      · exact hStaged.commits
      · exact hReference

/-- What is not in the log pools: the log has all other commits. -/
theorem countP_of_others (h : Posted a p) {f : Commit → Bool} (hTimeless : ∀ c, f c.timeless = f c)
    (hOthers : ∀ c, f c = true → c.pools = false) :
    (a.history p.retired).countP f = p.commits.countP f := by
  have hOnly : ∀ l : List Commit, l.countP f = (l.filter (!·.pools)).countP f := by
    intro l
    rw [List.countP_filter]
    refine List.countP_congr fun c _ => ?_
    cases hIs : f c with
    | false => simp
    | true => simp [hOthers c hIs]
  rw [hOnly, ← h.others, ← hOnly, List.countP_map]
  exact List.countP_congr fun c _ => by rw [Function.comp_apply, hTimeless]

/-- Each instruction without a commit in the log is one that pools. -/
theorem countP_pools (h : Posted a p) :
    (a.history p.retired).countP (·.pools) = p.commits.countP (·.pools) + p.unlogged := by
  have hSplit : ∀ l : List Commit, l.length = l.countP (·.pools) + l.countP (!·.pools) := by
    intro l
    rw [List.length_eq_countP_add_countP (·.pools)]
    simp
  have hOthers := h.countP_of_others (f := (!·.pools)) (fun _ => rfl) (by simp)
  have hAll := hSplit (a.history p.retired)
  have hLogged := hSplit p.commits
  have hLength := h.length
  rw [Machine.length_history] at hAll
  unfold unlogged
  omega

/-- Of every kind but pooling, the log has all commits. -/
theorem countP_kind (h : Posted a p) (acc : Accelerator) :
    (a.history p.retired).countP (·.ins.kind = acc.kind) =
      p.commits.countP (·.ins.kind = acc.kind) + if acc = .pool then p.unlogged else 0 := by
  by_cases hPool : acc = .pool
  · rw [hPool, if_pos rfl]
    exact h.countP_pools
  · rw [if_neg hPool, Nat.add_zero]
    refine h.countP_of_others (fun _ => rfl) fun c hKind => ?_
    unfold Commit.pools
    rw [of_decide_eq_true hKind]
    revert hPool
    cases acc <;> simp [Accelerator.kind]

end Posted


namespace Orderly

variable {p q : Pipeline}

/-- Faults, and whether the time is up, make no difference to the order. -/
theorem of_eq (h : Orderly p) {status : RunStatus} {faultLog : List Fault}
    (hRest : q = { p with status, faultLog })
    (hStatus : status = p.status ∨ p.status.finished = false ∧ status = .timeout) :
    Orderly q := by
  have hIs : q.status = status := by rw [hRest]
  have hNumbered := h.numbered
  have hFed := h.fed
  refine ⟨?_, ?_, fun hLegal => ?_, fun hExit => ?_⟩
  · rw [hRest]
    exact hNumbered
  · rw [hRest]
    exact hFed
  · have hBalanced : p.Balanced p.slots := by
      refine h.balanced fun hIllegal => ?_
      rcases hStatus with hSame | ⟨hRun, -⟩
      · exact hLegal (hIs.trans (hSame.trans hIllegal))
      · rw [hIllegal] at hRun
        cases hRun
    rw [hRest]
    exact hBalanced
  · rcases hStatus with hSame | ⟨-, hTimeout⟩
    · have hEnd := h.exited (hSame.symm.trans (hIs.symm.trans hExit))
      rw [hRest]
      exact hEnd
    · rw [hIs, hTimeout] at hExit
      cases hExit

/-- A tick keeps the order, also one whose comparison fails. -/
theorem tick {a : Machine} (h : Orderly p) (hStanding : Standing a p)
    (hRun : p.status.finished = false) : Orderly p.tick.2 := by
  have hFollows := (hStanding.live hRun).2
  obtain ⟨_, _, _, _, _, _, _, _, hRound⟩ := hFollows.round hRun
  exact hRound.orderly hRun hFollows h

/-- A loaded pipeline is in order. -/
theorem build (c : Config) (program : Image) (data : List (Int × List Int)) :
    Orderly (Simulator.build c program data) := by
  rw [Simulator.build_eq]
  refine ⟨?_, ?_, fun _ => rfl, ?_⟩
  · change List.Pairwise (· > ·) [2, 1]
    decide
  · intro s hHeld
    cases hHeld
  · intro hExit
    cases hExit

end Orderly

/-- Before the first tick nothing has retired, and the log is empty. -/
theorem Posted.build (c : Config) (program : Image) (data : List (Int × List Int)) :
    Posted (c.machine program data) (Simulator.build c program data) := by
  have hReference := (c.compared_build program data).reference
  rw [Simulator.build_eq] at hReference ⊢
  refine ⟨.slnil, rfl, fun r hHeld => ?_⟩
  rw [hHeld] at hReference
  split at hReference
  · cases hReference
    exact c.reference_program program data
  · cases hReference

/-- Slots and commits go through the pipeline in order, and no slot is lost. -/
structure Pipeline.InTurn (p : Pipeline) : Prop where
  /-- A slot is newer than those in front of it. -/
  slots : p.slots.numbers.Pairwise (· > ·)
  commits : (p.commits.map (·.seq)).Pairwise (· < ·)
  /-- A slot that has left Fetch is under way, unless it has retired or was dropped. -/
  underWay : p.status.finished = false →
    p.fetched = p.retired + p.flushes + p.fetchStopped.toNat + p.slots.underWay
  exited : p.status = .exited → p.fetched = p.retired + p.flushes + 1

/-- Instructions go through the pipeline in order, each of them once. -/
structure Pipeline.InOrder (p : Pipeline) : Prop extends p.InTurn where
  /-- A unit has carried out an operation for every commit and for every slot that has started. -/
  ops : ∀ acc : Accelerator, (p.units.tally acc).ops =
    p.commits.countP (·.ins.kind = acc.kind) + p.slots.begun.countP (·.isKind acc.kind)

/-- What the pipeline keeps in order puts every slot and every commit in its turn. -/
theorem Orderly.inTurn {p : Pipeline} (h : Orderly p) : p.InTurn := by
  have hNumbers := (List.pairwise_cons.mp h.numbered).2
  refine ⟨hNumbers.sublist (List.sublist_append_left _ _), ?_, fun hRun => ?_, fun hExit => ?_⟩
  · unfold Pipeline.commits
    rw [List.map_reverse, List.pairwise_reverse]
    exact hNumbers.sublist (List.sublist_append_right _ _)
  · refine h.balanced fun hIllegal => ?_
    rw [hIllegal] at hRun
    cases hRun
  · obtain ⟨hStopped, hSlots⟩ := h.exited hExit
    have hBalanced := h.balanced (by rw [hExit]; nofun)
    unfold Pipeline.Balanced at hBalanced
    rw [hStopped, hSlots] at hBalanced
    exact hBalanced

namespace Simulator

variable {c : Config} {program : Image} {data : List (Int × List Int)} {k : Nat}

/-- Every tick keeps the order, the failing ones included. -/
theorem ticks_orderly (hValid : c.Valid) (k : Nat) :
    Orderly ((loaded c program data).ticks k).pipeline :=
  ticks_keep hValid (.build c program data) (fun _ hStanding hRun h => h.tick hStanding hRun)
    (fun _ hRun h => h.of_eq rfl (.inr ⟨hRun, rfl⟩)) (fun _ _ h => h.of_eq rfl (.inl rfl)) k

/-- Every tick keeps the log posted, the failing ones included. -/
theorem ticks_posted (hValid : c.Valid) (k : Nat) :
    Posted (c.machine program data) ((loaded c program data).ticks k).pipeline :=
  ticks_keep hValid (.build c program data) (fun _ hStanding hRun h => (h.tick hStanding hRun).1)
    (fun _ _ h => h.of_eq rfl rfl rfl) (fun _ _ h => h.of_eq rfl rfl rfl) k

/-- A tick that fails leaves one more instruction out of the log. -/
theorem tick_unlogged {a : Machine} {s : Simulator} (h : Posted a s.pipeline)
    (hStanding : Standing a s.pipeline) (hSound : s.pipeline.memory.Sound)
    (hRun : s.status.finished = false) :
    s.tick.2.pipeline.unlogged = s.pipeline.unlogged + if s.tick.1.isOk then 0 else 1 := by
  have hTick := (h.tick hStanding hRun).2
  rcases advance_result hSound hRun s.config.maxCycles with
    hAdvance | ⟨q, mismatches, hIs, hAdvance⟩ | ⟨f, q, hIs, hAdvance⟩
  · rw [tick_of_advance hAdvance]
    rfl
  · rw [tick_of_advance hAdvance]
    rw [hIs] at hTick
    exact hTick
  · rw [tick_of_advance hAdvance]
    rw [hIs] at hTick
    exact hTick

/-- The log is complete exactly if no tick has failed. -/
theorem intact_iff (hValid : c.Valid) :
    (loaded c program data).Intact k ↔
      ((loaded c program data).ticks k).pipeline.unlogged = 0 := by
  induction k with
  | zero =>
      refine iff_of_true (intact_zero _) ?_
      unfold ticks
      rw [loaded_pipeline, build_eq]
      rfl
  | succ k ih =>
      rw [intact_succ, ih, ticks_succ]
      cases hRun : ((loaded c program data).ticks k).status.finished with
      | true =>
          rw [tick_of_finished hRun]
          exact and_iff_left (fun hOpen => absurd hOpen Bool.true_eq_false.mp)
      | false =>
          rw [tick_unlogged (ticks_posted hValid k) (ticks_standing hValid k)
            (ticks_sound hValid k) hRun]
          rcases (((loaded c program data).ticks k).tick).1 with f | u
          · refine iff_of_false (fun h => ?_) (Nat.succ_ne_zero _)
            cases h.2 rfl
          · exact and_iff_left fun _ => rfl

/-- In every state that ticks lead to, slots and commits are in order and every fetched slot is
accounted for. A unit has carried out an operation for every commit and for every slot that has
started, and pooling one more for every tick that has failed. So each instruction goes through once
exactly if none has, which is so while the windows stay in the numbers of 64 bits. -/
theorem ticks_inOrder (hValid : c.Valid) (program : Image) (data : List (Int × List Int)) (k : Nat) :
    let p := ((loaded c program data).ticks k).pipeline
    p.InTurn ∧
      (∀ acc : Accelerator, (p.units.tally acc).ops =
        p.commits.countP (·.ins.kind = acc.kind) + p.slots.begun.countP (·.isKind acc.kind) +
          if acc = .pool then p.unlogged else 0) ∧
      (p.InOrder ↔ (loaded c program data).Intact k) ∧
      (program.size < 0x40000000 →
        (c.checkReference = true → (c.reference program data).Exact k) → p.InOrder) := by
  intro p
  have hInTurn : p.InTurn := (ticks_orderly hValid k).inTurn
  have hOps : ∀ acc : Accelerator, (p.units.tally acc).ops =
      p.commits.countP (·.ins.kind = acc.kind) + p.slots.begun.countP (·.isKind acc.kind) +
        if acc = .pool then p.unlogged else 0 := by
    intro acc
    have hUnused : ((c.machine program data).units.tally acc).ops = 0 := by cases acc <;> rfl
    rw [(ticks_standing hValid k).ops (hValid.sound_machine program data), hUnused, Nat.zero_add,
      (ticks_posted hValid k).countP_kind, Nat.add_right_comm]
  have hExactly : p.InOrder ↔ (loaded c program data).Intact k := by
    rw [intact_iff hValid]
    constructor
    · intro h
      have hPool := (hOps .pool).symm.trans (h.ops .pool)
      rw [if_pos rfl] at hPool
      exact Nat.add_eq_left.mp hPool
    · intro hNone
      refine ⟨hInTurn, fun acc => ?_⟩
      rw [hOps acc, show p.unlogged = 0 from hNone, ite_self, Nat.add_zero]
  exact ⟨hInTurn, hOps, hExactly, fun hSize hExact =>
    hExactly.mpr (intact_of_exact hValid hSize hExact)⟩

/-- A run in the middle of a load, with the addition that waits for it, and its end. -/
theorem ticks_inOrder_of_load_use :
    ((loaded .small #[0x00500093, 0x00102023, 0x00002103, 0x00210133, 0x73] []).ticks
        6).pipeline.slots.numbers = [6, 5, 4, 3] ∧
      ((loaded .small #[0x00500093, 0x00102023, 0x00002103, 0x00210133, 0x73] []).ticks
        6).pipeline.InOrder ∧
      ((loaded .small #[0x00500093, 0x00102023, 0x00002103, 0x00210133, 0x73] []).ticks
        10).status = .exited ∧
      ((loaded .small #[0x00500093, 0x00102023, 0x00002103, 0x00210133, 0x73] []).ticks
        10).pipeline.InOrder :=
  ⟨by decide +kernel,
    (ticks_inOrder Config.valid_small _ _ 6).2.2.2 (by decide)
      (fun _ => Config.valid_small.exact _ _ (by decide)),
    by decide +kernel,
    (ticks_inOrder Config.valid_small _ _ 10).2.2.2 (by decide)
      (fun _ => Config.valid_small.exact _ _ (by decide))⟩

/-- After the tick that has failed, pooling has been carried out twice, but there is one commit. -/
theorem not_ticks_inOrder_of_leaping :
    ¬ ∀ (c : Config) (program : Image) (data : List (Int × List Int)) (k : Nat), c.Valid →
      program.size < 0x40000000 → ((loaded c program data).ticks k).pipeline.InOrder := by
  intro h
  have hOps := (h { Config.small with poolStride := 0x8000000000000000 }
    #[0x200008f, 0x200010f, 0x73] [] 12 (by constructor <;> decide) (by decide)).ops .pool
  revert hOps
  decide +kernel

end Simulator

end AccelPipe
